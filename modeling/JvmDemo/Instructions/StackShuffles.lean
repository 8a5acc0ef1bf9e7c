import JvmDemo.Instructions.TypedOperands

/-!
# Stack shuffles on typed values

The instructions from `pop` to `swap` move single slots.  The JVM specification
gives each of them one or more forms, which take values of category one or two
from the stack and put some of them back.  Category two is what the typed pushes
keep in two slots, except that they keep a reference in two slots as well.

Positions count slots from the top.  Both sides of the comparison come down to
lists of positions: those that the instruction leaves, and those that the form
asks for, given how many slots each value takes.
-/

namespace JvmDemo.Instructions

open JvmDemo.Lib
open JvmDemo.Runtime
open JvmDemo.Runtime.TypedStack

/-! ## The forms of the specification -/

/-- A form of an instruction: the categories of the values that it takes, newest
first, and the values that it puts back, oldest first, by their place among
them. -/
structure Form where
  categories : List Nat
  order : List Nat
  deriving DecidableEq, Repr

/-- What a form leaves of the values that it takes, newest first. -/
def Form.result {α : Type} (form : Form) (touched : List α) : List α :=
  (form.order.filterMap fun i => touched[i]?).reverse

/-- The instructions that rearrange the operand stack. -/
inductive Shuffle where
  | pop | pop2 | dup | dupX1 | dupX2 | dup2 | dup2X1 | dup2X2 | swap
  deriving DecidableEq, Repr

namespace Shuffle

def inst : Shuffle → FrameInst
  | .pop => .pop
  | .pop2 => .pop2
  | .dup => .dup
  | .dupX1 => .dupX1
  | .dupX2 => .dupX2
  | .dup2 => .dup2
  | .dup2X1 => .dup2X1
  | .dup2X2 => .dup2X2
  | .swap => .swap

/-- The forms, in the order of the JVM specification. -/
def forms : Shuffle → List Form
  | .pop => [⟨[1], []⟩]
  | .pop2 => [⟨[1, 1], []⟩, ⟨[2], []⟩]
  | .dup => [⟨[1], [0, 0]⟩]
  | .dupX1 => [⟨[1, 1], [0, 1, 0]⟩]
  | .dupX2 => [⟨[1, 1, 1], [0, 2, 1, 0]⟩, ⟨[1, 2], [0, 1, 0]⟩]
  | .dup2 => [⟨[1, 1], [1, 0, 1, 0]⟩, ⟨[2], [0, 0]⟩]
  | .dup2X1 => [⟨[1, 1, 1], [1, 0, 2, 1, 0]⟩, ⟨[2, 1], [0, 1, 0]⟩]
  | .dup2X2 =>
      [⟨[1, 1, 1, 1], [1, 0, 3, 2, 1, 0]⟩, ⟨[2, 1, 1], [0, 2, 1, 0]⟩,
        ⟨[1, 1, 2], [1, 0, 2, 1, 0]⟩, ⟨[2, 2], [0, 1, 0]⟩]
  | .swap => [⟨[1, 1], [0, 1]⟩]

end Shuffle

/-- The slots that values of these kinds take on the operand stack. -/
def slotCount (kinds : List Kind) : Nat := (kinds.map Kind.width).sum

/-- On every stack with values of the kinds `touched` above values of the kinds
`below`, the instruction does what the form says and nothing else. -/
def FollowsForm (ops : FloatOps) (capacity : Nat) (shuffle : Shuffle) (form : Form)
    (touched below : List Kind) : Prop :=
  ∀ (values rest : List Value) (pc : BitVec 32) (frame : Frame),
    values.map Value.kind = touched → rest.map Value.kind = below →
    Represents capacity (values ++ rest) frame.operandStack →
    Leaves capacity (form.result values ++ rest) frame (shuffle.inst.execute ops pc frame)

/-! ## Positions -/

/-- The positions of the value at a place, oldest first, when the values above
the rest have these widths. -/
def positionsOf (widths : List Nat) (place : Nat) : List Nat :=
  (List.range' (widths.take place).sum (widths.getD place 0)).reverse

/-- The positions that a form asks for. -/
def Form.positions (form : Form) (widths : List Nat) : List Nat :=
  form.order.flatMap (positionsOf widths)

namespace Shuffle

/-- The slots that the instruction pops. -/
def count : Shuffle → Nat
  | .pop | .dup => 1
  | .pop2 | .dupX1 | .dup2 | .swap => 2
  | .dupX2 | .dup2X1 => 3
  | .dup2X2 => 4

/-- The slots that it pushes. -/
def order : Shuffle → List Nat
  | .pop | .pop2 => []
  | .dup => [0, 0]
  | .dupX1 => [0, 1, 0]
  | .dupX2 => [0, 2, 1, 0]
  | .dup2 => [1, 0, 1, 0]
  | .dup2X1 => [1, 0, 2, 1, 0]
  | .dup2X2 => [1, 0, 3, 2, 1, 0]
  | .swap => [0, 1]

/-- The positions that the instruction leaves of the topmost `total` ones, oldest
first. -/
def positions (shuffle : Shuffle) (total : Nat) : List Nat :=
  (List.range' shuffle.count (total - shuffle.count)).reverse ++ shuffle.order

theorem execute_inst (shuffle : Shuffle) (ops : FloatOps) (pc : BitVec 32) (frame : Frame) :
    shuffle.inst.execute ops pc frame =
      Instructions.shuffle shuffle.count shuffle.order frame := by
  cases shuffle <;> rfl

theorem count_pos (shuffle : Shuffle) : 0 < shuffle.count := by
  cases shuffle <;> decide

theorem order_lt (shuffle : Shuffle) : ∀ i ∈ shuffle.order, i < shuffle.count := by
  cases shuffle <;> decide

/-- Where every value takes as many slots as its category says, the instruction
leaves what the form asks for. -/
theorem positions_eq (shuffle : Shuffle) {form : Form} (member : form ∈ shuffle.forms) :
    form.categories.sum = shuffle.count ∧ form.positions form.categories = shuffle.order := by
  revert form
  cases shuffle <;> decide

end Shuffle

/-- The widths that values of these categories may have. -/
def widthChoices : List Nat → List (List Nat)
  | [] => [[]]
  | category :: categories =>
      (widthChoices categories).map (category :: ·) ++ (widthChoices categories).map (2 :: ·)

theorem widths_mem_widthChoices (kinds : List Kind) :
    kinds.map Kind.width ∈ widthChoices (kinds.map Kind.indices) := by
  induction kinds with
  | nil => simp [widthChoices]
  | cons kind kinds ih =>
      have choice : kind.width = kind.indices ∨ kind.width = 2 := by cases kind <;> decide
      rw [List.map_cons, List.map_cons, widthChoices, List.mem_append]
      rcases choice with same | two
      · rw [same]
        exact Or.inl (List.mem_map_of_mem ih)
      · rw [two]
        exact Or.inr (List.mem_map_of_mem ih)

/-- Where some value takes another number of slots, it leaves something else. -/
theorem Shuffle.positions_ne (shuffle : Shuffle) {form : Form} (member : form ∈ shuffle.forms)
    {widths : List Nat} (choice : widths ∈ widthChoices form.categories)
    (differs : widths ≠ form.categories) :
    shuffle.positions widths.sum ≠ form.positions widths := by
  revert widths
  revert form
  cases shuffle <;> decide

/-- All the positions are among the topmost ones. -/
theorem Shuffle.positions_lt (shuffle : Shuffle) {form : Form} (member : form ∈ shuffle.forms)
    {widths : List Nat} (choice : widths ∈ widthChoices form.categories) :
    shuffle.count ≤ widths.sum ∧ (∀ place ∈ form.order, place < widths.length) ∧
      ∀ position ∈ shuffle.positions widths.sum ++ form.positions widths,
        position < widths.sum := by
  revert widths
  revert form
  cases shuffle <;> decide

/-- What the instruction leaves fits where the stack was and where the result of
the form has room. -/
theorem Shuffle.length_positions_le (shuffle : Shuffle) {form : Form}
    (member : form ∈ shuffle.forms) {widths : List Nat}
    (choice : widths ∈ widthChoices form.categories) :
    (shuffle.positions widths.sum).length ≤ max widths.sum (form.positions widths).length := by
  revert widths
  revert form
  cases shuffle <;> decide

/-! ## The slots of values -/

/-- The slot of the values at a position. -/
def slotAt (values : List Value) (position : Nat) : Slot := (words values).reverse.getD position 0

theorem slotAt_cons (value : Value) (values : List Value) (position : Nat) :
    slotAt (value :: values) (value.kind.width + position) = slotAt values position := by
  have skipped : value.words.reverse.length ≤ value.kind.width + position := by
    rw [List.length_reverse, Value.length_words]
    exact Nat.le_add_right _ _
  simp only [slotAt, words, List.reverse_append, List.getD_eq_getElem?_getD,
    List.getElem?_append_right skipped, List.length_reverse, Value.length_words,
    Nat.add_sub_cancel_left]

/-- The slots of the newest value. -/
theorem map_slotAt_range (value : Value) (values : List Value) :
    (List.range' 0 value.kind.width).reverse.map (slotAt (value :: values)) = value.words := by
  cases value <;> simp [slotAt, words, Value.words, Value.kind, Kind.width, DWord.words,
    List.range', List.getD]

/-- The slots at the positions of a value are its words. -/
theorem map_slotAt_positionsOf {values : List Value} {place : Nat} {value : Value}
    (found : values[place]? = some value) :
    (positionsOf (values.map fun value => value.kind.width) place).map (slotAt values) =
      value.words := by
  induction values generalizing place with
  | nil => cases found
  | cons first values ih =>
      cases place with
      | zero =>
          cases found
          exact map_slotAt_range value values
      | succ place =>
          have shifted : positionsOf ((first :: values).map fun value => value.kind.width)
              (place + 1) =
              (positionsOf (values.map fun value => value.kind.width) place).map
                (first.kind.width + ·) := by
            simp only [positionsOf, List.map_cons, List.take_succ_cons, List.sum_cons,
              List.getD_cons_succ, List.map_reverse, List.map_add_range']
          rw [shifted, List.map_map, ← ih found]
          exact List.map_congr_left fun position _ => slotAt_cons first values position

theorem words_reverse (values : List Value) :
    words values.reverse = values.flatMap Value.words := by
  induction values with
  | nil => rfl
  | cons value values ih => simp [words_append, words, ih]

/-- What a form leaves, slot by slot. -/
theorem words_result (form : Form) {values : List Value}
    (places : ∀ place ∈ form.order, place < values.length) :
    words (form.result values) =
      (form.positions (values.map fun value => value.kind.width)).map (slotAt values) := by
  rw [Form.result, words_reverse, Form.positions, List.map_flatMap]
  generalize form.order = order at places
  induction order with
  | nil => rfl
  | cons place order ih =>
      have inside := places place List.mem_cons_self
      have found := List.getElem?_eq_getElem inside
      rw [List.filterMap_cons_some found, List.flatMap_cons, List.flatMap_cons,
        map_slotAt_positionsOf found, ih fun other mem => places other (List.mem_cons_of_mem _ mem)]

/-! ## The instructions, slot by slot -/

section Slots

variable {capacity : Nat} {frame : Frame}

theorem popSlots_eq (slots : List Slot) {below : List Value} {stack : OperandStack}
    (represents : Represents capacity (slots.map .int ++ below) stack)
    (spare : used below + slots.length < capacity) :
    ∃ next, popSlots slots.length stack = .ok (slots, next) ∧ Represents capacity below next := by
  induction slots generalizing stack with
  | nil => exact ⟨stack, rfl, represents⟩
  | cons slot slots ih =>
      have usedRest : used (slots.map .int ++ below) = slots.length + used below := by
        rw [used_append, used_map_int]
      rw [List.length_cons] at spare
      rw [List.map_cons, List.cons_append] at represents
      obtain ⟨middle, popped, representsMiddle⟩ := represents.popSlot (by omega)
      obtain ⟨next, poppedRest, representsNext⟩ := ih representsMiddle (by omega)
      exact ⟨next, by simp [popSlots, popped, poppedRest, pure, Except.pure], representsNext⟩

theorem pushSlots_eq (slots : List Slot) {values : List Value} {stack : OperandStack}
    (represents : Represents capacity values stack)
    (room : used values + slots.length ≤ capacity) :
    ∃ next, pushSlots slots stack = .ok next ∧
      Represents capacity (slots.reverse.map .int ++ values) next := by
  induction slots generalizing values stack with
  | nil => exact ⟨stack, rfl, represents⟩
  | cons slot slots ih =>
      rw [List.length_cons] at room
      obtain ⟨middle, pushed, representsMiddle⟩ := represents.pushSlot slot (by omega)
      have usedNext : used (.int slot :: values) = used values + 1 := rfl
      obtain ⟨next, pushedRest, representsNext⟩ := ih representsMiddle (by omega)
      exact ⟨next, by simp [pushSlots, pushed, pushedRest], by simpa using representsNext⟩

/-- A shuffle of as many slots as it pops, on a stack that is not full. -/
theorem leaves_shuffle (slots : List Slot) (order : List Nat) {below : List Value}
    (represents : Represents capacity (slots.map .int ++ below) frame.operandStack)
    (spare : used below + slots.length < capacity) (room : used below + order.length ≤ capacity) :
    Leaves capacity ((order.map fun i => slots.getD i 0).reverse.map .int ++ below) frame
      (shuffle slots.length order frame) := by
  obtain ⟨middle, popped, representsMiddle⟩ := popSlots_eq slots represents spare
  obtain ⟨next, pushed, representsNext⟩ :=
    pushSlots_eq (order.map fun i => slots.getD i 0) representsMiddle (by rwa [List.length_map])
  refine ⟨next, ?_, representsNext⟩
  rw [shuffle, popped, Exec.bind_ok]
  dsimp only
  rw [pushed]
  rfl

/-- The slots from a position on. -/
theorem map_slotAt_range' (values : List Value) (count : Nat) :
    (List.range' count (used values - count)).map (slotAt values) =
      (words values).reverse.drop count := by
  apply List.ext_getElem
  · simp
  · intro i inside _
    simp only [List.length_map, List.length_range'] at inside
    have small : count + i < (words values).reverse.length := by
      rw [List.length_reverse, length_words]
      omega
    simp [slotAt, List.getD_eq_getElem?_getD, List.getElem?_eq_getElem small]

/-- The slots at the first positions. -/
theorem getD_take_eq_slotAt (values : List Value) {count i : Nat} (inside : i < count) :
    ((words values).reverse.take count).getD i 0 = slotAt values i := by
  rw [slotAt, List.getD_eq_getElem?_getD, List.getD_eq_getElem?_getD, List.getElem?_take,
    if_pos inside]

/-- On a stack that is not full, and with room for what it pushes, the
instruction leaves its positions of the topmost slots. -/
theorem Shuffle.leaves_positions (shuffle : Shuffle) (ops : FloatOps) (pc : BitVec 32)
    {values rest : List Value}
    (represents : Represents capacity (values ++ rest) frame.operandStack)
    (enough : shuffle.count ≤ used values) (spare : used (values ++ rest) < capacity)
    (room : (shuffle.positions (used values)).length + used rest ≤ capacity) :
    Leaves capacity
      (((shuffle.positions (used values)).map (slotAt values)).reverse.map .int ++ rest) frame
      (shuffle.inst.execute ops pc frame) := by
  set taken := (words values).reverse.take shuffle.count with takenEq
  set left := (words values).reverse.drop shuffle.count with leftEq
  have split : taken ++ left = (words values).reverse := List.take_append_drop _ _
  have takenLength : taken.length = shuffle.count := by
    rw [takenEq, List.length_take, List.length_reverse, length_words]
    exact Nat.min_eq_left enough
  have leftUsed : used (left.map .int ++ rest) = used values - shuffle.count + used rest := by
    rw [used_append, used_map_int, leftEq, List.length_drop, List.length_reverse, length_words]
  have slotwise : Represents capacity (taken.map .int ++ (left.map .int ++ rest))
      frame.operandStack := by
    apply represents.retype
    rw [words_append, words_append, words_append, words_map_int, words_map_int, List.append_assoc,
      ← List.reverse_append, split, List.reverse_reverse]
  have length : (shuffle.positions (used values)).length =
      used values - shuffle.count + shuffle.order.length := by
    simp [Shuffle.positions]
  rw [used_append] at spare
  have leaves := leaves_shuffle taken shuffle.order slotwise (by omega) (by omega)
  have chosen : (shuffle.order.map fun i => taken.getD i 0) =
      shuffle.order.map (slotAt values) :=
    List.map_congr_left fun i mem => getD_take_eq_slotAt values (shuffle.order_lt i mem)
  have unpopped : ((List.range' shuffle.count (used values - shuffle.count)).reverse.map
      (slotAt values)).reverse = left := by
    rw [List.map_reverse, List.reverse_reverse, map_slotAt_range']
  rw [takenLength, chosen] at leaves
  rw [Shuffle.execute_inst, Shuffle.positions, List.map_append, List.reverse_append, unpopped,
    List.map_append, List.append_assoc]
  exact leaves

/-- No shuffle gets past the last slot of a full stack. -/
theorem Shuffle.not_leaves_of_full (shuffle : Shuffle) (ops : FloatOps) (pc : BitVec 32)
    {values others : List Value} (represents : Represents capacity values frame.operandStack)
    (nonempty : 0 < used values) (full : used values = capacity) :
    ¬ Leaves capacity others frame (shuffle.inst.execute ops pc frame) := by
  have aborts : Aborts frame.operandStack.popSlot := by
    apply represents.holds.popSlot_aborts
    · rw [length_words]
      exact nonempty
    · rw [length_words, represents.getSize_eq]
      exact full
  obtain ⟨message, aborted⟩ := aborts
  obtain ⟨count, countEq⟩ := Nat.exists_eq_succ_of_ne_zero shuffle.count_pos.ne'
  have stops : shuffle.inst.execute ops pc frame = .error (.fatal message) := by
    rw [Shuffle.execute_inst, Instructions.shuffle, countEq, Nat.succ_eq_add_one, popSlots, aborted]
    rfl
  rw [stops]
  exact Leaves.not_error

end Slots

/-! ## Values of given kinds -/

theorem used_eq_slotCount (values : List Value) :
    used values = slotCount (values.map Value.kind) := by
  induction values with
  | nil => rfl
  | cons value values ih => simp [used, slotCount, ih, Nat.add_comm]

theorem slotCount_append (kinds others : List Kind) :
    slotCount (kinds ++ others) = slotCount kinds + slotCount others := by
  simp [slotCount]

theorem Form.map_result {α β : Type} (form : Form) (f : α → β) (touched : List α) :
    (form.result touched).map f = form.result (touched.map f) := by
  simp only [Form.result, List.map_reverse, List.map_filterMap, List.getElem?_map]

/-- Only references take more slots than their category says. -/
theorem widths_eq_indices_iff (kinds : List Kind) :
    kinds.map Kind.width = kinds.map Kind.indices ↔ Kind.ref ∉ kinds := by
  induction kinds with
  | nil => simp
  | cons kind kinds ih =>
      rw [List.map_cons, List.map_cons, List.cons.injEq, ih, List.mem_cons, not_or, eq_comm,
        kind.indices_eq_width_iff, ne_comm]

/-- A value of a kind whose slots hold their own positions. -/
def positioned (position : Nat) : Kind → Value
  | .int => .int (BitVec.ofNat 32 position)
  | .float => .float (BitVec.ofNat 32 position)
  | .long => .long (DWord.join (BitVec.ofNat 32 (position + 1)) (BitVec.ofNat 32 position))
  | .double => .double (DWord.join (BitVec.ofNat 32 (position + 1)) (BitVec.ofNat 32 position))
  | .ref => .ref (DWord.join (BitVec.ofNat 32 (position + 1)) (BitVec.ofNat 32 position))

/-- Values of these kinds whose slots hold their own positions. -/
def positionedAll : Nat → List Kind → List Value
  | _, [] => []
  | position, kind :: kinds =>
      positioned position kind :: positionedAll (position + kind.width) kinds

@[simp]
theorem kind_positioned (position : Nat) (kind : Kind) :
    (positioned position kind).kind = kind := by
  cases kind <;> rfl

@[simp]
theorem map_kind_positionedAll (position : Nat) (kinds : List Kind) :
    (positionedAll position kinds).map Value.kind = kinds := by
  induction kinds generalizing position with
  | nil => rfl
  | cons kind kinds ih => simp [positionedAll, ih]

theorem words_positioned (position : Nat) (kind : Kind) :
    (positioned position kind).words =
      (List.range' position kind.width).reverse.map (BitVec.ofNat 32) := by
  cases kind <;> simp [positioned, Value.words, Kind.width, DWord.words, List.range']

theorem words_positionedAll (position : Nat) (kinds : List Kind) :
    words (positionedAll position kinds) =
      (List.range' position (slotCount kinds)).reverse.map (BitVec.ofNat 32) := by
  induction kinds generalizing position with
  | nil => rfl
  | cons kind kinds ih =>
      have split : List.range' position (slotCount (kind :: kinds)) =
          List.range' position kind.width ++
            List.range' (position + kind.width) (slotCount kinds) := by
        rw [List.range'_append_1]
        rfl
      rw [split, List.reverse_append, List.map_append, positionedAll, words, ih, words_positioned]

theorem used_positionedAll (position : Nat) (kinds : List Kind) :
    used (positionedAll position kinds) = slotCount kinds := by
  rw [used_eq_slotCount, map_kind_positionedAll]

/-- A list of positions can be read off the slots. -/
theorem map_slotAt_positionedAll {kinds : List Kind} (small : slotCount kinds < 2 ^ 32)
    {positions : List Nat} (inside : ∀ position ∈ positions, position < slotCount kinds) :
    (positions.map (slotAt (positionedAll 0 kinds))).map BitVec.toNat = positions := by
  rw [List.map_map]
  conv_rhs => rw [← List.map_id positions]
  apply List.map_congr_left
  intro position mem
  have below := inside position mem
  have found : (words (positionedAll 0 kinds)).reverse[position]? =
      some (BitVec.ofNat 32 position) := by
    rw [words_positionedAll, List.map_reverse, List.reverse_reverse, List.getElem?_map,
      List.getElem?_range' below]
    simp
  simp only [Function.comp_apply, slotAt, List.getD_eq_getElem?_getD, found, Option.getD_some,
    BitVec.toNat_ofNat, id_eq]
  exact Nat.mod_eq_of_lt (Nat.lt_trans below small)

/-! ## When the instructions follow their forms -/

section Forms

variable {ops : FloatOps} {capacity : Nat} {shuffle : Shuffle} {form : Form}
  {touched below : List Kind}

/-- Without references, and with a slot to spare, the positions agree. -/
theorem FollowsForm.of_notRef (member : form ∈ shuffle.forms)
    (categories : touched.map Kind.indices = form.categories)
    (room : slotCount (form.result touched ++ below) ≤ capacity) (notRef : Kind.ref ∉ touched)
    (spare : slotCount (touched ++ below) < capacity) :
    FollowsForm ops capacity shuffle form touched below := by
  intro values rest pc frame valueKinds restKinds represents
  have sameWidths := (widths_eq_indices_iff touched).mpr notRef
  have widths : (values.map fun value => value.kind.width) = form.categories := by
    rw [← categories, ← sameWidths, ← valueKinds, List.map_map]
    rfl
  have choice : form.categories ∈ widthChoices form.categories := by
    have mem := widths_mem_widthChoices touched
    rwa [sameWidths, categories] at mem
  obtain ⟨-, places, -⟩ := shuffle.positions_lt member choice
  obtain ⟨sum, positions⟩ := shuffle.positions_eq member
  have total : used values = shuffle.count := by
    rw [← sum, ← widths, used_eq_slotCount, slotCount, List.map_map]
    rfl
  have asked : words (form.result values) = shuffle.order.map (slotAt values) := by
    rw [words_result form ?_, widths, positions]
    intro place mem
    have inside := places place mem
    rwa [← widths, List.length_map] at inside
  have left : shuffle.positions (used values) = shuffle.order := by
    rw [Shuffle.positions, total, Nat.sub_self]
    rfl
  have spareUsed : used (values ++ rest) < capacity := by
    rw [used_eq_slotCount, List.map_append, valueKinds, restKinds]
    exact spare
  have roomUsed : (shuffle.positions (used values)).length + used rest ≤ capacity := by
    have length : (form.result values ++ rest).map Value.kind = form.result touched ++ below := by
      rw [List.map_append, Form.map_result, valueKinds, restKinds]
    rw [← length, ← used_eq_slotCount, used_append, ← length_words (form.result values), asked,
      List.length_map] at room
    rwa [left]
  obtain ⟨stack, returned, representsNext⟩ :=
    shuffle.leaves_positions ops pc represents (by rw [total]) spareUsed roomUsed
  refine ⟨stack, returned, representsNext.retype ?_⟩
  rw [words_append, words_append, words_map_int, List.reverse_reverse, asked, left]

/-- What holds of every stack holds of the one whose slots hold their positions. -/
theorem FollowsForm.on_positioned (follows : FollowsForm ops capacity shuffle form touched below)
    (bound : capacity ≤ 65535) (fits : slotCount (touched ++ below) ≤ capacity) :
    ∃ frame : Frame,
      Represents capacity (positionedAll 0 touched ++ positionedAll 0 below) frame.operandStack ∧
      Leaves capacity (form.result (positionedAll 0 touched) ++ positionedAll 0 below) frame
        (shuffle.inst.execute ops 0 frame) := by
  have represents : Represents capacity (positionedAll 0 touched ++ positionedAll 0 below)
      (frameHolding capacity (positionedAll 0 touched ++ positionedAll 0 below)).operandStack := by
    apply represents_ofValues _ bound
    rwa [used_append, used_positionedAll, used_positionedAll, ← slotCount_append]
  exact ⟨_, represents, follows _ _ 0 _ (map_kind_positionedAll 0 touched)
    (map_kind_positionedAll 0 below) represents⟩

theorem FollowsForm.spare (follows : FollowsForm ops capacity shuffle form touched below)
    (bound : capacity ≤ 65535) (member : form ∈ shuffle.forms)
    (choice : touched.map Kind.width ∈ widthChoices form.categories)
    (fits : slotCount (touched ++ below) ≤ capacity) :
    slotCount (touched ++ below) < capacity := by
  obtain ⟨frame, represents, asked⟩ := follows.on_positioned bound fits
  obtain ⟨enough, -, -⟩ := shuffle.positions_lt member choice
  have total : used (positionedAll 0 touched ++ positionedAll 0 below) =
      slotCount (touched ++ below) := by
    rw [used_append, used_positionedAll, used_positionedAll, slotCount_append]
  have nonempty : 0 < slotCount (touched ++ below) := by
    rw [slotCount_append]
    exact Nat.lt_of_lt_of_le (Nat.lt_of_lt_of_le shuffle.count_pos enough) (Nat.le_add_right _ _)
  apply Nat.lt_of_le_of_ne fits
  intro full
  exact shuffle.not_leaves_of_full ops 0 represents (total ▸ nonempty) (total ▸ full) asked

/-- On values that hold their positions, a form asks for the slots at its own ones. -/
theorem words_result_positionedAll (form : Form) {kinds : List Kind}
    (places : ∀ place ∈ form.order, place < kinds.length) :
    words (form.result (positionedAll 0 kinds)) =
      (form.positions (kinds.map Kind.width)).map (slotAt (positionedAll 0 kinds)) := by
  have widths : ((positionedAll 0 kinds).map fun value => value.kind.width) =
      kinds.map Kind.width := by
    conv_rhs => rw [← map_kind_positionedAll 0 kinds, List.map_map]
    rfl
  rw [words_result form ?_, widths]
  intro place mem
  have small := places place mem
  rwa [← map_kind_positionedAll 0 kinds, List.length_map] at small

theorem slotCount_result (form : Form) {kinds : List Kind}
    (places : ∀ place ∈ form.order, place < kinds.length) :
    slotCount (form.result kinds) = (form.positions (kinds.map Kind.width)).length := by
  rw [← map_kind_positionedAll 0 kinds, ← Form.map_result, ← used_eq_slotCount, ← length_words,
    words_result_positionedAll form places, List.length_map, map_kind_positionedAll]

/-- On slots that hold their positions, a reference among the values shows. -/
theorem FollowsForm.notRef (follows : FollowsForm ops capacity shuffle form touched below)
    (bound : capacity ≤ 65535) (member : form ∈ shuffle.forms)
    (categories : touched.map Kind.indices = form.categories)
    (room : slotCount (form.result touched ++ below) ≤ capacity)
    (spare : slotCount (touched ++ below) < capacity) : Kind.ref ∉ touched := by
  intro isRef
  have choice : touched.map Kind.width ∈ widthChoices form.categories := by
    rw [← categories]
    exact widths_mem_widthChoices touched
  have differs : touched.map Kind.width ≠ form.categories := by
    rw [← categories]
    intro same
    exact (widths_eq_indices_iff touched).mp same isRef
  obtain ⟨enough, places, inside⟩ := shuffle.positions_lt member choice
  obtain ⟨frame, represents, asked⟩ := follows.on_positioned bound (Nat.le_of_lt spare)
  have named : ∀ place ∈ form.order, place < touched.length := by
    intro place mem
    have small := places place mem
    rwa [List.length_map] at small
  have askedWords := words_result_positionedAll form named
  have askedUsed := slotCount_result form named
  -- the instruction does not run out of room either
  have roomUsed : (shuffle.positions (used (positionedAll 0 touched))).length +
      used (positionedAll 0 below) ≤ capacity := by
    have longest := shuffle.length_positions_le member choice
    rw [slotCount_append, askedUsed] at room
    rw [slotCount_append, slotCount] at spare
    rw [used_positionedAll, used_positionedAll, slotCount]
    omega
  have left := shuffle.leaves_positions ops 0 represents (by rwa [used_positionedAll])
    (by rwa [used_append, used_positionedAll, used_positionedAll, ← slotCount_append]) roomUsed
  have same := left.words_eq asked
  rw [words_append, words_append, List.append_cancel_left_eq, words_map_int,
    List.reverse_reverse, askedWords, used_positionedAll] at same
  have small : slotCount touched < 2 ^ 32 := by
    rw [slotCount_append] at spare
    omega
  apply shuffle.positions_ne member choice differs
  calc
    shuffle.positions (touched.map Kind.width).sum
        = ((shuffle.positions (slotCount touched)).map
            (slotAt (positionedAll 0 touched))).map BitVec.toNat := by
          refine (map_slotAt_positionedAll small ?_).symm
          exact fun position mem => inside position (List.mem_append_left _ mem)
    _ = ((form.positions (touched.map Kind.width)).map
            (slotAt (positionedAll 0 touched))).map BitVec.toNat := by
          rw [same]
    _ = form.positions (touched.map Kind.width) := by
          refine map_slotAt_positionedAll small ?_
          exact fun position mem => inside position (List.mem_append_right _ mem)

/-- The instructions move slots, and a reference has two: they follow a form
exactly when none of the values that it takes is a reference and, because of the
check in `GetSlot`, the stack is not full. -/
theorem followsForm_iff (bound : capacity ≤ 65535) (member : form ∈ shuffle.forms)
    (categories : touched.map Kind.indices = form.categories)
    (fits : slotCount (touched ++ below) ≤ capacity)
    (room : slotCount (form.result touched ++ below) ≤ capacity) :
    FollowsForm ops capacity shuffle form touched below ↔
      Kind.ref ∉ touched ∧ slotCount (touched ++ below) < capacity := by
  constructor
  · intro follows
    have choice : touched.map Kind.width ∈ widthChoices form.categories := by
      rw [← categories]
      exact widths_mem_widthChoices touched
    have spare := follows.spare bound member choice fits
    exact ⟨follows.notRef bound member categories room spare, spare⟩
  · rintro ⟨notRef, spare⟩
    exact FollowsForm.of_notRef member categories room notRef spare

end Forms

/-- `dup2` of a `long` above an `int`, with one slot more than it needs. -/
theorem followsForm_dup2_long : FollowsForm .zero 6 .dup2 ⟨[2], [0, 0]⟩ [.long] [.int] :=
  (followsForm_iff (by decide) (by decide) (by decide) (by decide) (by decide)).mpr (by decide)

/-- `dup` of a reference, as between `new` and `invokespecial`, copies one slot;
`pop` on a full stack aborts. -/
theorem forms_not_followed :
    (¬ Leaves 4 (Form.result ⟨[1], [0, 0]⟩ [.ref 8]) (frameHolding 4 [.ref 8])
      (Shuffle.dup.inst.execute .zero 0 (frameHolding 4 [.ref 8]))) ∧
    ¬ Leaves 1 (Form.result ⟨[1], []⟩ [.int 7]) (frameHolding 1 [.int 7])
      (Shuffle.pop.inst.execute .zero 0 (frameHolding 1 [.int 7])) := by
  constructor
  · rintro ⟨stack, returned, represents⟩
    have result : Shuffle.dup.inst.execute .zero 0 (frameHolding 4 [.ref 8]) =
        .ok ((frameHolding 4 [.ref 8]).setStack ⟨3, ⟨[8, 0, 0, 0]⟩⟩) := rfl
    rw [result, Except.ok.injEq] at returned
    have same : (⟨3, ⟨[8, 0, 0, 0]⟩⟩ : OperandStack) = stack := congrArg Frame.operandStack returned
    have top := represents.top_eq
    rw [← same] at top
    exact absurd top (by decide)
  · have stopped : Shuffle.pop.inst.execute .zero 0 (frameHolding 1 [.int 7]) =
        fatal (Slots.outOfIndex "GetSlot out of index, long need two slots" 0 ⟨[7]⟩) := rfl
    rw [stopped]
    exact Leaves.not_error

end JvmDemo.Instructions
