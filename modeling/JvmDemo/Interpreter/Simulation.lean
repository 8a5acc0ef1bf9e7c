import JvmDemo.Instructions.Decode
import JvmDemo.Instructions.TypedOperands
import JvmDemo.Interpreter.Loop
import JvmDemo.Interpreter.Specification
import Mathlib.Data.List.Forall2

/-!
# The interpreter simulates the integer fragment

A frame of the interpreter matches a frame of the specification when both have
the same code and program counter, the slots of the operand stack are the words
of the typed stack, and every usable local variable is in its slots.  Each step
of the specification is matched by one iteration of the interpreter loop; the
loop stops exactly when the frame stack is empty.
-/

namespace JvmDemo.Interpreter

open JvmDemo.Lib
open JvmDemo.Lib.Refinement
open JvmDemo.Runtime
open JvmDemo.Instructions
open Specification

/-! ## Local variables -/

/-- The usable local variables are in the slots. -/
structure LocalsMatch (cells : List Cell) (slots : List Slot) : Prop where
  length_eq : slots.length = cells.length
  int : ∀ {index : Nat} {val : Word}, cells[index]? = some (.int val) → slots[index]? = some val
  long : ∀ {index : Nat} {val : DWord}, cells[index]? = some (.long val) →
    cells[index + 1]? = some .second →
      slots[index]? = some val.low ∧ slots[index + 1]? = some val.high

/-- No variable of a fresh frame is usable. -/
theorem localsMatch_replicate (count : Nat) :
    LocalsMatch (List.replicate count .unusable) (List.replicate count 0) where
  length_eq := by simp
  int := by
    intro index val found
    simp [List.getElem?_replicate] at found
  long := by
    intro index val found
    simp [List.getElem?_replicate] at found

/-- A cell that differs from the one just written is another cell. -/
theorem ne_of_getElem?_set {cells : List Cell} {index other : Nat} {written held : Cell}
    (found : (cells.set index written)[other]? = some held) (differ : written ≠ held) :
    index ≠ other := by
  rintro rfl
  rw [List.getElem?_set, if_pos rfl] at found
  split at found
  · exact differ (Option.some.inj found)
  · cases found

theorem LocalsMatch.set_int {cells : List Cell} {slots : List Slot}
    (locals : LocalsMatch cells slots) {index : Nat} (val : Word) (inside : index < cells.length) :
    LocalsMatch (cells.set index (.int val)) (slots.set index val) where
  length_eq := by simp [locals.length_eq]
  int := by
    intro other held found
    by_cases same : index = other
    · subst same
      rw [List.getElem?_set_self inside] at found
      cases found
      exact List.getElem?_set_self (by rw [locals.length_eq]; exact inside)
    · rw [List.getElem?_set_ne same] at found ⊢
      exact locals.int found
  long := by
    intro other held found second
    have first := ne_of_getElem?_set found (by simp)
    have next := ne_of_getElem?_set second (by simp)
    rw [List.getElem?_set_ne first] at found ⊢
    rw [List.getElem?_set_ne next] at second ⊢
    exact locals.long found second

theorem LocalsMatch.set_long {cells : List Cell} {slots : List Slot}
    (locals : LocalsMatch cells slots) {index : Nat} (val : DWord)
    (inside : index + 1 < cells.length) :
    LocalsMatch ((cells.set index (.long val)).set (index + 1) .second)
      (Cells.blit slots index val.words) where
  length_eq := by simp [locals.length_eq]
  int := by
    intro other held found
    have upper := ne_of_getElem?_set found (by simp)
    rw [List.getElem?_set_ne upper] at found
    have lower := ne_of_getElem?_set found (by simp)
    rw [List.getElem?_set_ne lower] at found
    rw [Cells.getElem?_blit_of_outside _ _ _ (by simp only [DWord.length_words]; omega)]
    exact locals.int found
  long := by
    intro other held found second
    have fits : index + val.words.length ≤ slots.length := by
      rw [locals.length_eq, DWord.length_words]
      omega
    have upper := ne_of_getElem?_set found (by simp)
    rw [List.getElem?_set_ne upper] at found
    by_cases same : index = other
    · subst same
      rw [List.getElem?_set_self (by omega)] at found
      cases found
      exact ⟨Cells.getElem?_blit_of_inside slots index val.words (show 0 < 2 by omega) fits,
        Cells.getElem?_blit_of_inside slots index val.words (show 1 < 2 by omega) fits⟩
    · rw [List.getElem?_set_ne same] at found
      rw [List.getElem?_set_ne (by omega)] at second
      have next := ne_of_getElem?_set second (by simp)
      rw [List.getElem?_set_ne next] at second
      rw [Cells.getElem?_blit_of_outside _ _ _ (by simp only [DWord.length_words]; omega),
        Cells.getElem?_blit_of_outside _ _ _ (by simp only [DWord.length_words]; omega)]
      exact locals.long found second

/-! ## Frames -/

/-- A frame of the interpreter matches a frame of the specification. -/
structure FrameMatches (spec : SpecFrame) (frame : Frame) : Prop where
  codes : frame.method.codes = some spec.code
  short : spec.code.length < 2 ^ 31
  nextPc : frame.nextPc = BitVec.ofNat 32 spec.pc
  pc_lt : spec.pc < 2 ^ 31
  stack : TypedStack.Represents spec.maxStack spec.stack frame.operandStack
  locals : LocalsMatch spec.locals frame.localVars.slots
  few : spec.locals.length < 2 ^ 16

namespace FrameMatches

variable {spec after : SpecFrame} {frame : Frame}

theorem setStack (matching : FrameMatches spec frame) {values : List Value} {stack : OperandStack}
    (represents : TypedStack.Represents spec.maxStack values stack) :
    FrameMatches { spec with stack := values } (frame.setStack stack) where
  codes := matching.codes
  short := matching.short
  nextPc := matching.nextPc
  pc_lt := matching.pc_lt
  stack := represents
  locals := matching.locals
  few := matching.few

theorem setVars (matching : FrameMatches spec frame) {cells : List Cell} {slots : Slots}
    (locals : LocalsMatch cells slots.slots) (same : cells.length = spec.locals.length) :
    FrameMatches { spec with locals := cells } (frame.setVars slots) where
  codes := matching.codes
  short := matching.short
  nextPc := matching.nextPc
  pc_lt := matching.pc_lt
  stack := matching.stack
  locals := locals
  few := by
    have few := matching.few
    simpa [same] using few

theorem setNextPc (matching : FrameMatches spec frame) {pc : Nat} (small : pc < 2 ^ 31) :
    FrameMatches { spec with pc := pc } (frame.setNextPc (BitVec.ofNat 32 pc)) where
  codes := matching.codes
  short := matching.short
  nextPc := rfl
  pc_lt := small
  stack := matching.stack
  locals := matching.locals
  few := matching.few

/-- A push that the specification allows. -/
theorem push (matching : FrameMatches spec frame) {value : Value}
    (pushed : spec.push value = some after) :
    ∃ stack, frame.operandStack.push value = .ok stack ∧
      FrameMatches after (frame.setStack stack) := by
  unfold SpecFrame.push at pushed
  split at pushed
  · rename_i room
    cases pushed
    rcases matching.stack.push value room with ⟨stack, pushEq, represents⟩
    exact ⟨stack, pushEq, matching.setStack represents⟩
  · cases pushed

theorem pushConst (matching : FrameMatches spec frame) {value : Value}
    (pushed : spec.push value = some after) :
    ∃ next, Instructions.pushConst frame value = .ok next ∧ FrameMatches after next := by
  rcases matching.push pushed with ⟨stack, pushEq, matches'⟩
  exact ⟨frame.setStack stack, by simp [Instructions.pushConst, pushEq, pure, Except.pure],
    matches'⟩

/-- An instruction that the interpreter runs on a matching frame returns a frame
that matches. -/
def Follows (after : SpecFrame) (result : Exec Frame) : Prop :=
  ∃ next, result = .ok next ∧ FrameMatches after next

section Operands

variable {α β : Type} {pop : OperandStack → Exec (α × OperandStack)} {operand : α → Value}
  {push : OperandStack → β → Exec OperandStack} {wrap : β → Value} {below : List Value}

/-- An operation on the two topmost values, both of one type. -/
theorem binaryOp (matching : FrameMatches spec frame) (pops : TypedStack.Pops pop operand)
    {push : OperandStack → α → Exec OperandStack}
    (pushes : ∀ stack result, push stack result = stack.push (operand result))
    {exec : α → α → Exec α} {left right result : α} (agree : exec left right = .ok result)
    (stackEq : spec.stack = operand right :: operand left :: below)
    (done : ({ spec with stack := below } : SpecFrame).push (operand result) = some after) :
    Follows after (binary pop push exec frame) := by
  have represents := matching.stack
  rw [stackEq] at represents
  rcases binary_eq pops exec represents with ⟨rest, representsRest, execEq⟩
  rcases (matching.setStack representsRest).push done with ⟨stack, pushEq, matches'⟩
  have pushed : rest.push (operand result) = .ok stack := pushEq
  refine ⟨frame.setStack stack, ?_, matches'⟩
  rw [execEq]
  simp [agree, pushes, pushed, pure, Except.pure]

/-- An operation on the topmost value; its result is pushed as a value of some
type. -/
theorem unaryOp (matching : FrameMatches spec frame) (pops : TypedStack.Pops pop operand)
    (pushes : ∀ stack result, push stack result = stack.push (wrap result))
    {exec : α → β} {val : α} (stackEq : spec.stack = operand val :: below)
    (done : ({ spec with stack := below } : SpecFrame).push (wrap (exec val)) = some after) :
    Follows after (unary pop push exec frame) := by
  have represents := matching.stack
  rw [stackEq] at represents
  rcases pops val represents with ⟨rest, popEq, representsRest⟩
  rcases (matching.setStack representsRest).push done with ⟨stack, pushEq, matches'⟩
  have pushed : rest.push (wrap (exec val)) = .ok stack := pushEq
  refine ⟨frame.setStack stack, ?_, matches'⟩
  simp [unary, popEq, pushes, pushed, pure, Except.pure]

theorem intOp (matching : FrameMatches spec frame) {op : Word → Word → Word}
    {exec : Word → Word → Exec Word} (agree : ∀ left right, exec left right = .ok (op left right))
    (done : spec.intOp op = some after) :
    Follows after (binary OperandStack.popInt OperandStack.pushInt exec frame) := by
  unfold SpecFrame.intOp at done
  split at done
  · rename_i right left below stackEq
    exact matching.binaryOp TypedStack.pops_popInt (fun _ _ => rfl) (agree left right) stackEq done
  · cases done

theorem longOp (matching : FrameMatches spec frame) {op : DWord → DWord → DWord}
    {exec : DWord → DWord → Exec DWord}
    (agree : ∀ left right, exec left right = .ok (op left right))
    (done : spec.longOp op = some after) :
    Follows after (binary OperandStack.popLong OperandStack.pushLong exec frame) := by
  unfold SpecFrame.longOp at done
  split at done
  · rename_i right left below stackEq
    exact matching.binaryOp TypedStack.pops_popLong (fun _ _ => rfl) (agree left right) stackEq done
  · cases done

theorem intMap (matching : FrameMatches spec frame) {exec : Word → β} {op : Word → Value}
    (pushes : ∀ stack result, push stack result = stack.push (wrap result))
    (agree : ∀ val, wrap (exec val) = op val) (done : spec.intMap op = some after) :
    Follows after (unary OperandStack.popInt push exec frame) := by
  unfold SpecFrame.intMap at done
  split at done
  · rename_i val below stackEq
    rw [← agree val] at done
    exact matching.unaryOp TypedStack.pops_popInt pushes stackEq done
  · cases done

theorem longMap (matching : FrameMatches spec frame) {exec : DWord → β} {op : DWord → Value}
    (pushes : ∀ stack result, push stack result = stack.push (wrap result))
    (agree : ∀ val, wrap (exec val) = op val) (done : spec.longMap op = some after) :
    Follows after (unary OperandStack.popLong push exec frame) := by
  unfold SpecFrame.longMap at done
  split at done
  · rename_i val below stackEq
    rw [← agree val] at done
    exact matching.unaryOp TypedStack.pops_popLong pushes stackEq done
  · cases done

end Operands

/-! ## Loads and stores -/

/-- An index below the number of variables is not changed by the conversion to
`uint16_t`. -/
theorem index_mod (matching : FrameMatches spec frame) {index : Nat}
    (inside : index < spec.locals.length) : index % 2 ^ 16 = index :=
  Nat.mod_eq_of_lt (Nat.lt_trans inside matching.few)

theorem getSize_localVars (matching : FrameMatches spec frame) :
    frame.localVars.getSize = spec.locals.length :=
  matching.locals.length_eq

theorem loadInt (matching : FrameMatches spec frame) {index : BitVec 32}
    (done : spec.loadInt index.toNat = some after) :
    Follows after (executeLoad frame .int index) := by
  unfold SpecFrame.loadInt at done
  split at done
  · rename_i val found
    have inside : index.toNat < spec.locals.length := (List.getElem?_eq_some_iff.mp found).1
    have value : frame.localVars.getValue index.toNat .int = .ok (.int val) := by
      have slot := matching.locals.int found
      simp [Slots.getValue, Slots.getInt, Slots.getOne_of_getElem?_eq _ slot, Functor.map,
        Except.map]
    rcases matching.push done with ⟨stack, pushEq, matches'⟩
    refine ⟨frame.setStack stack, ?_, matches'⟩
    rw [executeLoad, matching.index_mod inside, value]
    simp [pushEq, pure, Except.pure]
  · cases done

theorem loadLong (matching : FrameMatches spec frame) {index : BitVec 32}
    (done : spec.loadLong index.toNat = some after) :
    Follows after (executeLoad frame .long index) := by
  unfold SpecFrame.loadLong at done
  split at done
  · rename_i val found second
    have inside : index.toNat < spec.locals.length := (List.getElem?_eq_some_iff.mp found).1
    have inside2 : index.toNat + 1 < spec.locals.length := (List.getElem?_eq_some_iff.mp second).1
    have value : frame.localVars.getValue index.toNat .long = .ok (.long val) := by
      rcases matching.locals.long found second with ⟨low, high⟩
      apply Slots.getValue_of_slice_eq (.long val)
      · rw [matching.getSize_localVars]
        exact inside2
      · apply List.ext_getElem?
        intro i
        rw [Cells.getElem?_slice]
        rcases i with - | - | i
        · simpa [Value.kind, Kind.width, Value.words, DWord.words] using low
        · simpa [Value.kind, Kind.width, Value.words, DWord.words] using high
        · exact if_neg (show ¬ i + 2 < 2 by omega)
    rcases matching.push done with ⟨stack, pushEq, matches'⟩
    refine ⟨frame.setStack stack, ?_, matches'⟩
    rw [executeLoad, matching.index_mod inside, value]
    simp [pushEq, pure, Except.pure]
  · cases done

theorem storeInt (matching : FrameMatches spec frame) {index : BitVec 32}
    (done : spec.storeInt index.toNat = some after) :
    Follows after (executeStore frame .int index) := by
  unfold SpecFrame.storeInt at done
  split at done
  · rename_i val below stackEq
    split at done
    · rename_i inside
      cases done
      have represents := matching.stack
      rw [stackEq] at represents
      rcases represents.pop with ⟨stack, popEq, representsNext⟩
      have popInt : frame.operandStack.pop .int = .ok (.int val, stack) := popEq
      have stored : frame.localVars.setValue index.toNat (.int val) =
          .ok ⟨Cells.blit frame.localVars.slots index.toNat [val]⟩ := by
        apply Slots.setValue_of_le (.int val)
        rw [matching.getSize_localVars]
        exact inside
      refine ⟨_, ?_, (matching.setStack representsNext).setVars
        (matching.locals.set_int val inside) (by simp)⟩
      rw [executeStore, popInt, matching.index_mod inside]
      simp only [Exec.bind_ok, stored]
      rfl
    · cases done
  · cases done

theorem storeLong (matching : FrameMatches spec frame) {index : BitVec 32}
    (done : spec.storeLong index.toNat = some after) :
    Follows after (executeStore frame .long index) := by
  unfold SpecFrame.storeLong at done
  split at done
  · rename_i val below stackEq
    split at done
    · rename_i inside
      cases done
      have represents := matching.stack
      rw [stackEq] at represents
      rcases represents.pop with ⟨stack, popEq, representsNext⟩
      have popLong : frame.operandStack.pop .long = .ok (.long val, stack) := popEq
      have stored : frame.localVars.setValue index.toNat (.long val) =
          .ok ⟨Cells.blit frame.localVars.slots index.toNat val.words⟩ := by
        apply Slots.setValue_of_le (.long val)
        rw [matching.getSize_localVars]
        exact inside
      refine ⟨_, ?_, (matching.setStack representsNext).setVars
        (matching.locals.set_long val inside) (by simp)⟩
      rw [executeStore, popLong, matching.index_mod (Nat.lt_of_succ_lt inside)]
      simp only [Exec.bind_ok, stored]
      rfl
    · cases done
  · cases done

theorem increment (matching : FrameMatches spec frame) {index const : BitVec 32}
    (done : spec.increment index.toNat const.toInt = some after) :
    Follows after (executeIinc frame index const) := by
  unfold SpecFrame.increment at done
  split at done
  · rename_i val found
    cases done
    have inside : index.toNat < spec.locals.length := (List.getElem?_eq_some_iff.mp found).1
    have slot : frame.localVars.getInt index.toNat = .ok val :=
      Slots.getOne_of_getElem?_eq _ (matching.locals.int found)
    have stored : frame.localVars.setInt index.toNat (val + const) =
        .ok ⟨Cells.blit frame.localVars.slots index.toNat [val + const]⟩ := by
      apply Slots.setOne_of_lt
      rw [matching.getSize_localVars]
      exact inside
    have sum : BitVec.ofInt 32 (val.toInt + const.toInt) = val + const := by
      simp [BitVec.ofInt_add]
    rw [sum]
    refine ⟨_, ?_, matching.setVars (matching.locals.set_int (val + const) inside) (by simp)⟩
    rw [executeIinc, matching.index_mod inside, slot, Exec.bind_ok, stored]
    rfl
  · cases done

/-! ## Branches -/

theorem jump (matching : FrameMatches spec frame) {origin : Nat} {offset : BitVec 32}
    (done : spec.jump origin offset.toInt = some after) :
    FrameMatches after (branch (BitVec.ofNat 32 origin) offset frame) := by
  unfold SpecFrame.jump at done
  split at done
  · rename_i inside
    cases done
    have target : BitVec.ofNat 32 (origin + offset.toInt).toNat =
        BitVec.ofNat 32 origin + offset := by
      rw [← BitVec.ofInt_natCast, Int.toNat_of_nonneg inside.1, BitVec.ofInt_add]
      simp
    have small : (origin + offset.toInt).toNat < 2 ^ 31 := by
      have short := matching.short
      omega
    rw [branch, ← target]
    exact matching.setNextPc small
  · cases done

theorem jumpIf (matching : FrameMatches spec frame) {origin : Nat} {offset : BitVec 32}
    {test : Int → Prop} [DecidablePred test] {holds : Word → Bool}
    (agree : ∀ val : Word, holds val = true ↔ test val.toInt)
    (done : spec.jumpIf origin offset.toInt test = some after) :
    Follows after (branchIf (BitVec.ofNat 32 origin) offset holds frame) := by
  unfold SpecFrame.jumpIf at done
  split at done
  · rename_i val below stackEq
    have represents := matching.stack
    rw [stackEq] at represents
    rcases TypedStack.pops_popInt _ represents with ⟨first, popFirst, representsFirst⟩
    have popped := matching.setStack representsFirst
    by_cases taken : test val.toInt
    · rw [if_pos taken] at done
      refine ⟨_, ?_, popped.jump done⟩
      simp [branchIf, popFirst, (agree val).mpr taken, pure, Except.pure]
    · rw [if_neg taken] at done
      cases done
      have skipped : holds val = false := by
        rw [← Bool.not_eq_true, agree]
        exact taken
      refine ⟨_, ?_, popped⟩
      simp [branchIf, popFirst, skipped, pure, Except.pure]
  · cases done

theorem jumpIf2 (matching : FrameMatches spec frame) {origin : Nat} {offset : BitVec 32}
    {test : Int → Int → Prop} [∀ left, DecidablePred (test left)] {holds : Word → Word → Bool}
    (agree : ∀ left right : Word, holds left right = true ↔ test left.toInt right.toInt)
    (done : spec.jumpIf2 origin offset.toInt test = some after) :
    Follows after (branchIf2 (BitVec.ofNat 32 origin) offset holds frame) := by
  unfold SpecFrame.jumpIf2 at done
  split at done
  · rename_i right left below stackEq
    have represents := matching.stack
    rw [stackEq] at represents
    rcases TypedStack.pops_popInt _ represents with ⟨first, popFirst, representsFirst⟩
    rcases TypedStack.pops_popInt _ representsFirst with ⟨second, popSecond, representsSecond⟩
    have popped := matching.setStack representsSecond
    by_cases taken : test left.toInt right.toInt
    · rw [if_pos taken] at done
      refine ⟨_, ?_, popped.jump done⟩
      simp [branchIf2, popFirst, popSecond, (agree left right).mpr taken, pure, Except.pure]
    · rw [if_neg taken] at done
      cases done
      have skipped : holds left right = false := by
        rw [← Bool.not_eq_true, agree]
        exact taken
      refine ⟨_, ?_, popped⟩
      simp [branchIf2, popFirst, popSecond, skipped, pure, Except.pure]
  · cases done

end FrameMatches

/-! ## Arithmetic of the machine and of the specification -/

/-- The tests of the branches are comparisons of integers. -/
theorem holds_iff_compares (cond : Cond) (left right : Word) :
    cond.holds left right = true ↔ Compares left.toInt right.toInt cond := by
  cases cond with
  | eq => simp [Cond.holds, Compares, BitVec.toInt_inj]
  | ne => simp [Cond.holds, Compares, BitVec.toInt_inj]
  | lt => simp [Cond.holds, Compares, BitVec.slt_iff_toInt_lt]
  | ge => simp [Cond.holds, Compares, BitVec.sle_iff_toInt_le]
  | gt => simp [Cond.holds, Compares, BitVec.slt_iff_toInt_lt]
  | le => simp [Cond.holds, Compares, BitVec.sle_iff_toInt_le]

section Wrap

variable {width : Nat} (left right : BitVec width)

theorem ofInt_toInt_add : BitVec.ofInt width (left.toInt + right.toInt) = left + right := by
  simp [BitVec.ofInt_add]

theorem ofInt_toInt_sub : BitVec.ofInt width (left.toInt - right.toInt) = left - right := by
  apply BitVec.eq_of_toInt_eq
  simp [BitVec.toInt_sub]

theorem ofInt_toInt_mul : BitVec.ofInt width (left.toInt * right.toInt) = left * right := by
  simp [BitVec.ofInt_mul]

theorem ofInt_toInt_neg : BitVec.ofInt width (-left.toInt) = -left := by
  apply BitVec.eq_of_toInt_eq
  simp [BitVec.toInt_neg]

end Wrap

theorem ofInt_toInt_eq_setWidth (val : DWord) : BitVec.ofInt 32 val.toInt = val.setWidth 32 := by
  rw [← BitVec.signExtend_eq_setWidth_of_le val (by decide)]
  rfl

/-- The casts to narrow types keep the low bits, with or without sign. -/
theorem narrow_int8 (val : Word) :
    NarrowTy.int8.narrow val = BitVec.ofInt 32 (val.toInt.bmod (2 ^ 8)) := by
  rw [NarrowTy.narrow, ← BitVec.signExtend_eq_setWidth_of_le val (by decide)]
  simp [BitVec.signExtend, BitVec.toInt_ofInt]

theorem narrow_int16 (val : Word) :
    NarrowTy.int16.narrow val = BitVec.ofInt 32 (val.toInt.bmod (2 ^ 16)) := by
  rw [NarrowTy.narrow, ← BitVec.signExtend_eq_setWidth_of_le val (by decide)]
  simp [BitVec.signExtend, BitVec.toInt_ofInt]

theorem narrow_char16 (val : Word) :
    NarrowTy.char16.narrow val = BitVec.ofInt 32 (val.toInt % 2 ^ 16) := by
  apply BitVec.eq_of_toNat_eq
  have split := BitVec.toInt_eq_toNat_cond val
  simp only [NarrowTy.narrow, BitVec.toNat_setWidth, BitVec.toNat_ofInt]
  split at split <;> omega

/-! ## One instruction -/

section Step

open FrameMatches

variable {spec after : SpecFrame} {frame : Frame}

/-- The index of the short forms. -/
theorem toNat_number {bound : Nat} (number : Fin bound) (small : bound ≤ 2 ^ 32) :
    (BitVec.ofNat 32 number.val).toNat = number.val := by
  rw [BitVec.toNat_ofNat]
  exact Nat.mod_eq_of_lt (Nat.lt_of_lt_of_le number.isLt small)

/-- Where the specification defines an effect, `Execute` has it. -/
theorem execute_follows (matching : FrameMatches spec frame) (ops : FloatOps) {origin : Nat}
    (inst : FrameInst) (done : effect origin spec inst = some after) :
    Follows after (inst.execute ops (BitVec.ofNat 32 origin) frame) := by
  cases inst with
  | nop =>
      cases done
      exact ⟨frame, rfl, matching⟩
  | iconst number => exact matching.pushConst done
  | lconst number =>
      have pushed : spec.push (.long (BitVec.ofInt 64 (number.val : Int))) = some after := done
      rw [BitVec.ofInt_natCast] at pushed
      exact matching.pushConst pushed
  | bipush val => exact matching.pushConst done
  | sipush val => exact matching.pushConst done
  | load kind index =>
      cases kind with
      | int => exact matching.loadInt done
      | long => exact matching.loadLong done
      | _ => cases done
  | loadN kind number =>
      cases kind with
      | int => exact matching.loadInt (by rw [toNat_number number (by decide)]; exact done)
      | long => exact matching.loadLong (by rw [toNat_number number (by decide)]; exact done)
      | _ => cases done
  | store kind index =>
      cases kind with
      | int => exact matching.storeInt done
      | long => exact matching.storeLong done
      | _ => cases done
  | storeN kind number =>
      cases kind with
      | int => exact matching.storeInt (by rw [toNat_number number (by decide)]; exact done)
      | long => exact matching.storeLong (by rw [toNat_number number (by decide)]; exact done)
      | _ => cases done
  | iinc index const => exact matching.increment done
  | add type =>
      cases type with
      | int32 =>
          exact matching.intOp
            (fun left right => congrArg Except.ok (ofInt_toInt_add left right).symm) done
      | int64 =>
          exact matching.longOp
            (fun left right => congrArg Except.ok (ofInt_toInt_add left right).symm) done
      | _ => cases done
  | sub type =>
      cases type with
      | int32 =>
          exact matching.intOp
            (fun left right => congrArg Except.ok (ofInt_toInt_sub left right).symm) done
      | int64 =>
          exact matching.longOp
            (fun left right => congrArg Except.ok (ofInt_toInt_sub left right).symm) done
      | _ => cases done
  | mul type =>
      cases type with
      | int32 =>
          exact matching.intOp
            (fun left right => congrArg Except.ok (ofInt_toInt_mul left right).symm) done
      | int64 =>
          exact matching.longOp
            (fun left right => congrArg Except.ok (ofInt_toInt_mul left right).symm) done
      | _ => cases done
  | neg type =>
      cases type with
      | int32 =>
          exact matching.intMap (fun _ _ => rfl)
            (fun val => congrArg Value.int (ofInt_toInt_neg val).symm) done
      | int64 =>
          exact matching.longMap (fun _ _ => rfl)
            (fun val => congrArg Value.long (ofInt_toInt_neg val).symm) done
      | _ => cases done
  | and type =>
      cases type with
      | int32 =>
          exact matching.intOp
            (fun left right => congrArg Except.ok (BitVec.and_comm right left)) done
      | int64 =>
          exact matching.longOp
            (fun left right => congrArg Except.ok (BitVec.and_comm right left)) done
  | or type =>
      cases type with
      | int32 =>
          exact matching.intOp
            (fun left right => congrArg Except.ok (BitVec.or_comm right left)) done
      | int64 =>
          exact matching.longOp
            (fun left right => congrArg Except.ok (BitVec.or_comm right left)) done
  | xor type =>
      cases type with
      | int32 =>
          exact matching.intOp
            (fun left right => congrArg Except.ok (BitVec.xor_comm right left)) done
      | int64 =>
          exact matching.longOp
            (fun left right => congrArg Except.ok (BitVec.xor_comm right left)) done
  | t2r conversion =>
      cases conversion with
      | i2l => exact matching.intMap (fun _ _ => rfl) (fun _ => rfl) done
      | l2i =>
          exact matching.longMap (fun _ _ => rfl)
            (fun val => congrArg Value.int (ofInt_toInt_eq_setWidth val).symm) done
      | _ => cases done
  | i2r result =>
      cases result with
      | int8 =>
          exact matching.intMap (fun _ _ => rfl)
            (fun val => congrArg Value.int (narrow_int8 val)) done
      | char16 =>
          exact matching.intMap (fun _ _ => rfl)
            (fun val => congrArg Value.int (narrow_char16 val)) done
      | int16 =>
          exact matching.intMap (fun _ _ => rfl)
            (fun val => congrArg Value.int (narrow_int16 val)) done
  | if_ cond offset =>
      have jumped : spec.jumpIf origin offset.toInt (fun val => Compares val 0 cond) =
        some after := done
      exact matching.jumpIf (fun val => holds_iff_compares cond val 0) jumped
  | ifIcmp cond offset =>
      have jumped : spec.jumpIf2 origin offset.toInt
        (fun left right => Compares left right cond) = some after := done
      exact matching.jumpIf2 (holds_iff_compares cond) jumped
  | goto offset => exact ⟨_, rfl, matching.jump done⟩
  | gotoW offset => exact ⟨_, rfl, matching.jump done⟩
  | _ => cases done

end Step

/-! ## Iterations and runs -/

/-- The frames of the thread match a stack of specification frames. -/
def FramesMatch (specs : List SpecFrame) (vm : Vm) : Prop :=
  List.Forall₂ FrameMatches specs vm.thread.frames

/-- What stands at an address has a byte there and ends inside the code. -/
theorem le_length_of_standsAt {code : List Byte} {pc next : Nat} {inst : Instruction}
    (stands : StandsAt code pc inst next) : pc < next ∧ next ≤ code.length := by
  rcases stands with ⟨encodable, filler, laidOut, rfl⟩
  have inside := laidOut.length_le
  have positive := length_encode_pos filler pc inst
  simp only [List.length_drop] at inside
  omega

/-- The instruction that stands at the program counter is the one fetched, and
the counter moves behind it. -/
theorem fetchAt_of_standsAt {code : List Byte} {pc next : Nat} {inst : Instruction}
    (short : code.length < 2 ^ 31) (stands : StandsAt code pc inst next) :
    fetchAt code (BitVec.ofNat 32 pc) = .ok (inst, BitVec.ofNat 32 next) := by
  obtain ⟨nonempty, ends⟩ := le_length_of_standsAt stands
  have inside := Nat.lt_of_le_of_lt ends short
  have small := Nat.lt_trans nonempty inside
  rcases stands with ⟨encodable, filler, laidOut, rfl⟩
  rcases fetch_of_encoded encodable short laidOut with ⟨touched, fetched⟩
  have counter : (BitVec.ofNat 32 pc).toNat = pc := by
    rw [BitVec.toNat_ofNat]
    exact Nat.mod_eq_of_lt (by omega)
  have nonnegative : (BitVec.ofNat 32 pc).slt 0#32 = false := by
    rw [BitVec.slt_zero_eq_msb, BitVec.msb_eq_decide, counter]
    simpa using small
  rw [fetchAt, if_neg (by simpa using nonnegative), counter, fetched, Exec.bind_ok]
  exact if_pos inside

/-- An iteration executes the instruction that stands at the program counter. -/
theorem iteration_of_standsAt (machine : Machine) {vm : Vm} {frame : Frame} {rest : List Frame}
    {code : List Byte} {pc next : Nat} {inst : Instruction}
    (frames : vm.thread.frames = frame :: rest) (codes : frame.method.codes = some code)
    (short : code.length < 2 ^ 31) (nextPc : frame.nextPc = BitVec.ofNat 32 pc)
    (stands : StandsAt code pc inst next) :
    iteration machine vm =
      inst.execute machine ((vm.setPc (BitVec.ofNat 32 pc)).setFrames
        (frame.setNextPc (BitVec.ofNat 32 next) :: rest))
        (frame.setNextPc (BitVec.ofNat 32 next)) rest := by
  have fetched := fetchAt_of_standsAt short stands
  simp [iteration, withFrame, frames, codesOf, codes, nextPc, fetched]

/-- Every step of the specification is matched by an iteration. -/
theorem iteration_simulates (machine : Machine) :
    Simulates FramesMatch SpecStep (iteration machine) where
  step := by
    intro specs specsNext vm related stepped
    cases stepped with
    | @frame spec after rest inst next stands done =>
        rcases List.forall₂_cons_left_iff.mp related with
          ⟨frame, frames, matching, others, vmFrames⟩
        have inside := (le_length_of_standsAt stands).2
        have moved := matching.setNextPc (Nat.lt_of_le_of_lt inside matching.short)
        rcases execute_follows moved machine.floatOps inst done with ⟨final, executed, matches'⟩
        refine ⟨(vm.setPc (BitVec.ofNat 32 spec.pc)).setFrames (final :: frames), ?_,
          .cons matches' others⟩
        rw [iteration_of_standsAt machine vmFrames matching.codes matching.short matching.nextPc
          stands]
        simp only [Instruction.execute, Vm.setFrames_pc, Vm.setPc_pc, executed]
        rfl
    | @return_ spec rest next stands =>
        rcases List.forall₂_cons_left_iff.mp related with
          ⟨frame, frames, matching, others, vmFrames⟩
        refine ⟨(vm.setPc (BitVec.ofNat 32 spec.pc)).setFrames frames, ?_, others⟩
        rw [iteration_of_standsAt machine vmFrames matching.codes matching.short matching.nextPc
          stands]
        rfl

theorem isStackEmpty_iff_of_framesMatch {specs : List SpecFrame} {vm : Vm}
    (related : FramesMatch specs vm) : isStackEmpty vm = true ↔ specs = [] := by
  rw [isStackEmpty, List.isEmpty_iff]
  constructor
  · intro empty
    rw [FramesMatch, empty] at related
    exact List.forall₂_nil_right_iff.mp related
  · rintro rfl
    exact List.forall₂_nil_left_iff.mp related

/-- The frame in which a method starts, with its arguments in the variables. -/
theorem frameMatches_ofMethod {method : Method} {code : List Byte} {cells : List Cell}
    {slots : Slots} (codes : method.codes = some code) (short : code.length < 2 ^ 31)
    (maxStack : method.maxStack < 2 ^ 16) (maxLocals : method.maxLocals < 2 ^ 16)
    (args : LocalsMatch cells slots.slots) (count : cells.length = method.maxLocals) :
    FrameMatches ⟨code, method.maxStack, cells, [], 0⟩ ((Frame.ofMethod method).setVars slots) where
  codes := codes
  short := short
  nextPc := rfl
  pc_lt := Nat.two_pow_pos 31
  stack := by
    rw [Frame.setVars_operandStack, Frame.ofMethod, Nat.mod_eq_of_lt maxStack]
    exact TypedStack.represents_ofSize (Nat.le_of_lt_succ maxStack)
  locals := args
  few := by rw [count]; exact maxLocals

/-- For every method, every content of its variables and every number of steps
for which the specification is defined, that many iterations of the loop return,
the state they reach matches that of the specification, and the loop stops there
exactly when the last frame has returned. -/
theorem loopExecute_simulates (machine : Machine) {vm : Vm} {method : Method} {code : List Byte}
    {cells : List Cell} {slots : Slots} (codes : method.codes = some code)
    (short : code.length < 2 ^ 31) (maxStack : method.maxStack < 2 ^ 16)
    (maxLocals : method.maxLocals < 2 ^ 16) (args : LocalsMatch cells slots.slots)
    (count : cells.length = method.maxLocals)
    (frames : vm.thread.frames = [(Frame.ofMethod method).setVars slots]) {steps : Nat}
    {last : List SpecFrame}
    (run : RunsIn SpecStep steps [⟨code, method.maxStack, cells, [], 0⟩] last) :
    ∃ final, loopExecute machine steps vm = .ok final ∧
      List.Forall₂ FrameMatches last final.thread.frames ∧
      (isStackEmpty final = true ↔ last = []) ∧
      (0 < steps → last = [] → ∀ more, loopExecute machine (steps + more) vm = .ok final) := by
  have start : FramesMatch [⟨code, method.maxStack, cells, [], 0⟩] vm := by
    rw [FramesMatch, frames]
    exact .cons (frameMatches_ofMethod codes short maxStack maxLocals args count) .nil
  apply (iteration_simulates machine).loop isStackEmpty_iff_of_framesMatch ?_ run start
  rintro state next stepped rfl
  cases stepped

/-- `for (i = 2; i != 0; i--);`: the branch at address 6 goes back to the
decrement at address 2. -/
def countdown : Method where
  codes := some (padded [0x05, 0x3b, 0x84, 0x00, 0xff, 0x1a, 0x9a, 0xff, 0xfc, 0xb1])
  maxStack := 1
  maxLocals := 1
  exceptionTable := some [emptyHandler]

/-- A frame of the specification in the middle of `countdown`. -/
def countdownAt (pc : Nat) (cell : Cell) (stack : List Value) : SpecFrame :=
  ⟨padded [0x05, 0x3b, 0x84, 0x00, 0xff, 0x1a, 0x9a, 0xff, 0xfc, 0xb1], 1, [cell], stack, pc⟩

theorem countdown_step {pc : Nat} {cell : Cell} {stack : List Value} {after : SpecFrame}
    (inst : FrameInst) (next : Nat) (stands : inst.Encodable)
    (laidOut : encode (fun _ => 0) pc (.frame inst) <+: (countdownAt pc cell stack).code.drop pc)
    (length : next = pc + (encode (fun _ => 0) pc (.frame inst)).length)
    (done : effect pc (countdownAt next cell stack) inst = some after) :
    SpecStep [countdownAt pc cell stack] [after] :=
  .frame ⟨stands, _, laidOut, length⟩ done

theorem countdown_runs : RunsIn SpecStep 9 [countdownAt 0 .unusable []] [] := by
  refine .succ (countdown_step (.iconst 3) 1 (by decide) (by decide) rfl rfl) ?_
  refine .succ (countdown_step (.storeN .int 0) 2 (by decide) (by decide) rfl rfl) ?_
  refine .succ (countdown_step (.iinc 0 (-1)) 5 (by decide) (by decide) rfl rfl) ?_
  refine .succ (countdown_step (.loadN .int 0) 6 (by decide) (by decide) rfl rfl) ?_
  refine .succ (countdown_step (.if_ .ne (-4)) 9 (by decide) (by decide) rfl rfl) ?_
  refine .succ (countdown_step (.iinc 0 (-1)) 5 (by decide) (by decide) rfl rfl) ?_
  refine .succ (countdown_step (.loadN .int 0) 6 (by decide) (by decide) rfl rfl) ?_
  refine .succ (countdown_step (.if_ .ne (-4)) 9 (by decide) (by decide) rfl rfl) ?_
  exact .succ (.return_ ⟨by decide, fun _ => 0, by decide, rfl⟩) (.zero _)

theorem loopExecute_simulates_countdown :
    ∃ final, loopExecute (.ofTable .empty) 9 (.ofFrames [.ofMethod countdown]) = .ok final ∧
      isStackEmpty final = true ∧
      ∀ more, loopExecute (.ofTable .empty) (9 + more) (.ofFrames [.ofMethod countdown]) =
        .ok final := by
  have start : (Vm.ofFrames [.ofMethod countdown]).thread.frames =
    [(Frame.ofMethod countdown).setVars (Slots.ofCount 1)] := rfl
  rcases loopExecute_simulates (.ofTable .empty) rfl (by decide) (by decide) (by decide)
    (localsMatch_replicate 1) rfl start countdown_runs with ⟨final, finished, -, stopped, stays⟩
  exact ⟨final, finished, stopped.mpr rfl, stays (by decide) rfl⟩

end JvmDemo.Interpreter
