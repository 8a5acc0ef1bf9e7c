import JvmDemo.Runtime.OperandStack
import JvmDemo.Lib.Refinement

/-!
# The operand stack as a stack of typed values

The abstract stack is a list of typed values, newest first, under a bound on
the total width.  A push is refused when the value's width exceeds the free
slots, a pop when the stack is empty.  The slot-based operand stack refines it
for every client that pops each value with its own type.
-/

namespace JvmDemo.Runtime.TypedStack

open JvmDemo.Lib
open JvmDemo.Lib.Refinement

/-- The operations of a client. -/
inductive Op where
  | push (value : Value)
  | pop (kind : Kind)
  | clear
  deriving DecidableEq, Repr

/-- The slots that a stack of values takes. -/
def used : List Value → Nat
  | [] => 0
  | value :: below => used below + value.kind.width

/-- The words of a stack of values, bottom to top. -/
def words : List Value → List Word
  | [] => []
  | value :: below => words below ++ value.words

@[simp]
theorem length_words (values : List Value) : (words values).length = used values := by
  induction values with
  | nil => rfl
  | cons value below ih => simp [words, used, ih]

theorem words_append (values below : List Value) :
    words (values ++ below) = words below ++ words values := by
  induction values with
  | nil => simp [words]
  | cons value values ih => simp [words, ih]

theorem used_append (values below : List Value) :
    used (values ++ below) = used values + used below := by
  rw [← length_words, words_append, List.length_append, length_words, length_words, Nat.add_comm]

/-- One operation of the abstract stack with `capacity` slots. -/
def step (capacity : Nat) : Op → List Value → Option (Option Value × List Value)
  | .push value, values =>
      if used values + value.kind.width ≤ capacity then some (none, value :: values) else none
  | .pop _, [] => none
  | .pop _, value :: below => some (some value, below)
  | .clear, _ => some (none, [])

/-- Each pop is of the type of the value on top. -/
def Typed : Op → List Value → Prop
  | .pop kind, value :: _ => value.kind = kind
  | _, _ => True

/-- The same operation on the operand stack. -/
def execute : Op → OperandStack → Exec (Option Value × OperandStack)
  | .push value, stack => do
      let next ← stack.push value
      pure (none, next)
  | .pop kind, stack => do
      let (value, next) ← stack.pop kind
      pure (some value, next)
  | .clear, stack => pure (none, stack.clear)

/-- An operand stack of `capacity` slots whose live words are those of the
values. -/
structure Represents (capacity : Nat) (values : List Value) (stack : OperandStack) : Prop where
  holds : stack.Holds (words values)
  getSize_eq : stack.slots.getSize = capacity

/-- The `top_` index is the sum of the widths. -/
theorem Represents.top_eq {capacity : Nat} {values : List Value} {stack : OperandStack}
    (represents : Represents capacity values stack) : stack.top = used values := by
  rw [represents.holds.top_eq, length_words]

/-- The sum of the widths never exceeds the capacity. -/
theorem Represents.used_le {capacity : Nat} {values : List Value} {stack : OperandStack}
    (represents : Represents capacity values stack) : used values ≤ capacity := by
  have fits := represents.holds.fits
  rwa [length_words, represents.getSize_eq] at fits

theorem represents_ofSize {capacity : Nat} (bound : capacity ≤ 65535) :
    Represents capacity [] (OperandStack.ofSize capacity) where
  holds := OperandStack.holds_ofSize (by omega)
  getSize_eq := Slots.getSize_ofCount capacity

/-- A stack of `capacity` slots with these values; the slots above are zero. -/
def ofValues (capacity : Nat) (values : List Value) : OperandStack :=
  ⟨used values, ⟨words values ++ List.replicate (capacity - used values) 0⟩⟩

theorem represents_ofValues {capacity : Nat} {values : List Value} (fits : used values ≤ capacity)
    (bound : capacity ≤ 65535) : Represents capacity values (ofValues capacity values) := by
  have size : (ofValues capacity values).slots.getSize = capacity := by
    simp only [ofValues, Slots.getSize, List.length_append, length_words, List.length_replicate]
    omega
  constructor
  · constructor
    · exact (length_words values).symm
    · rw [length_words, size]
      exact fits
    · omega
    · exact List.take_left
  · exact size

/-- A value that fits is pushed on top. -/
theorem Represents.push {capacity : Nat} {values : List Value} {stack : OperandStack}
    (represents : Represents capacity values stack) (value : Value)
    (room : used values + value.kind.width ≤ capacity) :
    ∃ next, stack.push value = .ok next ∧ Represents capacity (value :: values) next := by
  have fits : stack.top + value.kind.width ≤ stack.slots.getSize := by
    rw [represents.top_eq, represents.getSize_eq]
    exact room
  refine ⟨stack.pushed value.words, OperandStack.push_eq value fits, ?_, ?_⟩
  · apply represents.holds.pushed
    simpa [represents.getSize_eq] using room
  · simpa using represents.getSize_eq

/-- The value on top is popped by its own kind. -/
theorem Represents.pop {capacity : Nat} {value : Value} {below : List Value} {stack : OperandStack}
    (represents : Represents capacity (value :: below) stack) :
    ∃ next, stack.pop value.kind = .ok (value, next) ∧ Represents capacity below next := by
  have holds : stack.Holds (words below ++ value.words) := represents.holds
  refine ⟨stack.popped value.kind.width, holds.pop_eq, ?_, ?_⟩
  · simpa using holds.popped
  · simpa using represents.getSize_eq

/-- Only the words of the values count: a `long` may be read as two `int`s. -/
theorem Represents.retype {capacity : Nat} {values others : List Value} {stack : OperandStack}
    (represents : Represents capacity values stack) (same : words others = words values) :
    Represents capacity others stack where
  holds := by
    rw [same]
    exact represents.holds
  getSize_eq := represents.getSize_eq

/-- The words that a stack represents are determined by it. -/
theorem Represents.words_eq {capacity : Nat} {values others : List Value} {stack : OperandStack}
    (represents : Represents capacity values stack)
    (representsOthers : Represents capacity others stack) : words values = words others := by
  rw [← represents.holds.held, ← representsOthers.holds.held, ← represents.holds.top_eq,
    ← representsOthers.holds.top_eq]

/-! ## Pops of one kind -/

/-- A pop that returns the content of the value on top. -/
def Pops {α : Type} (pop : OperandStack → Exec (α × OperandStack)) (wrap : α → Value) : Prop :=
  ∀ ⦃capacity : Nat⦄ ⦃below : List Value⦄ ⦃stack : OperandStack⦄ (val : α),
    Represents capacity (wrap val :: below) stack →
      ∃ next, pop stack = .ok (val, next) ∧ Represents capacity below next

/-- The pop of a kind returns what the typed pop under it returns. -/
theorem pops_of_pop {α : Type} {pop : OperandStack → Exec (α × OperandStack)} {wrap : α → Value}
    (injective : Function.Injective wrap)
    (pop_eq : ∀ stack val, stack.pop (wrap val).kind = (do
      let (val, rest) ← pop stack
      pure (wrap val, rest))) : Pops pop wrap := by
  intro capacity below stack val represents
  obtain ⟨next, popped, representsNext⟩ := represents.pop
  rw [pop_eq stack val] at popped
  obtain ⟨⟨found, rest⟩, typedPop, same⟩ := Exec.bind_eq_ok.mp popped
  obtain ⟨sameValue, rfl⟩ := Prod.mk.inj (Except.ok.inj same)
  rw [injective sameValue] at typedPop
  exact ⟨rest, typedPop, representsNext⟩

theorem pops_popInt : Pops OperandStack.popInt .int :=
  pops_of_pop (fun _ _ => Value.int.inj) fun _ _ => rfl

theorem pops_popFloat : Pops OperandStack.popFloat .float :=
  pops_of_pop (fun _ _ => Value.float.inj) fun _ _ => rfl

theorem pops_popLong : Pops OperandStack.popLong .long :=
  pops_of_pop (fun _ _ => Value.long.inj) fun _ _ => rfl

theorem pops_popDouble : Pops OperandStack.popDouble .double :=
  pops_of_pop (fun _ _ => Value.double.inj) fun _ _ => rfl

/-! ## Single slots

A slot by itself is an `int`. -/

/-- The words of single slots, the newest first. -/
theorem words_map_int (slots : List Slot) : words (slots.map .int) = slots.reverse := by
  induction slots with
  | nil => rfl
  | cons slot slots ih => simp [words, ih, Value.words]

theorem used_map_int (slots : List Slot) : used (slots.map .int) = slots.length := by
  rw [← length_words, words_map_int, List.length_reverse]

theorem Represents.popSlot {capacity : Nat} {slot : Slot} {below : List Value}
    {stack : OperandStack} (represents : Represents capacity (.int slot :: below) stack)
    (spare : used below + 1 < capacity) :
    ∃ next, stack.popSlot = .ok (slot, next) ∧ Represents capacity below next := by
  have holds : stack.Holds (words below ++ [slot]) := represents.holds
  refine ⟨stack.popped 1, holds.popSlot_eq ?_, holds.popped, represents.getSize_eq⟩
  rw [length_words, represents.getSize_eq]
  exact spare

theorem Represents.pushSlot {capacity : Nat} {values : List Value} {stack : OperandStack}
    (represents : Represents capacity values stack) (slot : Slot)
    (room : used values + 1 ≤ capacity) :
    ∃ next, stack.pushSlot slot = .ok next ∧ Represents capacity (.int slot :: values) next := by
  have inside : stack.top < stack.slots.getSize := by
    rw [represents.top_eq, represents.getSize_eq]
    exact room
  refine ⟨stack.pushed [slot], ?_, ?_, ?_⟩
  · exact OperandStack.pushOne_eq _ inside (Slots.setOne_of_lt _ inside slot)
  · apply represents.holds.pushed
    rw [length_words, represents.getSize_eq]
    exact room
  · rw [OperandStack.getSize_pushed]
    exact represents.getSize_eq

/-! ## The refinement -/

/-- Operation by operation, the operand stack does what the abstract stack
does, and aborts where that one refuses. -/
theorem refines {capacity : Nat} (nonempty : 1 ≤ capacity) :
    Refines (Represents capacity) (fun fault => ∃ message, fault = .fatal message) Typed
      (step capacity) execute where
  refuse := by
    intro op values stack represents typed refused
    have top := represents.top_eq
    have size := represents.getSize_eq
    cases op with
    | push value =>
        have full : stack.slots.getSize < stack.top + value.kind.width := by
          by_contra room
          rw [step, if_pos (by omega)] at refused
          cases refused
        rcases OperandStack.push_aborts value (by omega) full with ⟨message, aborted⟩
        exact ⟨.fatal message, by simp [execute, aborted], message, rfl⟩
    | pop kind =>
        cases values with
        | nil =>
            rcases represents.holds.pop_aborts kind with ⟨message, aborted⟩
            exact ⟨.fatal message, by simp [execute, aborted], message, rfl⟩
        | cons value below => cases refused
    | clear => cases refused
  accept := by
    intro op values stack out next represents typed accepted
    cases op with
    | push value =>
        simp only [step] at accepted
        split at accepted
        · rename_i room
          cases accepted
          rcases represents.push value room with ⟨pushed, pushEq, representsNext⟩
          exact ⟨pushed, by simp [execute, pushEq, pure, Except.pure], representsNext⟩
        · cases accepted
    | pop kind =>
        cases values with
        | nil => cases accepted
        | cons value below =>
            cases accepted
            cases typed
            rcases represents.pop with ⟨popped, popEq, representsNext⟩
            exact ⟨popped, by simp [execute, popEq, pure, Except.pure], representsNext⟩
    | clear =>
        cases accepted
        exact ⟨stack.clear, rfl, represents.holds.clear, represents.getSize_eq⟩

/-- For every client that pops each value with its own type, the operand stack
returns what the abstract stack returns, aborts at the operation that it
refuses, and otherwise ends with `top_` at the sum of the widths. -/
theorem operandStack_refines_typedStack {capacity : Nat} (nonempty : 1 ≤ capacity)
    (bound : capacity ≤ 65535) (ops : List Op) (typed : Legal (step capacity) Typed ops []) :
    (implRun execute ops (OperandStack.ofSize capacity)).1 =
        (specRun (step capacity) ops []).1 ∧
      match (specRun (step capacity) ops []).2 with
      | none => Aborts (implRun execute ops (OperandStack.ofSize capacity)).2
      | some values => ∃ stack,
          (implRun execute ops (OperandStack.ofSize capacity)).2 = .ok stack ∧
            stack.top = used values ∧ used values ≤ capacity ∧
            stack.slots.slots.take stack.top = words values := by
  obtain ⟨outputs, final⟩ :=
    (refines nonempty).run ops (represents_ofSize bound) typed
  refine ⟨outputs, ?_⟩
  generalize (specRun (step capacity) ops []).2 = abstractFinal at final ⊢
  cases abstractFinal with
  | none =>
      obtain ⟨fault, failed, message, rfl⟩ := final
      exact ⟨message, failed⟩
  | some values =>
      obtain ⟨stack, finished, represents⟩ := final
      refine ⟨stack, finished, represents.top_eq, represents.used_le, ?_⟩
      rw [represents.holds.top_eq]
      exact represents.holds.held

/-- A client that fills three slots, pops one value and is then refused. -/
def sampleClient : List Op :=
  [.push (.long 5#64), .push (.int 7#32), .pop .int, .push (.ref 16#64)]

theorem operandStack_refines_typedStack_sampleClient :
    Legal (step 3) Typed sampleClient [] ∧
      (implRun execute sampleClient (OperandStack.ofSize 3)).1 =
        [none, none, some (.int 7#32)] ∧
      Aborts (implRun execute sampleClient (OperandStack.ofSize 3)).2 := by
  have typed : Legal (step 3) Typed sampleClient [] := by
    simp [sampleClient, Legal, step, Typed, used, Value.kind, Kind.width]
  obtain ⟨outputs, final⟩ :=
    operandStack_refines_typedStack (by decide) (by decide) sampleClient typed
  exact ⟨typed, outputs, final⟩

end JvmDemo.Runtime.TypedStack
