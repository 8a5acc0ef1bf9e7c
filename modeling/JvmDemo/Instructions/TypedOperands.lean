import JvmDemo.Instructions.FrameExecution
import JvmDemo.Runtime.TypedStack

/-!
# Instructions on stacks of typed values

The instructions of one shape pop their operands, compute, and push a result.
On an operand stack whose values are known, each shape reduces to its
computation and one push, which is what the modules on single instructions use.
-/

namespace JvmDemo.Instructions

open JvmDemo.Lib
open JvmDemo.Runtime
open JvmDemo.Runtime.TypedStack

/-- The instruction returns with these values on the operand stack, newest first,
and changes nothing else of the frame. -/
def Leaves (capacity : Nat) (values : List Value) (frame : Frame) (result : Exec Frame) : Prop :=
  ∃ stack, result = .ok (frame.setStack stack) ∧ Represents capacity values stack

namespace Leaves

variable {capacity : Nat} {values others : List Value} {frame : Frame} {result : Exec Frame}

theorem not_error {fault : Fault} : ¬ Leaves capacity values frame (.error fault) := by
  rintro ⟨stack, returned, -⟩
  cases returned

/-- An instruction has one result. -/
theorem words_eq (leaves : Leaves capacity values frame result)
    (leavesOthers : Leaves capacity others frame result) : words values = words others := by
  obtain ⟨stack, returned, represents⟩ := leaves
  obtain ⟨other, otherReturned, representsOthers⟩ := leavesOthers
  rw [returned, Except.ok.injEq] at otherReturned
  have same : stack = other := congrArg Frame.operandStack otherReturned
  exact represents.words_eq (same ▸ representsOthers)

theorem used_eq (leaves : Leaves capacity values frame result)
    (leavesOthers : Leaves capacity others frame result) : used values = used others := by
  rw [← length_words, leaves.words_eq leavesOthers, length_words]

/-- A push on a stack with room, as the last step of an instruction. -/
theorem of_push {rest : OperandStack} (represents : Represents capacity values rest)
    (value : Value) (room : used values + value.kind.width ≤ capacity) :
    Leaves capacity (value :: values) frame (do
      let stack ← rest.push value
      pure (frame.setStack stack)) := by
  obtain ⟨next, pushed, representsNext⟩ := represents.push value room
  rw [pushed]
  exact ⟨next, rfl, representsNext⟩

end Leaves

/-- A frame with these values on an operand stack of `capacity` slots. -/
def frameHolding (capacity : Nat) (values : List Value) : Frame :=
  (Frame.ofMethod {}).setStack (ofValues capacity values)

/-! ## The shapes -/

section Shapes

variable {α : Type} {pop : OperandStack → Exec (α × OperandStack)} {wrap : α → Value}
  {push : OperandStack → α → Exec OperandStack} {capacity : Nat} {below : List Value}
  {frame : Frame}

theorem binary_eq (pops : Pops pop wrap) (op : α → α → Exec α) {left right : α}
    (represents : Represents capacity (wrap right :: wrap left :: below) frame.operandStack) :
    ∃ rest, Represents capacity below rest ∧
      binary pop push op frame = (do
        let result ← op left right
        let stack ← push rest result
        pure (frame.setStack stack)) := by
  obtain ⟨first, popFirst, representsFirst⟩ := pops right represents
  obtain ⟨second, popSecond, representsSecond⟩ := pops left representsFirst
  exact ⟨second, representsSecond, by simp only [binary, popFirst, popSecond, Exec.bind_ok]⟩

theorem shift_eq (pops : Pops pop wrap) (op : α → Word → Exec α) {value : α} {amount : Word}
    (represents : Represents capacity (.int amount :: wrap value :: below) frame.operandStack) :
    ∃ rest, Represents capacity below rest ∧
      shift pop push op frame = (do
        let result ← op value amount
        let stack ← push rest result
        pure (frame.setStack stack)) := by
  obtain ⟨first, popFirst, representsFirst⟩ := pops_popInt amount represents
  obtain ⟨second, popSecond, representsSecond⟩ := pops value representsFirst
  exact ⟨second, representsSecond, by simp only [shift, popFirst, popSecond, Exec.bind_ok]⟩

/-- `_cmp` pushes the `unordered` result, if there is one, and then the other. -/
theorem compare_eq (pops : Pops pop wrap) (unordered : α → α → Option Word)
    (lt eq : α → α → Bool) {left right : α}
    (represents : Represents capacity (wrap right :: wrap left :: below) frame.operandStack) :
    ∃ rest, Represents capacity below rest ∧
      compare pop unordered lt eq frame = (do
        let stack ← match unordered right left with
          | some result => rest.push (.int result)
          | none => pure rest
        let stack ← stack.push (.int (if lt right left then 1 else if eq left right then 0 else -1))
        pure (frame.setStack stack)) := by
  obtain ⟨first, popFirst, representsFirst⟩ := pops right represents
  obtain ⟨second, popSecond, representsSecond⟩ := pops left representsFirst
  refine ⟨second, representsSecond, ?_⟩
  rw [compare, popFirst, Exec.bind_ok]
  dsimp only
  rw [popSecond, Exec.bind_ok]
  dsimp only
  cases unordered right left with
  | none => rfl
  | some result => rfl

end Shapes

end JvmDemo.Instructions
