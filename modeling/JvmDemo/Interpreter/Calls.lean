import JvmDemo.Instructions.ExactDecoding
import JvmDemo.Interpreter.Specification
import JvmDemo.Lib.Refinement
import JvmDemo.Runtime.Thread

/-!
# Semantics of static calls

The frame-local fragment is extended by `invokestatic` and the returns of `int`
and `long` values.  A program says which routine a reference in the constant
pool of a class stands for; it knows nothing of names, descriptors or class
loading.

The small-step semantics has a stack of activations.  The evaluation semantics
follows the nesting of the calls instead: an activation evaluates to the value
that it returns, and a call is one premise of the evaluation of its caller.

A call needs a free operand slot if it has arguments, since the interpreter does
not read the last slot of a full stack.
-/

namespace JvmDemo.Interpreter.Specification

open JvmDemo.Lib
open JvmDemo.Lib.Refinement
open JvmDemo.Runtime
open JvmDemo.Instructions

/-! ## Programs -/

/-- A static method with `int` and `long` parameters. -/
structure Routine where
  klass : ClassId
  code : List Byte
  maxStack : Nat
  maxLocals : Nat
  params : List Kind
  result : Option Kind
  deriving DecidableEq, Repr

/-- What the references in the constant pools of the classes stand for, and the
initializers of the classes. -/
structure Program where
  routineAt : ClassId → Nat → Option Routine
  initializer : ClassId → Option Routine

/-- The running or waiting frame of a routine. -/
structure Activation where
  routine : Routine
  frame : SpecFrame
  deriving DecidableEq, Repr

/-- The local variables that hold an argument. -/
def argCells : Value → List Cell
  | .int val => [.int val]
  | .long val => [.long val, .second]
  | .float _ => [.unusable]
  | .double _ | .ref _ => [.unusable, .unusable]

/-- The variables in which a routine starts: the arguments, and nothing else
usable. -/
def entryCells (maxLocals : Nat) (args : List Value) : List Cell :=
  args.flatMap argCells ++ List.replicate (maxLocals - TypedStack.used args) .unusable

namespace Routine

variable (routine : Routine)

/-- The activation in which a routine starts. -/
def enter (args : List Value) : Activation where
  routine := routine
  frame := ⟨routine.code, routine.maxStack, entryCells routine.maxLocals args, [], 0⟩

/-- The thread has room for a frame of the routine on top of `depth` frames: its check
passes, and the frame ends inside the buffer. -/
def Fits (depth : Nat) : Prop :=
  depth * Frame.size + (routine.maxStack + routine.maxLocals + Frame.headerSize) ≤
      Thread.maxSize ∧
    (depth + 1) * Frame.size ≤ Thread.maxSize

instance (depth : Nat) : Decidable (routine.Fits depth) := inferInstanceAs (Decidable (_ ∧ _))

end Routine

namespace Activation

variable (act : Activation)

def setFrame (frame : SpecFrame) : Activation := { act with frame := frame }

@[simp]
theorem setFrame_routine (frame : SpecFrame) : (act.setFrame frame).routine = act.routine := rfl

@[simp]
theorem setFrame_frame (frame : SpecFrame) : (act.setFrame frame).frame = frame := rfl

@[simp]
theorem setFrame_setFrame (frame other : SpecFrame) :
    (act.setFrame frame).setFrame other = act.setFrame other := rfl

/-- The caller behind a call, without the arguments. -/
def proceed (below : List Value) (next : Nat) : SpecFrame :=
  { act.frame with stack := below, pc := next }

/-- A call of a routine stands at the program counter. -/
def AtCall (program : Program) (routine : Routine) (next : Nat) : Prop :=
  ∃ index : BitVec 32, StandsAt act.frame.code act.frame.pc (.invokeStatic index) next ∧
    program.routineAt act.routine.klass index.toNat = some routine

/-- A call of a routine with arguments stands at the program counter and can be
made on top of `depth` frames. -/
structure Calls (program : Program) (depth : Nat) (routine : Routine) (args below : List Value)
    (next : Nat) : Prop where
  stands : act.AtCall program routine next
  stack : act.frame.stack = args.reverse ++ below
  kinds : args.map Value.kind = routine.params
  fits : routine.Fits depth
  spare : args = [] ∨ TypedStack.used act.frame.stack < act.frame.maxStack

end Activation

/-- The invoker takes the result of a call. -/
def SpecFrame.receive (frame : SpecFrame) : Option Value → Option SpecFrame
  | none => some frame
  | some value => frame.push value

/-! ## Small steps -/

/-- One step of the activations, newest first. -/
inductive ProgramStep (program : Program) : List Activation → List Activation → Prop where
  | frame {act : Activation} {after : SpecFrame} {rest : List Activation} {inst : FrameInst}
      {next : Nat} :
      StandsAt act.frame.code act.frame.pc (.frame inst) next →
      effect act.frame.pc { act.frame with pc := next } inst = some after →
      ProgramStep program (act :: rest) (act.setFrame after :: rest)
  | call {act : Activation} {rest : List Activation} {routine : Routine}
      {args below : List Value} {next : Nat} :
      act.Calls program (rest.length + 1) routine args below next →
      ProgramStep program (act :: rest)
        (routine.enter args :: act.setFrame (act.proceed below next) :: rest)
  | return_ {act : Activation} {rest : List Activation} {next : Nat} :
      StandsAt act.frame.code act.frame.pc (.return_ none) next →
      ProgramStep program (act :: rest) rest
  | returnValue {act invoker : Activation} {after : SpecFrame} {rest : List Activation}
      {value : Value} {below : List Value} {next : Nat} :
      StandsAt act.frame.code act.frame.pc (.return_ (some value.kind)) next →
      act.frame.stack = value :: below →
      invoker.frame.push value = some after →
      ProgramStep program (act :: invoker :: rest) (invoker.setFrame after :: rest)

/-! ## Evaluation -/

/-- An activation on top of `depth` frames runs until it returns, with this
result. -/
inductive Evaluates (program : Program) : Nat → Activation → Option Value → Prop where
  | return_ {depth : Nat} {act : Activation} {next : Nat} :
      StandsAt act.frame.code act.frame.pc (.return_ none) next →
      Evaluates program depth act none
  | returnValue {depth : Nat} {act : Activation} {value : Value} {below : List Value}
      {next : Nat} :
      StandsAt act.frame.code act.frame.pc (.return_ (some value.kind)) next →
      act.frame.stack = value :: below →
      Evaluates program depth act (some value)
  | frame {depth : Nat} {act : Activation} {after : SpecFrame} {inst : FrameInst} {next : Nat}
      {result : Option Value} :
      StandsAt act.frame.code act.frame.pc (.frame inst) next →
      effect act.frame.pc { act.frame with pc := next } inst = some after →
      Evaluates program depth (act.setFrame after) result →
      Evaluates program depth act result
  | call {depth : Nat} {act : Activation} {routine : Routine} {args below : List Value}
      {next : Nat} {inner result : Option Value} {after : SpecFrame} :
      act.Calls program (depth + 1) routine args below next →
      Evaluates program (depth + 1) (routine.enter args) inner →
      (act.proceed below next).receive inner = some after →
      Evaluates program depth (act.setFrame after) result →
      Evaluates program depth act result

/-- Hand the result of an activation to those below it. -/
def deliver : Option Value → List Activation → Option (List Activation)
  | none, rest => some rest
  | some value, invoker :: rest =>
      (invoker.frame.push value).map fun after => invoker.setFrame after :: rest
  | some _, [] => none

theorem deliver_of_receive {result : Option Value} {act : Activation} {rest : List Activation}
    {spec after : SpecFrame} (received : spec.receive result = some after) :
    deliver result (act.setFrame spec :: rest) = some (act.setFrame after :: rest) := by
  cases result with
  | none =>
      cases received
      rfl
  | some value =>
      have pushed : spec.push value = some after := received
      simp [deliver, pushed]

/-- An evaluation is carried out by small steps, which change the activations below
only by handing them the result. -/
theorem Evaluates.runs {program : Program} {depth : Nat} {act : Activation}
    {result : Option Value} (evaluates : Evaluates program depth act result)
    {rest left : List Activation} (below : depth = rest.length)
    (delivered : deliver result rest = some left) :
    ∃ count, RunsIn (ProgramStep program) (count + 1) (act :: rest) left := by
  induction evaluates generalizing rest left with
  | return_ stands =>
      cases delivered
      exact ⟨0, .succ (.return_ stands) (.zero _)⟩
  | returnValue stands stack =>
      cases rest with
      | nil => cases delivered
      | cons invoker rest =>
          rcases Option.map_eq_some_iff.mp delivered with ⟨after, pushed, rfl⟩
          exact ⟨0, .succ (.returnValue stands stack pushed) (.zero _)⟩
  | frame stands done _ ih =>
      rcases ih below delivered with ⟨count, run⟩
      exact ⟨count + 1, .succ (.frame stands done) run⟩
  | @call depth act routine args kept next inner result middle calls _ taken _ ihCallee ihCaller =>
      subst below
      rcases @ihCallee (act.setFrame (act.proceed kept next) :: rest) _ rfl
        (deliver_of_receive taken) with ⟨calleeCount, calleeRun⟩
      rcases ihCaller rfl delivered with ⟨callerCount, callerRun⟩
      exact ⟨callerCount + 1 + (calleeCount + 1), .succ (.call calls) (calleeRun.trans callerRun)⟩

/-! ## Running programs -/

/-- The encodable instruction at an address, and the address behind it. -/
def instAt (code : List Byte) (pc : Nat) : Option (Instruction × Nat) :=
  match fetch.runAt code pc with
  | .ok (inst, cursor) => if inst.Encodable then some (inst, cursor.pos) else none
  | .error _ => none

theorem standsAt_of_instAt {code : List Byte} {pc next : Nat} {inst : Instruction}
    (found : instAt code pc = some (inst, next)) : StandsAt code pc inst next := by
  unfold instAt at found
  split at found
  · next fetched =>
      split at found
      · next encodable =>
          cases found
          have notWide : inst.isWide = false := by
            unfold Instruction.isWide
            split
            · exact encodable.elim
            · rfl
          rcases (fetch_iff notWide).mp ⟨_, fetched, rfl⟩ with ⟨-, filler, standing, ends⟩
          exact ⟨encodable, filler, standing, ends⟩
      · cases found
  · cases found

/-- Take the arguments of a call from a stack, the last one first. -/
def takeArgs (params : List Kind) (stack : List Value) : Option (List Value × List Value) :=
  let args := (stack.take params.length).reverse
  if args.map Value.kind = params then some (args, stack.drop params.length) else none

theorem takeArgs_eq_some {params : List Kind} {stack args below : List Value}
    (taken : takeArgs params stack = some (args, below)) :
    stack = args.reverse ++ below ∧ args.map Value.kind = params := by
  unfold takeArgs at taken
  dsimp only at taken
  split at taken
  · next kinds =>
      cases taken
      exact ⟨by rw [List.reverse_reverse, List.take_append_drop], kinds⟩
  · cases taken

/-- Call the routine of a reference, if that is possible. -/
def call? (program : Program) (act : Activation) (rest : List Activation) (index next : Nat) :
    Option (List Activation) := do
  let routine ← program.routineAt act.routine.klass index
  let (args, below) ← takeArgs routine.params act.frame.stack
  if routine.Fits (rest.length + 1) ∧
      (args = [] ∨ TypedStack.used act.frame.stack < act.frame.maxStack) then
    some (routine.enter args :: act.setFrame (act.proceed below next) :: rest)
  else none

/-- Give a value of a kind to the invoker. -/
def return? (kind : Kind) (act : Activation) : List Activation → Option (List Activation)
  | [] => none
  | invoker :: rest =>
      match act.frame.stack with
      | value :: _ =>
          if value.kind = kind then
            (invoker.frame.push value).map fun after => invoker.setFrame after :: rest
          else none
      | [] => none

/-- The step of a stack of activations, if there is one. -/
def programStep? (program : Program) : List Activation → Option (List Activation)
  | [] => none
  | act :: rest =>
      match instAt act.frame.code act.frame.pc with
      | some (.frame inst, next) =>
          (effect act.frame.pc { act.frame with pc := next } inst).map fun after =>
            act.setFrame after :: rest
      | some (.invokeStatic index, next) => call? program act rest index.toNat next
      | some (.return_ none, _) => some rest
      | some (.return_ (some kind), _) => return? kind act rest
      | _ => none

theorem step_of_call? {program : Program} {act : Activation} {rest next : List Activation}
    {index : BitVec 32} {behind : Nat}
    (stands : StandsAt act.frame.code act.frame.pc (.invokeStatic index) behind)
    (called : call? program act rest index.toNat behind = some next) :
    ProgramStep program (act :: rest) next := by
  unfold call? at called
  rcases Option.bind_eq_some_iff.mp called with ⟨routine, known, routineCalled⟩
  rcases Option.bind_eq_some_iff.mp routineCalled with ⟨⟨args, below⟩, taken, allowed⟩
  dsimp only at allowed
  split at allowed
  · next conditions =>
      cases allowed
      rcases takeArgs_eq_some taken with ⟨stack, kinds⟩
      exact .call ⟨⟨index, stands, known⟩, stack, kinds, conditions.1, conditions.2⟩
  · cases allowed

theorem step_of_return? {program : Program} {act : Activation} {rest next : List Activation}
    {kind : Kind} {behind : Nat}
    (stands : StandsAt act.frame.code act.frame.pc (.return_ (some kind)) behind)
    (returned : return? kind act rest = some next) : ProgramStep program (act :: rest) next := by
  cases rest with
  | nil => cases returned
  | cons invoker rest =>
      dsimp only [return?] at returned
      split at returned
      · next value below stack =>
          split at returned
          · next same =>
              rcases Option.map_eq_some_iff.mp returned with ⟨after, pushed, rfl⟩
              subst same
              exact .returnValue stands stack pushed
          · cases returned
      · cases returned

/-- What is computed is a step. -/
theorem step_of_programStep? {program : Program} {acts next : List Activation}
    (computed : programStep? program acts = some next) : ProgramStep program acts next := by
  cases acts with
  | nil => cases computed
  | cons act rest =>
      dsimp only [programStep?] at computed
      split at computed
      · next inst behind found =>
          rcases Option.map_eq_some_iff.mp computed with ⟨after, done, rfl⟩
          exact .frame (standsAt_of_instAt found) done
      · next index behind found => exact step_of_call? (standsAt_of_instAt found) computed
      · next behind found =>
          cases computed
          exact .return_ (standsAt_of_instAt found)
      · next kind behind found => exact step_of_return? (standsAt_of_instAt found) computed
      · cases computed

/-- Exactly `count` computed steps. -/
def runProgram? (program : Program) : Nat → List Activation → Option (List Activation)
  | 0, acts => some acts
  | count + 1, acts => do runProgram? program count (← programStep? program acts)

theorem runsIn_of_runProgram? {program : Program} {count : Nat} {acts last : List Activation}
    (computed : runProgram? program count acts = some last) :
    RunsIn (ProgramStep program) count acts last := by
  induction count generalizing acts with
  | zero =>
      cases computed
      exact .zero _
  | succ count ih =>
      rcases Option.bind_eq_some_iff.mp computed with ⟨next, stepped, rest⟩
      exact .succ (step_of_programStep? stepped) (ih rest)

end JvmDemo.Interpreter.Specification
