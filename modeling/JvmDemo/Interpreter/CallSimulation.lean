import JvmDemo.Instructions.Invocation
import JvmDemo.Instructions.KeptFrames
import JvmDemo.Interpreter.Calls
import JvmDemo.Interpreter.Simulation
import JvmDemo.Runtime.Initialization

/-!
# The interpreter simulates static calls

A machine provides a program when every reference that the program knows is
resolved to a static method with the code and the sizes of the routine.  The
frames of a thread then match a stack of activations frame by frame, and each
step of the program is matched by one iteration, as long as the classes of the
routines are initialised.
-/

namespace JvmDemo.Interpreter

open JvmDemo.Lib
open JvmDemo.Lib.Refinement
open JvmDemo.Runtime
open JvmDemo.Instructions
open Specification

/-! ## Programs on a machine -/

/-- A method with the code and the sizes of a routine. -/
structure Realises (routine : Routine) (method : Method) : Prop where
  klass : method.klass = routine.klass
  codes : method.codes = some routine.code
  short : routine.code.length < 2 ^ 31
  maxStack : method.maxStack = routine.maxStack
  maxLocals : method.maxLocals = routine.maxLocals
  smallStack : routine.maxStack < 2 ^ 16
  smallLocals : routine.maxLocals < 2 ^ 16

/-- A method that takes the arguments of a routine, too. -/
structure Implements (routine : Routine) (method : Method) : Prop extends
    Realises routine method where
  scalar : ∀ kind ∈ routine.params, kind = .int ∨ kind = .long
  slots : method.argSlotCount = (routine.params.map Kind.indices).sum
  inside : (routine.params.map Kind.indices).sum ≤ routine.maxLocals

/-- What a reference is resolved to is a static method that runs as the
routine. -/
structure Refers (machine : Machine) (klass : ClassId) (index : Nat) (routine : Routine)
    (method : Method) : Prop where
  resolved : ∃ className name descriptor,
    (machine.table.info klass).getConstant index = some (.methodRef className name descriptor) ∧
    machine.table.resolveMethod klass className name descriptor = .ok method
  isStatic : method.isStatic = true
  notPrintln : method.name ≠ str "println"
  implements : Implements routine method

/-- The machine has the routines of a program, and the program the initializers of
their classes and the superclasses. -/
structure Provides (machine : Machine) (program : Program) : Prop where
  routine : ∀ {klass index routine}, program.routineAt klass index = some routine →
    ∃ method, Refers machine klass index routine method
  initializer : ∀ {klass index routine ancestor method},
    program.routineAt klass index = some routine →
    ancestor ∈ machine.table.superChain routine.klass →
    machine.table.declaredClinit ancestor = some method →
    ∃ initializer, program.initializer ancestor = some initializer ∧ Realises initializer method

/-- A frame of the interpreter matches an activation. -/
structure ActivationMatches (act : Activation) (frame : Frame) : Prop where
  klass : frame.method.klass = act.routine.klass
  frame : FrameMatches act.frame frame

/-- The frames of a thread match a stack of activations. -/
def ActivationsMatch (acts : List Activation) (frames : List Frame) : Prop :=
  List.Forall₂ ActivationMatches acts frames

theorem ActivationMatches.setFrame {act : Activation} {frame next : Frame} {spec : SpecFrame}
    (matching : ActivationMatches act frame) (same : next.method = frame.method)
    (frameMatches : FrameMatches spec next) : ActivationMatches (act.setFrame spec) next where
  klass := by rw [same]; exact matching.klass
  frame := frameMatches

/-! ## Entering a routine -/

theorem words_reverse (values : List Value) :
    TypedStack.words values.reverse = argWords values := by
  induction values with
  | nil => rfl
  | cons value values ih =>
      rw [List.reverse_cons, TypedStack.words_append, ih]
      simp [argWords, TypedStack.words]

theorem used_eq_argWidth (values : List Value) : TypedStack.used values = argWidth values := by
  induction values with
  | nil => rfl
  | cons value values ih => simp [TypedStack.used, argWidth, ih, Nat.add_comm]

/-- A variable before the others. -/
theorem LocalsMatch.cons {cells : List Cell} {slots : List Slot} (locals : LocalsMatch cells slots)
    (cell : Cell) (slot : Slot) (int : ∀ val, cell = .int val → slot = val)
    (long : ∀ val, cell = .long val → cells[0]? = some .second →
      slot = val.low ∧ slots[0]? = some val.high) :
    LocalsMatch (cell :: cells) (slot :: slots) where
  length_eq := by simp [locals.length_eq]
  int := by
    intro index val found
    cases index with
    | zero =>
        simp only [List.getElem?_cons_zero, Option.some.injEq] at found ⊢
        exact int val found
    | succ index =>
        rw [List.getElem?_cons_succ] at found ⊢
        exact locals.int found
  long := by
    intro index val found second
    rw [List.getElem?_cons_succ] at second ⊢
    cases index with
    | zero =>
        simp only [List.getElem?_cons_zero, Option.some.injEq] at found ⊢
        exact long val found second
    | succ index =>
        rw [List.getElem?_cons_succ] at found ⊢
        exact locals.long found second

/-- A variable in which no value starts may have any content. -/
theorem LocalsMatch.cons_plain {cells : List Cell} {slots : List Slot}
    (locals : LocalsMatch cells slots) {cell : Cell} (plain : cell = .unusable ∨ cell = .second)
    (slot : Slot) : LocalsMatch (cell :: cells) (slot :: slots) := by
  apply locals.cons
  · rintro val rfl
    simp at plain
  · rintro val rfl
    simp at plain

/-- The words of the arguments are the variables that hold them. -/
theorem localsMatch_args (args : List Value) (spare : Nat) :
    LocalsMatch (args.flatMap argCells ++ List.replicate spare .unusable)
      (argWords args ++ List.replicate spare 0) := by
  induction args with
  | nil => exact localsMatch_replicate spare
  | cons value args ih =>
      rw [List.flatMap_cons, argWords, List.flatMap_cons, List.append_assoc, List.append_assoc]
      cases value with
      | int val =>
          apply ih.cons (.int val) val
          · intro other same
            cases same
            rfl
          · intro other same
            cases same
      | long val =>
          apply (ih.cons_plain (by simp) val.high).cons (.long val) val.low
          · intro other same
            cases same
          · intro other same _
            cases same
            exact ⟨rfl, rfl⟩
      | float bits => exact ih.cons_plain (by simp) bits
      | double bits => exact (ih.cons_plain (by simp) bits.high).cons_plain (by simp) bits.low
      | ref address =>
          exact (ih.cons_plain (by simp) address.high).cons_plain (by simp) address.low

namespace Realises

variable {routine : Routine} {method : Method}

theorem hasRoom_iff (realises : Realises routine method) {depth : Nat} :
    Thread.HasRoom depth method ↔ routine.Fits depth := by
  have small : method.maxStack + method.maxLocals + Frame.headerSize < 2 ^ 32 := by
    rw [realises.maxStack, realises.maxLocals, Frame.headerSize]
    have := realises.smallStack
    have := realises.smallLocals
    omega
  rw [Thread.HasRoom, Thread.overflows, Thread.oversteps, Nat.mod_eq_of_lt small,
    realises.maxStack, realises.maxLocals, decide_eq_false_iff_not, decide_eq_false_iff_not,
    Nat.not_lt, Nat.not_lt]
  rfl

/-- The frame in which the method starts, with this content of its variables. -/
theorem frameMatches_setVars (realises : Realises routine method) {cells : List Cell}
    {vars : Slots} (locals : LocalsMatch cells vars.slots)
    (length : cells.length = routine.maxLocals) :
    FrameMatches ⟨routine.code, routine.maxStack, cells, [], 0⟩
      ((Frame.ofMethod method).setVars vars) := by
  have maxStack : method.maxStack < 2 ^ 16 := by
    rw [realises.maxStack]
    exact realises.smallStack
  have maxLocals : method.maxLocals < 2 ^ 16 := by
    rw [realises.maxLocals]
    exact realises.smallLocals
  rw [← realises.maxStack]
  exact frameMatches_ofMethod realises.codes realises.short maxStack maxLocals locals
    (by rw [realises.maxLocals]; exact length)

end Realises

namespace Implements

variable {routine : Routine} {method : Method} {args : List Value}

/-- No argument is a reference, so that slots and indices agree. -/
theorem argWidth_eq (implements : Implements routine method)
    (kinds : args.map Value.kind = routine.params) : argWidth args = method.argSlotCount := by
  have noRef : ∀ value ∈ args, value.kind ≠ .ref := by
    intro value mem
    have param : value.kind ∈ routine.params := by
      rw [← kinds]
      exact List.mem_map_of_mem mem
    rcases implements.scalar value.kind param with int | long
    · simp [int]
    · simp [long]
  rw [← argIndex_eq_argWidth_iff.mpr noRef, implements.slots, ← kinds, List.map_map]
  rfl

/-- The frame in which the method starts, with the arguments in its variables. -/
theorem frameMatches_enter (implements : Implements routine method)
    (kinds : args.map Value.kind = routine.params) :
    FrameMatches (routine.enter args).frame
      ((Frame.ofMethod method).setVars
        ⟨argWords args ++ (Frame.ofMethod method).localVars.slots.drop (argWords args).length⟩) := by
  have count : argWidth args ≤ routine.maxLocals := by
    rw [implements.argWidth_eq kinds, implements.slots]
    exact implements.inside
  have vars : (Frame.ofMethod method).localVars.slots.drop (argWords args).length =
      List.replicate (routine.maxLocals - TypedStack.used args) 0 := by
    rw [Frame.ofMethod, Slots.ofCount, implements.maxLocals,
      Nat.mod_eq_of_lt implements.smallLocals, List.drop_replicate, length_argWords,
      used_eq_argWidth]
  have locals := localsMatch_args args (routine.maxLocals - TypedStack.used args)
  rw [vars]
  apply implements.frameMatches_setVars locals
  rw [← locals.length_eq, List.length_append, length_argWords, List.length_replicate,
    used_eq_argWidth]
  exact Nat.add_sub_cancel' count

end Implements

/-! ## Invocation -/

theorem invokeMethod_eq_setFrames {vm : Vm} {frame : Frame} {rest : List Frame} {method : Method}
    {stack : OperandStack} {vars : Slots}
    (room : Thread.HasRoom (rest.length + 1) method)
    (copied : copyArgs method.argSlotCount frame.operandStack (Frame.ofMethod method).localVars =
      .ok (stack, vars)) :
    invokeMethod vm frame rest method =
      .ok (vm.setFrames ((Frame.ofMethod method).setVars vars :: frame.setStack stack :: rest)) := by
  have created := @Thread.createFrame_of_hasRoom ⟨vm.thread.pc, frame :: rest⟩ _ room
  simp only [invokeMethod, created, Exec.bind_ok, copied]
  rfl

/-- `InvokeMethod` on a stack with the arguments on top starts the routine. -/
theorem invokeMethod_of_represents {routine : Routine} {method : Method}
    (implements : Implements routine method) {vm : Vm} {frame : Frame} {rest : List Frame}
    {capacity : Nat} {args below : List Value} (kinds : args.map Value.kind = routine.params)
    (represents : TypedStack.Represents capacity (args.reverse ++ below) frame.operandStack)
    (fits : routine.Fits (rest.length + 1))
    (spare : args = [] ∨ TypedStack.used (args.reverse ++ below) < capacity) :
    ∃ callee stack, invokeMethod vm frame rest method =
        .ok (vm.setFrames (callee :: frame.setStack stack :: rest)) ∧
      ActivationMatches (routine.enter args) callee ∧
      TypedStack.Represents capacity below stack := by
  have holds : frame.operandStack.Holds (TypedStack.words below ++ argWords args) := by
    rw [← words_reverse, ← TypedStack.words_append]
    exact represents.holds
  have length : (argWords args).length = method.argSlotCount := by
    rw [length_argWords]
    exact implements.argWidth_eq kinds
  have notFull : argWords args = [] ∨
      (TypedStack.words below).length + (argWords args).length <
        frame.operandStack.slots.getSize := by
    rcases spare with rfl | spare
    · exact .inl rfl
    · right
      rw [represents.getSize_eq, ← List.length_append, ← words_reverse, ← TypedStack.words_append,
        TypedStack.length_words]
      exact spare
  have size : (Frame.ofMethod method).localVars.getSize = routine.maxLocals := by
    rw [Frame.ofMethod, Slots.getSize_ofCount, implements.maxLocals]
    exact Nat.mod_eq_of_lt implements.smallLocals
  have fitsVars : (argWords args).length ≤ (Frame.ofMethod method).localVars.getSize := by
    rw [size, length, implements.slots]
    exact implements.inside
  have copied := copyArgs_eq holds notFull fitsVars (by rw [size]; exact implements.smallLocals)
  rw [length] at copied
  have room := implements.hasRoom_iff.mpr fits
  refine ⟨_, _, invokeMethod_eq_setFrames room copied, ?_, ?_⟩
  · constructor
    · exact implements.klass
    · rw [← length]
      exact implements.frameMatches_enter kinds
  · constructor
    · rw [← length]
      exact holds.popped
    · exact represents.getSize_eq

/-! ## One step -/

section Step

variable {machine : Machine} {program : Program} {vm : Vm} {act : Activation} {frame : Frame}
  {rest : List Frame} {routine : Routine} {method : Method} {index : BitVec 32} {next : Nat}

/-- An iteration at an instruction of an activation executes it. -/
theorem iteration_of_activationMatches {inst : Instruction}
    (frames : vm.thread.frames = frame :: rest)
    (matching : ActivationMatches act frame)
    (stands : StandsAt act.frame.code act.frame.pc inst next) :
    iteration machine vm = inst.execute machine
        ((vm.setPc (BitVec.ofNat 32 act.frame.pc)).setFrames
          (frame.setNextPc (BitVec.ofNat 32 next) :: rest))
        (frame.setNextPc (BitVec.ofNat 32 next)) rest ∧
      FrameMatches { act.frame with pc := next } (frame.setNextPc (BitVec.ofNat 32 next)) := by
  have inside := (le_length_of_standsAt stands).2
  have small := Nat.lt_of_le_of_lt inside matching.frame.short
  refine ⟨?_, matching.frame.setNextPc small⟩
  exact iteration_of_standsAt machine frames matching.frame.codes matching.frame.short
    matching.frame.nextPc stands

/-- The instruction resolves the method, and invokes it if its class is
initialised. -/
theorem executeInvokeStatic_eq {klass : ClassId} (here : frame.method.klass = klass)
    (refers : Refers machine klass index.toNat routine method) :
    executeInvokeStatic machine index vm frame rest =
      if vm.clinitStarted routine.klass then invokeMethod vm frame rest method
      else triggerInit machine vm frame rest routine.klass := by
  rcases refers.resolved with ⟨className, name, descriptor, constant, resolved⟩
  have named : methodRefAt machine frame index.toNat = .ok (className, name, descriptor) := by
    rw [methodRefAt, constantAt, here, constant]
    rfl
  have notPrintln : (method.name == str "println") = false := by
    simpa using refers.notPrintln
  rw [executeInvokeStatic, named, Exec.bind_ok]
  dsimp only
  rw [here, resolved, Exec.bind_ok, refers.isStatic, notPrintln, refers.implements.klass]
  cases vm.clinitStarted routine.klass <;> rfl

/-- A call of a routine whose class is initialised. -/
theorem iteration_of_calls (provides : Provides machine program)
    (frames : vm.thread.frames = frame :: rest) (matching : ActivationMatches act frame)
    {args below : List Value}
    (calls : act.Calls program (rest.length + 1) routine args below next)
    (started : vm.clinitStarted routine.klass = true) :
    ∃ callee caller, iteration machine vm =
        .ok ((vm.setPc (BitVec.ofNat 32 act.frame.pc)).setFrames (callee :: caller :: rest)) ∧
      ActivationMatches (routine.enter args) callee ∧
      ActivationMatches (act.setFrame (act.proceed below next)) caller := by
  rcases calls.stands with ⟨index, stands, known⟩
  rcases provides.routine known with ⟨method, refers⟩
  rcases iteration_of_activationMatches frames matching stands with ⟨executed, moved⟩
  have represents := moved.stack
  rw [show ({ act.frame with pc := next } : SpecFrame).stack = args.reverse ++ below from
    calls.stack] at represents
  have spare := calls.spare
  rw [calls.stack] at spare
  rcases @invokeMethod_of_represents _ _ refers.implements
    ((vm.setPc (BitVec.ofNat 32 act.frame.pc)).setFrames
      (frame.setNextPc (BitVec.ofNat 32 next) :: rest))
    (frame.setNextPc (BitVec.ofNat 32 next)) rest _ args below calls.kinds represents calls.fits
    spare with ⟨callee, stack, invoked, calleeMatches, representsBelow⟩
  refine ⟨callee, (frame.setNextPc (BitVec.ofNat 32 next)).setStack stack, ?_, calleeMatches, ?_⟩
  · have here : (frame.setNextPc (BitVec.ofNat 32 next)).method.klass = act.routine.klass :=
      matching.klass
    rw [executed, Instruction.execute, executeInvokeStatic_eq here refers]
    simp only [Vm.setFrames_clinitStarted, Vm.setPc_clinitStarted, started, ↓reduceIte, invoked]
    rfl
  · exact matching.setFrame rfl (moved.setStack representsBelow)

/-- A return of a value to an invoker that has room for it. -/
theorem iteration_of_returnValue {invoker : Activation} {below : Frame} {value : Value}
    {left : List Value} {after : SpecFrame}
    (frames : vm.thread.frames = frame :: below :: rest) (matching : ActivationMatches act frame)
    (invokerMatches : ActivationMatches invoker below)
    (stands : StandsAt act.frame.code act.frame.pc (.return_ (some value.kind)) next)
    (stack : act.frame.stack = value :: left) (pushed : invoker.frame.push value = some after) :
    ∃ top, iteration machine vm =
        .ok ((vm.setPc (BitVec.ofNat 32 act.frame.pc)).setFrames (top :: rest)) ∧
      ActivationMatches (invoker.setFrame after) top := by
  rcases iteration_of_activationMatches frames matching stands with ⟨executed, moved⟩
  have represents := moved.stack
  rw [show ({ act.frame with pc := next } : SpecFrame).stack = value :: left from stack]
    at represents
  rcases represents.pop with ⟨popped, popEq, -⟩
  rcases invokerMatches.frame.push pushed with ⟨invokerStack, pushEq, afterMatches⟩
  refine ⟨below.setStack invokerStack, ?_, invokerMatches.setFrame rfl afterMatches⟩
  rw [executed, Instruction.execute, executeReturn, Frame.setNextPc_operandStack]
  have popEq' : frame.operandStack.pop value.kind = .ok (value, popped) := popEq
  rw [popEq', Exec.bind_ok]
  simp only [pushValue, pushEq, Exec.bind_ok]
  rfl

end Step

/-! ## Steps and runs -/

/-- The frames match the activations, and the classes of all routines are
initialised. -/
structure RunsProgram (program : Program) (acts : List Activation) (vm : Vm) : Prop where
  frames : ActivationsMatch acts vm.thread.frames
  started : ∀ {klass index routine}, program.routineAt klass index = some routine →
    vm.clinitStarted routine.klass = true

/-- Every step of the program is matched by an iteration if, at a call, the class of
the routine is initialised. -/
theorem iteration_of_programStep {machine : Machine} {program : Program}
    (provides : Provides machine program) {acts actsNext : List Activation} {vm : Vm}
    (frames : ActivationsMatch acts vm.thread.frames)
    (started : ∀ {act rest routine next}, acts = act :: rest → act.AtCall program routine next →
      vm.clinitStarted routine.klass = true)
    (stepped : ProgramStep program acts actsNext) :
    ∃ next, iteration machine vm = .ok next ∧ ActivationsMatch actsNext next.thread.frames ∧
      next.clinitStarted = vm.clinitStarted := by
  cases stepped with
  | @frame act after actsBelow inst next stands done =>
      rcases List.forall₂_cons_left_iff.mp frames with ⟨frame, rest, matching, others, vmFrames⟩
      rcases @iteration_of_activationMatches machine _ _ _ _ _ _ vmFrames matching stands with
        ⟨executed, moved⟩
      rcases execute_follows moved machine.floatOps inst done with ⟨final, ran, finalMatches⟩
      have same : final.method = frame.method := (FrameInst.keeps_execute ran).method
      refine ⟨(vm.setPc (BitVec.ofNat 32 act.frame.pc)).setFrames (final :: rest), ?_,
        .cons (matching.setFrame same finalMatches) others, rfl⟩
      rw [executed]
      simp only [Instruction.execute, Vm.setFrames_pc, Vm.setPc_pc, ran]
      rfl
  | @call act actsBelow routine args below next calls =>
      have running := started rfl calls.stands
      rcases List.forall₂_cons_left_iff.mp frames with ⟨frame, rest, matching, others, vmFrames⟩
      rw [others.length_eq] at calls
      rcases iteration_of_calls provides vmFrames matching calls running with
        ⟨callee, caller, executed, calleeMatches, callerMatches⟩
      exact ⟨_, executed, .cons calleeMatches (.cons callerMatches others), rfl⟩
  | @return_ act actsBelow next stands =>
      rcases List.forall₂_cons_left_iff.mp frames with ⟨frame, rest, matching, others, vmFrames⟩
      rcases @iteration_of_activationMatches machine _ _ _ _ _ _ vmFrames matching stands with
        ⟨executed, -⟩
      exact ⟨_, executed, others, rfl⟩
  | @returnValue act invoker after actsBelow value left next stands stack pushed =>
      rcases List.forall₂_cons_left_iff.mp frames with ⟨frame, restAll, matching, others, vmFrames⟩
      rcases List.forall₂_cons_left_iff.mp others with
        ⟨below, rest, invokerMatches, othersBelow, rfl⟩
      rcases @iteration_of_returnValue machine _ _ _ _ _ _ _ _ _ _ vmFrames matching
        invokerMatches stands stack pushed with ⟨top, executed, topMatches⟩
      exact ⟨_, executed, .cons topMatches othersBelow, rfl⟩

theorem iteration_simulates_program {machine : Machine} {program : Program}
    (provides : Provides machine program) :
    Simulates (RunsProgram program) (ProgramStep program) (iteration machine) where
  step := by
    intro acts actsNext vm related stepped
    have started : ∀ {act rest routine next}, acts = act :: rest →
        act.AtCall program routine next → vm.clinitStarted routine.klass = true := by
      rintro act rest routine next - ⟨index, -, known⟩
      exact related.started known
    rcases iteration_of_programStep provides related.frames started stepped with
      ⟨next, executed, frames, same⟩
    refine ⟨next, executed, frames, ?_⟩
    intro klass index routine known
    rw [same]
    exact related.started known

theorem isStackEmpty_iff_of_runsProgram {program : Program} {acts : List Activation} {vm : Vm}
    (related : RunsProgram program acts vm) : isStackEmpty vm = true ↔ acts = [] := by
  rw [isStackEmpty, List.isEmpty_iff, ← List.length_eq_zero_iff, ← List.length_eq_zero_iff,
    related.frames.length_eq]

theorem loopExecute_of_runsProgram {machine : Machine} {program : Program}
    (provides : Provides machine program) {acts last : List Activation} {vm : Vm}
    (related : RunsProgram program acts vm) {steps : Nat}
    (run : RunsIn (ProgramStep program) steps acts last) :
    ∃ final, loopExecute machine steps vm = .ok final ∧ RunsProgram program last final ∧
      (isStackEmpty final = true ↔ last = []) ∧
      (0 < steps → last = [] → ∀ more, loopExecute machine (steps + more) vm = .ok final) := by
  apply (iteration_simulates_program provides).loop isStackEmpty_iff_of_runsProgram ?_ run related
  rintro state next stepped rfl
  cases stepped

def sumCode : List Byte :=
  padded [0x1a, 0x9a, 0x00, 0x05, 0x09, 0xad, 0x1a, 0x85, 0x1a, 0x04, 0x64, 0xb8, 0x00, 0x01,
    0x61, 0xad]

def sumMainCode : List Byte := padded [0x05, 0xb8, 0x00, 0x01, 0x40, 0xb1]

/-- `static long sum(int n) { return n == 0 ? 0L : n + sum(n - 1); }` -/
def sumMethod : Method where
  name := str "sum"
  descriptor := str "(I)J"
  accessFlags := 0x0009
  codes := some sumCode
  maxStack := 4
  maxLocals := 1
  argSlotCount := 1
  exceptionTable := some [emptyHandler]

/-- `long result = sum(2);` -/
def sumMain : Method where
  name := str "main"
  descriptor := str "([Ljava/lang/String;)V"
  accessFlags := 0x0009
  codes := some sumMainCode
  maxStack := 2
  maxLocals := 3
  argSlotCount := 1
  exceptionTable := some [emptyHandler]

def sumTable : ClassTable :=
  .single
    { name := str "Sum"
      accessFlags := 0x0021
      methods := [sumMain, sumMethod]
      constantPool := [none, some (.methodRef (str "Sum") (str "sum") (str "(I)J"))] }
    rfl rfl (by decide) (by decide)

def sumRoutine : Routine where
  klass := 0
  code := sumCode
  maxStack := 4
  maxLocals := 1
  params := [.int]
  result := some .long

def sumProgram : Program where
  routineAt klass index := if klass = 0 ∧ index = 1 then some sumRoutine else none
  initializer _ := none

theorem implements_sumRoutine : Implements sumRoutine sumMethod where
  klass := rfl
  codes := rfl
  short := by decide
  maxStack := rfl
  maxLocals := rfl
  smallStack := by decide
  smallLocals := by decide
  scalar := by decide
  slots := rfl
  inside := by decide

theorem provides_sumProgram : Provides (.ofTable sumTable) sumProgram where
  routine := by
    intro klass index routine known
    simp only [sumProgram] at known
    split at known
    · next here =>
        obtain ⟨rfl, rfl⟩ := here
        cases known
        exact ⟨sumMethod, ⟨_, _, _, rfl, by decide +kernel⟩, by decide, by decide,
          implements_sumRoutine⟩
    · cases known
  initializer := by
    intro klass index routine ancestor method _ _ declared
    have undeclared : sumTable.declaredClinit ancestor = none := by
      cases ancestor with
      | zero => decide +kernel
      | succ ancestor => rfl
    cases undeclared.symm.trans declared

/-- The activation of the main method, whose argument is no number. -/
def sumStart : Activation where
  routine := ⟨0, sumMainCode, 2, 3, [], none⟩
  frame := ⟨sumMainCode, 2, List.replicate 3 .unusable, [], 0⟩

theorem frameMatches_sumMain : FrameMatches sumStart.frame (Frame.ofMethod sumMain) :=
  @frameMatches_ofMethod sumMain _ _ (Slots.ofCount 3) rfl (by decide) (by decide) (by decide)
    (localsMatch_replicate 3) rfl

/-- A state with these frames, after the initialisation of the class. -/
def sumVm (frames : List Frame) : Vm :=
  { Vm.ofFrames frames with clinitStarted := fun _ => true }

/-- The main method behind the call. -/
def sumCaller (stack : List Value) : Activation :=
  sumStart.setFrame { sumStart.frame with stack := stack, pc := 4 }

/-- `sum(0)` is zero. -/
theorem evaluates_sum : Evaluates sumProgram 1 (sumRoutine.enter [.int 0]) (some (.long 0)) := by
  have stands (pc next : Nat) (inst : Instruction)
      (found : instAt sumRoutine.code pc = some (inst, next)) :
      StandsAt sumRoutine.code pc inst next := standsAt_of_instAt found
  apply Evaluates.frame (stands 0 1 (.frame (.loadN .int 0)) (by decide +kernel)) rfl
  apply Evaluates.frame (stands 1 4 (.frame (.if_ .ne 5)) (by decide +kernel)) rfl
  apply Evaluates.frame (stands 4 5 (.frame (.lconst 0)) (by decide +kernel)) rfl
  exact .returnValue (stands 5 6 (.return_ (some .long)) (by decide +kernel)) rfl

end JvmDemo.Interpreter
