import JvmDemo.Interpreter.CallSimulation
import JvmDemo.Interpreter.Start
import JvmDemo.Interpreter.Typing

/-!
# Well-typed programs do not go wrong

The interpreter makes no checks on the operands and variables of an instruction.
When a machine provides a well-typed program, it never needs one: whatever the
number of iterations, the loop gets there, and the only failure is that the
stack of the thread is exhausted, which its check does not always notice.  The
classes of the routines need not be initialised; their initializers, and those
of their superclasses, run in between.
-/

namespace JvmDemo.Interpreter

open JvmDemo.Lib
open JvmDemo.Lib.Refinement
open JvmDemo.Runtime
open JvmDemo.Instructions
open Specification

/-! ## Initialisation of a class -/

/-- The failures of `CreateFrame`: the check refuses the frame, or lets it through
although it ends behind the buffer. -/
def Exhausted (failure : Fault) : Prop :=
  failure = .fatal "java.lang.StackOverflowError" ∨ failure = Thread.behindBuffer

section Initialization

variable {machine : Machine} {vm next : Vm} {klass : ClassId}

theorem exhausted_of_not_hasRoom {thread : Thread} {method : Method}
    (full : ¬ Thread.HasRoom thread.frames.length method) :
    ∃ failure, thread.createFrame method = .error failure ∧ Exhausted failure := by
  unfold Thread.createFrame
  split
  · exact ⟨_, rfl, .inl rfl⟩
  · next passed =>
      split
      · exact ⟨_, rfl, .inr rfl⟩
      · next inside => exact absurd ⟨by simpa using passed, by simpa using inside⟩ full

theorem createFrame_cases (vm : Vm) (method : Method) :
    (∃ next, vm.createFrame method = .ok next) ∨
      ∃ failure, vm.createFrame method = .error failure ∧ Exhausted failure := by
  rw [Vm.createFrame]
  by_cases room : Thread.HasRoom vm.thread.frames.length method
  · left
    rw [Thread.createFrame_of_hasRoom room]
    exact ⟨_, rfl⟩
  · right
    rcases exhausted_of_not_hasRoom room with ⟨failure, failed, exhausted⟩
    rw [failed]
    exact ⟨failure, rfl, exhausted⟩

theorem scheduleClinit_cases (machine : Machine) (klass : ClassId) (vm : Vm) :
    (∃ next, machine.scheduleClinit klass vm = .ok next) ∨
      ∃ failure, machine.scheduleClinit klass vm = .error failure ∧ Exhausted failure := by
  unfold Machine.scheduleClinit
  split
  · split
    · exact createFrame_cases vm _
    · exact .inl ⟨vm, rfl⟩
  · exact .inl ⟨vm, rfl⟩

/-- `InitClass` returns unless the stack of the thread is exhausted. -/
theorem initClassFrom_cases {fuel : Nat} (enough : klass < fuel) (vm : Vm) :
    (∃ next, machine.initClassFrom fuel klass vm = .ok next) ∨
      ∃ failure, machine.initClassFrom fuel klass vm = .error failure ∧ Exhausted failure := by
  induction fuel generalizing klass vm with
  | zero => exact absurd enough (Nat.not_lt_zero klass)
  | succ fuel ih =>
      rw [Machine.initClassFrom]
      rcases scheduleClinit_cases machine klass (vm.startClinit klass) with
        ⟨marked, scheduled⟩ | ⟨failure, scheduled, exhausted⟩
      · rw [scheduled, Exec.bind_ok]
        split
        · exact .inl ⟨marked, rfl⟩
        · split
          · exact .inl ⟨marked, rfl⟩
          · next super superEq =>
              split
              · exact .inl ⟨marked, rfl⟩
              · have older := machine.table.superClass_lt klass super superEq
                exact ih (Nat.lt_of_lt_of_le older (Nat.le_of_lt_succ enough)) marked
      · right
        rw [scheduled]
        exact ⟨failure, rfl, exhausted⟩

end Initialization

/-! ## Safe states -/

/-- The frames match activations that agree with their typings. -/
def Safe (program : Program) (vm : Vm) : Prop :=
  ∃ acts, Consistent program none acts ∧ ActivationsMatch acts vm.thread.frames

section Safe

variable {machine : Machine} {program : Program} {vm : Vm}

/-- Nothing is known of unusable variables. -/
theorem localsMatch_unusable (slots : List Slot) :
    LocalsMatch (List.replicate slots.length .unusable) slots where
  length_eq := by simp
  int := by
    intro index val found
    simp [List.getElem?_replicate] at found
  long := by
    intro index val found
    simp [List.getElem?_replicate] at found

/-- A method starts as a routine without parameters, whatever is in its
variables. -/
theorem Realises.activationMatches {routine : Routine} {method : Method}
    (realises : Realises routine method) {vars : Slots} (size : vars.getSize = routine.maxLocals) :
    ActivationMatches (routine.enter []) ((Frame.ofMethod method).setVars vars) where
  klass := realises.klass
  frame := by
    have entry : entryCells routine.maxLocals [] = List.replicate vars.slots.length .unusable := by
      rw [← size]
      rfl
    rw [Routine.enter, entry]
    apply realises.frameMatches_setVars (localsMatch_unusable vars.slots)
    rw [List.length_replicate]
    exact size

/-- Initializers that are pushed on safe frames leave them safe. -/
theorem consistent_initializers (provides : Provides machine program)
    (wellTyped : program.WellTyped) {klass : ClassId} {index : Nat} {routine : Routine}
    (known : program.routineAt klass index = some routine) {classes : List ClassId}
    (onChain : ∀ ancestor ∈ classes, ancestor ∈ machine.table.superChain routine.klass)
    {acts : List Activation} {frames : List Frame} (consistent : Consistent program none acts)
    (matching : ActivationsMatch acts frames) :
    ∃ pushed, Consistent program none pushed ∧
      ActivationsMatch pushed ((machine.table.initializerFrames classes).reverse ++ frames) := by
  induction classes generalizing acts frames with
  | nil => exact ⟨acts, consistent, matching⟩
  | cons ancestor classes ih =>
      have onChainRest : ∀ other ∈ classes, other ∈ machine.table.superChain routine.klass :=
        fun other mem => onChain other (List.mem_cons_of_mem _ mem)
      rw [Machine.initializerFrames_cons, List.append_assoc]
      cases declared : machine.table.declaredClinit ancestor with
      | none => exact ih onChainRest consistent matching
      | some method =>
          rcases provides.initializer known (onChain ancestor List.mem_cons_self) declared with
            ⟨initializer, listed, realises⟩
          rcases wellTyped.initializer listed with ⟨noParams, noResult, types, typed⟩
          have size : (Frame.ofMethod method).localVars.getSize = initializer.maxLocals := by
            rw [Frame.ofMethod, Slots.getSize_ofCount, realises.maxLocals]
            exact Nat.mod_eq_of_lt realises.smallLocals
          have entered : Consistent program none (initializer.enter [] :: acts) := by
            refine ⟨awaits_enter typed noParams.symm, ?_⟩
            change Consistent program initializer.result acts
            rw [noResult]
            exact consistent
          exact ih onChainRest entered (.cons (realises.activationMatches size) matching)

/-- At a call of a routine whose class is not initialised, the iteration only
initialises it: the program counter is set back. -/
theorem iteration_of_unstarted (provides : Provides machine program) {act : Activation}
    {frame : Frame} {rest : List Frame} {callee : Routine} {next : Nat}
    (frames : vm.thread.frames = frame :: rest) (matching : ActivationMatches act frame)
    (atCall : act.AtCall program callee next)
    (unstarted : vm.clinitStarted callee.klass = false) :
    iteration machine vm =
      machine.initClass callee.klass (vm.setPc (BitVec.ofNat 32 act.frame.pc)) := by
  rcases atCall with ⟨index, stands, known⟩
  rcases provides.routine known with ⟨method, refers⟩
  have executed := (@iteration_of_activationMatches machine _ _ _ _ _ _ frames matching stands).1
  have here : (frame.setNextPc (BitVec.ofNat 32 next)).method.klass = act.routine.klass :=
    matching.klass
  rw [executed, Instruction.execute, executeInvokeStatic_eq here refers]
  simp only [Vm.setFrames_clinitStarted, Vm.setPc_clinitStarted, unstarted, Bool.false_eq_true,
    if_false, triggerInit, Vm.setFrames_pc, Vm.setPc_pc]
  have rewound : (frame.setNextPc (BitVec.ofNat 32 next)).setNextPc
      (BitVec.ofNat 32 act.frame.pc) = frame := by
    rw [← matching.frame.nextPc]
    rfl
  rw [rewound, ← frames]
  rfl

/-- A call that does not fit exhausts the stack. -/
theorem iteration_of_not_fits (provides : Provides machine program) {act : Activation}
    {frame : Frame} {rest : List Frame} {callee : Routine} {next : Nat}
    (frames : vm.thread.frames = frame :: rest) (matching : ActivationMatches act frame)
    (atCall : act.AtCall program callee next) (started : vm.clinitStarted callee.klass = true)
    (large : ¬ callee.Fits (rest.length + 1)) :
    ∃ failure, iteration machine vm = .error failure ∧ Exhausted failure := by
  rcases atCall with ⟨index, stands, known⟩
  rcases provides.routine known with ⟨method, refers⟩
  have executed := (@iteration_of_activationMatches machine _ _ _ _ _ _ frames matching stands).1
  have here : (frame.setNextPc (BitVec.ofNat 32 next)).method.klass = act.routine.klass :=
    matching.klass
  rw [← refers.implements.hasRoom_iff] at large
  rcases @exhausted_of_not_hasRoom ⟨BitVec.ofNat 32 act.frame.pc,
    frame.setNextPc (BitVec.ofNat 32 next) :: rest⟩ method large with ⟨failure, failed, exhausted⟩
  refine ⟨failure, ?_, exhausted⟩
  rw [executed, Instruction.execute, executeInvokeStatic_eq here refers]
  simp only [Vm.setFrames_clinitStarted, Vm.setPc_clinitStarted, started, if_true, invokeMethod,
    Vm.setFrames_pc, Vm.setPc_pc, failed]
  rfl

/-- One iteration from a safe state leads to a safe state, or the stack is
exhausted. -/
theorem iteration_safe (provides : Provides machine program) (wellTyped : program.WellTyped)
    (safe : Safe program vm) (running : isStackEmpty vm = false) :
    (∃ next, iteration machine vm = .ok next ∧ Safe program next) ∨
      ∃ failure, iteration machine vm = .error failure ∧ Exhausted failure := by
  rcases safe with ⟨acts, consistent, matching⟩
  cases acts with
  | nil =>
      rw [isStackEmpty, List.forall₂_nil_left_iff.mp matching] at running
      cases running
  | cons act below =>
      rcases List.forall₂_cons_left_iff.mp matching with ⟨frame, rest, top, others, frames⟩
      by_cases waits : ∃ callee next, act.AtCall program callee next ∧
          vm.clinitStarted callee.klass = false
      · rcases waits with ⟨callee, next, atCall, unstarted⟩
        rw [iteration_of_unstarted provides frames top atCall unstarted]
        rcases @initClassFrom_cases machine _ _ (Nat.lt_succ_self callee.klass)
          (vm.setPc (BitVec.ofNat 32 act.frame.pc)) with ⟨after, returned⟩ | failed
        · left
          rcases Machine.frames_of_initClassFrom returned with ⟨classes, onChain, afterFrames⟩
          rcases atCall with ⟨index, -, known⟩
          refine ⟨after, returned, ?_⟩
          rw [Safe, afterFrames]
          exact consistent_initializers provides wellTyped known onChain consistent matching
        · exact .inr failed
      · have started : ∀ {top rest callee next}, act :: below = top :: rest →
            top.AtCall program callee next → vm.clinitStarted callee.klass = true := by
          rintro top rest callee next ⟨⟩ atCall
          by_contra unstarted
          exact waits ⟨callee, next, atCall, by simpa using unstarted⟩
        rcases progress wellTyped consistent with ⟨after, stepped, safeAfter⟩ | large
        · rcases iteration_of_programStep provides matching started stepped with
            ⟨next, executed, nextMatching, -⟩
          exact .inl ⟨next, executed, after, safeAfter, nextMatching⟩
        · rcases large with ⟨callee, next, atCall, large⟩
          rw [others.length_eq] at large
          exact .inr (iteration_of_not_fits provides frames top atCall (started rfl atCall) large)

/-- In a safe state, every number of iterations leads to a safe state, or the stack
of the thread is exhausted on the way. -/
theorem loopExecute_safe (provides : Provides machine program) (wellTyped : program.WellTyped)
    (safe : Safe program vm) (running : isStackEmpty vm = false) (count : Nat) :
    (∃ last, loopExecute machine count vm = .ok last ∧ Safe program last) ∨
      ∃ failure, loopExecute machine count vm = .error failure ∧ Exhausted failure :=
  loop_progress (iteration_safe provides wellTyped) safe running count

end Safe

/-! ## From the start -/

section Start

variable {machine : Machine} {program : Program} {className : Str} {start : Vm}
  {staticVars : ClassId → Option Slots} {heap : Heap} {memory : Memory}

/-- A routine without parameters and result is what the main method runs. -/
structure RunsMain (machine : Machine) (program : Program) (className : Str) (main : Routine) :
    Prop where
  noParams : main.params = []
  noResult : main.result = none
  typed : ∃ types, main.WellTyped program types
  realises : ∀ {mainClass method}, machine.table.loadClass className = .ok mainClass →
    getMainMethod machine.table mainClass = some method → Realises main method

/-- The first state is safe. -/
theorem RunsMain.safe {main : Routine} (runsMain : RunsMain machine program className main)
    (started : jvmStart machine className (createdVm staticVars heap memory) =
      .ok (some start)) : Safe program start ∧ isStackEmpty start = false := by
  rcases frames_of_jvmStart started with ⟨mainClass, mainMethod, vars, loaded, found, size, frames⟩
  rcases runsMain.typed with ⟨types, typed⟩
  have realises := runsMain.realises loaded found
  rw [realises.maxLocals, Nat.mod_eq_of_lt realises.smallLocals] at size
  constructor
  · refine ⟨[main.enter []], ⟨awaits_enter typed runsMain.noParams.symm, runsMain.noResult⟩, ?_⟩
    rw [frames]
    exact .cons (realises.activationMatches size) .nil
  · rw [isStackEmpty, frames]
    rfl

end Start

/-! ## A well-typed recursive routine -/

/-- `sum` in a class with an initializer, and a main method in another one. -/
def typedClasses : List ClassInfo :=
  startClasses.take 4 ++
    [{ name := str "Sum", accessFlags := 0x0021, superClass := some 0
       methods := [mainClinit, { sumMethod with klass := 4 }]
       constantPool := [none, some (.methodRef (str "Sum") (str "sum") (str "(I)J"))] },
      { name := str "Main", accessFlags := 0x0021, superClass := some 0
        methods := [{ sumMain with klass := 5 }]
        constantPool := [none, some (.methodRef (str "Sum") (str "sum") (str "(I)J"))] }]

def typedMachine : Machine := .ofTable (.ofClasses typedClasses (by decide))

def typedSum : Routine := { sumRoutine with klass := 4 }

def typedMain : Routine := { sumStart.routine with klass := 5 }

def typedClinit : Routine := ⟨4, padded [0xb1], 0, 0, [], none⟩

def typedProgram : Program where
  routineAt klass index := if (klass = 4 ∨ klass = 5) ∧ index = 1 then some typedSum else none
  initializer klass := if klass = 4 then some typedClinit else none

/-- The types at the addresses of `sum`. -/
def sumTypes : List (Nat × FrameType) :=
  [(0, ⟨[], [.int]⟩), (1, ⟨[.int], [.int]⟩), (4, ⟨[], [.int]⟩), (5, ⟨[.long], [.int]⟩),
    (6, ⟨[], [.int]⟩), (7, ⟨[.int], [.int]⟩), (8, ⟨[.long], [.int]⟩),
    (9, ⟨[.int, .long], [.int]⟩), (10, ⟨[.int, .int, .long], [.int]⟩),
    (11, ⟨[.int, .long], [.int]⟩), (14, ⟨[.long, .long], [.int]⟩), (15, ⟨[.long], [.int]⟩)]

/-- The types at the addresses of the main method. -/
def mainTypes : List (Nat × FrameType) :=
  [(0, ⟨[], [.unusable, .unusable, .unusable]⟩), (1, ⟨[.int], [.unusable, .unusable, .unusable]⟩),
    (4, ⟨[.long], [.unusable, .unusable, .unusable]⟩), (5, ⟨[], [.unusable, .long, .second]⟩)]

theorem wellTyped_typedProgram : typedProgram.WellTyped where
  routine := by
    intro klass index routine known
    simp only [typedProgram] at known
    split at known
    · cases known
      exact ⟨_, Routine.wellTyped_of_checks sumTypes (by decide +kernel) (by decide +kernel)⟩
    · cases known
  initializer := by
    intro klass routine known
    simp only [typedProgram] at known
    split at known
    · cases known
      exact ⟨rfl, rfl, _, Routine.wellTyped_of_checks [(0, ⟨[], []⟩)] (by decide +kernel)
        (by decide +kernel)⟩
    · cases known

theorem implements_typedSum : Implements typedSum { sumMethod with klass := 4 } where
  klass := rfl
  codes := rfl
  short := by decide
  maxStack := rfl
  maxLocals := rfl
  smallStack := by decide
  smallLocals := by decide
  scalar := by decide
  slots := rfl
  inside := by decide

theorem provides_typedProgram : Provides typedMachine typedProgram where
  routine := by
    intro klass index routine known
    simp only [typedProgram] at known
    split at known
    · next here =>
        cases known
        have resolves : typedMachine.table.resolveMethod klass (str "Sum") (str "sum")
            (str "(I)J") = .ok { sumMethod with klass := 4 } := by
          rcases here with ⟨rfl | rfl, -⟩ <;> decide +kernel
        have constant : (typedMachine.table.info klass).getConstant index =
            some (.methodRef (str "Sum") (str "sum") (str "(I)J")) := by
          rcases here with ⟨rfl | rfl, rfl⟩ <;> rfl
        exact ⟨{ sumMethod with klass := 4 }, ⟨_, _, _, constant, resolves⟩, by decide,
          by decide, implements_typedSum⟩
    · cases known
  initializer := by
    intro klass index routine ancestor method known onChain declared
    simp only [typedProgram] at known
    split at known
    · cases known
      have chain : ancestor = 4 ∨ ancestor = 0 := by
        have listed : typedMachine.table.superChain 4 = [4, 0] := by decide +kernel
        change ancestor ∈ typedMachine.table.superChain 4 at onChain
        rw [listed] at onChain
        simpa using onChain
      rcases chain with rfl | rfl
      · have here : typedMachine.table.declaredClinit 4 = some mainClinit := by decide +kernel
        cases here.symm.trans declared
        exact ⟨typedClinit, rfl, rfl, rfl, by decide, rfl, rfl, by decide, by decide⟩
      · have here : typedMachine.table.declaredClinit 0 = none := by decide +kernel
        cases here.symm.trans declared
    · cases known

theorem runsMain_typedMain : RunsMain typedMachine typedProgram (str "Main") typedMain where
  noParams := rfl
  noResult := rfl
  typed := ⟨_, Routine.wellTyped_of_checks mainTypes (by decide +kernel) (by decide +kernel)⟩
  realises := by
    intro mainClass method loaded found
    have klass : typedMachine.table.loadClass (str "Main") = .ok 5 := by decide +kernel
    cases klass.symm.trans loaded
    have main : getMainMethod typedMachine.table 5 = some { sumMain with klass := 5 } := by
      decide +kernel
    cases main.symm.trans found
    exact ⟨rfl, rfl, by decide, rfl, rfl, by decide, by decide⟩

end JvmDemo.Interpreter
