import JvmDemo.Interpreter.TypeSoundness

/-!
# Initialisation on the first call

A call of a routine is not made before the initialisation of its class has begun.
It is put off: the initializers of the class and of its superclasses, up to the
first one whose initialisation has begun, come to lie on the stack, and the call
is tried again when they have returned.

The semantics of static calls is extended by these steps.  The interpreter
simulates it from the start of the virtual machine on, when no class is
initialised.
-/

namespace JvmDemo.Interpreter.Specification

open JvmDemo.Lib
open JvmDemo.Lib.Refinement
open JvmDemo.Runtime
open JvmDemo.Instructions

/-! ## Semantics -/

/-- The activations, and the classes whose initialisation has begun. -/
structure LazyState where
  acts : List Activation
  started : ClassId → Bool

namespace LazyState

variable (state : LazyState)

/-- The initialisation of a class has begun. -/
def mark (klass : ClassId) : LazyState :=
  { state with started := fun id => if id = klass then true else state.started id }

/-- The initializer of a class lies on top, if it has one and there is room. -/
def schedule (program : Program) (klass : ClassId) : Option LazyState :=
  match program.initializer klass with
  | none => some state
  | some routine =>
      if routine.Fits state.acts.length then
        some { state with acts := routine.enter [] :: state.acts }
      else none

/-- The initialisation of a class and of those above it. -/
def initClass (program : Program) (superOf : ClassId → Option ClassId) :
    Nat → ClassId → LazyState → Option LazyState
  | 0, _, _ => none
  | fuel + 1, klass, state => do
      let state ← (state.mark klass).schedule program klass
      match superOf klass with
      | none => some state
      | some super =>
          if state.started super then some state else initClass program superOf fuel super state

end LazyState

/-- One step, with the superclasses of the classes. -/
inductive LazyStep (program : Program) (superOf : ClassId → Option ClassId) :
    LazyState → LazyState → Prop where
  | run {acts next : List Activation} {started : ClassId → Bool} :
      (∀ {act rest routine behind}, acts = act :: rest → act.AtCall program routine behind →
        started routine.klass = true) →
      ProgramStep program acts next → LazyStep program superOf ⟨acts, started⟩ ⟨next, started⟩
  | putOff {state next : LazyState} {act : Activation} {rest : List Activation}
      {routine : Routine} {behind : Nat} :
      state.acts = act :: rest → act.AtCall program routine behind →
      state.started routine.klass = false →
      state.initClass program superOf (routine.klass + 1) routine.klass = some next →
      LazyStep program superOf state next

/-! ## Running programs -/

/-- The step of a state, if there is one. -/
def lazyStep? (program : Program) (superOf : ClassId → Option ClassId) (state : LazyState) :
    Option LazyState :=
  match state.acts with
  | [] => none
  | act :: rest =>
      match instAt act.frame.code act.frame.pc with
      | some (.invokeStatic index, next) => do
          let routine ← program.routineAt act.routine.klass index.toNat
          if state.started routine.klass then
            (call? program act rest index.toNat next).map fun acts => { state with acts }
          else state.initClass program superOf (routine.klass + 1) routine.klass
      | _ => (programStep? program state.acts).map fun acts => { state with acts }

/-- The instruction of a call is found. -/
theorem instAt_of_invokeStatic {code : List Byte} {pc next : Nat} {index : BitVec 32}
    (stands : StandsAt code pc (.invokeStatic index) next) :
    instAt code pc = some (.invokeStatic index, next) := by
  rcases stands with ⟨encodable, filler, standing, ends⟩
  have notWide : (Instruction.invokeStatic index).isWide = false := rfl
  rcases (fetch_iff notWide).mpr ⟨encodable, filler, standing, ends⟩ with ⟨cursor, fetched, rfl⟩
  rw [instAt, fetched]
  exact if_pos encodable

theorem lazyStep_of_lazyStep? {program : Program} {superOf : ClassId → Option ClassId}
    {state next : LazyState} (computed : lazyStep? program superOf state = some next) :
    LazyStep program superOf state next := by
  rcases state with ⟨acts, started⟩
  cases acts with
  | nil => cases computed
  | cons act rest =>
      dsimp only [lazyStep?] at computed
      split at computed
      · next index behind found =>
          have stands := standsAt_of_instAt found
          rcases Option.bind_eq_some_iff.mp computed with ⟨routine, known, chosen⟩
          split at chosen
          · next begun =>
              rcases Option.map_eq_some_iff.mp chosen with ⟨acts, called, rfl⟩
              refine .run ?_ (step_of_call? stands called)
              rintro top others other otherBehind ⟨⟩ ⟨otherIndex, otherStands, otherKnown⟩
              rw [instAt_of_invokeStatic otherStands] at found
              cases found
              cases otherKnown.symm.trans known
              exact begun
          · next unbegun =>
              exact .putOff rfl ⟨index, stands, known⟩ (by simpa using unbegun) chosen
      · next noCall =>
          rcases Option.map_eq_some_iff.mp computed with ⟨acts, stepped, rfl⟩
          refine .run ?_ (step_of_programStep? stepped)
          rintro top others routine behind ⟨⟩ ⟨index, stands, -⟩
          exact absurd (instAt_of_invokeStatic stands) (noCall index behind)

/-- Exactly `count` computed steps. -/
def runLazily? (program : Program) (superOf : ClassId → Option ClassId) :
    Nat → LazyState → Option LazyState
  | 0, state => some state
  | count + 1, state => do runLazily? program superOf count (← lazyStep? program superOf state)

theorem runsIn_of_runLazily? {program : Program} {superOf : ClassId → Option ClassId}
    {count : Nat} {state last : LazyState}
    (computed : runLazily? program superOf count state = some last) :
    RunsIn (LazyStep program superOf) count state last := by
  induction count generalizing state with
  | zero =>
      cases computed
      exact .zero _
  | succ count ih =>
      rcases Option.bind_eq_some_iff.mp computed with ⟨next, stepped, rest⟩
      exact .succ (lazyStep_of_lazyStep? stepped) (ih rest)

end JvmDemo.Interpreter.Specification

namespace JvmDemo.Interpreter

open JvmDemo.Lib
open JvmDemo.Lib.Refinement
open JvmDemo.Runtime
open JvmDemo.Instructions
open Specification

/-- Where the initialisation of a class goes on. -/
def superOf (table : ClassTable) (klass : ClassId) : Option ClassId :=
  if (table.info klass).isInterface then none else (table.info klass).superClass

/-- The classes that a program needs have initializers only where the program says so. -/
structure Initializes (machine : Machine) (program : Program) : Prop extends
    Provides machine program where
  undeclared : ∀ {klass index routine ancestor}, program.routineAt klass index = some routine →
    ancestor ∈ machine.table.superChain routine.klass →
    machine.table.declaredClinit ancestor = none → program.initializer ancestor = none

/-- The frames and the marks are those of the abstract state. -/
structure RunsLazily (state : LazyState) (vm : Vm) : Prop where
  frames : ActivationsMatch state.acts vm.thread.frames
  started : vm.clinitStarted = state.started

section Simulation

variable {machine : Machine} {program : Program} {state next : LazyState} {vm : Vm}

theorem scheduleClinit_eq (machine : Machine) (klass : ClassId) (vm : Vm) :
    machine.scheduleClinit klass vm =
      match machine.table.declaredClinit klass with
      | some method => vm.createFrame method
      | none => pure vm := by
  unfold Machine.scheduleClinit
  cases declared : machine.table.declaredClinit klass with
  | some method =>
      rcases ClassTable.getClinitMethod_of_declared declared with ⟨found, owner⟩
      rw [found]
      exact if_pos owner
  | none =>
      cases found : machine.table.getClinitMethod klass with
      | none => rfl
      | some method => exact if_neg (ClassTable.klass_ne_of_inherited declared found)

/-- An initializer that fits is scheduled. -/
theorem scheduleClinit_of_schedule (initializes : Initializes machine program)
    {klass user : ClassId} {index : Nat} {routine : Routine}
    (known : program.routineAt user index = some routine)
    (onChain : klass ∈ machine.table.superChain routine.klass) (related : RunsLazily state vm)
    (scheduled : state.schedule program klass = some next) :
    ∃ after, machine.scheduleClinit klass vm = .ok after ∧ RunsLazily next after := by
  rw [scheduleClinit_eq]
  unfold LazyState.schedule at scheduled
  cases declared : machine.table.declaredClinit klass with
  | none =>
      rw [initializes.undeclared known onChain declared] at scheduled
      cases scheduled
      exact ⟨vm, rfl, related⟩
  | some method =>
      rcases initializes.initializer known onChain declared with ⟨initializer, listed, realises⟩
      rw [listed] at scheduled
      dsimp only at scheduled
      split at scheduled
      · next fits =>
          cases scheduled
          rw [related.frames.length_eq] at fits
          have size : (Frame.ofMethod method).localVars.getSize = initializer.maxLocals := by
            rw [Frame.ofMethod, Slots.getSize_ofCount, realises.maxLocals]
            exact Nat.mod_eq_of_lt realises.smallLocals
          refine ⟨vm.setFrames (Frame.ofMethod method :: vm.thread.frames), ?_,
            .cons (realises.activationMatches size) related.frames, related.started⟩
          dsimp only
          rw [Vm.createFrame, Thread.createFrame_of_hasRoom (realises.hasRoom_iff.mpr fits)]
          rfl
      · cases scheduled

/-- `InitClass` begins the same initialisations. -/
theorem initClassFrom_of_initClass (initializes : Initializes machine program)
    {user : ClassId} {index : Nat} {routine : Routine}
    (known : program.routineAt user index = some routine) {fuel : Nat} {klass : ClassId}
    (onChain : klass ∈ machine.table.superChain routine.klass) (related : RunsLazily state vm)
    (done : state.initClass program (superOf machine.table) fuel klass = some next) :
    ∃ after, machine.initClassFrom fuel klass vm = .ok after ∧ RunsLazily next after := by
  induction fuel generalizing klass state vm with
  | zero => cases done
  | succ fuel ih =>
      rcases Option.bind_eq_some_iff.mp done with ⟨middle, scheduled, rest⟩
      have marked : RunsLazily (state.mark klass) (vm.startClinit klass) :=
        ⟨related.frames, by rw [Vm.startClinit, related.started]; rfl⟩
      rcases scheduleClinit_of_schedule initializes known onChain marked scheduled with
        ⟨after, executed, relatedAfter⟩
      rw [Machine.initClassFrom, executed, Exec.bind_ok]
      unfold superOf at rest
      by_cases isInterface : (machine.table.info klass).isInterface = true
      · rw [if_pos isInterface] at rest ⊢
        cases rest
        exact ⟨after, rfl, relatedAfter⟩
      · rw [if_neg isInterface] at rest ⊢
        cases superEq : (machine.table.info klass).superClass with
        | none =>
            rw [superEq] at rest
            cases rest
            exact ⟨after, rfl, relatedAfter⟩
        | some super =>
            rw [superEq] at rest
            have above : super ∈ machine.table.superChain klass := by
              rw [ClassTable.superChain_eq, superEq]
              exact List.mem_cons_of_mem _ (machine.table.mem_superChain_self super)
            dsimp only at rest ⊢
            rw [relatedAfter.started]
            split at rest
            · next begun =>
                cases rest
                rw [if_pos begun]
                exact ⟨after, rfl, relatedAfter⟩
            · next unbegun =>
                rw [if_neg unbegun]
                exact ih (machine.table.mem_superChain_trans onChain above) relatedAfter rest

/-- Every step is an iteration. -/
theorem iteration_simulates_lazily (initializes : Initializes machine program) :
    Simulates RunsLazily (LazyStep program (superOf machine.table)) (iteration machine) where
  step := by
    intro state next vm related stepped
    cases stepped with
    | @run acts actsNext marks started stepped =>
        have begun : ∀ {act rest routine behind}, acts = act :: rest →
            act.AtCall program routine behind → vm.clinitStarted routine.klass = true := by
          intro act rest routine behind top atCall
          rw [related.started]
          exact started top atCall
        rcases iteration_of_programStep initializes.toProvides related.frames begun stepped with
          ⟨after, executed, frames, same⟩
        exact ⟨after, executed, frames, same.trans related.started⟩
    | @putOff _ _ act rest routine behind top atCall unstarted done =>
        have frames := related.frames
        rw [top] at frames
        rcases List.forall₂_cons_left_iff.mp frames with ⟨frame, others, matching, -, vmFrames⟩
        rw [← related.started] at unstarted
        rw [iteration_of_unstarted initializes.toProvides vmFrames matching atCall unstarted]
        rcases atCall with ⟨index, -, known⟩
        exact initClassFrom_of_initClass initializes known
          (machine.table.mem_superChain_self routine.klass) ⟨related.frames, related.started⟩ done

theorem isStackEmpty_iff_of_runsLazily (related : RunsLazily state vm) :
    isStackEmpty vm = true ↔ state.acts = [] := by
  rw [isStackEmpty, List.isEmpty_iff, ← List.length_eq_zero_iff, ← List.length_eq_zero_iff,
    related.frames.length_eq]

theorem loopExecute_of_runsLazily (initializes : Initializes machine program) {last : LazyState}
    (related : RunsLazily state vm) {steps : Nat}
    (run : RunsIn (LazyStep program (superOf machine.table)) steps state last) :
    ∃ final, loopExecute machine steps vm = .ok final ∧ RunsLazily last final ∧
      (isStackEmpty final = true ↔ last.acts = []) ∧
      (0 < steps → last.acts = [] → ∀ more,
        loopExecute machine (steps + more) vm = .ok final) := by
  apply (iteration_simulates_lazily initializes).loop isStackEmpty_iff_of_runsLazily ?_ run related
  rintro state next stepped none
  cases stepped with
  | run _ stepped =>
      cases none
      cases stepped
  | putOff top => cases top.symm.trans none

/-- No class is marked when the interpreter starts. -/
theorem clinitStarted_of_jvmStart {className : Str} {staticVars : ClassId → Option Slots}
    {heap : Heap} {memory : Memory} {start : Vm}
    (started : jvmStart machine className (createdVm staticVars heap memory) = .ok (some start)) :
    start.clinitStarted = fun _ => false := by
  rcases (jvmStart_eq_ok started).jvmStart staticVars heap memory with
    ⟨same, frame, sameEq, -, -, unmarked⟩
  cases sameEq.symm.trans started
  exact funext unmarked

/-- The state in which a main method starts. -/
def LazyState.ofMain (main : Routine) : LazyState := ⟨[main.enter []], fun _ => false⟩

/-- A main method starts in this state. -/
theorem runsLazily_of_jvmStart {className : Str} {staticVars : ClassId → Option Slots}
    {heap : Heap} {memory : Memory} {start : Vm} {main : Routine}
    (realises : ∀ {mainClass method}, machine.table.loadClass className = .ok mainClass →
      getMainMethod machine.table mainClass = some method → Realises main method)
    (started : jvmStart machine className (createdVm staticVars heap memory) = .ok (some start)) :
    RunsLazily (LazyState.ofMain main) start := by
  rcases frames_of_jvmStart started with ⟨mainClass, mainMethod, vars, loaded, found, size, frames⟩
  have runs := realises loaded found
  rw [runs.maxLocals, Nat.mod_eq_of_lt runs.smallLocals] at size
  refine ⟨?_, clinitStarted_of_jvmStart started⟩
  rw [frames]
  exact .cons (runs.activationMatches size) .nil

end Simulation

end JvmDemo.Interpreter
