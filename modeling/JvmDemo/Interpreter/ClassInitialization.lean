import JvmDemo.Interpreter.Steps
import JvmDemo.Runtime.Initialization
import Mathlib.Data.List.Nodup

/-!
# The class initialisation protocol

Over every run: a class is initialised at most once, the marks are closed under
superclasses, and an instruction that triggers an initialisation is left to be
executed again, which does not trigger a second time.

The invariant ties the marks to the log of `InitClass` calls.  Only the steps
that trigger touch either of them, and for these `Machine.Initialized` says what
is added.
-/

namespace JvmDemo.Interpreter

open JvmDemo.Lib
open JvmDemo.Lib.Refinement
open JvmDemo.Runtime
open JvmDemo.Instructions

variable {machine : Machine} {vm next : Vm}

/-- Exactly the classes in the log are marked, none is logged twice, and the
superclasses of a marked class are marked. -/
structure InitInvariant (machine : Machine) (vm : Vm) : Prop where
  logged : ∀ klass, klass ∈ vm.initLog ↔ vm.clinitStarted klass = true
  nodup : vm.initLog.Nodup
  closed : ∀ bound, machine.table.ClosedUpTo bound vm.clinitStarted

/-! ## One call of `InitClass` -/

section Call

variable {table : ClassTable} {started : ClassId → Bool} {klass : ClassId}

theorem nodup_toInitialize : (table.toInitialize started klass).Nodup := by
  unfold ClassTable.toInitialize
  split
  · simp
  · exact (table.nodup_superChain klass).filter _

theorem unstarted_of_mem_toInitialize (unstarted : started klass = false) {id : ClassId}
    (mem : id ∈ table.toInitialize started klass) : started id = false := by
  unfold ClassTable.toInitialize at mem
  split at mem
  · rw [List.mem_singleton.mp mem]
    exact unstarted
  · simpa using (List.mem_filter.mp mem).2

theorem mem_toInitialize_self (unstarted : started klass = false) :
    klass ∈ table.toInitialize started klass := by
  unfold ClassTable.toInitialize
  split
  · exact List.mem_singleton.mpr rfl
  · exact List.mem_filter.mpr ⟨table.mem_superChain_self klass, by simp [unstarted]⟩

/-- The superclasses of a class that is to be initialised are marked or are to
be initialised too. -/
theorem superChain_of_mem_toInitialize {id ancestor : ClassId}
    (mem : id ∈ table.toInitialize started klass) (isClass : (table.info id).isInterface = false)
    (onChain : ancestor ∈ table.superChain id) :
    ancestor ∈ table.toInitialize started klass ∨ started ancestor = true := by
  unfold ClassTable.toInitialize at mem ⊢
  split at mem
  · next isInterface =>
      rw [List.mem_singleton.mp mem, isInterface] at isClass
      cases isClass
  · next isInterface =>
      have above := table.mem_superChain_trans (List.mem_filter.mp mem).1 onChain
      by_cases marked : started ancestor = true
      · exact .inr marked
      · left
        rw [if_neg isInterface]
        exact List.mem_filter.mpr ⟨above, by simpa using marked⟩

end Call

theorem InitInvariant.initClass (holds : InitInvariant machine vm) {klass : ClassId}
    (unstarted : vm.clinitStarted klass = false)
    (initialized : machine.Initialized klass vm next) : InitInvariant machine next where
  logged id := by
    rw [initialized.log, initialized.started, List.mem_append, List.mem_reverse, holds.logged]
  nodup := by
    rw [initialized.log]
    refine List.nodup_append.mpr ⟨List.nodup_reverse.mpr nodup_toInitialize, holds.nodup, ?_⟩
    rintro id mem other logged rfl
    have isUnstarted := unstarted_of_mem_toInitialize unstarted (List.mem_reverse.mp mem)
    have isStarted := (holds.logged id).mp logged
    simp [isUnstarted] at isStarted
  closed := by
    rintro bound id below isStarted isClass ancestor onChain
    rw [initialized.started] at isStarted ⊢
    rcases isStarted with mem | before
    · exact superChain_of_mem_toInitialize mem isClass onChain
    · exact .inr (holds.closed bound id below before isClass ancestor onChain)

/-! ## Steps and runs -/

/-- What a step that triggers does. -/
theorem initialized_of_trigger (supers : machine.table.SupersAreClasses)
    (holds : InitInvariant machine vm) {frame : Frame} {inst : Instruction} {klass : ClassId}
    {pc : BitVec 32} (triggered : triggerOf machine vm frame inst = some klass)
    (returned : machine.initClass klass (vm.setPc pc) = .ok next) :
    vm.clinitStarted klass = false ∧ machine.Initialized klass (vm.setPc pc) next := by
  have unstarted : vm.clinitStarted klass = false := by
    have checked := (Option.filter_eq_some_iff.mp triggered).2
    simpa using checked
  exact ⟨unstarted, Machine.initClass_eq_ok supers unstarted (holds.closed klass) returned⟩

theorem InitInvariant.setPc (holds : InitInvariant machine vm) (pc : BitVec 32) :
    InitInvariant machine (vm.setPc pc) :=
  ⟨holds.logged, holds.nodup, holds.closed⟩

theorem InitInvariant.iteration (supers : machine.table.SupersAreClasses)
    (holds : InitInvariant machine vm) (stepped : iteration machine vm = .ok next) :
    InitInvariant machine next := by
  rcases iteration_cases stepped with ⟨frame, rest, inst, nextPc, _, change⟩
  rcases change with ⟨klass, triggered, returned⟩ | ⟨_, ordinary⟩
  · rcases initialized_of_trigger supers holds triggered returned with ⟨unstarted, initialized⟩
    exact (holds.setPc frame.nextPc).initClass unstarted initialized
  · constructor
    · intro klass
      rw [ordinary.log, ordinary.started]
      exact holds.logged klass
    · rw [ordinary.log]
      exact holds.nodup
    · rw [ordinary.started]
      exact holds.closed

/-- A class that is marked stays marked. -/
theorem started_of_iteration (supers : machine.table.SupersAreClasses)
    (holds : InitInvariant machine vm) (stepped : iteration machine vm = .ok next)
    {klass : ClassId} (marked : vm.clinitStarted klass = true) :
    next.clinitStarted klass = true := by
  rcases iteration_cases stepped with ⟨frame, rest, inst, nextPc, _, change⟩
  rcases change with ⟨other, triggered, returned⟩ | ⟨_, ordinary⟩
  · rcases initialized_of_trigger supers holds triggered returned with ⟨_, initialized⟩
    rw [initialized.started]
    exact .inr marked
  · rw [ordinary.started]
    exact marked

theorem InitInvariant.loopExecute (supers : machine.table.SupersAreClasses) {count : Nat}
    (holds : InitInvariant machine vm) (run : loopExecute machine count vm = .ok next) :
    InitInvariant machine next :=
  loop_invariant (fun holds stepped => holds.iteration supers stepped) holds run

theorem started_of_loopExecute (supers : machine.table.SupersAreClasses) {count : Nat}
    (holds : InitInvariant machine vm) (run : loopExecute machine count vm = .ok next)
    {klass : ClassId} (marked : vm.clinitStarted klass = true) :
    next.clinitStarted klass = true := by
  have kept : InitInvariant machine next ∧ next.clinitStarted klass = true := by
    apply loop_invariant _ ⟨holds, marked⟩ run
    rintro state after ⟨holdsNow, markedNow⟩ stepped
    exact ⟨holdsNow.iteration supers stepped,
      started_of_iteration supers holdsNow stepped markedNow⟩
  exact kept.2

/-- No class is marked at the start. -/
theorem initInvariant_start (unstarted : ∀ klass, vm.clinitStarted klass = false)
    (log : vm.initLog = []) : InitInvariant machine vm := by
  constructor
  · intro klass
    simp [log, unstarted]
  · rw [log]
    exact List.nodup_nil
  · intro bound klass below marked
    simp [unstarted] at marked

/-- When a frame is back at an instruction that has triggered, the class is
marked. -/
theorem triggerOf_eq_none_of_started {frame again : Frame} {rest rest' : List Frame}
    {inst inst' : Instruction} {nextPc nextPc' : BitVec 32} {later : Vm} {klass : ClassId}
    (dispatched : Dispatches vm frame rest inst nextPc)
    (triggered : triggerOf machine vm frame inst = some klass)
    (redispatched : Dispatches later again rest' inst' nextPc')
    (sameMethod : again.method = frame.method) (samePc : again.nextPc = frame.nextPc)
    (marked : later.clinitStarted klass = true) : triggerOf machine later again inst' = none := by
  rcases dispatched.fetched with ⟨code, codeEq, fetched⟩
  rcases redispatched.fetched with ⟨code', codeEq', fetched'⟩
  rw [sameMethod, codeEq] at codeEq'
  cases codeEq'
  rw [samePc, fetched] at fetched'
  cases fetched'
  have target := (Option.filter_eq_some_iff.mp triggered).1
  rw [triggerOf, initTarget_congr sameMethod, target]
  simp [marked]

/-- In every run from a state in which no class is marked: no class is
initialised twice; the superclasses of a marked class are marked; `InitClass`
pushes the declared initializers of the class and of its unmarked superclasses,
the uppermost on top, and of an interface only its own; and an instruction that
triggers leaves its frame as it was and does not trigger when it is executed
again. -/
theorem classInit_protocol (supers : machine.table.SupersAreClasses) {start : Vm}
    (unstarted : ∀ klass, start.clinitStarted klass = false) (log : start.initLog = [])
    {count : Nat} (run : loopExecute machine count start = .ok vm) :
    vm.initLog.Nodup ∧
    (∀ klass, vm.clinitStarted klass = true → (machine.table.info klass).isInterface = false →
      ∀ ancestor ∈ machine.table.superChain klass, vm.clinitStarted ancestor = true) ∧
    (∀ klass next, vm.clinitStarted klass = false → machine.initClass klass vm = .ok next →
      machine.Initialized klass vm next) ∧
    (∀ frame rest inst nextPc klass next, Dispatches vm frame rest inst nextPc →
      triggerOf machine vm frame inst = some klass → iteration machine vm = .ok next →
      next.thread.frames = (machine.table.initializerFrames
        (machine.table.toInitialize vm.clinitStarted klass)).reverse ++ frame :: rest ∧
      ∀ more later again rest' inst' nextPc', loopExecute machine more next = .ok later →
        Dispatches later again rest' inst' nextPc' → again.method = frame.method →
        again.nextPc = frame.nextPc → triggerOf machine later again inst' = none) := by
  have holds : InitInvariant machine vm :=
    (initInvariant_start unstarted log).loopExecute supers run
  refine ⟨holds.nodup, ?_, ?_, ?_⟩
  · intro klass marked isClass ancestor onChain
    exact holds.closed klass klass (Nat.le_refl klass) marked isClass ancestor onChain
  · intro klass next isUnstarted returned
    exact Machine.initClass_eq_ok supers isUnstarted (holds.closed klass) returned
  · intro frame rest inst nextPc klass next dispatched triggered stepped
    have returned := initClass_of_trigger dispatched triggered stepped
    rcases initialized_of_trigger supers holds triggered returned with ⟨isUnstarted, initialized⟩
    have marked : next.clinitStarted klass = true := by
      rw [initialized.started]
      exact .inl (mem_toInitialize_self isUnstarted)
    constructor
    · rw [initialized.frames, Vm.setPc_frames, dispatched.frames]
      rfl
    · intro more later again rest' inst' nextPc' continued redispatched sameMethod samePc
      apply triggerOf_eq_none_of_started dispatched triggered redispatched sameMethod samePc
      exact started_of_loopExecute supers (holds.iteration supers stepped) continued marked

/-! ## A hierarchy -/

/-- A static `<clinit>()V` that returns at once. -/
def emptyClinit (klass : ClassId) : Method where
  name := str "<clinit>"
  descriptor := str "()V"
  accessFlags := 0x0008
  klass := klass
  codes := some (padded [0xB1])
  exceptionTable := some [emptyHandler]

/-- `getstatic Flags.f; new Derived; return`. -/
def hierarchyMain : Method where
  name := str "main"
  descriptor := str "([Ljava/lang/String;)V"
  accessFlags := 0x0009
  klass := 4
  codes := some (padded [0xB2, 0, 1, 0xBB, 0, 2, 0xB1])
  maxStack := 4
  exceptionTable := some [emptyHandler]

/-- `Derived` extends `Base`; `Flags` is an interface. -/
def hierarchyClasses : List ClassInfo :=
  [{ name := str "java/lang/Object", accessFlags := 0x0021, methods := [emptyClinit 0] },
    { name := str "Flags", accessFlags := 0x0600, superClass := some 0
      fields := [{ name := str "f", descriptor := str "I", accessFlags := 0x0019, klass := 1 }]
      methods := [emptyClinit 1] },
    { name := str "Base", accessFlags := 0x0020, superClass := some 0, methods := [emptyClinit 2] },
    { name := str "Derived", accessFlags := 0x0020, superClass := some 2
      methods := [emptyClinit 3] },
    { name := str "Main", accessFlags := 0x0020, superClass := some 0, methods := [hierarchyMain]
      constantPool := [none, some (.fieldRef (str "Flags") (str "f") (str "I")),
        some (.classRef (str "Derived"))] }]

def hierarchyMachine : Machine :=
  { Machine.ofTable (.ofClasses hierarchyClasses (by decide)) with asserts := false }

def hierarchyStart : Vm :=
  { Vm.ofFrames [.ofMethod hierarchyMain] with staticVars := fun _ => some (Slots.ofCount 1) }

theorem hierarchy_supersAreClasses : hierarchyMachine.table.SupersAreClasses := by
  intro klass super isClass superEq
  rcases klass with - | - | - | - | - | klass
  · cases superEq
  · cases isClass
  · cases superEq
    rfl
  · cases superEq
    rfl
  · cases superEq
    rfl
  · cases superEq

/-- `Object` is the superclass of every interface, and is not initialised when
an interface is. -/
theorem interface_superclass_not_initialized :
    hierarchyMachine.table.SupersAreClasses ∧
    (∀ klass, hierarchyStart.clinitStarted klass = false) ∧ hierarchyStart.initLog = [] ∧
    ∃ next, hierarchyMachine.initClass 1 hierarchyStart = .ok next ∧
      iteration hierarchyMachine hierarchyStart = .ok next ∧
      0 ∈ hierarchyMachine.table.superChain 1 ∧
      hierarchyMachine.table.declaredClinit 0 = some (emptyClinit 0) ∧
      Frame.ofMethod (emptyClinit 1) ∈ next.thread.frames ∧
      Frame.ofMethod (emptyClinit 0) ∉ next.thread.frames := by
  refine ⟨hierarchy_supersAreClasses, fun _ => rfl, rfl, _, rfl, rfl, ?_⟩
  decide +kernel

theorem classInit_protocol_hierarchy : ∃ vm,
    loopExecute hierarchyMachine 4 hierarchyStart = .ok vm ∧ vm.initLog = [0, 2, 3, 1] ∧
      vm.initLog.Nodup ∧
      vm.thread.frames.map Frame.method =
        [emptyClinit 0, emptyClinit 2, emptyClinit 3, hierarchyMain] := by
  refine ⟨_, rfl, rfl, ?_, rfl⟩
  exact (classInit_protocol hierarchy_supersAreClasses (fun _ => rfl) rfl
    (rfl : loopExecute hierarchyMachine 4 hierarchyStart = _)).1

end JvmDemo.Interpreter
