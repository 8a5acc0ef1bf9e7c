import JvmDemo.Interpreter.Steps

/-!
# Starting the virtual machine

`JVM::Start` pushes a frame for `main` and interprets.  The initialisation of
classes is left to the instructions, and none of them has been executed when the
code of `main` begins to run.
-/

namespace JvmDemo.Interpreter

open JvmDemo.Lib
open JvmDemo.Lib.Refinement
open JvmDemo.Runtime
open JvmDemo.Instructions

/-- `GetMainMethod`. -/
def getMainMethod (table : ClassTable) (id : ClassId) : Option Method :=
  table.getMethod id (str "main") (str "([Ljava/lang/String;)V") true

variable (machine : Machine)

/-- `CreateArgs`; the elements are not stored. -/
def createArgs (vm : Vm) : Exec (DWord × Vm) := do
  let stringClass ← machine.table.loadClass (str "java/lang/String")
  let arrayClass ← machine.table.getArrayClass stringClass
  newArray machine vm arrayClass

/-- `JVM::Start` up to the interpreter loop; `none` if there is no main method.
The primitive classes are in the table from the beginning. -/
def jvmStart (className : Str) (vm : Vm) : Exec (Option Vm) := do
  -- `LoadBasicClass`
  let _ ← machine.table.loadClass (str "java/lang/Class")
  let mainClass ← machine.table.loadClass className
  match getMainMethod machine.table mainClass with
  | none => pure none
  | some mainMethod => do
      let vm ← vm.createFrame mainMethod
      let (args, vm) ← createArgs machine vm
      let vm ← withFrame vm fun frame rest => do
        let vars ← frame.localVars.setRef 0 args
        pure (vm.setFrames (frame.setVars vars :: rest))
      pure (some vm)

/-- The state before `Start`: the thread is new, and no class is marked. -/
def createdVm (staticVars : ClassId → Option Slots) (heap : Heap) (memory : Memory) : Vm where
  thread := ⟨0, []⟩
  clinitStarted _ := false
  staticVars := staticVars
  heap := heap
  memory := memory
  newCount := 0
  stringPool := []
  initLog := []

/-! ## What can be started -/

/-- The code of the method belongs to an initialised class: it is a static method
other than an initializer, or a constructor. -/
def NeedsInitialization (method : Method) : Prop :=
  (method.isStatic = true ∧ method.name ≠ str "<clinit>") ∨ method.name = str "<init>"

/-- The class of the code that runs is marked, if it has to be. -/
def CodeInitialized (vm : Vm) : Prop :=
  ∀ frame rest, vm.thread.frames = frame :: rest → NeedsInitialization frame.method →
    vm.clinitStarted frame.method.klass = true

/-- The program has a main method, with room for its frame on the stack and for
the arguments in its frame, and the classes that `Start` uses are there. -/
def Startable (className : Str) : Prop :=
  ∃ jlc mainClass mainMethod stringClass arrayClass,
    machine.table.loadClass (str "java/lang/Class") = .ok jlc ∧
    machine.table.loadClass className = .ok mainClass ∧
    getMainMethod machine.table mainClass = some mainMethod ∧
    Thread.overflows 0 mainMethod = false ∧
    machine.table.loadClass (str "java/lang/String") = .ok stringClass ∧
    machine.table.getArrayClass stringClass = .ok arrayClass ∧
    (machine.table.info arrayClass).isArrayClass = true ∧
    2 ≤ mainMethod.maxLocals % 2 ^ 16

variable {machine} {className : Str} {vm next : Vm}

theorem needsInitialization_main {id : ClassId} {method : Method}
    (found : getMainMethod machine.table id = some method) : NeedsInitialization method := by
  rcases List.exists_of_findSome?_eq_some found with ⟨klass, -, declared⟩
  have named := List.find?_some declared
  simp only [Bool.and_eq_true, beq_iff_eq] at named
  refine .inl ⟨named.2, ?_⟩
  rw [named.1.1]
  decide

theorem createArgs_eq_ok {result : DWord × Vm} (done : createArgs machine vm = .ok result) :
    ∃ stringClass arrayClass,
      machine.table.loadClass (str "java/lang/String") = .ok stringClass ∧
      machine.table.getArrayClass stringClass = .ok arrayClass ∧
      (machine.table.info arrayClass).isArrayClass = true ∧ result = vm.newObject machine := by
  rcases Exec.bind_eq_ok.mp done with ⟨stringClass, stringEq, rest⟩
  rcases Exec.bind_eq_ok.mp rest with ⟨arrayClass, arrayEq, made⟩
  unfold newArray at made
  split at made
  · cases made
  · next isArray =>
      cases made
      exact ⟨stringClass, arrayClass, stringEq, arrayEq, by simpa using isArray, rfl⟩

/-- What a start that gets to the interpreter has done. -/
theorem jvmStart_eq_ok {staticVars : ClassId → Option Slots} {heap : Heap} {memory : Memory}
    (started : jvmStart machine className (createdVm staticVars heap memory) = .ok (some vm)) :
    Startable machine className := by
  rcases Exec.bind_eq_ok.mp started with ⟨jlc, jlcEq, named⟩
  rcases Exec.bind_eq_ok.mp named with ⟨mainClass, mainEq, loaded⟩
  split at loaded
  · cases loaded
  · next mainMethod found =>
      rcases Exec.bind_eq_ok.mp loaded with ⟨framed, created, rest⟩
      rcases Exec.bind_eq_ok.mp rest with ⟨result, argsEq, stored⟩
      rcases Exec.bind_eq_ok.mp stored with ⟨last, setEq, -⟩
      have fits : Thread.overflows 0 mainMethod = false := by
        rcases Exec.bind_eq_ok.mp created with ⟨thread, threadEq, -⟩
        exact (Thread.hasRoom_of_createFrame threadEq).1
      rcases createArgs_eq_ok argsEq with ⟨stringClass, arrayClass, stringEq, arrayEq, isArray, rfl⟩
      obtain rfl := Vm.createFrame_eq_ok created
      rcases Exec.bind_eq_ok.mp setEq with ⟨vars, varsEq, -⟩
      have stored : (Frame.ofMethod mainMethod).localVars.setValue 0 (.ref _) = .ok vars := varsEq
      have room : 0 + 2 ≤ (Frame.ofMethod mainMethod).localVars.getSize :=
        (Slots.setValue_eq_ok stored).1
      refine ⟨jlc, mainClass, mainMethod, stringClass, arrayClass, jlcEq, mainEq, found, fits,
        stringEq, arrayEq, isArray, ?_⟩
      simpa [Frame.ofMethod, Slots.getSize_ofCount] using room

/-- The interpreter starts with a frame of the main method. -/
theorem frames_of_jvmStart
    {staticVars : ClassId → Option Slots} {heap : Heap} {memory : Memory} {start : Vm}
    (started : jvmStart machine className (createdVm staticVars heap memory) = .ok (some start)) :
    ∃ mainClass mainMethod vars, machine.table.loadClass className = .ok mainClass ∧
      getMainMethod machine.table mainClass = some mainMethod ∧
      vars.getSize = mainMethod.maxLocals % 2 ^ 16 ∧
      start.thread.frames = [(Frame.ofMethod mainMethod).setVars vars] := by
  rcases Exec.bind_eq_ok.mp started with ⟨jlc, -, named⟩
  rcases Exec.bind_eq_ok.mp named with ⟨mainClass, mainEq, loaded⟩
  split at loaded
  · cases loaded
  · next mainMethod found =>
      rcases Exec.bind_eq_ok.mp loaded with ⟨framed, created, rest⟩
      rcases Exec.bind_eq_ok.mp rest with ⟨result, argsEq, stored⟩
      rcases createArgs_eq_ok argsEq with ⟨stringClass, arrayClass, -, -, -, rfl⟩
      obtain rfl := Vm.createFrame_eq_ok created
      rcases Exec.bind_eq_ok.mp stored with ⟨last, setEq, ⟨⟩⟩
      rcases Exec.bind_eq_ok.mp setEq with ⟨vars, varsEq, ⟨⟩⟩
      have written : (Frame.ofMethod mainMethod).localVars.setValue 0 (.ref _) = .ok vars := varsEq
      refine ⟨mainClass, mainMethod, vars, mainEq, found, ?_, rfl⟩
      rw [Slots.getSize_of_setValue written]
      exact Slots.getSize_ofCount _

/-- A program that can be started begins with the code of its main method, and
no class is marked. -/
theorem Startable.jvmStart (startable : Startable machine className)
    (staticVars : ClassId → Option Slots) (heap : Heap) (memory : Memory) :
    ∃ start frame, jvmStart machine className (createdVm staticVars heap memory) =
        .ok (some start) ∧
      start.thread.frames = [frame] ∧ NeedsInitialization frame.method ∧
      ∀ klass, start.clinitStarted klass = false := by
  rcases startable with ⟨jlc, mainClass, mainMethod, stringClass, arrayClass, jlcEq, mainEq, found,
    fits, stringEq, arrayEq, isArray, room⟩
  have inside : 0 + 2 ≤ (Frame.ofMethod mainMethod).localVars.getSize := by
    simpa [Frame.ofMethod, Slots.getSize_ofCount] using room
  let framed := (createdVm staticVars heap memory).setFrames [.ofMethod mainMethod]
  have created : (createdVm staticVars heap memory).createFrame mainMethod = .ok framed := by
    have threadEq := @Thread.createFrame_of_hasRoom ⟨0, []⟩ mainMethod ⟨fits, rfl⟩
    rw [Vm.createFrame]
    change Thread.createFrame ⟨0, []⟩ mainMethod >>= _ = _
    rw [threadEq]
    rfl
  have args : createArgs machine framed = .ok (framed.newObject machine) := by
    rw [createArgs, stringEq, Exec.bind_ok, arrayEq, Exec.bind_ok, newArray, isArray]
    rfl
  obtain ⟨vars, stored⟩ : ∃ vars,
      (Frame.ofMethod mainMethod).localVars.setRef 0 (framed.newObject machine).1 = .ok vars :=
    ⟨_, Slots.setValue_of_le (.ref _) inside⟩
  refine ⟨(framed.newObject machine).2.setFrames [(Frame.ofMethod mainMethod).setVars vars], _, ?_,
    rfl, needsInitialization_main found, fun _ => rfl⟩
  rw [Interpreter.jvmStart, jlcEq, Exec.bind_ok, mainEq, Exec.bind_ok, found]
  dsimp only
  rw [created, Exec.bind_ok, args, Exec.bind_ok]
  change (((Frame.ofMethod mainMethod).localVars.setRef 0 (framed.newObject machine).1 >>=
    fun _ => _) >>= fun _ => _) = _
  rw [stored]
  rfl

/-- In every run that `Start` begins, the code that runs belongs to an initialised
class in every state, if and only if the program cannot be started. -/
theorem codeInitialized_iff_not_startable (className : Str) (staticVars : ClassId → Option Slots)
    (heap : Heap) (memory : Memory) :
    (∀ start, jvmStart machine className (createdVm staticVars heap memory) = .ok (some start) →
      ∀ count vm, loopExecute machine count start = .ok vm → CodeInitialized vm) ↔
    ¬ Startable machine className := by
  constructor
  · intro initialized startable
    rcases startable.jvmStart staticVars heap memory with
      ⟨start, frame, started, frames, needs, none⟩
    have marked := initialized start started 0 start rfl frame [] frames needs
    rw [none] at marked
    cases marked
  · intro notStartable start started
    exact absurd (jvmStart_eq_ok started) notStartable

/-! ## A program with an initializer -/

/-- `return`. -/
def returningMain : Method where
  name := str "main"
  descriptor := str "([Ljava/lang/String;)V"
  accessFlags := 0x0009
  klass := 4
  codes := some (padded [0xB1])
  maxLocals := 2
  exceptionTable := some [emptyHandler]

/-- The initializer of the main class. -/
def mainClinit : Method where
  name := str "<clinit>"
  descriptor := str "()V"
  accessFlags := 0x0008
  klass := 4
  codes := some (padded [0xB1])
  exceptionTable := some [emptyHandler]

def startClasses : List ClassInfo :=
  [{ name := str "java/lang/Object", accessFlags := 0x0021 },
    { name := str "java/lang/Class", accessFlags := 0x0021, superClass := some 0 },
    { name := str "java/lang/String", accessFlags := 0x0021, superClass := some 0 },
    { name := str "[Ljava/lang/String;", accessFlags := 0x0001, superClass := some 0 },
    { name := str "Main", accessFlags := 0x0021, superClass := some 0
      methods := [mainClinit, returningMain] }]

def startMachine : Machine := .ofTable (.ofClasses startClasses (by decide))

/-- The code of `main` is the first that runs, and the initializer of its class
never does: the run ends after the `return`. -/
theorem main_not_initialized : ∃ start frame,
    jvmStart startMachine (str "Main")
      (createdVm (fun _ => none) (Heap.ofBlock (2 ^ 20) (2 ^ 16)) fun _ => 0) = .ok (some start) ∧
    loopExecute startMachine 0 start = .ok start ∧ start.thread.frames = [frame] ∧
    frame.method = returningMain ∧ start.clinitStarted frame.method.klass = false ∧
    ¬ CodeInitialized start ∧
    ∃ last, loopExecute startMachine 1 start = .ok last ∧ last.thread.frames = [] ∧
      last.initLog = [] := by
  refine ⟨_, _, rfl, rfl, rfl, rfl, rfl, ?_, _, rfl, rfl, rfl⟩
  intro initialized
  have needs : NeedsInitialization returningMain := .inl (by decide)
  exact absurd (initialized _ _ rfl needs) (by decide)

end JvmDemo.Interpreter
