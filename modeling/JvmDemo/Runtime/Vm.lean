import JvmDemo.Runtime.Heap
import JvmDemo.Runtime.Thread
import JvmDemo.Instructions.FrameExecution

/-!
# The state of the virtual machine

`Machine` collects what stays fixed during a run: the classes, the
floating-point unit, whether `assert` is compiled in, and where `malloc` and the
loader put their objects.  `Vm` is what instructions change.  The own fields of
`Class` objects are kept apart from the byte memory of instances.

`initLog` records the calls of `InitClass` in reverse order.  It has no
counterpart in the source and nothing reads it.
-/

namespace JvmDemo.Runtime

open JvmDemo.Lib
open JvmDemo.Instructions (FloatOps)

/-- What stays fixed during a run. -/
structure Machine where
  table : ClassTable
  floatOps : FloatOps
  /-- Whether `assert` is active. -/
  asserts : Bool
  /-- The address of the object made by the `n`-th call of `new Object()`. -/
  newAddress : Nat → DWord
  /-- The address of a class as an object. -/
  classAddress : ClassId → DWord

/-- The state of a run. -/
structure Vm where
  thread : Thread
  /-- `clinit_started_` of each class. -/
  clinitStarted : ClassId → Bool
  /-- `static_vars_` of each class. -/
  staticVars : ClassId → Option Slots
  heap : Heap
  memory : Memory
  /-- How many objects `new Object()` has made. -/
  newCount : Nat
  stringPool : List (Str × DWord)
  initLog : List ClassId

namespace Vm

/-- Replace the frames of the thread. -/
def setFrames (vm : Vm) (frames : List Frame) : Vm :=
  { vm with thread := { vm.thread with frames := frames } }

/-- `SetPc` of the current thread. -/
def setPc (vm : Vm) (pc : BitVec 32) : Vm := { vm with thread := { vm.thread with pc := pc } }

/-- `StartClinit`, and the entry into the log. -/
def startClinit (vm : Vm) (klass : ClassId) : Vm :=
  { vm with
    clinitStarted := fun id => if id = klass then true else vm.clinitStarted id
    initLog := klass :: vm.initLog }

/-- Write the static variables of a class. -/
def setStaticVars (vm : Vm) (klass : ClassId) (slots : Slots) : Vm :=
  { vm with staticVars := fun id => if id = klass then some slots else vm.staticVars id }

/-- `CreateFrame` of the current thread. -/
def createFrame (vm : Vm) (method : Method) : Exec Vm := do
  let thread ← vm.thread.createFrame method
  pure { vm with thread := thread }

/-- `new Object()`, zero-initialised. -/
def newObject (machine : Machine) (vm : Vm) : DWord × Vm :=
  let object := machine.newAddress vm.newCount
  (object, { vm with
    newCount := vm.newCount + 1
    memory := vm.memory.write64 (object.toNat + Object.klassOffset) 0 })

@[simp]
theorem setFrames_frames (vm : Vm) (frames : List Frame) :
    (vm.setFrames frames).thread.frames = frames := rfl

@[simp]
theorem setFrames_clinitStarted (vm : Vm) (frames : List Frame) :
    (vm.setFrames frames).clinitStarted = vm.clinitStarted := rfl

@[simp]
theorem setFrames_initLog (vm : Vm) (frames : List Frame) :
    (vm.setFrames frames).initLog = vm.initLog := rfl

@[simp]
theorem setPc_pc (vm : Vm) (pc : BitVec 32) : (vm.setPc pc).thread.pc = pc := rfl

@[simp]
theorem setPc_frames (vm : Vm) (pc : BitVec 32) :
    (vm.setPc pc).thread.frames = vm.thread.frames := rfl

@[simp]
theorem setPc_clinitStarted (vm : Vm) (pc : BitVec 32) :
    (vm.setPc pc).clinitStarted = vm.clinitStarted := rfl

@[simp]
theorem setPc_initLog (vm : Vm) (pc : BitVec 32) : (vm.setPc pc).initLog = vm.initLog := rfl

@[simp]
theorem setFrames_pc (vm : Vm) (frames : List Frame) :
    (vm.setFrames frames).thread.pc = vm.thread.pc := rfl

/-- A frame that was created lies on top; nothing else changes. -/
theorem createFrame_eq_ok {vm next : Vm} {method : Method}
    (created : vm.createFrame method = .ok next) :
    next = vm.setFrames (Frame.ofMethod method :: vm.thread.frames) := by
  rcases Exec.bind_eq_ok.mp created with ⟨thread, threadEq, rest⟩
  cases rest
  rw [Thread.createFrame_eq_ok threadEq]
  rfl

end Vm

namespace Machine

variable (machine : Machine)

/-- The class at an address. -/
def classAt (address : DWord) : Option ClassId :=
  (List.range machine.table.classes.length).find? fun id => machine.classAddress id == address

/-- `GetClass` of an object: null, or the class that the header points at. -/
def classOf (vm : Vm) (object : DWord) : Exec (Option ClassId) :=
  if object = 0 then undefined "GetClass of a null object"
  else
    let klass := vm.memory.read64 (object.toNat + Object.klassOffset)
    if klass = 0 then pure none
    else match machine.classAt klass with
      | some id => pure (some id)
      | none => undefined "klass_ does not point at a class"

/-- `GetClass` of an object whose class is then used. -/
def classOf! (vm : Vm) (object : DWord) : Exec ClassId := do
  match ← machine.classOf vm object with
  | some id => pure id
  | none => undefined "member access through a null klass_"

/-- `javaStringToString`, which ignores its argument. -/
def javaStringToString (_ : DWord) : Str := str "hello"

/-- `NewJString`: a string that is not pooled is made of objects without a
class, and setting its value goes through the null class. -/
def newJString (vm : Vm) (value : Str) : Exec DWord :=
  match vm.stringPool.lookup value with
  | some object => pure object
  | none => undefined "GetField through a null klass_"

/-! ## Class initialisation -/

/-- `ScheduleClinit`. -/
def scheduleClinit (klass : ClassId) (vm : Vm) : Exec Vm :=
  match machine.table.getClinitMethod klass with
  | some method => if method.klass = klass then vm.createFrame method else pure vm
  | none => pure vm

def initClassFrom : Nat → ClassId → Vm → Exec Vm
  | 0, _, _ => .error .diverges
  | fuel + 1, klass, vm => do
      let vm ← machine.scheduleClinit klass (vm.startClinit klass)
      -- `InitSuperClass`
      if (machine.table.info klass).isInterface then pure vm
      else match (machine.table.info klass).superClass with
        | none => pure vm
        | some super => if vm.clinitStarted super then pure vm else initClassFrom fuel super vm

/-- `InitClass`; loading order bounds the recursion. -/
def initClass (klass : ClassId) (vm : Vm) : Exec Vm := machine.initClassFrom (klass + 1) klass vm

/-- A machine for programs without floating-point instructions; `asserts` as in
the debug build. -/
def ofTable (table : ClassTable) : Machine where
  table := table
  floatOps := .zero
  asserts := true
  newAddress count := BitVec.ofNat 64 (2 ^ 40 + 64 * count)
  classAddress klass := BitVec.ofNat 64 (2 ^ 32 + 512 * klass)

end Machine

/-- A state in which no class has been initialised. -/
def Vm.ofFrames (frames : List Frame) : Vm where
  thread := ⟨0, frames⟩
  clinitStarted _ := false
  staticVars _ := none
  heap := Heap.ofBlock (2 ^ 20) (2 ^ 16)
  memory _ := 0
  newCount := 0
  stringPool := []
  initLog := []

end JvmDemo.Runtime
