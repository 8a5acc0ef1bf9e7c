import JvmDemo.Runtime.Vm

/-!
# Instructions on objects, classes and constants

Each function is the `Execute` of one instruction on the current frame.  The
asserts of the source are inverted: they stop the process when the constant has
the expected type.  With asserts compiled out, a constant of another type is a
null pointer that is then used.
-/

namespace JvmDemo.Instructions

open JvmDemo.Lib
open JvmDemo.Runtime

variable (machine : Machine)

/-! ## Constants of the current class -/

/-- The constant at an index of the pool of the frame's class. -/
def constantAt (frame : Frame) (index : Nat) : Option Constant :=
  (machine.table.info frame.method.klass).getConstant index

/-- An assert that a cast gave null, as the source writes it. -/
def assertNull (checked : Bool) : Exec Unit :=
  if checked && machine.asserts then fatal "Assertion `ref_constant == nullptr' failed."
  else pure ()

/-- The cast to `ClassRefConstant` and `ResolveClass`. -/
def resolveClassAt (checked : Bool) (frame : Frame) (index : Nat) : Exec ClassId :=
  match constantAt machine frame index with
  | some (.classRef className) => do
      assertNull machine checked
      machine.table.resolveClass frame.method.klass className
  | _ => undefined "ResolveClass of a null constant"

/-- The cast to `FieldRefConstant` and `ResolveField`. -/
def resolveFieldAt (checked : Bool) (frame : Frame) (index : Nat) : Exec Field :=
  match constantAt machine frame index with
  | some (.fieldRef className name descriptor) => do
      assertNull machine checked
      machine.table.resolveField frame.method.klass className name descriptor
  | _ => undefined "ResolveField of a null constant"

/-- The kind of value that a field descriptor stands for; the chains of
comparisons have no last branch. -/
def fieldKind (descriptor : Str) : Option Kind :=
  if descriptor == str "Z" || descriptor == str "B" || descriptor == str "C" ||
      descriptor == str "S" || descriptor == str "I" then some .int
  else if descriptor == str "F" then some .float
  else if descriptor == str "J" then some .long
  else if descriptor == str "D" then some .double
  else if firstByte descriptor == chr 'L' || firstByte descriptor == chr '[' then some .ref
  else none

/-! ## Replacing the current frame -/

/-- The current frame and those below it. -/
def withFrame (vm : Vm) (run : Frame → List Frame → Exec Vm) : Exec Vm :=
  match vm.thread.frames with
  | frame :: rest => run frame rest
  | [] => undefined "null current frame"

/-- Push a value on the operand stack of the current frame. -/
def pushValue (vm : Vm) (frame : Frame) (rest : List Frame) (value : Value) : Exec Vm := do
  let stack ← frame.operandStack.push value
  pure (vm.setFrames (frame.setStack stack :: rest))

/-! ## Class initialisation triggers -/

/-- `RevertNextPc` and `InitClass`: the instruction will be executed again. -/
def triggerInit (vm : Vm) (frame : Frame) (rest : List Frame) (klass : ClassId) : Exec Vm :=
  machine.initClass klass (vm.setFrames (frame.setNextPc vm.thread.pc :: rest))

/-! ## Objects and arrays -/

/-- `NEW::Execute`. -/
def executeNew (index : BitVec 32) (vm : Vm) (frame : Frame) (rest : List Frame) : Exec Vm := do
  let klass ← resolveClassAt machine true frame index.toNat
  let info := machine.table.info klass
  if !vm.clinitStarted klass then triggerInit machine vm frame rest klass
  else if info.isInterface || info.isAbstract then thrown "java.lang.InstantiationError"
  else
    let (ref, heap, memory) :=
      vm.heap.allocObject vm.memory (machine.classAddress klass) info.objectSize
    pushValue { vm with heap := heap, memory := memory } frame rest (.ref ref)

/-- `NewArray`: an object without class or elements. -/
def newArray (vm : Vm) (arrayClass : ClassId) : Exec (DWord × Vm) :=
  if !(machine.table.info arrayClass).isArrayClass then fatal "Not array class"
  else pure (vm.newObject machine)

/-- `GetPrimitiveArrayClass`. -/
def getPrimitiveArrayClass (arrType : BitVec 8) : Exec ClassId :=
  match arrType.toNat with
  | 4 => machine.table.loadClass (str "[Z")
  | 5 => machine.table.loadClass (str "[C")
  | 6 => machine.table.loadClass (str "[F")
  | 7 => machine.table.loadClass (str "[D")
  | 8 => machine.table.loadClass (str "[B")
  | 9 => machine.table.loadClass (str "[S")
  | 10 => machine.table.loadClass (str "[I")
  | 11 => machine.table.loadClass (str "[J")
  | _ => fatal ("Invalid atype: " ++ text [arrType])

/-- The common end of the array instructions. -/
def pushNewArray (vm : Vm) (frame : Frame) (rest : List Frame) (arrayClass : ClassId) :
    Exec Vm := do
  let (arr, vm) ← newArray machine vm arrayClass
  pushValue vm frame rest (.ref arr)

/-- `NEW_ARRAY::Execute`. -/
def executeNewArray (arrayType : BitVec 8) (vm : Vm) (frame : Frame) (rest : List Frame) :
    Exec Vm := do
  let (count, stack) ← frame.operandStack.popInt
  if count.slt 0 then thrown "java.lang.NegativeArraySizeException"
  else
    let arrayClass ← getPrimitiveArrayClass machine arrayType
    pushNewArray machine vm (frame.setStack stack) rest arrayClass

/-- `ANEW_ARRAY::Execute`. -/
def executeAnewArray (index : BitVec 32) (vm : Vm) (frame : Frame) (rest : List Frame) :
    Exec Vm := do
  let klass ← resolveClassAt machine true frame index.toNat
  let (count, stack) ← frame.operandStack.popInt
  if count.slt 0 then thrown "java.lang.NegativeArraySizeException"
  else
    let arrayClass ← machine.table.getArrayClass klass
    pushNewArray machine vm (frame.setStack stack) rest arrayClass

/-- `PopAndCheckCounts`: the last popped count is the one of the outermost
dimension and comes first. -/
def popCounts : Nat → List Word → OperandStack → Exec (List Word × OperandStack)
  | 0, counts, stack => pure (counts, stack)
  | dimensions + 1, counts, stack => do
      let (count, stack) ← stack.popInt
      if count.slt 0 then thrown "java.lang.NegativeArraySizeException"
      else popCounts dimensions (count :: counts) stack

/-- The check that `NewMultiDimensionalArray` makes of its component class,
without building the inner arrays. -/
def checkComponents (arrayClass : ClassId) : List Word → Exec Unit
  | [] => undefined "read past the end of counts"
  | count :: inner =>
      if inner ≠ [] && (0#32).slt count then do
        let _ ← machine.table.getComponentClass arrayClass
        pure ()
      else pure ()

/-- `MULTI_ANEW_ARRAY::Execute`: only the outermost array is made. -/
def executeMultiAnewArray (index : BitVec 16) (dimensions : BitVec 8) (vm : Vm) (frame : Frame)
    (rest : List Frame) : Exec Vm := do
  let klass ← resolveClassAt machine true frame index.toNat
  let (counts, stack) ← popCounts dimensions.toNat [] frame.operandStack
  checkComponents machine klass counts
  pushNewArray machine vm (frame.setStack stack) rest klass

/-! ## Static fields -/

/-- `PUT_STATIC::Execute`. -/
def executePutStatic (index : BitVec 32) (vm : Vm) (frame : Frame) (rest : List Frame) :
    Exec Vm := do
  let field ← resolveFieldAt machine true frame index.toNat
  if !vm.clinitStarted field.klass then triggerInit machine vm frame rest field.klass
  else if !field.isStatic then thrown "java.lang.IncompatibleClassChangeError"
  else if field.isFinal &&
      (field.klass != frame.method.klass || frame.method.name != str "<clinit>") then
    thrown "java.lang.IllegalAccessError"
  else match fieldKind field.descriptor with
    | none => pure vm
    | some kind => do
        let (value, stack) ← frame.operandStack.pop kind
        match vm.staticVars field.klass with
        | none => undefined "write through null static_vars_"
        | some slots => do
            let slots ← slots.setValue (field.slotId.toNat % 2 ^ 16) value
            pure ((vm.setStaticVars field.klass slots).setFrames (frame.setStack stack :: rest))

/-- `GET_STATIC::Execute`. -/
def executeGetStatic (index : BitVec 32) (vm : Vm) (frame : Frame) (rest : List Frame) :
    Exec Vm := do
  let field ← resolveFieldAt machine true frame index.toNat
  if !vm.clinitStarted field.klass then triggerInit machine vm frame rest field.klass
  else if !field.isStatic then thrown "java.lang.IncompatibleClassChangeError"
  else match fieldKind field.descriptor with
    | none => pure vm
    | some kind =>
        match vm.staticVars field.klass with
        | none => undefined "read through null static_vars_"
        | some slots => do
            let value ← slots.getValue (field.slotId.toNat % 2 ^ 16) kind
            pushValue vm frame rest value

/-! ## Instance fields -/

/-- `GET_FIELD::Execute`; an unknown descriptor is only logged. -/
def executeGetField (index : BitVec 32) (vm : Vm) (frame : Frame) (rest : List Frame) :
    Exec Vm := do
  let field ← resolveFieldAt machine true frame index.toNat
  if field.isStatic then thrown "java.lang.IncompatibleClassChangeError"
  else
    let (ref, stack) ← frame.operandStack.popRef
    if ref = 0 then thrown "java.lang.NullPointerException"
    else match fieldKind field.descriptor with
      | none => pure (vm.setFrames (frame.setStack stack :: rest))
      | some kind =>
          pushValue vm (frame.setStack stack) rest
            (DataObject.getField vm.memory ref field.slotId kind)

/-- `PUT_FIELD::Execute`. -/
def executePutField (index : BitVec 32) (vm : Vm) (frame : Frame) (rest : List Frame) :
    Exec Vm := do
  let field ← resolveFieldAt machine false frame index.toNat
  if field.isStatic then thrown "java.lang.IncompatibleClassChangeError"
  else if field.isFinal &&
      (frame.method.klass != field.klass || frame.method.name != str "<init>") then
    thrown "java.lang.IllegalAccessError"
  else match fieldKind field.descriptor with
    | none => pure vm
    | some kind => do
        let (value, stack) ← frame.operandStack.pop kind
        let (ref, stack) ← stack.popRef
        if ref = 0 then thrown "java.lang.NullPointerException"
        else
          let memory := DataObject.setField vm.memory ref field.slotId value
          pure ({ vm with memory := memory }.setFrames (frame.setStack stack :: rest))

/-! ## Type tests -/

/-- `IsInstanceOf`. -/
def isInstanceOf (vm : Vm) (ref : DWord) (klass : ClassId) : Exec Bool := do
  let own ← machine.classOf vm ref
  machine.table.isAssignableFrom klass own

/-- `INSTANCE_OF::Execute`. -/
def executeInstanceOf (index : BitVec 32) (vm : Vm) (frame : Frame) (rest : List Frame) :
    Exec Vm := do
  let klass ← resolveClassAt machine false frame index.toNat
  let (ref, stack) ← frame.operandStack.popRef
  let result ← if ref = 0 then pure false else isInstanceOf machine vm ref klass
  pushValue vm (frame.setStack stack) rest (.int (if result then 1 else 0))

/-- `CHECK_CAST::Execute`. -/
def executeCheckCast (index : BitVec 32) (vm : Vm) (frame : Frame) (rest : List Frame) :
    Exec Vm := do
  let klass ← resolveClassAt machine false frame index.toNat
  let (ref, stack) ← frame.operandStack.popRef
  let passes ← if ref = 0 then pure true else isInstanceOf machine vm ref klass
  if passes then pushValue vm (frame.setStack stack) rest (.ref ref)
  else thrown "java.lang.ClassCastException"

/-! ## Constants -/

/-- `LoadConstant`. -/
def loadConstant (index : BitVec 32) (vm : Vm) (frame : Frame) (rest : List Frame) : Exec Vm :=
  match constantAt machine frame index.toNat with
  | none => undefined "GetConstantType of a null constant"
  | some (.integer value) => pushValue vm frame rest (.int value)
  | some (.float bits) => pushValue vm frame rest (.float bits)
  | some (.string value) => do
      let object ← Machine.newJString vm value
      pushValue vm frame rest (.ref object)
  | some (.classRef className) => do
      let klass ← machine.table.resolveClass frame.method.klass className
      pushValue vm frame rest (.ref (machine.classAddress klass))
  | some _ => thrown "todo: ldc!"

/-- `LDC2_W::Execute`. -/
def executeLdc2W (index : BitVec 32) (vm : Vm) (frame : Frame) (rest : List Frame) : Exec Vm :=
  match constantAt machine frame index.toNat with
  | none => undefined "GetConstantType of a null constant"
  | some (.long value) => pushValue vm frame rest (.long value)
  | some (.double bits) => pushValue vm frame rest (.double bits)
  | some _ => thrown "todo: ldc2_w!"

/-! ## Exceptions -/

/-- `FindExceptionHandler`, in table order; `-1` when nothing matches. -/
def findExceptionHandler (owner : ClassId) (exClass : Option ClassId) (pc : BitVec 32) :
    List ExceptionHandler → Exec (BitVec 32)
  | [] => pure (-1)
  | handler :: handlers =>
      if handler.startPc.sle pc && pc.slt handler.endPc then
        match handler.catchType with
        | none => pure handler.handlerPc
        | some className => do
            let catchClass ← machine.table.resolveClass owner className
            match exClass with
            | none => undefined "super_class_ of a null class"
            | some id =>
                if catchClass = id || machine.table.isSuperClassOf catchClass id then
                  pure handler.handlerPc
                else findExceptionHandler owner exClass pc handlers
      else findExceptionHandler owner exClass pc handlers

/-- The program counter by which a frame is looked up while unwinding. -/
def lookupPc (frame : Frame) : BitVec 32 := frame.nextPc - 1

/-- The handler of a frame for an exception of a class. -/
def handlerOf (exClass : Option ClassId) (frame : Frame) : Exec (BitVec 32) :=
  match frame.method.exceptionTable with
  | none => undefined "read through an uninitialised exception_table_"
  | some handlers =>
      findExceptionHandler machine frame.method.klass exClass (lookupPc frame) handlers

/-- `FindAndGotoExceptionHandler`: frames without a handler are popped; the
remaining frames, or none of them. -/
def findAndGotoExceptionHandler (exClass : Option ClassId) (ex : DWord) :
    List Frame → Exec (List Frame)
  | [] => pure []
  | frame :: rest => do
      let handlerPc ← handlerOf machine exClass frame
      if (0#32).slt handlerPc then
        let stack ← frame.operandStack.clear.pushRef ex
        pure ((frame.setStack stack).setNextPc handlerPc :: rest)
      else findAndGotoExceptionHandler exClass ex rest

/-- `ATHROW::Execute`.  An exception that no frame handles clears the stack and
prints the name of its class. -/
def executeAthrow (vm : Vm) (frame : Frame) (rest : List Frame) : Exec Vm := do
  let (ex, stack) ← frame.operandStack.popRef
  if ex = 0 then thrown "java.lang.NullPointerException"
  else
    let exClass ← machine.classOf vm ex
    match ← findAndGotoExceptionHandler machine exClass ex (frame.setStack stack :: rest) with
    | [] => do
        let _ ← machine.classOf! vm ex
        pure (vm.setFrames [])
    | frames => pure (vm.setFrames frames)

end JvmDemo.Instructions
