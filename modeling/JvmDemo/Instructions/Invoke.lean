import JvmDemo.Instructions.Reference

/-!
# Method invocation, return and native methods
-/

namespace JvmDemo.Instructions

open JvmDemo.Lib
open JvmDemo.Runtime

variable (machine : Machine)

/-! ## Invocation -/

/-- The copy loop of `InvokeMethod`: the slots of the arguments move from the
caller's stack to the callee's variables, the last one first. -/
def copyArgs : Nat → OperandStack → Slots → Exec (OperandStack × Slots)
  | 0, stack, vars => pure (stack, vars)
  | i + 1, stack, vars => do
      let (slot, stack) ← stack.popSlot
      let vars ← vars.setSlot (i % 2 ^ 16) slot
      copyArgs i stack vars

/-- `InvokeMethod`. -/
def invokeMethod (vm : Vm) (frame : Frame) (rest : List Frame) (method : Method) : Exec Vm := do
  let thread ← ({ vm.thread with frames := frame :: rest } : Thread).createFrame method
  let newFrame := Frame.ofMethod method
  let (stack, vars) ← copyArgs method.argSlotCount frame.operandStack newFrame.localVars
  pure ({ vm with thread := thread }.setFrames
    (newFrame.setVars vars :: frame.setStack stack :: rest))

/-- The `char16_t` of an `int` is one half of a surrogate pair. -/
def isSurrogate : Value → Bool
  | .int val => val.setWidth 16 >>> 11 == 0x1B#16
  | _ => false

/-- `HackPrintln`: what would be printed is popped, and the receiver.  A surrogate that
is printed as a character has no encoding in UTF-8. -/
def hackPrintln (vm : Vm) (frame : Frame) (rest : List Frame) (method : Method) : Exec Vm := do
  let printed : Option Kind :=
    if method.descriptor == str "(Ljava/lang/String;)V" then some .ref
    else
      let type := method.descriptor.getD 1 0
      if type == chr 'Z' || type == chr 'B' || type == chr 'C' || type == chr 'S' ||
          type == chr 'I' then some .int
      else if type == chr 'F' then some .float
      else if type == chr 'J' then some .long
      else if type == chr 'D' then some .double
      else if type == chr 'L' || type == chr '[' then some .ref
      else none
  match printed with
  | none => fatal ("hack println " ++ text method.descriptor)
  | some kind => do
      let (value, stack) ← frame.operandStack.pop kind
      if method.descriptor.getD 1 0 == chr 'C' && isSurrogate value then
        thrown "wstring_convert::to_bytes"
      else if method.isStatic then pure (vm.setFrames (frame.setStack stack :: rest))
      else
        let (_, stack) ← stack.popRef
        pure (vm.setFrames (frame.setStack stack :: rest))

/-- The cast to `MethodRefConstant`: class name, name and descriptor. -/
def methodRefAt (frame : Frame) (index : Nat) : Exec (Str × Str × Str) :=
  match constantAt machine frame index with
  | some (.methodRef className name descriptor) => pure (className, name, descriptor)
  | _ => undefined "ResolveMethod of a null constant"

/-- `INVOKE_STATIC::Execute`. -/
def executeInvokeStatic (index : BitVec 32) (vm : Vm) (frame : Frame) (rest : List Frame) :
    Exec Vm := do
  let (className, name, descriptor) ← methodRefAt machine frame index.toNat
  let method ← machine.table.resolveMethod frame.method.klass className name descriptor
  if !method.isStatic then fatal "java.lang.IncompatibleClassChangeError"
  else if !vm.clinitStarted method.klass then triggerInit machine vm frame rest method.klass
  else if method.name == str "println" then hackPrintln vm frame rest method
  else invokeMethod vm frame rest method

/-- The receiver below the arguments; it must not be null. -/
def receiverOf (frame : Frame) (method : Method) : Exec DWord := do
  let ref ← frame.operandStack.getRefFromTop (BitVec.ofNat 32 method.argSlotCount - 1)
  if ref = 0 then fatal "java.lang.NullPointerException" else pure ref

/-- The check on protected methods of superclasses in other packages. -/
def checkProtected (vm : Vm) (frame : Frame) (method : Method) (ref : DWord) : Exec Unit := do
  let caller := frame.method.klass
  if method.isProtected && machine.table.isSuperClassOf method.klass caller &&
      (machine.table.info method.klass).packageName != (machine.table.info caller).packageName then
    let own ← machine.classOf! vm ref
    if own != caller && !machine.table.isSubClassOf own caller then
      fatal "java.lang.IllegalAccessError"
    else pure ()
  else pure ()

/-- The last check before a method is invoked. -/
def invokeConcrete (vm : Vm) (frame : Frame) (rest : List Frame) : Option Method → Exec Vm
  | none => fatal "java.lang.AbstractMethodError"
  | some method =>
      if method.isAbstract then fatal "java.lang.AbstractMethodError"
      else invokeMethod vm frame rest method

/-- `INVOKE_SPECIAL::Execute`. -/
def executeInvokeSpecial (index : BitVec 32) (vm : Vm) (frame : Frame) (rest : List Frame) :
    Exec Vm := do
  let (className, name, descriptor) ← methodRefAt machine frame index.toNat
  let caller := frame.method.klass
  let method ← machine.table.resolveMethod caller className name descriptor
  let klass ← machine.table.resolveClass caller className
  if method.name == str "<init>" && method.klass != klass then fatal "java.lang.NoSuchMethodError"
  else if method.isStatic then fatal "java.lang.IncompatibleClassChangeError"
  else do
    let ref ← receiverOf frame method
    checkProtected machine vm frame method ref
    if (machine.table.info caller).isSuper && machine.table.isSuperClassOf klass caller &&
        method.name != str "<init>" then
      match (machine.table.info caller).superClass with
      | none => undefined "LookupMethodInClass of a null class"
      | some super =>
          invokeConcrete vm frame rest (machine.table.lookupMethodInClass super name descriptor)
    else invokeConcrete vm frame rest (some method)

/-- `INVOKE_VIRTUAL::Execute`. -/
def executeInvokeVirtual (index : BitVec 32) (vm : Vm) (frame : Frame) (rest : List Frame) :
    Exec Vm := do
  let (className, name, descriptor) ← methodRefAt machine frame index.toNat
  let method ← machine.table.resolveMethod frame.method.klass className name descriptor
  if method.isStatic then fatal "java.lang.IncompatibleClassChangeError"
  else if method.name == str "println" then hackPrintln vm frame rest method
  else do
    let ref ← receiverOf frame method
    checkProtected machine vm frame method ref
    let own ← machine.classOf! vm ref
    invokeConcrete vm frame rest (machine.table.lookupMethodInClass own name descriptor)

/-- `INVOKE_INTERFACE::Execute`. -/
def executeInvokeInterface (index : BitVec 32) (vm : Vm) (frame : Frame) (rest : List Frame) :
    Exec Vm :=
  match constantAt machine frame index.toNat with
  | some (.interfaceMethodRef className name descriptor) => do
      let caller := frame.method.klass
      let method ← machine.table.resolveInterfaceMethod caller className name descriptor
      if method.isStatic || method.isPrivate then fatal "java.lang.IncompatibleClassChangeError"
      else do
        let ref ← receiverOf frame method
        let own ← machine.classOf! vm ref
        let interface ← machine.table.resolveClass caller className
        if !machine.table.isImplements own interface then
          fatal "java.lang.IncompatibleClassChangeError"
        else match machine.table.lookupMethodInClass own name descriptor with
          | none => fatal "java.lang.AbstractMethodError"
          | some target =>
              if target.isAbstract then fatal "java.lang.AbstractMethodError"
              else if !target.isPublic then fatal "java.lang.IllegalAccessError"
              else invokeMethod vm frame rest target
  | _ => undefined "ResolveInterfaceMethod of a null constant"

/-! ## Return -/

/-- `Return<T>`: the value moves from the popped frame to its invoker. -/
def executeReturn (kind : Option Kind) (vm : Vm) (frame : Frame) (rest : List Frame) : Exec Vm :=
  match kind with
  | none => pure (vm.setFrames rest)
  | some kind => do
      let (value, _) ← frame.operandStack.pop kind
      match rest with
      | [] => undefined "push on a null invoker frame"
      | invoker :: below => pushValue vm invoker below value

/-! ## Native methods -/

/-- The registered native methods. -/
inductive Native where
  | getClass | hashCode | clone | getPrimitiveClass | getName0 | desiredAssertionStatus0
  | arrayCopy | doubleToRawLongBits | longBitsToDouble | floatToRawIntBits | intern | vmInitialize
  | fillInStackTrace | empty
  deriving DecidableEq, Repr

/-- `registry`, with the keys as `init` builds them. -/
def registry : List ((Str × Str × Str) × Native) :=
  [((str "java/lang/Object", str "GetClass", str "()Ljava/lang/Class;"), .getClass),
    ((str "java/lang/Object", str "HashCode", str "()I"), .hashCode),
    ((str "java/lang/Object", str "Clone", str "()Ljava/lang/Object;"), .clone),
    ((str "java/lang/Class", str "GetPrimitiveClass", str "(Ljava/lang/String;)Ljava/lang/Class;"),
      .getPrimitiveClass),
    ((str "java/lang/Class", str "GetName0", str "()Ljava/lang/String;"), .getName0),
    ((str "java/lang/Class", str "DesiredAssertionStatus0", str "(Ljava/lang/Class;)Z"),
      .desiredAssertionStatus0),
    ((str "java/lang/System", str "ArrayCopy", str "(Ljava/lang/Object;ILjava/lang/Object;II)V"),
      .arrayCopy),
    ((str "java/lang/Double", str "DoubleToRawLongBits", str "(D)J"), .doubleToRawLongBits),
    ((str "java/lang/Double", str "LongBitsToDouble", str "(J)D"), .longBitsToDouble),
    ((str "java/lang/Float", str "FloatToRawIntBits", str "(F)I"), .floatToRawIntBits),
    ((str "java/lang/String", str "Intern", str "()Ljava/lang/String;"), .intern),
    ((str "sun/misc/VM", str "initialize", str "()V"), .vmInitialize),
    ((str "java/lang/Throwable", str "FillInStackTrace", str "(I)Ljava/lang/Throwable;"),
      .fillInStackTrace)]

/-- The key of a native method. -/
def nativeKey (className name descriptor : Str) : Str :=
  className ++ str "~" ++ name ++ str "~" ++ descriptor

/-- `FindNativeMethod`. -/
def findNativeMethod (className name descriptor : Str) : Option Native :=
  match registry.find? fun entry =>
      nativeKey entry.1.1 entry.1.2.1 entry.1.2.2 == nativeKey className name descriptor with
  | some entry => some entry.2
  | none =>
      if descriptor == str "()V" && name == str "registerNatives" then some .empty else none

/-- `CheckArrayCopy`. -/
def checkArrayCopy (vm : Vm) (src dest : DWord) : Exec Bool := do
  let srcClass ← machine.classOf! vm src
  let destClass ← machine.classOf! vm dest
  if !(machine.table.info srcClass).isArrayClass ||
      !(machine.table.info destClass).isArrayClass then
    pure false
  else
    let srcComponent ← machine.table.getComponentClass srcClass
    if machine.table.isPrimitive srcComponent then pure (srcClass == destClass)
    else
      let destComponent ← machine.table.getComponentClass destClass
      if machine.table.isPrimitive destComponent then pure (srcClass == destClass) else pure true

/-- `Initialize` of `sun.misc.VM`. -/
def initializeVm (vm : Vm) (frame : Frame) (rest : List Frame) : Exec Vm := do
  let vmClass ← machine.table.loadClass (str "sun/misc/VM")
  let field ← machine.table.getField vmClass (str "savedProps") (str "Ljava/util/Properties;") true
  let propClass ← machine.table.loadClass (str "java/util/Properties")
  match vm.staticVars vmClass with
  | none => undefined "read through null static_vars_"
  | some slots => do
      let savedProps ← slots.getRef (field.slotId.toNat % 2 ^ 16)
      let key ← Machine.newJString vm (str "foo")
      let val ← Machine.newJString vm (str "bar")
      let stack ← frame.operandStack.pushRef savedProps
      let stack ← stack.pushRef key
      let stack ← stack.pushRef val
      match machine.table.getMethod propClass (str "setProperty")
          (str "(Ljava/lang/String;Ljava/lang/String;)Ljava/lang/Object;") false with
      | none => undefined "CreateFrame of a null method"
      | some method => invokeMethod vm (frame.setStack stack) rest method

/-- The body of a native method, run on its own frame. -/
def Native.run (vm : Vm) (frame : Frame) (rest : List Frame) : Native → Exec Vm
  | .getClass => do
      let this ← frame.localVars.getRef 0
      if this = 0 then undefined "GetClass of a null object"
      else pushValue vm frame rest (.ref (vm.memory.read64 (this.toNat + Object.klassOffset)))
  | .hashCode => do
      let this ← frame.localVars.getRef 0
      pushValue vm frame rest (.int this.low)
  | .clone => do
      let this ← frame.localVars.getRef 0
      let own ← machine.classOf! vm this
      let cloneable ← machine.table.loadClass (str "java/lang/Cloneable")
      if !machine.table.isImplements own cloneable then pure vm
      else pushValue vm frame rest (.ref 0)
  | .getPrimitiveClass => do
      let name ← frame.localVars.getRef 0
      let klass ← machine.table.loadClass (Machine.javaStringToString name)
      pushValue vm frame rest (.ref (machine.classAddress klass))
  | .getName0 => pure vm
  | .desiredAssertionStatus0 => pushValue vm frame rest (.int 0)
  | .arrayCopy => do
      let src ← frame.localVars.getRef 0
      let _ ← frame.localVars.getInt 1
      let dest ← frame.localVars.getRef 2
      let _ ← frame.localVars.getInt 3
      let _ ← frame.localVars.getInt 4
      if src = 0 || dest = 0 then thrown "java.lang.NullPointerException"
      else if ← checkArrayCopy machine vm src dest then pure vm
      else thrown "java.lang.ArrayStoreException"
  | .doubleToRawLongBits => do
      let value ← frame.localVars.getDouble 0
      pushValue vm frame rest (.long value)
  | .longBitsToDouble => do
      let bits ← frame.localVars.getLong 0
      pushValue vm frame rest (.double bits)
  | .floatToRawIntBits => do
      let value ← frame.localVars.getFloat 0
      pushValue vm frame rest (.int value)
  | .intern => do
      let this ← frame.localVars.getRef 0
      let key := Machine.javaStringToString this
      match vm.stringPool.lookup key with
      | some interned => pushValue vm frame rest (.ref interned)
      | none =>
          pushValue { vm with stringPool := (key, this) :: vm.stringPool } frame rest (.ref this)
  | .vmInitialize => initializeVm machine vm frame rest
  | .fillInStackTrace => do
      let this ← frame.localVars.getRef 0
      let vm' ← pushValue vm frame rest (.ref this)
      -- `DistanceToObject` walks the superclasses of the object's class
      let _ ← machine.classOf! vm this
      pure vm'
  | .empty => pure vm

/-- `INVOKE_NATIVE::Execute`. -/
def executeInvokeNative (vm : Vm) (frame : Frame) (rest : List Frame) : Exec Vm :=
  let className := (machine.table.info frame.method.klass).name
  match findNativeMethod className frame.method.name frame.method.descriptor with
  | none => fatal ("java.lang.UnsatisfiedLinkError: " ++ text className ++ "." ++
      text frame.method.name ++ text frame.method.descriptor)
  | some native => native.run machine vm frame rest

/-! ## All instructions -/

/-- `Execute` on the current frame. -/
def Instruction.execute (vm : Vm) (frame : Frame) (rest : List Frame) :
    Instruction → Exec Vm
  | .frame inst => do
      let frame ← inst.execute machine.floatOps vm.thread.pc frame
      pure (vm.setFrames (frame :: rest))
  | .ldc index => loadConstant machine index vm frame rest
  | .ldcW index => loadConstant machine index vm frame rest
  | .ldc2W index => executeLdc2W machine index vm frame rest
  | .return_ kind => executeReturn kind vm frame rest
  | .getStatic index => executeGetStatic machine index vm frame rest
  | .putStatic index => executePutStatic machine index vm frame rest
  | .getField index => executeGetField machine index vm frame rest
  | .putField index => executePutField machine index vm frame rest
  | .invokeVirtual index => executeInvokeVirtual machine index vm frame rest
  | .invokeSpecial index => executeInvokeSpecial machine index vm frame rest
  | .invokeStatic index => executeInvokeStatic machine index vm frame rest
  | .invokeInterface index => executeInvokeInterface machine index vm frame rest
  | .invokeNative => executeInvokeNative machine vm frame rest
  | .new_ index => executeNew machine index vm frame rest
  | .newArray arrayType => executeNewArray machine arrayType vm frame rest
  | .anewArray index => executeAnewArray machine index vm frame rest
  | .athrow => executeAthrow machine vm frame rest
  | .checkCast index => executeCheckCast machine index vm frame rest
  | .instanceOf index => executeInstanceOf machine index vm frame rest
  | .multiAnewArray index dimensions => executeMultiAnewArray machine index dimensions vm frame rest

end JvmDemo.Instructions
