import JvmDemo.Runtime.Fault

/-!
# What the class-file parser produces

The objects of namespace `classfile`: constant pool entries, attributes,
members and the class file itself.  Integers keep the widths of the source's
`u1`, `u2`, `u4` and `u8`; a `float` or `double` constant is its bits.  A
shared pointer to the pool inside a member or a `Code` attribute is left out,
as it is always the pool of the class file.
-/

namespace JvmDemo.Classfile

open JvmDemo.Lib
open JvmDemo.Runtime

/-- A `ClassData`: bytes whose number is a nonnegative `int`. -/
structure ClassData where
  bytes : List Byte
  size_lt : bytes.length < 2 ^ 31

/-- The subclasses of `ConstantInfo`. -/
inductive ConstantInfo where
  | utf8 (value : Str)
  | integer (value : BitVec 32)
  | float (value : BitVec 32)
  | long (value : BitVec 64)
  | double (value : BitVec 64)
  | classInfo (nameIndex : BitVec 16)
  | string (stringIndex : BitVec 16)
  | fieldRef (classIndex nameAndTypeIndex : BitVec 16)
  | methodRef (classIndex nameAndTypeIndex : BitVec 16)
  | interfaceMethodRef (classIndex nameAndTypeIndex : BitVec 16)
  | nameAndType (nameIndex descriptorIndex : BitVec 16)
  | methodHandle (referenceKind : BitVec 8) (referenceIndex : BitVec 16)
  | methodType (descriptorIndex : BitVec 16)
  | dynamic (bootstrapMethodAttrIndex nameAndTypeIndex : BitVec 16)
  | invokeDynamic (bootstrapMethodAttrIndex nameAndTypeIndex : BitVec 16)
  | moduleInfo (nameIndex : BitVec 16)
  | packageInfo (nameIndex : BitVec 16)
  deriving DecidableEq, Repr

/-- The tags of `enum ConstantType` for which there is a class. -/
inductive ConstantType where
  | utf8 | integer | float | long | double | classInfo | string | fieldRef | methodRef
  | interfaceMethodRef | nameAndType | methodHandle | methodType | dynamic | invokeDynamic
  | moduleInfo | packageInfo
  deriving DecidableEq, Repr

namespace ConstantType

/-- The enumerator's value, which is the tag byte of an entry. -/
def tag : ConstantType → Byte
  | utf8 => 1
  | integer => 3
  | float => 4
  | long => 5
  | double => 6
  | classInfo => 7
  | string => 8
  | fieldRef => 9
  | methodRef => 10
  | interfaceMethodRef => 11
  | nameAndType => 12
  | methodHandle => 15
  | methodType => 16
  | dynamic => 17
  | invokeDynamic => 18
  | moduleInfo => 19
  | packageInfo => 20

/-- Whether an entry is followed by an unusable index. -/
def isWide : ConstantType → Bool
  | long | double => true
  | _ => false

end ConstantType

/-- `GetConstantType`. -/
def ConstantInfo.getConstantType : ConstantInfo → ConstantType
  | utf8 _ => .utf8
  | integer _ => .integer
  | float _ => .float
  | long _ => .long
  | double _ => .double
  | classInfo _ => .classInfo
  | string _ => .string
  | fieldRef .. => .fieldRef
  | methodRef .. => .methodRef
  | interfaceMethodRef .. => .interfaceMethodRef
  | nameAndType .. => .nameAndType
  | methodHandle .. => .methodHandle
  | methodType _ => .methodType
  | dynamic .. => .dynamic
  | invokeDynamic .. => .invokeDynamic
  | moduleInfo _ => .moduleInfo
  | packageInfo _ => .packageInfo

/-- A `ConstantPool`.  The null entries are `none`. -/
structure ConstantPool where
  constantPoolCount : BitVec 16
  constantInfos : List (Option ConstantInfo)
  deriving DecidableEq, Repr

namespace ConstantPool

/-- `GetConstantInfo`.  The vector is indexed without a check of its own. -/
def getConstantInfo (pool : ConstantPool) (index : BitVec 16) : Exec (Option ConstantInfo) :=
  if index < 1 ∨ pool.constantPoolCount ≤ index then fatal "Invalid constant pool index"
  else match pool.constantInfos[index.toNat]? with
    | some entry => .ok entry
    | none => undefined "constant_infos_ out of bounds"

/-- `GetUtf8`.  A failed cast gives a null pointer, which is dereferenced. -/
def getUtf8 (pool : ConstantPool) (index : BitVec 16) : Exec Str := do
  match ← pool.getConstantInfo index with
  | some (.utf8 value) => .ok value
  | _ => undefined "null ConstantUtf8Info"

/-- `GetClassName`. -/
def getClassName (pool : ConstantPool) (index : BitVec 16) : Exec Str := do
  match ← pool.getConstantInfo index with
  | some (.classInfo nameIndex) => pool.getUtf8 nameIndex
  | _ => undefined "null ConstantClassInfo"

/-- `GetNameAndType`. -/
def getNameAndType (pool : ConstantPool) (index : BitVec 16) : Exec (Str × Str) := do
  match ← pool.getConstantInfo index with
  | some (.nameAndType nameIndex descriptorIndex) => do
      let name ← pool.getUtf8 nameIndex
      let type ← pool.getUtf8 descriptorIndex
      pure (name, type)
  | _ => undefined "null ConstantNameAndTypeInfo"

end ConstantPool

structure ExceptionTable where
  startPc : BitVec 16
  endPc : BitVec 16
  handlerPc : BitVec 16
  catchType : BitVec 16
  deriving DecidableEq, Repr

structure LineNumberTableEntry where
  startPc : BitVec 16
  lineNumber : BitVec 16
  deriving DecidableEq, Repr

structure LocalVariableTableEntry where
  startPc : BitVec 16
  length : BitVec 16
  nameIndex : BitVec 16
  descriptorIndex : BitVec 16
  index : BitVec 16
  deriving DecidableEq, Repr

/-- The subclasses of `AttributeInfo`. -/
inductive AttributeInfo where
  | unparsed (name : Str) (len : BitVec 32) (info : List Byte)
  | deprecated
  | synthetic
  | sourceFile (sourceFileIndex : BitVec 16)
  | constantValue (constantValueIndex : BitVec 16)
  | code (maxOperandStack maxLocals : BitVec 16) (codeLen : BitVec 32) (codes : List Byte)
      (exceptionTables : List ExceptionTable) (attributes : List AttributeInfo)
  | exceptions (exceptionIndexTables : List (BitVec 16))
  | lineNumberTable (lineNumberTable : List LineNumberTableEntry)
  | localVariableTable (localVariableTable : List LocalVariableTableEntry)

/-- A `MemberInfo`: a field or a method. -/
structure MemberInfo where
  accessFlags : BitVec 16
  nameIndex : BitVec 16
  descriptorIndex : BitVec 16
  attributes : List AttributeInfo

/-- A `ClassFile`. -/
structure ClassFile where
  magic : BitVec 32
  minorVersion : BitVec 16
  majorVersion : BitVec 16
  constantPool : ConstantPool
  accessFlags : BitVec 16
  thisClass : BitVec 16
  superClass : BitVec 16
  interfaces : List (BitVec 16)
  fields : List MemberInfo
  methods : List MemberInfo
  attributes : List AttributeInfo

namespace ClassFile

variable (file : ClassFile)

/-- `GetClassName`. -/
def getClassName : Exec Str := file.constantPool.getClassName file.thisClass

/-- `GetSuperClassName`. -/
def getSuperClassName : Exec Str :=
  if file.superClass = 0 then pure [] else file.constantPool.getClassName file.superClass

/-- `GetInterfaceNames`. -/
def getInterfaceNames : Exec (List Str) := file.interfaces.mapM file.constantPool.getClassName

/-- `GetSourceFile`. -/
def getSourceFile : Exec Str :=
  let index := file.attributes.findSome? fun info => match info with
    | .sourceFile index => some index
    | _ => none
  match index with
  | some index => file.constantPool.getUtf8 index
  | none => pure []

end ClassFile

end JvmDemo.Classfile
