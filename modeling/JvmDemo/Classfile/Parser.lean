import JvmDemo.Classfile.Types
import JvmDemo.Lib.Reader

/-!
# The class-file parser

`classfile::Parse` walks over the class data with a position that every
function advances.  No function compares the position with the size of the
data, so a read behind the last byte is undefined.  The position is a natural
number here: it stays below the size of the data, which is an `int`.

The two loops that the length of the data bounds, the one over the constant
pool and the recursion from a `Code` attribute into its own attributes, run on
a fuel.  Each turn takes at least one byte, so one more than the number of
bytes is enough.
-/

namespace JvmDemo.Classfile

open JvmDemo.Lib
open JvmDemo.Runtime

/-- A parser of class data. -/
abbrev Parser := Reader Fault

/-- What the compiled program computes for an `int` shifted by its width or
more, which C++ does not define. -/
class Target where
  overshift : BitVec 32 → Nat → BitVec 32

namespace Parser

variable [Target]

/-- What reading behind the class data is. -/
def pastTheEnd : Fault := .undefined "read past the end of the class data"

/-- An operation that does not read. -/
def lift {α : Type} (result : Exec α) : Parser α :=
  match result with
  | .ok value => pure value
  | .error fault => Reader.fail fault

/-- `x << amount` on an `int`. -/
def shiftLeft (x : BitVec 32) (amount : Nat) : BitVec 32 :=
  if amount < 32 then x <<< amount else Target.overshift x amount

/-- The loop of `ParseUnsignedInt`; `left` is `size - i`.  The byte is promoted
to `int` before it is shifted, and the result is converted to the type of `t`. -/
def parseUnsignedIntLoop (width : Nat) : Nat → BitVec width → Parser (BitVec width)
  | 0, t => pure t
  | left + 1, t => do
      let byte ← Reader.next pastTheEnd
      parseUnsignedIntLoop width left
        (t ||| (shiftLeft (byte.setWidth 32) (left * 8)).signExtend width)

/-- `ParseUnsignedInt` for a type of `width` bits. -/
def parseUnsignedInt (width : Nat) : Parser (BitVec width) :=
  parseUnsignedIntLoop width (width / 8) 0

/-- `ParseBytes`. -/
def parseBytes (length : Nat) : Parser (List Byte) := Reader.times (Reader.next pastTheEnd) length

/-- A `u2` count and that many entries. -/
def parseTable {α : Type} (entry : Parser α) : Parser (List α) := do
  let count ← parseUnsignedInt 16
  Reader.times entry count.toNat

/-! ## The constant pool -/

/-- `CreateConstantInfo`, as far as it selects the class. -/
def createConstantInfo (tag : Byte) : Exec ConstantType :=
  match tag.toNat with
  | 1 => .ok .utf8
  | 3 => .ok .integer
  | 4 => .ok .float
  | 5 => .ok .long
  | 6 => .ok .double
  | 7 => .ok .classInfo
  | 8 => .ok .string
  | 9 => .ok .fieldRef
  | 10 => .ok .methodRef
  | 11 => .ok .interfaceMethodRef
  | 12 => .ok .nameAndType
  | 15 => .ok .methodHandle
  | 16 => .ok .methodType
  | 17 => .ok .dynamic
  | 18 => .ok .invokeDynamic
  | 19 => .ok .moduleInfo
  | 20 => .ok .packageInfo
  | other => fatal s!"java.lang.ClassFormatError: constant pool tag {other}"

/-- Two `u2` operands. -/
def parseIndexPair {α : Type} (build : BitVec 16 → BitVec 16 → α) : Parser α := do
  let first ← parseUnsignedInt 16
  let second ← parseUnsignedInt 16
  pure (build first second)

/-- The method `ParseConstantInfo` of the class of an entry. -/
def parseConstantInfoOf : ConstantType → Parser ConstantInfo
  | .utf8 => do
      let length ← parseUnsignedInt 16
      let value ← parseBytes length.toNat
      pure (.utf8 value)
  | .integer => do
      let value ← parseUnsignedInt 32
      pure (.integer value)
  | .float => do
      let value ← parseUnsignedInt 32
      pure (.float value)
  | .long => do
      let value ← parseUnsignedInt 64
      pure (.long value)
  | .double => do
      let value ← parseUnsignedInt 64
      pure (.double value)
  | .classInfo => do
      let nameIndex ← parseUnsignedInt 16
      pure (.classInfo nameIndex)
  | .string => do
      let stringIndex ← parseUnsignedInt 16
      pure (.string stringIndex)
  | .fieldRef => parseIndexPair .fieldRef
  | .methodRef => parseIndexPair .methodRef
  | .interfaceMethodRef => parseIndexPair .interfaceMethodRef
  | .nameAndType => parseIndexPair .nameAndType
  | .methodHandle => do
      let referenceKind ← parseUnsignedInt 8
      let referenceIndex ← parseUnsignedInt 16
      pure (.methodHandle referenceKind referenceIndex)
  | .methodType => do
      let descriptorIndex ← parseUnsignedInt 16
      pure (.methodType descriptorIndex)
  | .dynamic => parseIndexPair .dynamic
  | .invokeDynamic => parseIndexPair .invokeDynamic
  | .moduleInfo => do
      let nameIndex ← parseUnsignedInt 16
      pure (.moduleInfo nameIndex)
  | .packageInfo => do
      let nameIndex ← parseUnsignedInt 16
      pure (.packageInfo nameIndex)

/-- `ParseConstantInfo`. -/
def parseConstantInfo : Parser ConstantInfo := do
  let tag ← parseUnsignedInt 8
  let type ← lift (createConstantInfo tag)
  parseConstantInfoOf type

/-- The loop of `ParseConstantPool`.  The index is a `u2`, so its increments
wrap around. -/
def parseConstantPoolLoop (count : BitVec 16) :
    Nat → BitVec 16 → List (Option ConstantInfo) → Parser (List (Option ConstantInfo))
  | 0, _, _ => Reader.fail .diverges
  | fuel + 1, i, constantInfos =>
      if i < count then do
        let constantInfo ← parseConstantInfo
        if constantInfo.getConstantType.isWide then
          parseConstantPoolLoop count fuel (i + 1 + 1) (constantInfos ++ [some constantInfo, none])
        else
          parseConstantPoolLoop count fuel (i + 1) (constantInfos ++ [some constantInfo])
      else pure constantInfos

/-- One more than the number of bytes. -/
def fuel : Parser Nat := fun data cursor => .ok (data.length + 1, cursor)

/-- `ClassFile::ParseConstantPool`.  Entry 0 is null. -/
def parseConstantPool : Parser ConstantPool := do
  let constantPoolCount ← parseUnsignedInt 16
  let turns ← fuel
  let constantInfos ← parseConstantPoolLoop constantPoolCount turns 1 [none]
  pure { constantPoolCount, constantInfos }

/-! ## Attributes -/

/-- The classes that `CreateAttributeInfo` selects by name. -/
inductive AttributeClass where
  | code | constantValue | deprecated | exceptions | lineNumberTable | localVariableTable
  | sourceFile | synthetic
  deriving DecidableEq, Repr

/-- The name by which `CreateAttributeInfo` selects a class.  The source spells
one of them `DepreCated`. -/
def AttributeClass.name : AttributeClass → Str
  | code => str "Code"
  | constantValue => str "ConstantValue"
  | deprecated => str "DepreCated"
  | exceptions => str "Exceptions"
  | lineNumberTable => str "LineNumberTable"
  | localVariableTable => str "LocalVariableTable"
  | sourceFile => str "SourceFile"
  | synthetic => str "Synthetic"

/-- `CreateAttributeInfo`: the class for a name; `none` stands for
`UnparsedAttributeInfo`. -/
def createAttributeInfo (attrName : Str) : Option AttributeClass :=
  if attrName = AttributeClass.code.name then some .code
  else if attrName = AttributeClass.constantValue.name then some .constantValue
  else if attrName = AttributeClass.deprecated.name then some .deprecated
  else if attrName = AttributeClass.exceptions.name then some .exceptions
  else if attrName = AttributeClass.lineNumberTable.name then some .lineNumberTable
  else if attrName = AttributeClass.localVariableTable.name then some .localVariableTable
  else if attrName = AttributeClass.sourceFile.name then some .sourceFile
  else if attrName = AttributeClass.synthetic.name then some .synthetic
  else none

/-- One turn of `CodeAttributeInfo::ParseExceptionTable`. -/
def parseExceptionTable : Parser ExceptionTable := do
  let startPc ← parseUnsignedInt 16
  let endPc ← parseUnsignedInt 16
  let handlerPc ← parseUnsignedInt 16
  let catchType ← parseUnsignedInt 16
  pure { startPc, endPc, handlerPc, catchType }

/-- One turn of `LineNumberTableAttributeInfo::ParseAttrInfo`. -/
def parseLineNumberTableEntry : Parser LineNumberTableEntry := do
  let startPc ← parseUnsignedInt 16
  let lineNumber ← parseUnsignedInt 16
  pure { startPc, lineNumber }

/-- One turn of `LocalVariableTableAttributeInfo::ParseAttrInfo`. -/
def parseLocalVariableTableEntry : Parser LocalVariableTableEntry := do
  let startPc ← parseUnsignedInt 16
  let length ← parseUnsignedInt 16
  let nameIndex ← parseUnsignedInt 16
  let descriptorIndex ← parseUnsignedInt 16
  let index ← parseUnsignedInt 16
  pure { startPc, length, nameIndex, descriptorIndex, index }

/-- `ParseAttrInfo` of the selected class.  Only an unparsed attribute uses the
declared length; a `Code` attribute parses its own attributes by `nested`. -/
def parseAttrInfo (nested : Parser AttributeInfo) (attrName : Str) (attrLen : BitVec 32) :
    Option AttributeClass → Parser AttributeInfo
  | some .code => do
      let maxOperandStack ← parseUnsignedInt 16
      let maxLocals ← parseUnsignedInt 16
      let codeLen ← parseUnsignedInt 32
      let codes ← parseBytes codeLen.toNat
      let exceptionTables ← parseTable parseExceptionTable
      let attributes ← parseTable nested
      pure (.code maxOperandStack maxLocals codeLen codes exceptionTables attributes)
  | some .constantValue => do
      let constantValueIndex ← parseUnsignedInt 16
      pure (.constantValue constantValueIndex)
  | some .deprecated => pure .deprecated
  | some .exceptions => do
      let exceptionIndexTables ← parseTable (parseUnsignedInt 16)
      pure (.exceptions exceptionIndexTables)
  | some .lineNumberTable => do
      let lineNumberTable ← parseTable parseLineNumberTableEntry
      pure (.lineNumberTable lineNumberTable)
  | some .localVariableTable => do
      let localVariableTable ← parseTable parseLocalVariableTableEntry
      pure (.localVariableTable localVariableTable)
  | some .sourceFile => do
      let sourceFileIndex ← parseUnsignedInt 16
      pure (.sourceFile sourceFileIndex)
  | some .synthetic => pure .synthetic
  | none => do
      let info ← parseBytes attrLen.toNat
      pure (.unparsed attrName attrLen info)

/-- `ParseAttributeInfo`. -/
def parseAttributeInfo (cp : ConstantPool) : Nat → Parser AttributeInfo
  | 0 => Reader.fail .diverges
  | fuel + 1 => do
      let attrNameIndex ← parseUnsignedInt 16
      let attrName ← lift (cp.getUtf8 attrNameIndex)
      let attrLen ← parseUnsignedInt 32
      parseAttrInfo (parseAttributeInfo cp fuel) attrName attrLen (createAttributeInfo attrName)

/-! ## Members and the class file -/

/-- `ParseMember`. -/
def parseMember (cp : ConstantPool) (depth : Nat) : Parser MemberInfo := do
  let accessFlags ← parseUnsignedInt 16
  let nameIndex ← parseUnsignedInt 16
  let descriptorIndex ← parseUnsignedInt 16
  let attributes ← parseTable (parseAttributeInfo cp depth)
  pure { accessFlags, nameIndex, descriptorIndex, attributes }

/-- `ClassFile::ParseAndCheckMagic`. -/
def parseAndCheckMagic : Parser (BitVec 32) := do
  let magic ← parseUnsignedInt 32
  if magic = 0xCAFEBABE then pure magic
  else Reader.fail (.fatal "Magic number wrong")

/-- The version check of `ClassFile::ParseAndCheckVersion`. -/
def supportedVersion (majorVersion minorVersion : BitVec 16) : Bool :=
  majorVersion = 45 ∨ (46 ≤ majorVersion ∧ majorVersion ≤ 52 ∧ minorVersion = 0)

/-- `ClassFile::ParseAndCheckVersion`: the minor version and the major one. -/
def parseAndCheckVersion : Parser (BitVec 16 × BitVec 16) := do
  let minorVersion ← parseUnsignedInt 16
  let majorVersion ← parseUnsignedInt 16
  if supportedVersion majorVersion minorVersion then pure (minorVersion, majorVersion)
  else Reader.fail (.fatal ("java.lang.UnsupportedClassVersionError major version " ++
    toString majorVersion.toNat ++ " minor version " ++ toString minorVersion.toNat))

/-- The sequence of calls in `Parse`. -/
def parseClassFile : Parser ClassFile := do
  let magic ← parseAndCheckMagic
  let (minorVersion, majorVersion) ← parseAndCheckVersion
  let constantPool ← parseConstantPool
  let depth ← fuel
  let accessFlags ← parseUnsignedInt 16
  let thisClass ← parseUnsignedInt 16
  let superClass ← parseUnsignedInt 16
  let interfaces ← parseTable (parseUnsignedInt 16)
  let fields ← parseTable (parseMember constantPool depth)
  let methods ← parseTable (parseMember constantPool depth)
  let attributes ← parseTable (parseAttributeInfo constantPool depth)
  pure { magic, minorVersion, majorVersion, constantPool, accessFlags, thisClass, superClass,
         interfaces, fields, methods, attributes }

end Parser

/-- `Parse`: the class file, and where the position and the furthest read are
at the end. -/
def parse [Target] (data : ClassData) : Exec (ClassFile × Cursor) :=
  Parser.parseClassFile.runAt data.bytes 0

end JvmDemo.Classfile
