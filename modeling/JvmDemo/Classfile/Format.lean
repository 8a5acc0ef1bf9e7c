import JvmDemo.Classfile.Parser

/-!
# The class file format

A class file as the format describes it, its encoding, and the objects a
parser is expected to build from it.  Nothing here is translated from the
parser, except that the names it gives a meaning to are those of
`createAttributeInfo`, and that the objects are those of
`JvmDemo.Classfile.Types`.
-/

namespace JvmDemo.Classfile

open JvmDemo.Lib
open JvmDemo.Runtime
open JvmDemo.Classfile.Parser (AttributeClass createAttributeInfo supportedVersion)

namespace Format

/-- Eight bytes, the most significant first. -/
def be64 (value : BitVec 64) : List Byte :=
  be32 (value.extractLsb' 32 32) ++ be32 (value.extractLsb' 0 32)

/-- A count of two bytes and the entries. -/
def encodeTable {α : Type} (encode : α → List Byte) (entries : List α) : List Byte :=
  be16 (BitVec.ofNat 16 entries.length) ++ entries.flatMap encode

/-! ## The constant pool -/

/-- What stands behind the tag of an entry. -/
def encodePayload : ConstantInfo → List Byte
  | .utf8 value => be16 (BitVec.ofNat 16 value.length) ++ value
  | .integer value => be32 value
  | .float value => be32 value
  | .long value => be64 value
  | .double value => be64 value
  | .classInfo nameIndex => be16 nameIndex
  | .string stringIndex => be16 stringIndex
  | .fieldRef classIndex nameAndTypeIndex => be16 classIndex ++ be16 nameAndTypeIndex
  | .methodRef classIndex nameAndTypeIndex => be16 classIndex ++ be16 nameAndTypeIndex
  | .interfaceMethodRef classIndex nameAndTypeIndex => be16 classIndex ++ be16 nameAndTypeIndex
  | .nameAndType nameIndex descriptorIndex => be16 nameIndex ++ be16 descriptorIndex
  | .methodHandle referenceKind referenceIndex => [referenceKind] ++ be16 referenceIndex
  | .methodType descriptorIndex => be16 descriptorIndex
  | .dynamic bootstrap nameAndTypeIndex => be16 bootstrap ++ be16 nameAndTypeIndex
  | .invokeDynamic bootstrap nameAndTypeIndex => be16 bootstrap ++ be16 nameAndTypeIndex
  | .moduleInfo nameIndex => be16 nameIndex
  | .packageInfo nameIndex => be16 nameIndex

def encodeConstant (constant : ConstantInfo) : List Byte :=
  [constant.getConstantType.tag] ++ encodePayload constant

/-- The indices an entry takes: `Long` and `Double` take two. -/
def slots (constant : ConstantInfo) : List (Option ConstantInfo) :=
  if constant.getConstantType.isWide then [some constant, none] else [some constant]

/-- The pool by index.  Index 0 is not used. -/
def poolEntries (constants : List ConstantInfo) : List (Option ConstantInfo) :=
  none :: constants.flatMap slots

theorem poolEntries_append (constants : List ConstantInfo) (info : ConstantInfo) :
    poolEntries (constants ++ [info]) = poolEntries constants ++ slots info := by
  simp [poolEntries]

/-- The constant pool with its count, which is one more than the last index. -/
def encodePool (constants : List ConstantInfo) : List Byte :=
  be16 (BitVec.ofNat 16 (poolEntries constants).length) ++ constants.flatMap encodeConstant

/-- The text of the `Utf8` entry at an index. -/
def nameAt (constants : List ConstantInfo) (index : BitVec 16) : Option Str :=
  match (poolEntries constants)[index.toNat]? with
  | some (some (.utf8 value)) => some value
  | _ => none

/-! ## Attributes -/

def encodeException (entry : ExceptionTable) : List Byte :=
  be16 entry.startPc ++ be16 entry.endPc ++ be16 entry.handlerPc ++ be16 entry.catchType

def encodeLineNumber (entry : LineNumberTableEntry) : List Byte :=
  be16 entry.startPc ++ be16 entry.lineNumber

def encodeLocalVariable (entry : LocalVariableTableEntry) : List Byte :=
  be16 entry.startPc ++ be16 entry.length ++ be16 entry.nameIndex ++
    be16 entry.descriptorIndex ++ be16 entry.index

/-- The content of an attribute that has no attributes of its own. -/
inductive Leaf where
  | constantValue (index : BitVec 16)
  | exceptions (indices : List (BitVec 16))
  | lineNumberTable (entries : List LineNumberTableEntry)
  | localVariableTable (entries : List LocalVariableTableEntry)
  | sourceFile (index : BitVec 16)
  | synthetic
  | uninterpreted (name : Str) (info : List Byte)
  deriving DecidableEq, Repr

namespace Leaf

/-- The name under which the content is stored. -/
def name : Leaf → Str
  | constantValue _ => str "ConstantValue"
  | exceptions _ => str "Exceptions"
  | lineNumberTable _ => str "LineNumberTable"
  | localVariableTable _ => str "LocalVariableTable"
  | sourceFile _ => str "SourceFile"
  | synthetic => str "Synthetic"
  | uninterpreted name _ => name

def encode : Leaf → List Byte
  | constantValue index => be16 index
  | exceptions indices => encodeTable be16 indices
  | lineNumberTable entries => encodeTable encodeLineNumber entries
  | localVariableTable entries => encodeTable encodeLocalVariable entries
  | sourceFile index => be16 index
  | synthetic => []
  | uninterpreted _ info => info

/-- The counts fit in two bytes, and an uninterpreted content has a name that
the parser does not recognise. -/
def Fits : Leaf → Prop
  | exceptions indices => indices.length < 2 ^ 16
  | lineNumberTable entries => entries.length < 2 ^ 16
  | localVariableTable entries => entries.length < 2 ^ 16
  | uninterpreted name _ => createAttributeInfo name = none
  | _ => True

/-- The object for the content. -/
def toInfo : Leaf → AttributeInfo
  | constantValue index => .constantValue index
  | exceptions indices => .exceptions indices
  | lineNumberTable entries => .lineNumberTable entries
  | localVariableTable entries => .localVariableTable entries
  | sourceFile index => .sourceFile index
  | synthetic => .synthetic
  | uninterpreted name info => .unparsed name (BitVec.ofNat 32 info.length) info

end Leaf

/-- An attribute with the index of its name. -/
inductive Attribute where
  | leaf (nameIndex : BitVec 16) (content : Leaf)
  | code (nameIndex maxStack maxLocals : BitVec 16) (codes : List Byte)
      (exceptionTable : List ExceptionTable) (attributes : List Attribute)

/-- The name, the length and the content of an attribute. -/
def frame (nameIndex : BitVec 16) (body : List Byte) : List Byte :=
  be16 nameIndex ++ be32 (BitVec.ofNat 32 body.length) ++ body

/-- The content of a `Code` attribute, from the encodings of `count` attributes. -/
def codeBody (maxStack maxLocals : BitVec 16) (codes : List Byte)
    (exceptionTable : List ExceptionTable) (count : Nat) (attributes : List Byte) : List Byte :=
  be16 maxStack ++ be16 maxLocals ++ (be32 (BitVec.ofNat 32 codes.length) ++ codes) ++
    encodeTable encodeException exceptionTable ++ (be16 (BitVec.ofNat 16 count) ++ attributes)

namespace Attribute

mutual

def encode : Attribute → List Byte
  | leaf nameIndex content => frame nameIndex content.encode
  | code nameIndex maxStack maxLocals codes exceptionTable attributes =>
      frame nameIndex
        (codeBody maxStack maxLocals codes exceptionTable attributes.length (encodeAll attributes))

def encodeAll : List Attribute → List Byte
  | [] => []
  | first :: rest => encode first ++ encodeAll rest

end

mutual

/-- The object for an attribute. -/
def toInfo : Attribute → AttributeInfo
  | leaf _ content => content.toInfo
  | code _ maxStack maxLocals codes exceptionTable attributes =>
      .code maxStack maxLocals (BitVec.ofNat 32 codes.length) codes exceptionTable
        (toInfos attributes)

def toInfos : List Attribute → List AttributeInfo
  | [] => []
  | first :: rest => toInfo first :: toInfos rest

end

/-- Names point at the right texts, and every length and count fits its field. -/
inductive WellFormed (names : BitVec 16 → Option Str) : Attribute → Prop
  | leaf {nameIndex : BitVec 16} {content : Leaf} (named : names nameIndex = some content.name)
      (fits : content.Fits) (length_lt : content.encode.length < 2 ^ 32) :
      WellFormed names (leaf nameIndex content)
  | code {nameIndex maxStack maxLocals : BitVec 16} {codes : List Byte}
      {exceptionTable : List ExceptionTable} {attributes : List Attribute}
      (named : names nameIndex = some (str "Code"))
      (length_lt : (codeBody maxStack maxLocals codes exceptionTable attributes.length
        (encodeAll attributes)).length < 2 ^ 32)
      (exceptions_lt : exceptionTable.length < 2 ^ 16) (attributes_lt : attributes.length < 2 ^ 16)
      (nested : ∀ inner ∈ attributes, WellFormed names inner) :
      WellFormed names (code nameIndex maxStack maxLocals codes exceptionTable attributes)

theorem encodeAll_eq (attributes : List Attribute) :
    encodeAll attributes = attributes.flatMap encode := by
  induction attributes with
  | nil => rfl
  | cons first rest ih => rw [encodeAll, ih, List.flatMap_cons]

theorem toInfos_eq (attributes : List Attribute) : toInfos attributes = attributes.map toInfo := by
  induction attributes with
  | nil => rfl
  | cons first rest ih => rw [toInfos, ih, List.map_cons]

end Attribute

/-! ## Members and class files -/

/-- A field or a method. -/
structure Member where
  accessFlags : BitVec 16
  nameIndex : BitVec 16
  descriptorIndex : BitVec 16
  attributes : List Attribute

namespace Member

def encode (member : Member) : List Byte :=
  be16 member.accessFlags ++ be16 member.nameIndex ++ be16 member.descriptorIndex ++
    encodeTable Attribute.encode member.attributes

def toInfo (member : Member) : MemberInfo where
  accessFlags := member.accessFlags
  nameIndex := member.nameIndex
  descriptorIndex := member.descriptorIndex
  attributes := member.attributes.map Attribute.toInfo

structure WellFormed (names : BitVec 16 → Option Str) (member : Member) : Prop where
  attributes_lt : member.attributes.length < 2 ^ 16
  attributes : ∀ entry ∈ member.attributes, entry.WellFormed names

end Member

/-- A text fits its length field. -/
def ConstantFits : ConstantInfo → Prop
  | .utf8 value => value.length < 2 ^ 16
  | _ => True

end Format

/-- A well-formed class file. -/
structure Format where
  minorVersion : BitVec 16
  majorVersion : BitVec 16
  constants : List ConstantInfo
  accessFlags : BitVec 16
  thisClass : BitVec 16
  superClass : BitVec 16
  interfaces : List (BitVec 16)
  fields : List Format.Member
  methods : List Format.Member
  attributes : List Format.Attribute
  supported : majorVersion = 45 ∨ (46 ≤ majorVersion ∧ majorVersion ≤ 52 ∧ minorVersion = 0)
  constants_lt : (Format.poolEntries constants).length < 2 ^ 16
  constants_fit : ∀ constant ∈ constants, Format.ConstantFits constant
  interfaces_lt : interfaces.length < 2 ^ 16
  fields_lt : fields.length < 2 ^ 16
  methods_lt : methods.length < 2 ^ 16
  attributes_lt : attributes.length < 2 ^ 16
  fields_wf : ∀ field ∈ fields, field.WellFormed (Format.nameAt constants)
  methods_wf : ∀ method ∈ methods, method.WellFormed (Format.nameAt constants)
  attributes_wf : ∀ entry ∈ attributes, entry.WellFormed (Format.nameAt constants)

namespace Format

/-- The encoding of a class file. -/
def encode (file : Format) : List Byte :=
  be32 0xCAFEBABE ++ (be16 file.minorVersion ++ be16 file.majorVersion) ++
    encodePool file.constants ++
    be16 file.accessFlags ++ be16 file.thisClass ++ be16 file.superClass ++
    encodeTable be16 file.interfaces ++ encodeTable Member.encode file.fields ++
    encodeTable Member.encode file.methods ++ encodeTable Attribute.encode file.attributes

/-- A constant with its 64-bit value, if it has one, read by `wide`. -/
def readWide (wide : BitVec 64 → BitVec 64) : ConstantInfo → ConstantInfo
  | .long value => .long (wide value)
  | .double value => .double (wide value)
  | other => other

/-- The pool object: every entry at its index. -/
def toPool (wide : BitVec 64 → BitVec 64) (constants : List ConstantInfo) : ConstantPool where
  constantPoolCount := BitVec.ofNat 16 (poolEntries constants).length
  constantInfos := (poolEntries constants).map (Option.map (readWide wide))

/-- The object for a class file, with 64-bit values read by `wide`. -/
def toClassFile (wide : BitVec 64 → BitVec 64) (file : Format) : ClassFile where
  magic := 0xCAFEBABE
  minorVersion := file.minorVersion
  majorVersion := file.majorVersion
  constantPool := toPool wide file.constants
  accessFlags := file.accessFlags
  thisClass := file.thisClass
  superClass := file.superClass
  interfaces := file.interfaces
  fields := file.fields.map Member.toInfo
  methods := file.methods.map Member.toInfo
  attributes := file.attributes.map Attribute.toInfo

end Format

end JvmDemo.Classfile
