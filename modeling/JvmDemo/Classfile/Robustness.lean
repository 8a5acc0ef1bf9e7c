import JvmDemo.Classfile.RoundTrip
import JvmDemo.Lib.Grammar

/-!
# Which class data the parser can cope with

The parser compares no position with the size of the data, and it dereferences
what it gets for the index of a name.  It returns, or stops with an error of the
format, exactly on the data that start with a complete image of a class file, or
with the beginning of an image that is complete up to an error.  On all other
data it reads behind the end or through a null pointer; it always terminates.

An image has more freedom than `Format`: the length of an attribute that the
parser knows is not looked at, and the index of the constant pool may wrap
around.
-/

namespace JvmDemo.Classfile

open JvmDemo.Lib
open JvmDemo.Runtime
open JvmDemo.Lib.Reader (Recognises)

namespace Image

variable [Target]

/-! ## Images -/

/-- An unsigned integer, the most significant byte first. -/
def uint (width : Nat) : Grammar (BitVec width) := .block (width / 8) (Parser.joinBytes width 0)

/-- A number of bytes. -/
def raw (length : Nat) : Grammar (List Byte) := .block length id

/-- A computation: its result, its error, or nothing if it is not defined. -/
def outcome {α : Type} : Exec α → Grammar α
  | .ok value => pure value
  | .error (.fatal _) => .reject
  | .error _ => ⊥

/-- A `u2` count and that many entries. -/
def table {α : Type} (entry : Grammar α) : Grammar (List α) := do
  let count ← uint 16
  entry.times count.toNat

/-- A pair of indices. -/
def indexPair {α : Type} (build : BitVec 16 → BitVec 16 → α) : Grammar α := do
  let first ← uint 16
  let second ← uint 16
  pure (build first second)

/-- What stands behind the tag of a constant. -/
def payload : ConstantType → Grammar ConstantInfo
  | .utf8 => do
      let length ← uint 16
      let value ← raw length.toNat
      pure (.utf8 value)
  | .integer => do return .integer (← uint 32)
  | .float => do return .float (← uint 32)
  | .long => do return .long (← uint 64)
  | .double => do return .double (← uint 64)
  | .classInfo => do return .classInfo (← uint 16)
  | .string => do return .string (← uint 16)
  | .fieldRef => indexPair .fieldRef
  | .methodRef => indexPair .methodRef
  | .interfaceMethodRef => indexPair .interfaceMethodRef
  | .nameAndType => indexPair .nameAndType
  | .methodHandle => do
      let referenceKind ← uint 8
      let referenceIndex ← uint 16
      pure (.methodHandle referenceKind referenceIndex)
  | .methodType => do return .methodType (← uint 16)
  | .dynamic => indexPair .dynamic
  | .invokeDynamic => indexPair .invokeDynamic
  | .moduleInfo => do return .moduleInfo (← uint 16)
  | .packageInfo => do return .packageInfo (← uint 16)

/-- A constant; an unknown tag is an error. -/
def constant : Grammar ConstantInfo := do
  let tag ← uint 8
  let type ← outcome (Parser.createConstantInfo tag)
  payload type

/-- The constants from an index on, behind those that are already there. -/
def constantsStep (count : BitVec 16)
    (constants : BitVec 16 → List (Option ConstantInfo) → Grammar (List (Option ConstantInfo)))
    (index : BitVec 16) (before : List (Option ConstantInfo)) :
    Grammar (List (Option ConstantInfo)) :=
  if index < count then do
    let info ← constant
    if info.getConstantType.isWide then constants (index + 1 + 1) (before ++ [some info, none])
    else constants (index + 1) (before ++ [some info])
  else pure before

theorem constantsStep_mono (count : BitVec 16) : Monotone (constantsStep count) := by
  intro constants constants' le index before
  unfold constantsStep
  split
  · refine Grammar.bind_mono (le_refl _) fun info => ?_
    split
    · exact le _ _
    · exact le _ _
  · exact le_refl _

def constants (count : BitVec 16) :
    BitVec 16 → List (Option ConstantInfo) → Grammar (List (Option ConstantInfo)) :=
  OrderHom.lfp ⟨constantsStep count, constantsStep_mono count⟩

def constantPool : Grammar ConstantPool := do
  let constantPoolCount ← uint 16
  let constantInfos ← constants constantPoolCount 1 [none]
  pure { constantPoolCount, constantInfos }

def exceptionEntry : Grammar ExceptionTable := do
  let startPc ← uint 16
  let endPc ← uint 16
  let handlerPc ← uint 16
  let catchType ← uint 16
  pure { startPc, endPc, handlerPc, catchType }

def lineNumberEntry : Grammar LineNumberTableEntry := do
  let startPc ← uint 16
  let lineNumber ← uint 16
  pure { startPc, lineNumber }

def localVariableEntry : Grammar LocalVariableTableEntry := do
  let startPc ← uint 16
  let length ← uint 16
  let nameIndex ← uint 16
  let descriptorIndex ← uint 16
  let index ← uint 16
  pure { startPc, length, nameIndex, descriptorIndex, index }

/-- The content of an attribute, from the grammar of those that stand in it. -/
def attrInfo (nested : Grammar AttributeInfo) (attrName : Str) (attrLen : BitVec 32) :
    Option Parser.AttributeClass → Grammar AttributeInfo
  | some .code => do
      let maxOperandStack ← uint 16
      let maxLocals ← uint 16
      let codeLen ← uint 32
      let codes ← raw codeLen.toNat
      let exceptionTables ← table exceptionEntry
      let attributes ← table nested
      pure (.code maxOperandStack maxLocals codeLen codes exceptionTables attributes)
  | some .constantValue => do return .constantValue (← uint 16)
  | some .deprecated => pure .deprecated
  | some .exceptions => do return .exceptions (← table (uint 16))
  | some .lineNumberTable => do return .lineNumberTable (← table lineNumberEntry)
  | some .localVariableTable => do return .localVariableTable (← table localVariableEntry)
  | some .sourceFile => do return .sourceFile (← uint 16)
  | some .synthetic => pure .synthetic
  | none => do return .unparsed attrName attrLen (← raw attrLen.toNat)

/-- An attribute, from the grammar of those that stand in it.  An index outside
the constant pool is an error; one of something other than a text is nothing. -/
def attrStep (cp : ConstantPool) (nested : Grammar AttributeInfo) : Grammar AttributeInfo := do
  let attrNameIndex ← uint 16
  let attrName ← outcome (cp.getUtf8 attrNameIndex)
  let attrLen ← uint 32
  attrInfo nested attrName attrLen (Parser.createAttributeInfo attrName)

theorem table_mono {α : Type} {entry entry' : Grammar α} (le : entry ≤ entry') :
    table entry ≤ table entry' :=
  Grammar.bind_mono (le_refl _) fun _ => Grammar.times_mono le _

theorem attrStep_mono (cp : ConstantPool) : Monotone (attrStep cp) := by
  intro nested nested' le
  refine Grammar.bind_mono (le_refl _) fun _ => ?_
  refine Grammar.bind_mono (le_refl _) fun attrName => ?_
  refine Grammar.bind_mono (le_refl _) fun _ => ?_
  rcases Parser.createAttributeInfo attrName with - | ⟨- | - | - | - | - | - | - | -⟩
  case some.code =>
    refine Grammar.bind_mono (le_refl _) fun _ => ?_
    refine Grammar.bind_mono (le_refl _) fun _ => ?_
    refine Grammar.bind_mono (le_refl _) fun _ => ?_
    refine Grammar.bind_mono (le_refl _) fun _ => ?_
    refine Grammar.bind_mono (le_refl _) fun _ => ?_
    exact Grammar.bind_mono (table_mono le) fun _ => le_refl _
  all_goals exact le_refl _

/-- An attribute, with attributes in it to any depth. -/
def attr (cp : ConstantPool) : Grammar AttributeInfo :=
  OrderHom.lfp ⟨attrStep cp, attrStep_mono cp⟩

def memberInfo (cp : ConstantPool) : Grammar MemberInfo := do
  let accessFlags ← uint 16
  let nameIndex ← uint 16
  let descriptorIndex ← uint 16
  let attributes ← table (attr cp)
  pure { accessFlags, nameIndex, descriptorIndex, attributes }

/-- The magic number; any other is an error. -/
def magicNumber : Grammar (BitVec 32) := do
  let magic ← uint 32
  if magic = 0xCAFEBABE then pure magic else .reject

/-- The version; one that is not supported is an error. -/
def version : Grammar (BitVec 16 × BitVec 16) := do
  let minorVersion ← uint 16
  let majorVersion ← uint 16
  if Parser.supportedVersion majorVersion minorVersion then pure (minorVersion, majorVersion)
  else .reject

def classFile : Grammar ClassFile := do
  let magic ← magicNumber
  let (minorVersion, majorVersion) ← version
  let constantPool ← constantPool
  let accessFlags ← uint 16
  let thisClass ← uint 16
  let superClass ← uint 16
  let interfaces ← table (uint 16)
  let fields ← table (memberInfo constantPool)
  let methods ← table (memberInfo constantPool)
  let attributes ← table (attr constantPool)
  pure { magic, minorVersion, majorVersion, constantPool, accessFlags, thisClass, superClass,
         interfaces, fields, methods, attributes }

end Image

namespace Parser

open Image

/-! ## The parser recognises images -/

/-- An error of the format. -/
def FormatError (fault : Fault) : Prop := ∃ message, fault = .fatal message

/-- An error of the format or undefined behaviour: neither an infinite loop nor an exception. -/
def Ends (fault : Fault) : Prop := FormatError fault ∨ ∃ why, fault = .undefined why

/-- What the parser does at a position: the errors of the format are refusals, and
there are neither infinite loops nor exceptions. -/
abbrev Understands {α : Type} (parser : Parser α) (grammar : Grammar α) (data : List Byte)
    (pos : Nat) : Prop :=
  Recognises FormatError Ends parser grammar data pos

variable [Target] {data : List Byte} {pos : Nat}

omit [Target] in
theorem not_formatError_pastTheEnd : ¬ FormatError pastTheEnd := by
  rintro ⟨message, ⟨⟩⟩

omit [Target] in
theorem ends_pastTheEnd : Ends pastTheEnd := .inr ⟨_, rfl⟩

theorem understands_parseUnsignedIntLoop (width left : Nat) (t : BitVec width) :
    Understands (parseUnsignedIntLoop width left t) (.block left (joinBytes width t)) data pos := by
  induction left generalizing t pos with
  | zero =>
      rw [Grammar.block_zero]
      exact Reader.recognises_pure t
  | succ left ih =>
      rw [Grammar.block_succ]
      refine (Reader.recognises_next not_formatError_pastTheEnd ends_pastTheEnd).bind
        fun byte bytes _ _ => ?_
      have joined : ∀ rest : List Byte, rest.length = left →
          joinBytes width t (byte :: rest) =
            joinBytes width (t ||| (shiftLeft (byte.setWidth 32) (left * 8)).signExtend width)
              rest := by
        rintro rest rfl
        rfl
      rw [Grammar.block_congr joined]
      exact ih _

theorem understands_uint (width : Nat) :
    Understands (parseUnsignedInt width) (uint width) data pos :=
  understands_parseUnsignedIntLoop width (width / 8) 0

omit [Target] in
theorem understands_raw (length : Nat) : Understands (parseBytes length) (raw length) data pos :=
  Reader.recognises_times_next not_formatError_pastTheEnd ends_pastTheEnd length

omit [Target] in
theorem understands_lift {α : Type} {result : Exec α}
    (ends : ∀ fault, result = .error fault → Ends fault) :
    Understands (lift result) (outcome result) data pos := by
  cases result with
  | ok value => exact Reader.recognises_pure value
  | error fault =>
      rcases ends fault rfl with ⟨message, rfl⟩ | ⟨why, rfl⟩
      · exact Reader.recognises_reject ⟨message, rfl⟩ (.inl ⟨message, rfl⟩)
      · exact Reader.recognises_bot (by rintro ⟨_, ⟨⟩⟩) (.inr ⟨why, rfl⟩)

theorem understands_table {α : Type} {entry : Parser α} {grammar : Grammar α}
    (understands : ∀ later, pos ≤ later → Understands entry grammar data later) :
    Understands (parseTable entry) (table grammar) data pos := by
  refine (understands_uint 16).bind fun count bytes _ _ => ?_
  exact Reader.recognises_times (fun later le => understands later (by omega)) count.toNat

/-! ## The constant pool -/

theorem understands_indexPair {α : Type} (build : BitVec 16 → BitVec 16 → α) :
    Understands (parseIndexPair build) (indexPair build) data pos :=
  (understands_uint 16).bind fun first _ _ _ => (understands_uint 16).map (build first)

theorem understands_payload (type : ConstantType) :
    Understands (parseConstantInfoOf type) (payload type) data pos := by
  cases type with
  | utf8 =>
      exact (understands_uint 16).bind fun length _ _ _ =>
        (understands_raw length.toNat).map ConstantInfo.utf8
  | integer => exact (understands_uint 32).map ConstantInfo.integer
  | float => exact (understands_uint 32).map ConstantInfo.float
  | long => exact (understands_uint 64).map ConstantInfo.long
  | double => exact (understands_uint 64).map ConstantInfo.double
  | classInfo => exact (understands_uint 16).map ConstantInfo.classInfo
  | string => exact (understands_uint 16).map ConstantInfo.string
  | fieldRef => exact understands_indexPair _
  | methodRef => exact understands_indexPair _
  | interfaceMethodRef => exact understands_indexPair _
  | nameAndType => exact understands_indexPair _
  | methodHandle =>
      exact (understands_uint 8).bind fun referenceKind _ _ _ =>
        (understands_uint 16).map (ConstantInfo.methodHandle referenceKind)
  | methodType => exact (understands_uint 16).map ConstantInfo.methodType
  | dynamic => exact understands_indexPair _
  | invokeDynamic => exact understands_indexPair _
  | moduleInfo => exact (understands_uint 16).map ConstantInfo.moduleInfo
  | packageInfo => exact (understands_uint 16).map ConstantInfo.packageInfo

omit [Target] in
theorem createConstantInfo_ends (tag : Byte) :
    ∀ fault, createConstantInfo tag = .error fault → Ends fault := by
  intro fault failed
  unfold createConstantInfo at failed
  split at failed
  all_goals cases failed
  exact .inl ⟨_, rfl⟩

theorem understands_constant : Understands parseConstantInfo constant data pos := by
  refine (understands_uint 8).bind fun tag _ _ _ => ?_
  refine (understands_lift (createConstantInfo_ends tag)).bind fun type _ _ _ => ?_
  exact understands_payload type

omit [Target] in
/-- A nonempty string that stands at a position leaves fewer bytes behind it. -/
theorem remaining_lt {bytes : List Byte} {fuel : Nat} (stands : bytes <+: data.drop pos)
    (nonempty : 0 < bytes.length) (enough : data.length - pos < fuel + 1) :
    data.length - (pos + bytes.length) < fuel := by
  have bound := stands.length_le
  rw [List.length_drop] at bound
  omega

theorem length_uint {width : Nat} {bytes : List Byte} {value : BitVec width}
    (accepted : uint width bytes (some value)) : bytes.length = width / 8 := accepted.1

theorem length_constant_pos {bytes : List Byte} {info : ConstantInfo}
    (accepted : constant bytes (some info)) : 0 < bytes.length := by
  rcases accepted with ⟨-, ⟨⟩⟩ | ⟨tag, before, after, tagged, -, rfl⟩
  rw [List.length_append, length_uint tagged]
  omega

/-- Each turn takes the tag of a constant, so the number of bytes that are left
bounds the turns. -/
theorem understands_constants (count : BitVec 16) {fuel : Nat}
    (enough : data.length - pos < fuel) (index : BitVec 16) (before : List (Option ConstantInfo)) :
    Understands (parseConstantPoolLoop count fuel index before) (constants count index before)
      data pos := by
  induction fuel generalizing pos index before with
  | zero => exact absurd enough (Nat.not_lt_zero _)
  | succ fuel ih =>
      have unrolled : constants count index before =
          constantsStep count (constants count) index before := by
        conv_lhs => rw [constants, ← OrderHom.map_lfp]
        rfl
      rw [unrolled, constantsStep, parseConstantPoolLoop]
      split
      · refine understands_constant.bind fun info bytes accepted stands => ?_
        have fewer := remaining_lt stands (length_constant_pos accepted) enough
        split
        · exact ih fewer _ _
        · exact ih fewer _ _
      · exact Reader.recognises_pure before

omit [Target] in
theorem understands_fuel_bind {α : Type} {rest : Nat → Parser α} {grammar : Grammar α}
    (understands : Understands (rest (data.length + 1)) grammar data pos) :
    Understands (fuel >>= rest) grammar data pos :=
  ⟨understands.returns, understands.fails, understands.complete, understands.refuses⟩

theorem understands_constantPool : Understands parseConstantPool constantPool data pos := by
  refine (understands_uint 16).bind fun count bytes _ _ => ?_
  refine understands_fuel_bind ?_
  have enough : data.length - (pos + bytes.length) < data.length + 1 := by omega
  exact (understands_constants count enough 1 [none]).map fun infos =>
    (⟨count, infos⟩ : ConstantPool)

/-! ## Attributes -/

theorem understands_exceptionEntry : Understands parseExceptionTable exceptionEntry data pos := by
  refine (understands_uint 16).bind fun startPc _ _ _ => ?_
  refine (understands_uint 16).bind fun endPc _ _ _ => ?_
  refine (understands_uint 16).bind fun handlerPc _ _ _ => ?_
  exact (understands_uint 16).map (ExceptionTable.mk startPc endPc handlerPc)

theorem understands_lineNumberEntry :
    Understands parseLineNumberTableEntry lineNumberEntry data pos := by
  refine (understands_uint 16).bind fun startPc _ _ _ => ?_
  exact (understands_uint 16).map (LineNumberTableEntry.mk startPc)

theorem understands_localVariableEntry :
    Understands parseLocalVariableTableEntry localVariableEntry data pos := by
  refine (understands_uint 16).bind fun startPc _ _ _ => ?_
  refine (understands_uint 16).bind fun length _ _ _ => ?_
  refine (understands_uint 16).bind fun nameIndex _ _ _ => ?_
  refine (understands_uint 16).bind fun descriptorIndex _ _ _ => ?_
  exact (understands_uint 16).map (LocalVariableTableEntry.mk startPc length nameIndex
    descriptorIndex)

/-- The content of an attribute, if the attributes in it are understood from
there on. -/
theorem understands_attrInfo {nested : Parser AttributeInfo} {grammar : Grammar AttributeInfo}
    (understands : ∀ later, pos ≤ later → Understands nested grammar data later) (attrName : Str)
    (attrLen : BitVec 32) (selected : Option AttributeClass) :
    Understands (parseAttrInfo nested attrName attrLen selected)
      (attrInfo grammar attrName attrLen selected) data pos := by
  cases selected with
  | none => exact (understands_raw attrLen.toNat).map (AttributeInfo.unparsed attrName attrLen)
  | some selected =>
      cases selected with
      | code =>
          refine (understands_uint 16).bind fun maxOperandStack _ _ _ => ?_
          refine (understands_uint 16).bind fun maxLocals _ _ _ => ?_
          refine (understands_uint 32).bind fun codeLen _ _ _ => ?_
          refine (understands_raw codeLen.toNat).bind fun codes _ _ _ => ?_
          refine (understands_table fun _ _ => understands_exceptionEntry).bind
            fun exceptionTables _ _ _ => ?_
          exact (understands_table fun later le => understands later (by omega)).map
            (AttributeInfo.code maxOperandStack maxLocals codeLen codes exceptionTables)
      | constantValue => exact (understands_uint 16).map AttributeInfo.constantValue
      | deprecated => exact Reader.recognises_pure _
      | exceptions =>
          exact (understands_table fun _ _ => understands_uint 16).map AttributeInfo.exceptions
      | lineNumberTable =>
          exact (understands_table fun _ _ => understands_lineNumberEntry).map
            AttributeInfo.lineNumberTable
      | localVariableTable =>
          exact (understands_table fun _ _ => understands_localVariableEntry).map
            AttributeInfo.localVariableTable
      | sourceFile => exact (understands_uint 16).map AttributeInfo.sourceFile
      | synthetic => exact Reader.recognises_pure _

omit [Target] in
theorem getUtf8_ends (cp : ConstantPool) (index : BitVec 16) :
    ∀ fault, cp.getUtf8 index = .error fault → Ends fault := by
  intro fault failed
  unfold ConstantPool.getUtf8 ConstantPool.getConstantInfo at failed
  split at failed
  · cases failed
    exact .inl ⟨_, rfl⟩
  · split at failed
    · rw [Exec.bind_ok] at failed
      split at failed
      · cases failed
      · cases failed
        exact .inr ⟨_, rfl⟩
    · cases failed
      exact .inr ⟨_, rfl⟩

/-- The index of the name takes two bytes, so the number of bytes that are left
bounds the depth. -/
theorem understands_attr (cp : ConstantPool) {depth : Nat} (enough : data.length - pos < depth) :
    Understands (parseAttributeInfo cp depth) (attr cp) data pos := by
  induction depth generalizing pos with
  | zero => exact absurd enough (Nat.not_lt_zero _)
  | succ depth ih =>
      have unrolled : attr cp = attrStep cp (attr cp) := by
        conv_lhs => rw [attr, ← OrderHom.map_lfp]
        rfl
      rw [unrolled, parseAttributeInfo]
      refine (understands_uint 16).bind fun attrNameIndex bytes accepted stands => ?_
      have fewer := remaining_lt stands (by rw [length_uint accepted]; decide) enough
      refine (understands_lift (getUtf8_ends cp attrNameIndex)).bind fun attrName _ _ _ => ?_
      refine (understands_uint 32).bind fun attrLen _ _ _ => ?_
      exact understands_attrInfo (fun later le => ih (by omega)) attrName attrLen _

/-! ## The class file -/

theorem understands_memberInfo (cp : ConstantPool) :
    Understands (parseMember cp (data.length + 1)) (memberInfo cp) data pos := by
  refine (understands_uint 16).bind fun accessFlags _ _ _ => ?_
  refine (understands_uint 16).bind fun nameIndex _ _ _ => ?_
  refine (understands_uint 16).bind fun descriptorIndex _ _ _ => ?_
  exact (understands_table fun later _ => understands_attr cp (by omega)).map
    (MemberInfo.mk accessFlags nameIndex descriptorIndex)

theorem understands_magicNumber : Understands parseAndCheckMagic magicNumber data pos := by
  refine (understands_uint 32).bind fun magic _ _ _ => ?_
  split
  · exact Reader.recognises_pure magic
  · exact Reader.recognises_reject ⟨_, rfl⟩ (.inl ⟨_, rfl⟩)

theorem understands_version : Understands parseAndCheckVersion version data pos := by
  refine (understands_uint 16).bind fun minorVersion _ _ _ => ?_
  refine (understands_uint 16).bind fun majorVersion _ _ _ => ?_
  split
  · exact Reader.recognises_pure _
  · exact Reader.recognises_reject ⟨_, rfl⟩ (.inl ⟨_, rfl⟩)

theorem understands_classFile : Understands parseClassFile classFile data pos := by
  refine understands_magicNumber.bind fun magic _ _ _ => ?_
  refine understands_version.bind fun versions _ _ _ => ?_
  refine understands_constantPool.bind fun cp _ _ _ => ?_
  refine understands_fuel_bind ?_
  refine (understands_uint 16).bind fun accessFlags _ _ _ => ?_
  refine (understands_uint 16).bind fun thisClass _ _ _ => ?_
  refine (understands_uint 16).bind fun superClass _ _ _ => ?_
  refine (understands_table fun _ _ => understands_uint 16).bind fun interfaces _ _ _ => ?_
  refine (understands_table fun _ _ => understands_memberInfo cp).bind fun fields _ _ _ => ?_
  refine (understands_table fun _ _ => understands_memberInfo cp).bind fun methods _ _ _ => ?_
  exact (understands_table fun later _ => understands_attr cp (by omega)).map
    (ClassFile.mk magic versions.1 versions.2 cp accessFlags thisClass superClass interfaces fields
      methods)

end Parser

/-! ## Robustness -/

/-- `Parse` returns a class file, or stops with an error of the format.  Bytes
outside the data are not read. -/
def Robust [Target] (data : ClassData) : Prop :=
  (∃ file cursor, parse data = .ok (file, cursor) ∧ cursor.touched ≤ data.bytes.length) ∨
    Aborts (parse data)

/-- The data start with a complete image of a class file, or with the beginning of
one that is complete up to an error of the format. -/
def StartsWithImage [Target] (data : ClassData) : Prop :=
  ∃ bytes result, Image.classFile bytes result ∧ bytes <+: data.bytes

/-- The file that `Parse` returns is the one whose image the data start with. -/
theorem exists_parse_eq_ok_iff [Target] {data : ClassData} {file : ClassFile} :
    (∃ cursor, parse data = .ok (file, cursor)) ↔
      ∃ bytes, Image.classFile bytes (some file) ∧ bytes <+: data.bytes := by
  have understands : Parser.Understands Parser.parseClassFile Image.classFile data.bytes 0 :=
    Parser.understands_classFile
  constructor
  · rintro ⟨cursor, done⟩
    rcases understands.returns done with ⟨bytes, accepted, stands, -⟩
    exact ⟨bytes, accepted, stands⟩
  · rintro ⟨bytes, accepted, stands⟩
    rcases understands.complete 0 accepted stands with ⟨touched, done⟩
    exact ⟨_, done⟩

theorem parse_ends [Target] {data : ClassData} {fault : Fault}
    (failed : parse data = .error fault) : Parser.Ends fault :=
  ((Parser.understands_classFile : Parser.Understands Parser.parseClassFile Image.classFile
    data.bytes 0).fails failed).1

theorem parse_undefined_iff [Target] {data : ClassData} :
    (∃ why, parse data = .error (.undefined why)) ↔ ¬ StartsWithImage data := by
  have understands : Parser.Understands Parser.parseClassFile Image.classFile data.bytes 0 :=
    Parser.understands_classFile
  constructor
  · rintro ⟨why, failed⟩ ⟨bytes, result, image, stands⟩
    cases result with
    | none =>
        rcases understands.refuses 0 image stands with ⟨_, refused, message, rfl⟩
        cases failed.symm.trans refused
    | some file =>
        rcases understands.complete 0 image stands with ⟨touched, done⟩
        cases failed.symm.trans done
  · intro noImage
    cases outcome : parse data with
    | ok parsed =>
        rcases exists_parse_eq_ok_iff.mp ⟨parsed.2, outcome⟩ with ⟨bytes, image, stands⟩
        exact absurd ⟨bytes, _, image, stands⟩ noImage
    | error fault =>
        rcases parse_ends outcome with format | ⟨why, rfl⟩
        · rcases (understands.fails outcome).2 format with ⟨bytes, rejected, stands⟩
          exact absurd ⟨bytes, _, rejected, stands⟩ noImage
        · exact ⟨why, rfl⟩

/-- `Parse` always terminates.  It is robust exactly on the data that start with
an image. -/
theorem parse_robust_iff [Target] (data : ClassData) :
    parse data ≠ .error .diverges ∧ (Robust data ↔ StartsWithImage data) := by
  have understands : Parser.Understands Parser.parseClassFile Image.classFile data.bytes 0 :=
    Parser.understands_classFile
  refine ⟨fun diverged => ?_, ?_⟩
  · rcases (understands.fails diverged).1 with ⟨message, isFatal⟩ | ⟨why, isUndefined⟩
    · cases isFatal
    · cases isUndefined
  constructor
  · rintro (⟨file, cursor, done, -⟩ | ⟨message, failed⟩)
    · rcases understands.returns done with ⟨bytes, accepted, stands, -⟩
      exact ⟨bytes, _, accepted, stands⟩
    · rcases (understands.fails failed).2 ⟨message, rfl⟩ with ⟨bytes, rejected, stands⟩
      exact ⟨bytes, _, rejected, stands⟩
  · rintro ⟨bytes, result, image, stands⟩
    cases result with
    | none =>
        rcases understands.refuses 0 image stands with ⟨_, failed, message, rfl⟩
        exact .inr ⟨message, failed⟩
    | some file =>
        rcases understands.complete 0 image stands with ⟨touched, done⟩
        rcases understands.returns done with ⟨_, -, standing, moved, looked⟩
        have bound := stands.length_le
        refine .inl ⟨file, _, done, ?_⟩
        dsimp only at looked ⊢
        omega

/-- Nothing is left of the file. -/
theorem empty_data_not_robust : ¬ @Robust maskedShift ⟨[], by decide⟩ := by
  rintro (⟨file, cursor, ⟨⟩, -⟩ | ⟨message, ⟨⟩⟩)

end JvmDemo.Classfile
