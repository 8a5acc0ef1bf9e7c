import JvmDemo.Classfile.Format

/-!
# Parsing undoes encoding

Wherever the encoding of a well-formed class file stands at the start of the
class data, the parser takes exactly these bytes, looks at no other, and
returns the objects of the class file.  Every parsing function gets one `Reads`
statement, and the statement about a composite function is composed from those
of its parts.

The 64-bit constants are the exception: the parser shifts an `int` by more than
its width there, so what they become is a function of the target.
-/

namespace JvmDemo.Classfile

open JvmDemo.Lib
open JvmDemo.Runtime
open JvmDemo.Lib.Reader (Reads)
open JvmDemo.Classfile.Format

namespace Parser

variable [Target]

/-! ## Integers and byte strings -/

/-- What `parseUnsignedIntLoop` computes from the bytes it takes. -/
def joinBytes (width : Nat) : BitVec width → List Byte → BitVec width
  | t, [] => t
  | t, byte :: rest =>
      joinBytes width (t ||| (shiftLeft (byte.setWidth 32) (rest.length * 8)).signExtend width) rest

theorem reads_parseUnsignedIntLoop (width : Nat) (bytes : List Byte) (t : BitVec width)
    (pos : Nat) :
    Reads (parseUnsignedIntLoop width bytes.length t) pos bytes (joinBytes width t bytes) := by
  induction bytes generalizing t pos with
  | nil => exact Reader.reads_pure t pos
  | cons byte rest ih =>
      apply Reader.reads_next_bind
      exact ih _ _

theorem joinBytes_single (value : BitVec 8) : joinBytes 8 0 [value] = value := by
  simp [joinBytes, shiftLeft, BitVec.signExtend_eq_setWidth_of_le]

theorem joinBytes_be16 (value : BitVec 16) : joinBytes 16 0 (be16 value) = value := by
  conv_rhs => rw [← be16_join value]
  simp [joinBytes, be16, shiftLeft, BitVec.signExtend_eq_setWidth_of_le]

theorem joinBytes_be32 (value : BitVec 32) : joinBytes 32 0 (be32 value) = value := by
  conv_rhs => rw [← be32_join value]
  simp [joinBytes, be32, shiftLeft]

theorem reads_parseUnsignedInt8 (pos : Nat) (value : BitVec 8) :
    Reads (parseUnsignedInt 8) pos [value] value := by
  have reads := reads_parseUnsignedIntLoop 8 [value] 0 pos
  rwa [joinBytes_single] at reads

theorem reads_parseUnsignedInt16 (pos : Nat) (value : BitVec 16) :
    Reads (parseUnsignedInt 16) pos (be16 value) value := by
  have reads := reads_parseUnsignedIntLoop 16 (be16 value) 0 pos
  rwa [joinBytes_be16] at reads

theorem reads_parseUnsignedInt32 (pos : Nat) (value : BitVec 32) :
    Reads (parseUnsignedInt 32) pos (be32 value) value := by
  have reads := reads_parseUnsignedIntLoop 32 (be32 value) 0 pos
  rwa [joinBytes_be32] at reads

/-- What the parser makes of a 64-bit value. -/
def wideValue (value : BitVec 64) : BitVec 64 := joinBytes 64 0 (be64 value)

theorem reads_parseUnsignedInt64 (pos : Nat) (value : BitVec 64) :
    Reads (parseUnsignedInt 64) pos (be64 value) (wideValue value) :=
  reads_parseUnsignedIntLoop 64 (be64 value) 0 pos

omit [Target] in
theorem reads_parseBytes (pos : Nat) (bytes : List Byte) :
    Reads (parseBytes bytes.length) pos bytes bytes :=
  Reader.reads_times_next pastTheEnd bytes pos

omit [Target] in
theorem reads_lift {α : Type} {result : Exec α} {value : α} (returns : result = .ok value)
    (pos : Nat) : Reads (lift result) pos [] value := by
  rw [returns]
  exact Reader.reads_pure value pos

/-- A count that fits its field and the entries behind it. -/
theorem reads_parseTable {α β : Type} {entry : Parser β} {encode : α → List Byte}
    {result : α → β} {entries : List α} (count : entries.length < 2 ^ 16)
    (correct : ∀ pos, ∀ value ∈ entries, Reads entry pos (encode value) (result value))
    (pos : Nat) :
    Reads (parseTable entry) pos (encodeTable encode entries) (entries.map result) := by
  apply (reads_parseUnsignedInt16 pos _).bind
  rw [BitVec.toNat_ofNat, Nat.mod_eq_of_lt count]
  exact Reader.reads_times_map entries correct _

/-- A table whose objects are its entries. -/
theorem reads_parseTable_self {α : Type} {entry : Parser α} {encode : α → List Byte}
    {entries : List α} (count : entries.length < 2 ^ 16)
    (correct : ∀ pos value, Reads entry pos (encode value) value) (pos : Nat) :
    Reads (parseTable entry) pos (encodeTable encode entries) entries := by
  have mapped : Reads (parseTable entry) pos (encodeTable encode entries) (entries.map id) :=
    reads_parseTable count (fun pos value _ => correct pos value) pos
  rwa [List.map_id] at mapped

omit [Target] in
/-- Class data that has the bytes still to be read gives enough fuel to take a
turn for each of them. -/
theorem reads_fuel_bind {β : Type} {rest : Nat → Parser β} {pos : Nat} {bytes : List Byte}
    {result : β} (enough : ∀ turns, bytes.length < turns → Reads (rest turns) pos bytes result) :
    Reads (fuel >>= rest) pos bytes result := by
  intro data touched prefixed
  have inside : bytes.length ≤ data.length := by
    have bound := prefixed.length_le
    rw [List.length_drop] at bound
    omega
  exact enough (data.length + 1) (by omega) data touched prefixed

/-! ## The constant pool -/

omit [Target] in
theorem createConstantInfo_tag (type : ConstantType) : createConstantInfo type.tag = .ok type := by
  cases type <;> rfl

theorem reads_parseIndexPair {α : Type} (build : BitVec 16 → BitVec 16 → α)
    (first second : BitVec 16) (pos : Nat) :
    Reads (parseIndexPair build) pos (be16 first ++ be16 second) (build first second) :=
  (reads_parseUnsignedInt16 pos first).bind ((reads_parseUnsignedInt16 _ second).map (build first))

theorem reads_parseConstantInfoOf (constant : ConstantInfo) (fits : ConstantFits constant)
    (pos : Nat) :
    Reads (parseConstantInfoOf constant.getConstantType) pos (encodePayload constant)
      (readWide wideValue constant) := by
  cases constant with
  | utf8 value =>
      apply (reads_parseUnsignedInt16 pos _).bind
      rw [BitVec.toNat_ofNat, Nat.mod_eq_of_lt fits]
      exact (reads_parseBytes _ value).map ConstantInfo.utf8
  | integer value => exact (reads_parseUnsignedInt32 pos value).map ConstantInfo.integer
  | float value => exact (reads_parseUnsignedInt32 pos value).map ConstantInfo.float
  | long value => exact (reads_parseUnsignedInt64 pos value).map ConstantInfo.long
  | double value => exact (reads_parseUnsignedInt64 pos value).map ConstantInfo.double
  | classInfo nameIndex => exact (reads_parseUnsignedInt16 pos nameIndex).map ConstantInfo.classInfo
  | string stringIndex => exact (reads_parseUnsignedInt16 pos stringIndex).map ConstantInfo.string
  | fieldRef classIndex nameAndTypeIndex => exact reads_parseIndexPair ConstantInfo.fieldRef _ _ pos
  | methodRef classIndex nameAndTypeIndex =>
      exact reads_parseIndexPair ConstantInfo.methodRef _ _ pos
  | interfaceMethodRef classIndex nameAndTypeIndex =>
      exact reads_parseIndexPair ConstantInfo.interfaceMethodRef _ _ pos
  | nameAndType nameIndex descriptorIndex =>
      exact reads_parseIndexPair ConstantInfo.nameAndType _ _ pos
  | methodHandle referenceKind referenceIndex =>
      apply (reads_parseUnsignedInt8 pos referenceKind).bind
      exact (reads_parseUnsignedInt16 _ referenceIndex).map
        (ConstantInfo.methodHandle referenceKind)
  | methodType descriptorIndex =>
      exact (reads_parseUnsignedInt16 pos descriptorIndex).map ConstantInfo.methodType
  | dynamic bootstrap nameAndTypeIndex => exact reads_parseIndexPair ConstantInfo.dynamic _ _ pos
  | invokeDynamic bootstrap nameAndTypeIndex =>
      exact reads_parseIndexPair ConstantInfo.invokeDynamic _ _ pos
  | moduleInfo nameIndex =>
      exact (reads_parseUnsignedInt16 pos nameIndex).map ConstantInfo.moduleInfo
  | packageInfo nameIndex =>
      exact (reads_parseUnsignedInt16 pos nameIndex).map ConstantInfo.packageInfo

theorem reads_parseConstantInfo (constant : ConstantInfo) (fits : ConstantFits constant)
    (pos : Nat) :
    Reads parseConstantInfo pos (encodeConstant constant) (readWide wideValue constant) := by
  apply (reads_parseUnsignedInt8 pos _).bind
  apply (reads_lift (createConstantInfo_tag _) _).bind
  exact reads_parseConstantInfoOf constant fits _

omit [Target] in
theorem length_slots_pos (constant : ConstantInfo) : 0 < (slots constant).length := by
  unfold slots
  split <;> simp

omit [Target] in
theorem getConstantType_readWide (wide : BitVec 64 → BitVec 64) (constant : ConstantInfo) :
    (readWide wide constant).getConstantType = constant.getConstantType := by
  cases constant <;> rfl

/-- The loop takes one turn for each constant, and its index is that of the
next entry: it cannot wrap around, as the last entry is below the count. -/
theorem reads_parseConstantPoolLoop {count : BitVec 16} {constants : List ConstantInfo}
    (fits : ∀ constant ∈ constants, ConstantFits constant) {turns : Nat}
    (enough : constants.length < turns) {i : BitVec 16}
    (reach : i.toNat + (constants.flatMap slots).length = count.toNat)
    (stored : List (Option ConstantInfo)) (pos : Nat) :
    Reads (parseConstantPoolLoop count turns i stored) pos (constants.flatMap encodeConstant)
      (stored ++ (constants.flatMap slots).map (Option.map (readWide wideValue))) := by
  induction constants generalizing turns i stored pos with
  | nil =>
      rcases turns with - | turns
      · simp at enough
      have done : ¬ i < count := by
        simp only [List.flatMap_nil, List.length_nil, Nat.add_zero] at reach
        rw [BitVec.lt_def]
        omega
      rw [parseConstantPoolLoop, if_neg done]
      simpa using Reader.reads_pure stored pos
  | cons constant constants ih =>
      rcases turns with - | turns
      · simp at enough
      have below := count.isLt
      have one : (1 : BitVec 16).toNat = 1 := rfl
      have positive := length_slots_pos constant
      simp only [List.flatMap_cons, List.length_append] at reach
      have more : i < count := by
        rw [BitVec.lt_def]
        omega
      rw [parseConstantPoolLoop, if_pos more, List.flatMap_cons, List.flatMap_cons]
      apply (reads_parseConstantInfo constant (fits constant List.mem_cons_self) pos).bind
      have restFits := fun other inside => fits other (List.mem_cons_of_mem constant inside)
      have restEnough : constants.length < turns := Nat.lt_of_succ_lt_succ enough
      rw [getConstantType_readWide]
      by_cases wide : constant.getConstantType.isWide
      · simp only [slots, wide, ↓reduceIte, List.length_cons, List.length_nil] at reach ⊢
        have nextIndex : (i + 1 + 1).toNat = i.toNat + 2 := by
          rw [BitVec.toNat_add, BitVec.toNat_add, one]
          omega
        have rest := ih restFits restEnough (i := i + 1 + 1) (by omega)
          (stored ++ [some (readWide wideValue constant), none])
        simpa using rest _
      · simp only [slots, wide, Bool.false_eq_true, ↓reduceIte, List.length_cons,
          List.length_nil] at reach ⊢
        have nextIndex : (i + 1).toNat = i.toNat + 1 := by
          rw [BitVec.toNat_add, one]
          omega
        have rest := ih restFits restEnough (i := i + 1) (by omega)
          (stored ++ [some (readWide wideValue constant)])
        simpa using rest _

omit [Target] in
theorem length_le_length_encodeConstants (constants : List ConstantInfo) :
    constants.length ≤ (constants.flatMap encodeConstant).length := by
  induction constants with
  | nil => simp
  | cons constant constants ih =>
      simp only [List.flatMap_cons, List.length_append, List.length_cons, encodeConstant]
      omega

theorem reads_parseConstantPool {constants : List ConstantInfo}
    (count : (poolEntries constants).length < 2 ^ 16)
    (fits : ∀ constant ∈ constants, ConstantFits constant) (pos : Nat) :
    Reads parseConstantPool pos (encodePool constants) (toPool wideValue constants) := by
  apply (reads_parseUnsignedInt16 pos _).bind
  apply reads_fuel_bind
  intro turns enough
  have shorter := length_le_length_encodeConstants constants
  have reach : (1 : BitVec 16).toNat + (constants.flatMap slots).length =
      (BitVec.ofNat 16 (poolEntries constants).length).toNat := by
    rw [BitVec.toNat_ofNat, Nat.mod_eq_of_lt count]
    simp [poolEntries]
    omega
  have loop := reads_parseConstantPoolLoop fits (Nat.lt_of_le_of_lt shorter enough) reach [none]
  exact (loop _).map (fun constantInfos => (⟨_, constantInfos⟩ : ConstantPool))

omit [Target] in
/-- An index of a `Utf8` entry is inside the pool, and gives its text. -/
theorem getUtf8_toPool {constants : List ConstantInfo}
    (count : (poolEntries constants).length < 2 ^ 16) (wide : BitVec 64 → BitVec 64)
    {index : BitVec 16} {name : Str} (named : nameAt constants index = some name) :
    (toPool wide constants).getUtf8 index = .ok name := by
  have found : (poolEntries constants)[index.toNat]? = some (some (.utf8 name)) := by
    unfold nameAt at named
    split at named
    · next value entry => rw [entry, Option.some.inj named]
    · simp at named
  have inside := (List.getElem?_eq_some_iff.mp found).1
  have nonzero : index.toNat ≠ 0 := by
    intro zero
    simp [zero, poolEntries] at found
  have accepted : ¬ (index < 1 ∨ (toPool wide constants).constantPoolCount ≤ index) := by
    have one : (1 : BitVec 16).toNat = 1 := rfl
    simp only [toPool, BitVec.lt_def, BitVec.le_def, BitVec.toNat_ofNat,
      Nat.mod_eq_of_lt count, one]
    omega
  have entry : (toPool wide constants).constantInfos[index.toNat]? = some (some (.utf8 name)) := by
    simp [toPool, found, readWide]
  simp only [ConstantPool.getUtf8, ConstantPool.getConstantInfo, if_neg accepted, entry,
    Exec.bind_ok]

/-! ## Attributes -/

theorem reads_parseExceptionTable (pos : Nat) (entry : ExceptionTable) :
    Reads parseExceptionTable pos (encodeException entry) entry := by
  simp only [encodeException, List.append_assoc]
  apply (reads_parseUnsignedInt16 pos _).bind
  apply (reads_parseUnsignedInt16 _ _).bind
  apply (reads_parseUnsignedInt16 _ _).bind
  exact (reads_parseUnsignedInt16 _ _).map (ExceptionTable.mk _ _ _)

theorem reads_parseLineNumberTableEntry (pos : Nat) (entry : LineNumberTableEntry) :
    Reads parseLineNumberTableEntry pos (encodeLineNumber entry) entry := by
  apply (reads_parseUnsignedInt16 pos _).bind
  exact (reads_parseUnsignedInt16 _ _).map (LineNumberTableEntry.mk _)

theorem reads_parseLocalVariableTableEntry (pos : Nat) (entry : LocalVariableTableEntry) :
    Reads parseLocalVariableTableEntry pos (encodeLocalVariable entry) entry := by
  simp only [encodeLocalVariable, List.append_assoc]
  apply (reads_parseUnsignedInt16 pos _).bind
  apply (reads_parseUnsignedInt16 _ _).bind
  apply (reads_parseUnsignedInt16 _ _).bind
  apply (reads_parseUnsignedInt16 _ _).bind
  exact (reads_parseUnsignedInt16 _ _).map (LocalVariableTableEntry.mk _ _ _ _)

/-- The content of an attribute without attributes of its own. -/
theorem reads_parseAttrInfo_leaf (nested : Parser AttributeInfo) (content : Leaf)
    (fits : content.Fits) (length_lt : content.encode.length < 2 ^ 32) (pos : Nat) :
    Reads (parseAttrInfo nested content.name (BitVec.ofNat 32 content.encode.length)
      (createAttributeInfo content.name)) pos content.encode content.toInfo := by
  cases content with
  | constantValue index =>
      exact (reads_parseUnsignedInt16 pos index).map AttributeInfo.constantValue
  | exceptions indices =>
      exact (reads_parseTable_self fits reads_parseUnsignedInt16 pos).map AttributeInfo.exceptions
  | lineNumberTable entries =>
      exact (reads_parseTable_self fits reads_parseLineNumberTableEntry pos).map
        AttributeInfo.lineNumberTable
  | localVariableTable entries =>
      exact (reads_parseTable_self fits reads_parseLocalVariableTableEntry pos).map
        AttributeInfo.localVariableTable
  | sourceFile index => exact (reads_parseUnsignedInt16 pos index).map AttributeInfo.sourceFile
  | synthetic => exact Reader.reads_pure AttributeInfo.synthetic pos
  | uninterpreted name info =>
      have unrecognised : createAttributeInfo name = none := fits
      have length : (BitVec.ofNat 32 info.length).toNat = info.length := by
        rw [BitVec.toNat_ofNat]
        exact Nat.mod_eq_of_lt length_lt
      simp only [Leaf.name, Leaf.encode, Leaf.toInfo, unrecognised, parseAttrInfo, length]
      exact (reads_parseBytes pos info).map (AttributeInfo.unparsed name _)

/-- The content of a `Code` attribute, if its own attributes are read right. -/
theorem reads_parseAttrInfo_code {nested : Parser AttributeInfo} (attrLen : BitVec 32)
    {maxStack maxLocals : BitVec 16} {codes : List Byte} {exceptionTable : List ExceptionTable}
    {attributes : List Attribute} (codes_lt : codes.length < 2 ^ 32)
    (exceptions_lt : exceptionTable.length < 2 ^ 16) (attributes_lt : attributes.length < 2 ^ 16)
    (correct : ∀ pos, ∀ inner ∈ attributes, Reads nested pos inner.encode inner.toInfo)
    (pos : Nat) :
    Reads (parseAttrInfo nested (str "Code") attrLen (some .code)) pos
      (codeBody maxStack maxLocals codes exceptionTable attributes.length
        (Attribute.encodeAll attributes))
      (.code maxStack maxLocals (BitVec.ofNat 32 codes.length) codes exceptionTable
        (Attribute.toInfos attributes)) := by
  have nestedTable : ∀ pos, Reads (parseTable nested) pos
      (be16 (BitVec.ofNat 16 attributes.length) ++ Attribute.encodeAll attributes)
      (Attribute.toInfos attributes) := by
    intro pos
    rw [Attribute.encodeAll_eq, Attribute.toInfos_eq]
    exact reads_parseTable attributes_lt correct pos
  have codesLength : (BitVec.ofNat 32 codes.length).toNat = codes.length := by
    rw [BitVec.toNat_ofNat, Nat.mod_eq_of_lt codes_lt]
  simp only [codeBody, List.append_assoc]
  apply (reads_parseUnsignedInt16 pos maxStack).bind
  apply (reads_parseUnsignedInt16 _ maxLocals).bind
  apply (reads_parseUnsignedInt32 _ _).bind
  rw [codesLength]
  apply (reads_parseBytes _ codes).bind
  apply (reads_parseTable_self exceptions_lt reads_parseExceptionTable _).bind
  exact (nestedTable _).map (AttributeInfo.code maxStack maxLocals _ codes exceptionTable)

omit [Target] in
theorem length_le_length_encodeTable {α : Type} (encode : α → List Byte) {entries : List α}
    {entry : α} (inside : entry ∈ entries) :
    (encode entry).length ≤ (encodeTable encode entries).length := by
  rw [encodeTable, List.flatMap_def, List.length_append]
  have part := (List.sublist_flatten_of_mem (List.mem_map_of_mem (f := encode) inside)).length_le
  omega

/-- Attributes nest only as deep as their encoding is long, so a fuel of that
length reads them.  The induction is on the fuel. -/
theorem reads_parseAttributeInfo {constants : List ConstantInfo}
    (count : (poolEntries constants).length < 2 ^ 16) (wide : BitVec 64 → BitVec 64)
    {depth : Nat} {entry : Attribute} (wf : entry.WellFormed (nameAt constants))
    (deep : entry.encode.length ≤ depth) (pos : Nat) :
    Reads (parseAttributeInfo (toPool wide constants) depth) pos entry.encode entry.toInfo := by
  induction depth generalizing entry pos with
  | zero =>
      exfalso
      cases wf <;> simp [Attribute.encode, frame] at deep
  | succ depth ih =>
      cases wf with
      | leaf named fits length_lt =>
          simp only [Attribute.encode, frame, List.append_assoc]
          apply (reads_parseUnsignedInt16 pos _).bind
          apply (reads_lift (getUtf8_toPool count wide named) _).bind
          apply (reads_parseUnsignedInt32 _ _).bind
          exact reads_parseAttrInfo_leaf _ _ fits length_lt _
      | @code _ _ _ codes _ attributes named length_lt exceptions_lt attributes_lt nested =>
          have codes_lt : codes.length < 2 ^ 32 := by
            simp only [codeBody, List.length_append] at length_lt
            omega
          have correct : ∀ pos, ∀ inner ∈ attributes,
              Reads (parseAttributeInfo (toPool wide constants) depth) pos inner.encode
                inner.toInfo := by
            intro pos inner inside
            apply ih (nested inner inside)
            have shorter := length_le_length_encodeTable Attribute.encode inside
            simp only [encodeTable, ← Attribute.encodeAll_eq] at shorter
            simp only [Attribute.encode, frame, codeBody, List.length_append,
              length_be16] at deep shorter
            omega
          simp only [Attribute.encode, frame, List.append_assoc]
          apply (reads_parseUnsignedInt16 pos _).bind
          apply (reads_lift (getUtf8_toPool count wide named) _).bind
          apply (reads_parseUnsignedInt32 _ _).bind
          exact reads_parseAttrInfo_code _ codes_lt exceptions_lt attributes_lt correct _

/-! ## Members and the class file -/

theorem reads_parseMember {constants : List ConstantInfo}
    (count : (poolEntries constants).length < 2 ^ 16) (wide : BitVec 64 → BitVec 64)
    {depth : Nat} {member : Member} (wf : member.WellFormed (nameAt constants))
    (deep : member.encode.length ≤ depth) (pos : Nat) :
    Reads (parseMember (toPool wide constants) depth) pos member.encode member.toInfo := by
  have correct : ∀ pos, ∀ entry ∈ member.attributes,
      Reads (parseAttributeInfo (toPool wide constants) depth) pos entry.encode entry.toInfo := by
    intro pos entry inside
    apply reads_parseAttributeInfo count wide (wf.attributes entry inside)
    have shorter := length_le_length_encodeTable Attribute.encode inside
    simp only [Member.encode, List.length_append] at deep
    omega
  simp only [Member.encode, List.append_assoc]
  apply (reads_parseUnsignedInt16 pos _).bind
  apply (reads_parseUnsignedInt16 _ _).bind
  apply (reads_parseUnsignedInt16 _ _).bind
  exact (reads_parseTable wf.attributes_lt correct _).map (MemberInfo.mk _ _ _)

/-- A table of members whose encoding is no longer than the fuel. -/
theorem reads_parseMembers {constants : List ConstantInfo}
    (count : (poolEntries constants).length < 2 ^ 16) (wide : BitVec 64 → BitVec 64)
    {depth : Nat} {members : List Member} (members_lt : members.length < 2 ^ 16)
    (wf : ∀ member ∈ members, member.WellFormed (nameAt constants))
    (deep : (encodeTable Member.encode members).length ≤ depth) (pos : Nat) :
    Reads (parseTable (parseMember (toPool wide constants) depth)) pos
      (encodeTable Member.encode members) (members.map Member.toInfo) := by
  apply reads_parseTable members_lt
  intro pos member inside
  have shorter := length_le_length_encodeTable Member.encode inside
  exact reads_parseMember count wide (wf member inside) (Nat.le_trans shorter deep) pos

theorem reads_parseAndCheckMagic (pos : Nat) :
    Reads parseAndCheckMagic pos (be32 0xCAFEBABE) 0xCAFEBABE := by
  have checked : Reads parseAndCheckMagic pos (be32 0xCAFEBABE ++ []) 0xCAFEBABE :=
    (reads_parseUnsignedInt32 pos 0xCAFEBABE).bind (Reader.reads_pure _ _)
  rwa [List.append_nil] at checked

theorem reads_parseAndCheckVersion {minorVersion majorVersion : BitVec 16}
    (supported : supportedVersion majorVersion minorVersion) (pos : Nat) :
    Reads parseAndCheckVersion pos (be16 minorVersion ++ be16 majorVersion)
      (minorVersion, majorVersion) := by
  have checked : Reads parseAndCheckVersion pos (be16 minorVersion ++ (be16 majorVersion ++ []))
      (minorVersion, majorVersion) := by
    apply (reads_parseUnsignedInt16 pos minorVersion).bind
    apply (reads_parseUnsignedInt16 _ majorVersion).bind
    rw [if_pos supported]
    exact Reader.reads_pure _ _
  rwa [List.append_nil] at checked

theorem reads_parseClassFile (file : Format) (pos : Nat) :
    Reads parseClassFile pos file.encode (file.toClassFile wideValue) := by
  have supported : supportedVersion file.majorVersion file.minorVersion :=
    decide_eq_true file.supported
  simp only [Format.encode, List.append_assoc]
  apply (reads_parseAndCheckMagic pos).bind
  rw [← List.append_assoc (be16 file.minorVersion)]
  apply (reads_parseAndCheckVersion supported _).bind
  apply (reads_parseConstantPool file.constants_lt file.constants_fit _).bind
  apply reads_fuel_bind
  intro depth enough
  simp only [List.length_append] at enough
  apply (reads_parseUnsignedInt16 _ file.accessFlags).bind
  apply (reads_parseUnsignedInt16 _ file.thisClass).bind
  apply (reads_parseUnsignedInt16 _ file.superClass).bind
  apply (reads_parseTable_self file.interfaces_lt reads_parseUnsignedInt16 _).bind
  apply (reads_parseMembers file.constants_lt wideValue file.fields_lt file.fields_wf
    (by omega) _).bind
  apply (reads_parseMembers file.constants_lt wideValue file.methods_lt file.methods_wf
    (by omega) _).bind
  have attributes : ∀ pos, Reads
      (parseTable (parseAttributeInfo (toPool wideValue file.constants) depth)) pos
      (encodeTable Attribute.encode file.attributes) (file.attributes.map Attribute.toInfo) := by
    intro pos
    apply reads_parseTable file.attributes_lt
    intro pos entry inside
    have shorter := length_le_length_encodeTable Attribute.encode inside
    exact reads_parseAttributeInfo file.constants_lt wideValue (file.attributes_wf entry inside)
      (by omega) pos
  exact (attributes _).map (ClassFile.mk _ _ _ _ _ _ _ _ _ _)

end Parser

/-- Class data that starts with the encoding of a class file are parsed into
the objects of the class file, with the 64-bit values read by some function.
The position ends behind the encoding, and no byte behind it is read. -/
theorem parse_encode [Target] : ∃ wide : BitVec 64 → BitVec 64,
    ∀ (file : Format) (extra : List Byte) (data : ClassData),
      data.bytes = file.encode ++ extra →
      ∃ touched, parse data = .ok (file.toClassFile wide, ⟨file.encode.length, touched⟩) ∧
        touched ≤ file.encode.length := by
  refine ⟨Parser.wideValue, ?_⟩
  intro file extra data starts
  have result := Reads.runAt_append [] extra (Parser.reads_parseClassFile file 0)
  simpa [parse, starts] using result

/-- A target that uses the low five bits of a shift amount. -/
abbrev maskedShift : Target := ⟨fun x amount => x <<< (amount % 32)⟩

theorem uninterpreted_signature {info : List Byte} :
    (Leaf.uninterpreted (str "Signature") info).Fits := by
  change Parser.createAttributeInfo (str "Signature") = none
  decide

/-- A class with a `Long` constant, and a method whose `Code` attribute has
attributes of its own. -/
def sampleFile : Format where
  minorVersion := 0
  majorVersion := 52
  constants := [.utf8 (str "Code"), .long 0x0123456789ABCDEF, .utf8 (str "LineNumberTable"),
    .classInfo 6, .utf8 (str "Main"), .utf8 (str "Signature")]
  accessFlags := 0x21
  thisClass := 5
  superClass := 0
  interfaces := [5]
  fields := []
  methods := [⟨9, 6, 6, [.code 1 2 1 [0x05, 0xAC] [⟨0, 1, 1, 0⟩]
    [.leaf 4 (.lineNumberTable [⟨0, 3⟩]), .leaf 7 (.uninterpreted (str "Signature") [0, 6])]]⟩]
  attributes := [.leaf 7 (.uninterpreted (str "Signature") [])]
  supported := by decide
  constants_lt := by decide
  constants_fit := by simp [ConstantFits, str]
  interfaces_lt := by decide
  fields_lt := by decide
  methods_lt := by decide
  attributes_lt := by decide
  fields_wf := by simp
  methods_wf := by
    simp only [List.mem_singleton, forall_eq]
    refine ⟨by decide, ?_⟩
    simp only [List.mem_singleton, forall_eq]
    refine .code (by decide) (by decide) (by decide) (by decide) ?_
    simp only [List.mem_cons, List.not_mem_nil, or_false, forall_eq_or_imp, forall_eq]
    exact ⟨.leaf (by decide) (by simp [Leaf.Fits]) (by decide),
      .leaf (by decide) uninterpreted_signature (by decide)⟩
  attributes_wf := by
    simp only [List.mem_singleton, forall_eq]
    exact .leaf (by decide) uninterpreted_signature (by decide)

theorem parse_encode_sampleFile : ∃ wide touched,
    @parse maskedShift ⟨sampleFile.encode ++ [0xFF, 0xFF], by decide +kernel⟩ =
      .ok (sampleFile.toClassFile wide, ⟨sampleFile.encode.length, touched⟩) := by
  rcases @parse_encode maskedShift with ⟨wide, parses⟩
  rcases parses sampleFile [0xFF, 0xFF] ⟨_, by decide +kernel⟩ rfl with ⟨touched, result, _⟩
  exact ⟨wide, touched, result⟩

end JvmDemo.Classfile
