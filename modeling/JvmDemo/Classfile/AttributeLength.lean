import JvmDemo.Classfile.Robustness
import JvmDemo.Classfile.WideConstants

/-!
# Declared and actual lengths of attributes

An attribute declares its length behind its name.  Only an attribute of an
unknown name is taken by that length; the eight known kinds are taken by their
own structure, and the declared length is not looked at.

`Spans` says where the structure of some attributes in a row ends, from their
bytes alone.  The parser stops there, so it stays in step with the declared
length exactly where the structure takes the declared number of bytes.
-/

namespace JvmDemo.Classfile

open JvmDemo.Lib
open JvmDemo.Runtime
open JvmDemo.Lib.Reader (Takes)

namespace Parser

/-! ## Sizes of what is read -/

/-- The big-endian value of some bytes of the data. -/
def unsignedAt (data : List Byte) (pos size : Nat) : Nat := bigEndian ((data.drop pos).take size)

/-- `attribute_length` of the attribute at a position. -/
def declaredLength (data : List Byte) (pos : Nat) : Nat := unsignedAt data (pos + 2) 4

section

variable [Target] {data : List Byte} {cursor after : Cursor}

theorem parseUnsignedInt_spec {width : Nat} {value : BitVec width} (narrow : width ≤ 32)
    (read : parseUnsignedInt width data cursor = .ok (value, after)) :
    after.pos = cursor.pos + width / 8 ∧ value.toNat = unsignedAt data cursor.pos (width / 8) := by
  rcases (understands_uint width).returns read with ⟨bytes, accepted, stands, pos, -⟩
  have length := length_uint accepted
  have joined : joinBytes width 0 bytes = value := Option.some.inj accepted.2.symm
  have here : (data.drop cursor.pos).take (width / 8) = bytes := by
    rw [← length]
    exact (List.prefix_iff_eq_take.mp stands).symm
  have number := @toNat_joinBytes _ width narrow bytes 0 (by omega) (Nat.dvd_zero _)
  rw [joined] at number
  rw [length] at pos
  refine ⟨pos, ?_⟩
  rw [number, unsignedAt, here]
  exact Nat.zero_add _

theorem takes_parseUnsignedInt (width : Nat) : Takes (parseUnsignedInt width) (width / 8) := by
  intro data cursor value after read
  rcases (understands_uint width).returns read with ⟨bytes, accepted, -, pos, -⟩
  rw [pos, length_uint accepted]

omit [Target] in
theorem takes_parseBytes (length : Nat) : Takes (parseBytes length) length := by
  have bytes := Takes.times (Reader.takes_next pastTheEnd) length
  rwa [Nat.one_mul] at bytes

omit [Target] in
/-- An operation that does not read leaves the cursor. -/
theorem lift_eq_ok {α : Type} {result : Exec α} {value : α}
    (done : lift result data cursor = .ok (value, after)) : result = .ok value ∧ after = cursor := by
  cases result with
  | error fault => cases done
  | ok found =>
      cases done
      exact ⟨rfl, rfl⟩

theorem takes_parseExceptionTable : Takes parseExceptionTable 8 :=
  (takes_parseUnsignedInt 16).bind fun _ => (takes_parseUnsignedInt 16).bind fun _ =>
    (takes_parseUnsignedInt 16).bind fun _ => (takes_parseUnsignedInt 16).map _

theorem takes_parseLineNumberTableEntry : Takes parseLineNumberTableEntry 4 :=
  (takes_parseUnsignedInt 16).bind fun _ => (takes_parseUnsignedInt 16).map _

theorem takes_parseLocalVariableTableEntry : Takes parseLocalVariableTableEntry 10 :=
  (takes_parseUnsignedInt 16).bind fun _ => (takes_parseUnsignedInt 16).bind fun _ =>
    (takes_parseUnsignedInt 16).bind fun _ => (takes_parseUnsignedInt 16).bind fun _ =>
      (takes_parseUnsignedInt 16).map _

/-- A table takes its count and as many entries. -/
theorem parseTable_pos {α : Type} {entry : Parser α} {size : Nat} (takes : Takes entry size)
    {values : List α} (read : parseTable entry data cursor = .ok (values, after)) :
    after.pos = cursor.pos + (2 + size * unsignedAt data cursor.pos 2) := by
  rcases Reader.bind_eq_ok read with ⟨count, middle, counted, entries⟩
  have number := parseUnsignedInt_spec (by decide) counted
  rw [(takes.times count.toNat) entries, number.1, number.2, Nat.add_assoc]

end

/-! ## The structure of attributes -/

/-- What the structure of an attribute takes behind the declared length, for the
classes other than that of `Code`. -/
def leafSize (data : List Byte) (pos : Nat) : AttributeClass → Option Nat
  | .code => none
  | .constantValue | .sourceFile => some 2
  | .deprecated | .synthetic => some 0
  | .exceptions => some (2 + 2 * unsignedAt data pos 2)
  | .lineNumberTable => some (2 + 4 * unsignedAt data pos 2)
  | .localVariableTable => some (2 + 10 * unsignedAt data pos 2)

/-- Where a `Code` attribute counts its own attributes: behind the two sizes of the
frame, the code and the exception table. -/
def nestedAt (data : List Byte) (pos : Nat) : Nat :=
  let exceptionsAt := pos + 6 + 8 + unsignedAt data (pos + 10) 4
  exceptionsAt + (2 + 8 * unsignedAt data exceptionsAt 2)

/-- So many attributes in a row, from one position to another.  An attribute of an
unknown name ends where it says; every other one ends with its structure. -/
inductive Spans (cp : ConstantPool) (data : List Byte) : Nat → Nat → Nat → Prop where
  | none (pos) : Spans cp data 0 pos pos
  | unparsed {count pos stop name}
      (named : cp.getUtf8 (BitVec.ofNat 16 (unsignedAt data pos 2)) = .ok name)
      (unknown : createAttributeInfo name = .none)
      (rest : Spans cp data count (pos + 6 + declaredLength data pos) stop) :
      Spans cp data (count + 1) pos stop
  | leaf {count pos stop name attributeClass size}
      (named : cp.getUtf8 (BitVec.ofNat 16 (unsignedAt data pos 2)) = .ok name)
      (known : createAttributeInfo name = some attributeClass)
      (takes : leafSize data (pos + 6) attributeClass = some size)
      (rest : Spans cp data count (pos + 6 + size) stop) : Spans cp data (count + 1) pos stop
  | code {count pos inner stop name}
      (named : cp.getUtf8 (BitVec.ofNat 16 (unsignedAt data pos 2)) = .ok name)
      (isCode : createAttributeInfo name = some .code)
      (nested : Spans cp data (unsignedAt data (nestedAt data pos) 2) (nestedAt data pos + 2) inner)
      (rest : Spans cp data count inner stop) : Spans cp data (count + 1) pos stop

section

variable {cp : ConstantPool} {data : List Byte}

/-- An attribute has one name. -/
theorem name_unique {index : BitVec 16} {name otherName : Str} (named : cp.getUtf8 index = .ok name)
    (otherNamed : cp.getUtf8 index = .ok otherName) : otherName = name := by
  rw [named, Except.ok.injEq] at otherNamed
  exact otherNamed.symm

/-- There is one end at most. -/
theorem Spans.unique {count pos stop other : Nat} (spans : Spans cp data count pos stop)
    (otherSpans : Spans cp data count pos other) : stop = other := by
  induction spans generalizing other with
  | none pos =>
      cases otherSpans
      rfl
  | unparsed named unknown rest ih =>
      cases otherSpans with
      | unparsed _ _ otherRest => exact ih otherRest
      | leaf otherNamed known takes otherRest =>
          rw [name_unique named otherNamed, unknown] at known
          cases known
      | code otherNamed isCode nested otherRest =>
          rw [name_unique named otherNamed, unknown] at isCode
          cases isCode
  | leaf named known takes rest ih =>
      cases otherSpans with
      | unparsed otherNamed unknown otherRest =>
          rw [name_unique named otherNamed, known] at unknown
          cases unknown
      | leaf otherNamed otherKnown otherTakes otherRest =>
          rw [name_unique named otherNamed, known, Option.some.injEq] at otherKnown
          rw [← otherKnown, takes, Option.some.injEq] at otherTakes
          rw [← otherTakes] at otherRest
          exact ih otherRest
      | code otherNamed isCode nested otherRest =>
          rw [name_unique named otherNamed, known, Option.some.injEq] at isCode
          rw [isCode] at takes
          cases takes
  | code named isCode nested rest ihNested ihRest =>
      cases otherSpans with
      | unparsed otherNamed unknown otherRest =>
          rw [name_unique named otherNamed, isCode] at unknown
          cases unknown
      | leaf otherNamed known takes otherRest =>
          rw [name_unique named otherNamed, isCode, Option.some.injEq] at known
          rw [← known] at takes
          cases takes
      | code _ _ otherNested otherRest =>
          rw [← ihNested otherNested] at otherRest
          exact ihRest otherRest

/-- One attribute and those behind it. -/
theorem Spans.cons {count pos middle stop : Nat} (first : Spans cp data 1 pos middle)
    (rest : Spans cp data count middle stop) : Spans cp data (count + 1) pos stop := by
  cases first with
  | unparsed named unknown done =>
      cases done
      exact .unparsed named unknown rest
  | leaf named known takes done =>
      cases done
      exact .leaf named known takes rest
  | code named isCode nested done =>
      cases done
      exact .code named isCode nested rest

end

/-! ## The parser stops at the end of the structure -/

section

variable [Target] {cp : ConstantPool} {data : List Byte}

omit [Target] in
theorem spans_times {nested : Parser AttributeInfo}
    (one : ∀ ⦃cursor info after⦄, nested data cursor = .ok (info, after) →
      Spans cp data 1 cursor.pos after.pos) {count : Nat} {cursor after : Cursor}
    {infos : List AttributeInfo}
    (read : Reader.times nested count data cursor = .ok (infos, after)) :
    Spans cp data count cursor.pos after.pos := by
  induction count generalizing cursor infos with
  | zero =>
      cases read
      exact .none _
  | succ count ih =>
      rcases Reader.bind_eq_ok read with ⟨head, middle, first, rest⟩
      rcases Reader.bind_eq_ok rest with ⟨infos, behind, others, ⟨⟩⟩
      exact (one first).cons (ih others)

/-- The attribute table of a `Code` attribute. -/
theorem spans_parseTable {nested : Parser AttributeInfo}
    (one : ∀ ⦃cursor info after⦄, nested data cursor = .ok (info, after) →
      Spans cp data 1 cursor.pos after.pos) {cursor after : Cursor} {infos : List AttributeInfo}
    (read : parseTable nested data cursor = .ok (infos, after)) :
    Spans cp data (unsignedAt data cursor.pos 2) (cursor.pos + 2) after.pos := by
  rcases Reader.bind_eq_ok read with ⟨count, middle, counted, entries⟩
  have number := parseUnsignedInt_spec (by decide) counted
  have spans := spans_times one entries
  rwa [number.1, number.2] at spans

/-- Every class but that of `Code` takes its own size, whatever length is declared. -/
theorem leafSize_pos {nested : Parser AttributeInfo} {attrName : Str} {attrLen : BitVec 32}
    {attributeClass : AttributeClass} {size : Nat} {cursor after : Cursor} {info : AttributeInfo}
    (takes : leafSize data cursor.pos attributeClass = some size)
    (read : parseAttrInfo nested attrName attrLen (some attributeClass) data cursor =
      .ok (info, after)) : after.pos = cursor.pos + size := by
  cases attributeClass with
  | code => cases takes
  | constantValue =>
      cases takes
      exact (takes_parseUnsignedInt 16).map _ read
  | sourceFile =>
      cases takes
      exact (takes_parseUnsignedInt 16).map _ read
  | deprecated =>
      cases takes
      exact Reader.takes_pure _ read
  | synthetic =>
      cases takes
      exact Reader.takes_pure _ read
  | exceptions =>
      cases takes
      rcases Reader.bind_eq_ok read with ⟨table, behind, tabled, ⟨⟩⟩
      exact parseTable_pos (takes_parseUnsignedInt 16) tabled
  | lineNumberTable =>
      cases takes
      rcases Reader.bind_eq_ok read with ⟨table, behind, tabled, ⟨⟩⟩
      exact parseTable_pos takes_parseLineNumberTableEntry tabled
  | localVariableTable =>
      cases takes
      rcases Reader.bind_eq_ok read with ⟨table, behind, tabled, ⟨⟩⟩
      exact parseTable_pos takes_parseLocalVariableTableEntry tabled

/-- A `Code` attribute ends with its own attributes. -/
theorem spans_parseCode {nested : Parser AttributeInfo}
    (one : ∀ ⦃cursor info after⦄, nested data cursor = .ok (info, after) →
      Spans cp data 1 cursor.pos after.pos) {attrName : Str} {attrLen : BitVec 32} {pos : Nat}
    {cursor after : Cursor} {info : AttributeInfo} (behind : cursor.pos = pos + 6)
    (read : parseAttrInfo nested attrName attrLen (some .code) data cursor = .ok (info, after)) :
    Spans cp data (unsignedAt data (nestedAt data pos) 2) (nestedAt data pos + 2) after.pos := by
  rcases Reader.bind_eq_ok read with ⟨maxOperandStack, stack, stackRead, rest⟩
  rcases Reader.bind_eq_ok rest with ⟨maxLocals, locals, localsRead, rest⟩
  rcases Reader.bind_eq_ok rest with ⟨codeLen, sized, lengthRead, rest⟩
  rcases Reader.bind_eq_ok rest with ⟨codes, coded, codesRead, rest⟩
  rcases Reader.bind_eq_ok rest with ⟨tables, tabled, tablesRead, rest⟩
  rcases Reader.bind_eq_ok rest with ⟨attributes, stop, attributesRead, ⟨⟩⟩
  have atLength : locals.pos = pos + 10 := by
    rw [takes_parseUnsignedInt 16 localsRead, takes_parseUnsignedInt 16 stackRead, behind]
  have length := parseUnsignedInt_spec (by decide) lengthRead
  have atTables : coded.pos = pos + 6 + 8 + unsignedAt data (pos + 10) 4 := by
    rw [takes_parseBytes codeLen.toNat codesRead, length.1, length.2, atLength]
  have atAttributes : tabled.pos = nestedAt data pos := by
    rw [parseTable_pos takes_parseExceptionTable tablesRead, atTables, nestedAt]
  rw [← atAttributes]
  exact spans_parseTable one attributesRead

/-- One attribute, whose own attributes `nested` parses. -/
theorem spans_parseAttrInfo {nested : Parser AttributeInfo}
    (one : ∀ ⦃cursor info after⦄, nested data cursor = .ok (info, after) →
      Spans cp data 1 cursor.pos after.pos) {attrName : Str} {attrLen : BitVec 32} {pos : Nat}
    {cursor after : Cursor} {info : AttributeInfo} (behind : cursor.pos = pos + 6)
    (named : cp.getUtf8 (BitVec.ofNat 16 (unsignedAt data pos 2)) = .ok attrName)
    (declared : attrLen.toNat = declaredLength data pos)
    (read : parseAttrInfo nested attrName attrLen (createAttributeInfo attrName) data cursor =
      .ok (info, after)) : Spans cp data 1 pos after.pos := by
  cases selected : createAttributeInfo attrName with
  | none =>
      rw [selected] at read
      have stop := (takes_parseBytes attrLen.toNat).map _ read
      apply Spans.unparsed named selected
      rw [stop, behind, declared]
      exact .none _
  | some attributeClass =>
      rw [selected] at read
      cases known : leafSize data cursor.pos attributeClass with
      | some size =>
          have stop := leafSize_pos known read
          rw [behind] at known stop
          apply Spans.leaf named selected known
          rw [stop]
          exact .none _
      | none =>
          -- only the class of `Code` has no size of its own
          cases attributeClass with
          | code => exact .code named selected (spans_parseCode one behind read) (.none _)
          | _ => cases known

/-- The parser stops where the structure of the attribute ends. -/
theorem spans_parseAttributeInfo {fuel : Nat} {cursor after : Cursor} {info : AttributeInfo}
    (read : parseAttributeInfo cp fuel data cursor = .ok (info, after)) :
    Spans cp data 1 cursor.pos after.pos := by
  induction fuel generalizing cursor info after with
  | zero => cases read
  | succ fuel ih =>
      rcases Reader.bind_eq_ok read with ⟨nameIndex, indexed, indexRead, rest⟩
      rcases Reader.bind_eq_ok rest with ⟨attrName, named, nameRead, rest⟩
      rcases Reader.bind_eq_ok rest with ⟨attrLen, body, lengthRead, rest⟩
      have index := parseUnsignedInt_spec (by decide) indexRead
      have length := parseUnsignedInt_spec (by decide) lengthRead
      rcases lift_eq_ok nameRead with ⟨utf8, same⟩
      rw [same, index.1] at length
      have behind : body.pos = cursor.pos + 6 := length.1
      have spelled : nameIndex = BitVec.ofNat 16 (unsignedAt data cursor.pos 2) := by
        apply BitVec.eq_of_toNat_eq
        rw [BitVec.toNat_ofNat, ← index.2, Nat.mod_eq_of_lt nameIndex.isLt]
      rw [spelled] at utf8
      exact spans_parseAttrInfo (fun _ _ _ nested => ih nested) behind utf8 length.2 rest

end

/-! ## Agreement of the two lengths -/

/-- The structure of the attribute at a position takes the declared number of bytes. -/
def FillsDeclaredLength (cp : ConstantPool) (data : List Byte) (pos : Nat) : Prop :=
  Spans cp data 1 pos (pos + 6 + declaredLength data pos)

section

variable {cp : ConstantPool} {data : List Byte} {pos : Nat} {attrName : Str}

/-- Of an unknown name, every length is right. -/
theorem fillsDeclaredLength_of_unknown
    (named : cp.getUtf8 (BitVec.ofNat 16 (unsignedAt data pos 2)) = .ok attrName)
    (unknown : createAttributeInfo attrName = none) : FillsDeclaredLength cp data pos :=
  .unparsed named unknown (.none _)

/-- Of a name with a structure of its own, one length is right. -/
theorem fillsDeclaredLength_of_known {attributeClass : AttributeClass} {size : Nat}
    (named : cp.getUtf8 (BitVec.ofNat 16 (unsignedAt data pos 2)) = .ok attrName)
    (known : createAttributeInfo attrName = some attributeClass)
    (takes : leafSize data (pos + 6) attributeClass = some size) :
    FillsDeclaredLength cp data pos ↔ declaredLength data pos = size := by
  have spans : Spans cp data 1 pos (pos + 6 + size) := .leaf named known takes (.none _)
  constructor
  · intro fills
    exact Nat.add_left_cancel (fills.unique spans)
  · intro declared
    rw [FillsDeclaredLength, declared]
    exact spans

/-- Wherever `ParseAttributeInfo` returns, of every name, contents and nesting, the position
is behind the declared length exactly when the structure takes that many bytes. -/
theorem pos_eq_declaredLength_iff [Target] {fuel : Nat} {cursor after : Cursor}
    {info : AttributeInfo} (returned : parseAttributeInfo cp fuel data cursor = .ok (info, after)) :
    after.pos = cursor.pos + 6 + declaredLength data cursor.pos ↔
      FillsDeclaredLength cp data cursor.pos := by
  have spans := spans_parseAttributeInfo returned
  constructor
  · intro advanced
    rwa [advanced] at spans
  · exact spans.unique

end

/-- A `SourceFile` of two bytes. -/
theorem pos_eq_declaredLength_sourceFile :
    FillsDeclaredLength ⟨2, [none, some (.utf8 (str "SourceFile"))]⟩
      [0, 1, 0, 0, 0, 2, 0, 7] 0 := by
  have returned : @parseAttributeInfo maskedShift ⟨2, [none, some (.utf8 (str "SourceFile"))]⟩ 1
      [0, 1, 0, 0, 0, 2, 0, 7] ⟨0, 0⟩ = .ok (.sourceFile 7, ⟨8, 8⟩) := rfl
  exact (@pos_eq_declaredLength_iff _ _ maskedShift _ _ _ _ returned).mp rfl

/-- A `SourceFile` that declares four bytes is taken for two, and the last two of them are
left for what comes behind. -/
theorem sourceFile_short_of_length :
    @parseAttributeInfo maskedShift ⟨2, [none, some (.utf8 (str "SourceFile"))]⟩ 1
        [0, 1, 0, 0, 0, 4, 0, 7, 0xCA, 0xFE] ⟨0, 0⟩ = .ok (.sourceFile 7, ⟨8, 8⟩) ∧
      8 ≠ 0 + 6 + declaredLength [0, 1, 0, 0, 0, 4, 0, 7, 0xCA, 0xFE] 0 := by
  constructor
  · rfl
  · decide

end Parser

end JvmDemo.Classfile
