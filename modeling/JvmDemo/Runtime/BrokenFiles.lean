import JvmDemo.Classfile.Robustness
import JvmDemo.Instructions.StaticConstants
import JvmDemo.Runtime.BrokenPools
import JvmDemo.Runtime.DescriptorParsing

/-!
# Files that cannot be made into classes

A load that has its superclass and its interfaces makes the class from the file.  Whether
it stops with a message, or runs into undefined behaviour or a loop without end, is said
here in terms of the file: of its constants, its members and their descriptors.
-/

namespace JvmDemo.Runtime

open JvmDemo.Lib
open JvmDemo.Classfile
open JvmDemo.Instructions (numberOf zeroOf kind_zeroOf castNumber storeAt initTurn
  allocAndInitStaticVars_eq keepsSize_initStaticFinalVar)

/-! ## Members -/

/-- `GetConstantAttribute`: zero if there is no such attribute. -/
def constantValueIndex (info : MemberInfo) : BitVec 16 :=
  (info.attributes.findSome? fun attr => match attr with
    | .constantValue index => some index
    | _ => none).getD 0

/-- The field for a member, before it has a slot. -/
def FieldOf (pool : ConstantPool) (info : MemberInfo) (field : Field) : Prop :=
  ∃ name, TextAt pool info.nameIndex name ∧ ∃ descriptor,
    TextAt pool info.descriptorIndex descriptor ∧
      field = { name, descriptor, accessFlags := info.accessFlags, klass := 0
                constValueIndex := (constantValueIndex info).setWidth 32 }

/-- The texts of a method, whose descriptor can be taken apart. -/
def MethodSound (pool : ConstantPool) (info : MemberInfo) : Prop :=
  ∃ name, TextAt pool info.nameIndex name ∧ ∃ descriptor,
    TextAt pool info.descriptorIndex descriptor ∧ ClassTypesEnd (paramStr descriptor)

/-- A text of a method is missing, or a class type of its descriptor does not end. -/
def MethodWrong (pool : ConstantPool) (info : MemberInfo) : Prop :=
  LacksTexts pool info.nameIndex info.descriptorIndex ∨
    ∃ name, TextAt pool info.nameIndex name ∧ ∃ descriptor,
      TextAt pool info.descriptorIndex descriptor ∧ ¬ ClassTypesEnd (paramStr descriptor)

section Members

variable {pool : ConstantPool} {info : MemberInfo}

theorem outcome_createMember (klass : ClassId) :
    Outcome (createMember pool klass info)
      (fun member => ∃ name, TextAt pool info.nameIndex name ∧ ∃ descriptor,
        TextAt pool info.descriptorIndex descriptor ∧
          member = { name, descriptor, accessFlags := info.accessFlags, klass })
      (LacksTexts pool info.nameIndex info.descriptorIndex) :=
  outcome_texts fun name descriptor =>
    ({ name, descriptor, accessFlags := info.accessFlags, klass } : ClassMember)

theorem outcome_createField :
    Outcome (createField pool 0 info) (FieldOf pool info)
      (LacksTexts pool info.nameIndex info.descriptorIndex) := by
  apply ((outcome_createMember 0).bind fun member _ => Outcome.pure
    ({ toClassMember := member
       constValueIndex := (constantValueIndex info).setWidth 32 } : Field)).congr
  · intro field
    constructor
    · rintro ⟨_, ⟨name, nameText, descriptor, typeText, rfl⟩, rfl⟩
      exact ⟨name, nameText, descriptor, typeText, rfl⟩
    · rintro ⟨name, nameText, descriptor, typeText, rfl⟩
      exact ⟨_, ⟨name, nameText, descriptor, typeText, rfl⟩, rfl⟩
  · simp

theorem exists_ofMember {member : ClassMember} (ends : ClassTypesEnd (paramStr member.descriptor))
    (code : Option CodeInfo) : ∃ method, Method.ofMember member code = .ok method := by
  rcases ends.parseParams (Nat.lt_succ_self _) false with ⟨types, parsed⟩
  rw [Method.ofMember, parameterTypes, parsed, Exec.bind_ok]
  dsimp only
  split
  · exact ⟨_, rfl⟩
  · exact ⟨_, rfl⟩

theorem ofMember_of_not_classTypesEnd {member : ClassMember}
    (unfinished : ¬ ClassTypesEnd (paramStr member.descriptor)) (code : Option CodeInfo) :
    Method.ofMember member code = .error .diverges := by
  rw [Method.ofMember, parameterTypes, parseParams_of_not_classTypesEnd unfinished]
  rfl

/-- A method is made from its texts, unless the loop over its descriptor never ends. -/
theorem outcome_createMethod (constants : List (Option Constant)) :
    Outcome (createMethod pool constants 0 info)
      (fun method => createMethod pool constants 0 info = .ok method) (MethodWrong pool info) := by
  refine ⟨fun _ => Iff.rfl, ?_⟩
  rw [createMethod, goesWrong_bind, (outcome_createMember 0).goesWrong_iff, MethodWrong]
  refine or_congr_right ?_
  constructor
  · rintro ⟨member, made, bad⟩
    rcases ((outcome_createMember 0).eq_ok_iff member).mp made with
      ⟨name, nameText, descriptor, typeText, same⟩
    refine ⟨name, nameText, descriptor, typeText, fun ends => ?_⟩
    have typeEq : member.descriptor = descriptor := by rw [same]
    rw [← typeEq] at ends
    rcases exists_ofMember ends (codeInfo constants info) with ⟨method, returned⟩
    rw [returned] at bad
    exact not_goesWrong_ok method bad
  · rintro ⟨name, nameText, descriptor, typeText, unfinished⟩
    refine ⟨_, ((outcome_createMember 0).eq_ok_iff _).mpr
      ⟨name, nameText, descriptor, typeText, rfl⟩, ?_⟩
    rw [ofMember_of_not_classTypesEnd unfinished]
    exact ⟨_, rfl, id⟩

theorem methodSound_iff (constants : List (Option Constant)) :
    MethodSound pool info ↔ ∃ method, createMethod pool constants 0 info = .ok method := by
  constructor
  · rintro ⟨name, nameText, descriptor, typeText, ends⟩
    rw [createMethod, ((outcome_createMember 0).eq_ok_iff _).mpr
      ⟨name, nameText, descriptor, typeText, rfl⟩, Exec.bind_ok]
    apply exists_ofMember
    exact ends
  · rintro ⟨method, returned⟩
    rcases Exec.bind_eq_ok.mp returned with ⟨member, made, rest⟩
    rcases ((outcome_createMember 0).eq_ok_iff member).mp made with
      ⟨name, nameText, descriptor, typeText, rfl⟩
    refine ⟨name, nameText, descriptor, typeText, ?_⟩
    by_contra unfinished
    rw [ofMember_of_not_classTypesEnd unfinished] at rest
    cases rest

end Members

/-! ## Static final fields -/

/-- The kind of the setter that `InitStaticFinalVar` takes for the first letter of a
descriptor; none for references. -/
def letterKind (letter : Byte) : Option Kind :=
  if letter == chr 'Z' || letter == chr 'B' || letter == chr 'C' || letter == chr 'S' ||
      letter == chr 'I' then some .int
  else if letter == chr 'F' then some .float
  else if letter == chr 'J' then some .long
  else if letter == chr 'D' then some .double
  else none

/-- The descriptor of strings, as the code spells it. -/
def misspeltString : Str := str "L/java/lang/String;"

/-- The field that `InitStaticFinalVar` leaves out. -/
def TellsAssertions (member : ClassMember) : Prop :=
  letterKind (firstByte member.descriptor) = some .int ∧ member.name = str "$assertionsDisabled"

instance (member : ClassMember) : Decidable (TellsAssertions member) :=
  inferInstanceAs (Decidable (_ ∧ _))

/-- What is stored for a field with this run-time constant. -/
inductive StoredFor (newJString : Str → Exec DWord) (member : ClassMember)
    (entry : Option Constant) : Option Value → Prop where
  | nothing : letterKind (firstByte member.descriptor) = none → member.descriptor ≠ misspeltString →
      StoredFor newJString member entry none
  | assertions : TellsAssertions member → StoredFor newJString member entry none
  | number {value : Value} : letterKind (firstByte member.descriptor) = some value.kind →
      ¬ TellsAssertions member → entry.elim (some (zeroOf value.kind)) numberOf = some value →
      StoredFor newJString member entry (some value)
  | string {text : Str} {ref : DWord} : member.descriptor = misspeltString →
      entry = some (.string text) → newJString text = .ok ref →
      StoredFor newJString member entry (some (.ref ref))

/-- The constant has another type than the field, or its string cannot be made. -/
def ValueWrong (newJString : Str → Exec DWord) (member : ClassMember) (entry : Option Constant) :
    Prop :=
  (∃ kind constant, letterKind (firstByte member.descriptor) = some kind ∧
    ¬ TellsAssertions member ∧ entry = some constant ∧
    (numberOf constant).map Value.kind ≠ some kind) ∨
  member.descriptor = misspeltString ∧
    ∀ text, entry = some (.string text) → GoesWrong (newJString text)

/-- The run-time constant that a field points at. -/
def ConstantOf (pool : ConstantPool) (field : Field) (entry : Option Constant) : Prop :=
  field.constValueIndex.toNat < pool.constantPoolCount.toNat ∧
    RunTimeEntry pool field.constValueIndex.toNat entry

/-- The field gets its value, if it needs one; its slots begin at `start`. -/
def FieldSound (newJString : Str → Exec DWord) (pool : ConstantPool) (size start : Nat)
    (field : Field) : Prop :=
  ∃ entry written, ConstantOf pool field entry ∧
    StoredFor newJString field.toClassMember entry written ∧
    ∀ value, written = some value → start + value.kind.width ≤ size

/-- The field points behind the pool or at a constant of another type, or there is a value of
two slots for it, and no slots at all. -/
def FieldWrong (newJString : Str → Exec DWord) (pool : ConstantPool) (size : Nat)
    (field : Field) : Prop :=
  ∀ entry, ConstantOf pool field entry → ValueWrong newJString field.toClassMember entry ∨
    ∃ value, StoredFor newJString field.toClassMember entry (some value) ∧
      value.kind.width = 2 ∧ size = 0

/-- The first bad one of the static fields whose slots begin at an index. -/
inductive StaticsWrong (newJString : Str → Exec DWord) (pool : ConstantPool) (size : Nat) :
    Nat → List Field → Prop where
  | here {start : Nat} {field : Field} {fields : List Field} : field.isFinal = true →
      FieldWrong newJString pool size field →
        StaticsWrong newJString pool size start (field :: fields)
  | later {start : Nat} {field : Field} {fields : List Field} :
      (field.isFinal = true → FieldSound newJString pool size (start % 2 ^ 16) field) →
        StaticsWrong newJString pool size (start + descriptorWidth field.descriptor) fields →
        StaticsWrong newJString pool size start (field :: fields)

section Statics

variable {newJString : Str → Exec DWord} {pool : ConstantPool} {member : ClassMember}
  {entry : Option Constant}

/-- The value of a field with the misspelt descriptor. -/
def stringValue (newJString : Str → Exec DWord) : Option Constant → Exec (Option Value)
  | some (.string text) => do
      let ref ← newJString text
      pure (some (.ref ref))
  | _ => undefined "GetValue of a null constant"

/-- The value for a field, computed. -/
def finalValue (newJString : Str → Exec DWord) (member : ClassMember) (entry : Option Constant) :
    Exec (Option Value) :=
  match letterKind (firstByte member.descriptor) with
  | some kind => if TellsAssertions member then pure none else castNumber kind entry
  | none => if member.descriptor = misspeltString then stringValue newJString entry else pure none

theorem outcome_castNumber (kind : Kind) :
    Outcome (castNumber kind entry)
      (fun written => ∃ value : Value, value.kind = kind ∧
        entry.elim (some (zeroOf kind)) numberOf = some value ∧ written = some value)
      (∃ constant, entry = some constant ∧ (numberOf constant).map Value.kind ≠ some kind) := by
  rw [castNumber]
  cases entry with
  | none =>
      simp only [Option.elim_none, kind_zeroOf, if_true]
      apply (Outcome.pure _).congr
      · intro written
        constructor
        · rintro rfl
          exact ⟨_, kind_zeroOf kind, rfl, rfl⟩
        · rintro ⟨_, -, ⟨⟩, rfl⟩
          rfl
      · simp
  | some constant =>
      simp only [Option.elim_some, Option.some.injEq, exists_eq_left']
      cases number : numberOf constant with
      | none =>
          apply (Outcome.undefined _).congr
          · simp
          · simp
      | some value =>
          dsimp only
          split
          · next same =>
              apply (Outcome.pure _).congr
              · simp [same]
              · simp [same]
          · next other =>
              apply (Outcome.undefined _).congr
              · intro written
                constructor
                · exact False.elim
                · rintro ⟨_, same, ⟨⟩, -⟩
                  exact other same
              · simp [other]

theorem outcome_stringValue :
    Outcome (stringValue newJString entry)
      (fun written => ∃ text ref, entry = some (.string text) ∧ newJString text = .ok ref ∧
        written = some (.ref ref))
      (∀ text, entry = some (.string text) → GoesWrong (newJString text)) := by
  cases entry with
  | none =>
      apply (Outcome.undefined _).congr
      · simp
      · simp
  | some constant =>
      cases constant with
      | string text =>
          apply ((outcome_self (newJString text)).bind fun ref _ =>
            Outcome.pure (some (Value.ref ref))).congr
          · simp
          · simp
      | _ =>
          apply (Outcome.undefined _).congr
          · simp
          · simp

theorem outcome_finalValue :
    Outcome (finalValue newJString member entry) (StoredFor newJString member entry)
      (ValueWrong newJString member entry) := by
  unfold finalValue
  cases kindEq : letterKind (firstByte member.descriptor) with
  | some kind =>
      have notString : member.descriptor ≠ misspeltString := by
        intro same
        rw [same] at kindEq
        cases kindEq
      dsimp only
      by_cases tells : TellsAssertions member
      · rw [if_pos tells]
        apply (Outcome.pure none).congr
        · intro written
          constructor
          · rintro rfl
            exact .assertions tells
          · intro stored
            cases stored with
            | nothing | assertions => rfl
            | number _ notTells => exact absurd tells notTells
            | string same => exact absurd same notString
        · simp [ValueWrong, tells, notString]
      · rw [if_neg tells]
        apply (outcome_castNumber kind).congr
        · intro written
          constructor
          · rintro ⟨value, rfl, number, rfl⟩
            exact .number kindEq tells number
          · intro stored
            cases stored with
            | nothing other => cases kindEq.symm.trans other
            | assertions isTold => exact absurd isTold tells
            | number other _ number =>
                cases kindEq.symm.trans other
                exact ⟨_, rfl, number, rfl⟩
            | string same => exact absurd same notString
        · simp [ValueWrong, kindEq, tells, notString]
  | none =>
      have notTells : ¬ TellsAssertions member := by
        rintro ⟨isInt, -⟩
        cases kindEq.symm.trans isInt
      dsimp only
      by_cases isString : member.descriptor = misspeltString
      · rw [if_pos isString]
        apply outcome_stringValue.congr
        · intro written
          constructor
          · rintro ⟨text, ref, found, made, rfl⟩
            exact .string isString found made
          · intro stored
            cases stored with
            | nothing _ other => exact absurd isString other
            | assertions isTold => exact absurd isTold notTells
            | number other => cases kindEq.symm.trans other
            | string _ found made => exact ⟨_, _, found, made, rfl⟩
        · constructor
          · exact fun wrong => .inr ⟨isString, wrong⟩
          · rintro (⟨kind, constant, other, -⟩ | ⟨-, wrong⟩)
            · cases kindEq.symm.trans other
            · exact wrong
      · rw [if_neg isString]
        apply (Outcome.pure none).congr
        · intro written
          constructor
          · rintro rfl
            exact .nothing kindEq isString
          · intro stored
            cases stored with
            | nothing | assertions => rfl
            | number other => cases kindEq.symm.trans other
            | string same => exact absurd same isString
        · simp [ValueWrong, kindEq, isString]

/-- `InitStaticFinalVar` stores the value, whatever the descriptor. -/
theorem initStaticFinalVar_eq_finalValue {info : ClassInfo} {field : Field} (vars : Slots)
    (found : info.constantPool[field.constValueIndex.toNat]? = some entry) :
    initStaticFinalVar newJString info field vars = (do
      let written ← finalValue newJString field.toClassMember entry
      storeAt vars (field.slotId.toNat % 2 ^ 16) written) := by
  rw [initStaticFinalVar, found]
  unfold finalValue
  dsimp only
  cases kindEq : letterKind (firstByte field.descriptor) with
  | none =>
      unfold letterKind at kindEq
      split at kindEq
      · cases kindEq
      next notInt =>
      split at kindEq
      · cases kindEq
      next notFloat =>
      split at kindEq
      · cases kindEq
      next notLong =>
      split at kindEq
      · cases kindEq
      next notDouble =>
      rw [if_neg notInt, if_neg notFloat, if_neg notLong, if_neg notDouble, Exec.bind_pure]
      by_cases isString : field.descriptor = misspeltString
      · have compared : (field.descriptor == str "L/java/lang/String;") = true :=
          beq_iff_eq.mpr isString
        rw [if_pos isString, if_pos compared]
        cases entry with
        | none => rfl
        | some constant =>
            cases constant with
            | string text =>
                rw [stringValue]
                dsimp only
                cases newJString text <;> rfl
            | _ => rfl
      · have compared : (field.descriptor == str "L/java/lang/String;") = false :=
          beq_eq_false_iff_ne.mpr isString
        rw [if_neg isString, compared]
        rfl
  | some kind =>
      have notString : (field.descriptor == str "L/java/lang/String;") = false := by
        rw [beq_eq_false_iff_ne]
        intro same
        rw [same] at kindEq
        cases kindEq
      simp only [notString, Bool.false_eq_true, if_false]
      have kindSome := kindEq
      have notTells : kind ≠ .int → ¬ TellsAssertions field.toClassMember := by
        rintro notInt ⟨isInt, -⟩
        cases kindEq.symm.trans isInt
        exact notInt rfl
      unfold letterKind at kindEq
      split at kindEq
      · next isInt =>
          rw [if_pos isInt]
          cases kindEq
          by_cases named : field.name = str "$assertionsDisabled"
          · have tells : TellsAssertions field.toClassMember := ⟨kindSome, named⟩
            rw [if_pos (beq_iff_eq.mpr named), if_pos tells]
            rfl
          · rw [if_neg (fun same => named (beq_iff_eq.mp same)),
              if_neg (fun tells : TellsAssertions field.toClassMember => named tells.2)]
            cases entry with
            | none => exact bind_pure _
            | some constant => cases constant <;> first | rfl | exact bind_pure _
      next notInt =>
      rw [if_neg notInt]
      split at kindEq
      · next isFloat =>
          cases kindEq
          rw [if_pos isFloat, if_neg (notTells (by decide))]
          cases entry with
          | none => exact bind_pure _
          | some constant => cases constant <;> first | rfl | exact bind_pure _
      next notFloat =>
      rw [if_neg notFloat]
      split at kindEq
      · next isLong =>
          cases kindEq
          rw [if_pos isLong, if_neg (notTells (by decide))]
          cases entry with
          | none => exact bind_pure _
          | some constant => cases constant <;> first | rfl | exact bind_pure _
      next notLong =>
      rw [if_neg notLong]
      split at kindEq
      · next isDouble =>
          cases kindEq
          rw [if_pos isDouble, if_neg (notTells (by decide))]
          cases entry with
          | none => exact bind_pure _
          | some constant => cases constant <;> first | rfl | exact bind_pure _
      · cases kindEq

theorem not_goesWrong_setOne (what : String) (vars : Slots) (slot : Nat) (word : Word) :
    ¬ GoesWrong (Slots.setOne what vars slot word) := by
  rw [Slots.setOne]
  split
  · exact not_goesWrong_fatal _
  · next inside =>
      rw [Slots.writeAt, if_pos (Nat.not_le.mp inside)]
      exact not_goesWrong_ok _

/-- If there is no slot at all, the check of the setters of two slots wraps around. -/
theorem goesWrong_setLong {vars : Slots} {slot : Nat} (small : slot < 2 ^ 16) (val : DWord) :
    GoesWrong (vars.setLong slot val) ↔ vars.getSize = 0 := by
  by_cases empty : vars.getSize = 0
  · have unchecked : ¬ vars.sizeMinusOne ≤ slot := by
      rw [Slots.sizeMinusOne, if_pos empty]
      omega
    rw [Slots.setLong, if_neg unchecked, Slots.writeAt, empty, if_neg (Nat.not_lt_zero slot)]
    exact iff_of_true (goesWrong_undefined _) rfl
  · apply iff_of_false _ empty
    by_cases checked : vars.sizeMinusOne ≤ slot
    · rw [Slots.setLong, if_pos checked]
      exact not_goesWrong_fatal _
    · rw [Slots.sizeMinusOne, if_neg empty] at checked
      rw [Slots.setLong_of_le (by omega)]
      exact not_goesWrong_ok _

/-- Past the end a setter stops the process, unless there is no slot at all. -/
theorem goesWrong_setValue {vars : Slots} {slot : Nat} (small : slot < 2 ^ 16) (value : Value) :
    GoesWrong (vars.setValue slot value) ↔ value.kind.width = 2 ∧ vars.getSize = 0 := by
  have narrow : ¬ (1 = 2 ∧ vars.getSize = 0) := fun both => absurd both.1 (by decide)
  cases value with
  | int val => exact iff_of_false (not_goesWrong_setOne _ vars slot val) narrow
  | float bits => exact iff_of_false (not_goesWrong_setOne _ vars slot bits) narrow
  | long val => exact (goesWrong_setLong small val).trans (and_iff_right rfl).symm
  | double bits =>
      apply Iff.trans _ (and_iff_right rfl).symm
      rw [Slots.setValue, Slots.setDouble]
      split
      · next checked =>
          have nonempty : vars.getSize ≠ 0 := by
            intro empty
            rw [Slots.sizeMinusOne, if_pos empty] at checked
            omega
          exact iff_of_false (not_goesWrong_fatal _) nonempty
      · exact goesWrong_setLong small bits
  | ref address => exact (goesWrong_setLong small address).trans (and_iff_right rfl).symm

theorem outcome_storeAt {vars : Slots} {slot : Nat} (small : slot < 2 ^ 16)
    (written : Option Value) :
    Outcome (storeAt vars slot written)
      (fun next => (∀ value, written = some value → slot + value.kind.width ≤ vars.getSize) ∧
        next = ⟨written.elim vars.slots fun value => Cells.blit vars.slots slot value.words⟩)
      (∃ value, written = some value ∧ value.kind.width = 2 ∧ vars.getSize = 0) := by
  cases written with
  | none =>
      apply (Outcome.pure vars).congr
      · simp
      · simp
  | some value =>
      constructor
      · intro next
        simp only [storeAt, Option.some.injEq, forall_eq', Option.elim_some]
        constructor
        · exact Slots.setValue_eq_ok
        · rintro ⟨inside, rfl⟩
          exact Slots.setValue_of_le value inside
      · rw [storeAt, goesWrong_setValue small]
        simp

section Turn

variable {info : ClassInfo} {field : Field} {vars : Slots}

theorem slotId_mod_lt (field : Field) : field.slotId.toNat % 2 ^ 16 < 2 ^ 16 :=
  Nat.mod_lt _ (by decide)

/-- What is stored for a field whose constant is there. -/
theorem outcome_initStaticFinalVar
    (found : info.constantPool[field.constValueIndex.toNat]? = some entry) :
    Outcome (initStaticFinalVar newJString info field vars)
      (fun next => ∃ written, StoredFor newJString field.toClassMember entry written ∧
        (∀ value, written = some value →
          field.slotId.toNat % 2 ^ 16 + value.kind.width ≤ vars.getSize) ∧
        next = ⟨written.elim vars.slots fun value =>
          Cells.blit vars.slots (field.slotId.toNat % 2 ^ 16) value.words⟩)
      (ValueWrong newJString field.toClassMember entry ∨
        ∃ written, StoredFor newJString field.toClassMember entry written ∧
          ∃ value, written = some value ∧ value.kind.width = 2 ∧ vars.getSize = 0) := by
  rw [initStaticFinalVar_eq_finalValue vars found]
  exact outcome_finalValue.bind fun written _ => outcome_storeAt (slotId_mod_lt field) written

/-- The static variable of a field goes wrong exactly if the field is bad. -/
theorem goesWrong_initStaticFinalVar (described : RunTimePool pool info.constantPool) :
    GoesWrong (initStaticFinalVar newJString info field vars) ↔
      FieldWrong newJString pool vars.getSize field := by
  have read {entry : Option Constant} :
      info.constantPool[field.constValueIndex.toNat]? = some entry ↔ ConstantOf pool field entry :=
    described.getElem?_eq_some_iff
  cases found : info.constantPool[field.constValueIndex.toNat]? with
  | none =>
      apply iff_of_true
      · rw [initStaticFinalVar, found]
        exact goesWrong_undefined _
      · intro entry pointed
        cases found.symm.trans (read.mpr pointed)
  | some entry =>
      apply (outcome_initStaticFinalVar found).goesWrong_iff.trans
      constructor
      · intro wrong other pointed
        cases found.symm.trans (read.mpr pointed)
        rcases wrong with wrong | ⟨_, stored, value, rfl, rest⟩
        · exact .inl wrong
        · exact .inr ⟨value, stored, rest⟩
      · intro wrong
        rcases wrong entry (read.mp found) with wrong | ⟨value, stored, rest⟩
        · exact .inl wrong
        · exact .inr ⟨_, stored, value, rfl, rest⟩

theorem exists_initStaticFinalVar_iff (described : RunTimePool pool info.constantPool) :
    (∃ next, initStaticFinalVar newJString info field vars = .ok next) ↔
      FieldSound newJString pool vars.getSize (field.slotId.toNat % 2 ^ 16) field := by
  have read {entry : Option Constant} :
      info.constantPool[field.constValueIndex.toNat]? = some entry ↔ ConstantOf pool field entry :=
    described.getElem?_eq_some_iff
  constructor
  · rintro ⟨next, returned⟩
    cases found : info.constantPool[field.constValueIndex.toNat]? with
    | none =>
        rw [initStaticFinalVar, found] at returned
        cases returned
    | some entry =>
        rcases ((outcome_initStaticFinalVar found).eq_ok_iff next).mp returned with
          ⟨written, stored, inside, -⟩
        exact ⟨entry, written, read.mp found, stored, inside⟩
  · rintro ⟨entry, written, pointed, stored, inside⟩
    exact ⟨_, ((outcome_initStaticFinalVar (read.mpr pointed)).eq_ok_iff _).mpr
      ⟨written, stored, inside, rfl⟩⟩

theorem goesWrong_initTurn (described : RunTimePool pool info.constantPool) :
    GoesWrong (initTurn newJString info vars field) ↔
      field.isFinal = true ∧ FieldWrong newJString pool vars.getSize field := by
  rw [initTurn]
  split
  · next final => exact (goesWrong_initStaticFinalVar described).trans (and_iff_right final).symm
  · next notFinal => exact iff_of_false (not_goesWrong_ok vars) fun wrong => notFinal wrong.1

theorem exists_initTurn_iff (described : RunTimePool pool info.constantPool) :
    (∃ next, initTurn newJString info vars field = .ok next) ↔ (field.isFinal = true →
      FieldSound newJString pool vars.getSize (field.slotId.toNat % 2 ^ 16) field) := by
  rw [initTurn]
  split
  · next final =>
      rw [exists_initStaticFinalVar_iff described]
      exact ⟨fun sound _ => sound, fun sound => sound final⟩
  · next notFinal => exact iff_of_true ⟨vars, rfl⟩ fun final => absurd final notFinal

theorem getSize_initTurn {next : Slots}
    (returned : initTurn newJString info vars field = .ok next) :
    next.getSize = vars.getSize := by
  rw [initTurn] at returned
  split at returned
  · exact keepsSize_initStaticFinalVar newJString info field vars next returned
  · cases returned
    rfl

end Turn

section Loop

variable {info : ClassInfo} {field : Field} {fields : List Field} {vars : Slots} {start : Nat}

/-- The next slot id, modulo the width of the count. -/
theorem nextSlotId_mod {slotId : BitVec 32} (place : slotId.toNat % 2 ^ 16 = start % 2 ^ 16)
    (field : Field) :
    (if field.isLongOrDouble then slotId + 1 + 1 else slotId + 1).toNat % 2 ^ 16 =
      (start + descriptorWidth field.descriptor) % 2 ^ 16 := by
  rw [descriptorWidth_eq]
  split
  · simp only [BitVec.toNat_add, BitVec.ofNat_eq_ofNat, BitVec.toNat_ofNat]
    omega
  · simp only [BitVec.toNat_add, BitVec.ofNat_eq_ofNat, BitVec.toNat_ofNat]
    omega

theorem numberFields_count_mod {slotId : BitVec 32}
    (place : slotId.toNat % 2 ^ 16 = start % 2 ^ 16) :
    (numberFields (fun field => field.isStatic) slotId fields).2.toNat % 2 ^ 16 =
      (start + widths (fields.filter fun field => field.isStatic)) % 2 ^ 16 := by
  induction fields generalizing slotId start with
  | nil => exact place
  | cons field fields ih =>
      rw [numberFields, List.filter_cons]
      split
      · dsimp only
        rw [ih (nextSlotId_mod place field), widths, widths, List.map_cons, List.sum_cons,
          Nat.add_assoc]
      · exact ih place

/-- The loop over the static fields, which have their slots from `start` on. -/
theorem goesWrong_foldlM_initTurn (described : RunTimePool pool info.constantPool)
    {slotId : BitVec 32} (place : slotId.toNat % 2 ^ 16 = start % 2 ^ 16) :
    GoesWrong (((numberFields (fun field => field.isStatic) slotId fields).1.filter
        fun field => field.isStatic).foldlM (initTurn newJString info) vars) ↔
      StaticsWrong newJString pool vars.getSize start
        (fields.filter fun field => field.isStatic) := by
  induction fields generalizing slotId start vars with
  | nil =>
      apply iff_of_false (not_goesWrong_ok vars)
      intro wrong
      cases wrong
  | cons field fields ih =>
      rw [numberFields, List.filter_cons]
      split
      · next static =>
          let numbered : Field := { field with slotId := slotId }
          have turnWrong : GoesWrong (initTurn newJString info vars numbered) ↔
              field.isFinal = true ∧ FieldWrong newJString pool vars.getSize field :=
            goesWrong_initTurn described
          have turnReturns : (∃ next, initTurn newJString info vars numbered = .ok next) ↔
              (field.isFinal = true →
                FieldSound newJString pool vars.getSize (start % 2 ^ 16) field) := by
            rw [← place]
            exact exists_initTurn_iff described
          have rest := fun vars => @ih vars _ _ (nextSlotId_mod place field)
          dsimp only
          rw [List.filter_cons, if_pos static, List.foldlM_cons, goesWrong_bind]
          constructor
          · rintro (wrong | ⟨next, returned, wrong⟩)
            · rcases turnWrong.mp wrong with ⟨final, bad⟩
              exact .here final bad
            · apply StaticsWrong.later (turnReturns.mp ⟨next, returned⟩)
              rw [← getSize_initTurn returned]
              exact (rest next).mp wrong
          · intro wrong
            cases wrong with
            | here final bad => exact .inl (turnWrong.mpr ⟨final, bad⟩)
            | later sound bad =>
                rcases turnReturns.mpr sound with ⟨next, returned⟩
                rw [← getSize_initTurn returned] at bad
                exact .inr ⟨next, returned, (rest next).mpr bad⟩
      · next static =>
          dsimp only
          rw [List.filter_cons, if_neg static]
          exact ih place

end Loop

/-- The static variables of a class with these fields and constants. -/
theorem outcome_allocAndInitStaticVars {fields : List Field} {constants : List (Option Constant)}
    (described : RunTimePool pool constants) :
    Outcome (allocAndInitStaticVars newJString
        (numberStaticFields { fields, constantPool := constants }))
      (fun vars => allocAndInitStaticVars newJString
        (numberStaticFields { fields, constantPool := constants }) = .ok vars)
      (StaticsWrong newJString pool
        (widths (fields.filter fun field => field.isStatic) % 2 ^ 16) 0
        (fields.filter fun field => field.isStatic)) := by
  refine ⟨fun _ => Iff.rfl, ?_⟩
  have count := @numberFields_count_mod fields 0 0 rfl
  rw [Nat.zero_add] at count
  rw [allocAndInitStaticVars_eq]
  apply (goesWrong_foldlM_initTurn described rfl).trans
  rw [Slots.getSize_ofCount, ← count]
  rfl

end Statics

/-! ## Files -/

/-- The index in the `SourceFile` attribute. -/
def sourceFileIndex (file : ClassFile) : Option (BitVec 16) :=
  file.attributes.findSome? fun info => match info with
    | .sourceFile index => some index
    | _ => none

/-- The class and its superclass, if it has one, have names. -/
def HasNames (file : ClassFile) : Prop :=
  (∃ name, ClassNameAt file.constantPool file.thisClass name) ∧
    (file.superClass ≠ 0 → ∃ name, ClassNameAt file.constantPool file.superClass name)

/-- The text of the `SourceFile` attribute is there, if there is one. -/
def HasSourceFile (file : ClassFile) : Prop :=
  ∀ index, sourceFileIndex file = some index → ∃ name, TextAt file.constantPool index name

/-- The step of the constructor of `Class` at which a file goes wrong. -/
inductive MembersWrong (newJString : Str → Exec DWord) (file : ClassFile) : Prop where
  | fields : FirstBad (fun info => ∃ field, FieldOf file.constantPool info field)
      (fun info => LacksTexts file.constantPool info.nameIndex info.descriptorIndex) file.fields →
      MembersWrong newJString file
  | constants {fields : List Field} : List.Forall₂ (FieldOf file.constantPool) file.fields fields →
      PoolWrong file.constantPool → MembersWrong newJString file
  | methods {fields : List Field} {constants : List (Option Constant)} :
      List.Forall₂ (FieldOf file.constantPool) file.fields fields →
      RunTimePool file.constantPool constants →
      FirstBad (MethodSound file.constantPool) (MethodWrong file.constantPool) file.methods →
      MembersWrong newJString file
  | statics {fields : List Field} {constants : List (Option Constant)} :
      List.Forall₂ (FieldOf file.constantPool) file.fields fields →
      RunTimePool file.constantPool constants →
      (∀ info ∈ file.methods, MethodSound file.constantPool info) →
      StaticsWrong newJString file.constantPool
        (widths (fields.filter fun field => field.isStatic) % 2 ^ 16) 0
        (fields.filter fun field => field.isStatic) →
      MembersWrong newJString file

/-- The step of the load at which a file goes wrong. -/
inductive FileWrong (newJString : Str → Exec DWord) (file : ClassFile) : Prop where
  | className : LacksClassName file.constantPool file.thisClass → FileWrong newJString file
  | superClassName {name : Str} : ClassNameAt file.constantPool file.thisClass name →
      file.superClass ≠ 0 → LacksClassName file.constantPool file.superClass →
      FileWrong newJString file
  | sourceFile {index : BitVec 16} : HasNames file → sourceFileIndex file = some index →
      LacksText file.constantPool index → FileWrong newJString file
  | interfaceNames : HasNames file → HasSourceFile file →
      FirstBad (fun index => ∃ name, ClassNameAt file.constantPool index name)
        (LacksClassName file.constantPool) file.interfaces → FileWrong newJString file
  | members : HasNames file → HasSourceFile file →
      (∀ index ∈ file.interfaces, ∃ name, ClassNameAt file.constantPool index name) →
      MembersWrong newJString file → FileWrong newJString file

/-- The class of a name cannot be read, the data do not start with an image, or the file is
bad. -/
inductive ClassWrong [Target] (env : LoaderEnv) (loader : LoaderName) (name : Str) : Prop where
  | unread : firstByte name ≠ chr '[' → env.reader loader name = none → ClassWrong env loader name
  | noImage {data : ClassData} : firstByte name ≠ chr '[' → env.reader loader name = some data →
      ¬ StartsWithImage data → ClassWrong env loader name
  | file {data : ClassData} {bytes : List Byte} {file : ClassFile} : firstByte name ≠ chr '[' →
      env.reader loader name = some data → Image.classFile bytes (some file) →
      bytes <+: data.bytes → FileWrong env.newJString file → ClassWrong env loader name

section Files

variable {newJString : Str → Exec DWord} {file : ClassFile}

theorem exists_forall₂_iff {α β : Type} {relates : α → β → Prop} (entries : List α) :
    (∃ values, List.Forall₂ relates entries values) ↔
      ∀ entry ∈ entries, ∃ value, relates entry value := by
  induction entries with
  | nil => simp
  | cons entry entries ih =>
      rw [List.forall_mem_cons, ← ih]
      constructor
      · rintro ⟨_, related⟩
        cases related with
        | cons first rest => exact ⟨⟨_, first⟩, _, rest⟩
      · rintro ⟨⟨value, first⟩, values, rest⟩
        exact ⟨value :: values, .cons first rest⟩

theorem outcome_fields (pool : ConstantPool) (infos : List MemberInfo) :
    Outcome (infos.mapM (createField pool 0)) (List.Forall₂ (FieldOf pool) infos)
      (FirstBad (fun info => ∃ field, FieldOf pool info field)
        (fun info => LacksTexts pool info.nameIndex info.descriptorIndex) infos) :=
  .mapM (fun _ => outcome_createField) (fun _ => Iff.rfl) infos

theorem outcome_methods (pool : ConstantPool) (constants : List (Option Constant))
    (infos : List MemberInfo) :
    Outcome (infos.mapM (createMethod pool constants 0))
      (List.Forall₂ (fun info method => createMethod pool constants 0 info = .ok method) infos)
      (FirstBad (MethodSound pool) (MethodWrong pool) infos) :=
  .mapM (fun _ => outcome_createMethod constants) (fun _ => methodSound_iff constants) infos

theorem exists_methods_iff (pool : ConstantPool) (constants : List (Option Constant))
    (infos : List MemberInfo) :
    (∃ methods, List.Forall₂ (fun info method => createMethod pool constants 0 info = .ok method)
      infos methods) ↔ ∀ info ∈ infos, MethodSound pool info := by
  rw [exists_forall₂_iff]
  exact forall₂_congr fun info _ => (methodSound_iff constants).symm

/-- The constructor of `Class` goes wrong at one of its steps. -/
theorem goesWrong_makeMembers :
    GoesWrong (makeMembers newJString file) ↔ MembersWrong newJString file := by
  apply ((outcome_fields file.constantPool file.fields).bind fun fields _ =>
    (outcome_createConstants file.constantPool).bind fun constants described =>
      (outcome_methods file.constantPool constants file.methods).bind fun methods _ =>
        (@outcome_allocAndInitStaticVars newJString file.constantPool fields constants
          described).bind fun vars _ => Outcome.pure ()).goesWrong_iff.trans
  constructor
  · rintro (bad | ⟨fields, made, bad | ⟨constants, described, bad | ⟨methods, all, rest⟩⟩⟩)
    · exact .fields bad
    · exact .constants made bad
    · exact .methods made described bad
    rcases rest with bad | ⟨-, -, never⟩
    · exact .statics made described ((exists_methods_iff _ constants _).mp ⟨methods, all⟩) bad
    · exact never.elim
  · intro wrong
    cases wrong with
    | fields bad => exact .inl bad
    | constants made bad => exact .inr ⟨_, made, .inl bad⟩
    | methods made described bad => exact .inr ⟨_, made, .inr ⟨_, described, .inl bad⟩⟩
    | @statics fields constants made described sound bad =>
        rcases (exists_methods_iff _ constants _).mpr sound with ⟨methods, all⟩
        exact .inr ⟨fields, made, .inr ⟨constants, described, .inr ⟨methods, all, .inl bad⟩⟩⟩

theorem outcome_getSuperClassName :
    Outcome file.getSuperClassName
      (fun name => file.superClass = 0 ∧ name = [] ∨
        file.superClass ≠ 0 ∧ ClassNameAt file.constantPool file.superClass name)
      (file.superClass ≠ 0 ∧ LacksClassName file.constantPool file.superClass) := by
  rw [ClassFile.getSuperClassName]
  split
  · next isNull =>
      apply (Outcome.pure ([] : Str)).congr
      · simp [isNull]
      · simp [isNull]
  · next notNull =>
      apply outcome_getClassName.congr
      · intro name
        constructor
        · exact fun named => .inr ⟨notNull, named⟩
        · rintro (⟨isNull, -⟩ | ⟨-, named⟩)
          · exact absurd isNull notNull
          · exact named
      · exact (and_iff_right notNull).symm

theorem getSourceFile_eq_elim (file : ClassFile) :
    file.getSourceFile =
      (sourceFileIndex file).elim (pure []) file.constantPool.getUtf8 := by
  rw [ClassFile.getSourceFile]
  split
  · next index found =>
      have named : sourceFileIndex file = some index := found
      rw [named, Option.elim_some]
  · next missing =>
      have unnamed : sourceFileIndex file = none := missing
      rw [unnamed, Option.elim_none]

theorem outcome_getSourceFile :
    Outcome file.getSourceFile
      (fun text => sourceFileIndex file = none ∧ text = [] ∨
        ∃ index, sourceFileIndex file = some index ∧ TextAt file.constantPool index text)
      (∃ index, sourceFileIndex file = some index ∧ LacksText file.constantPool index) := by
  rw [getSourceFile_eq_elim]
  cases sourceFileIndex file with
  | none =>
      apply (Outcome.pure ([] : Str)).congr
      · simp
      · simp
  | some index =>
      apply outcome_getUtf8.congr
      · simp
      · simp

theorem filePlan_snd :
    (filePlan newJString file).2 = (do
      let name ← file.getClassName
      let _ ← file.getSuperClassName
      let _ ← file.getSourceFile
      let _ ← file.getInterfaceNames
      makeMembers newJString file
      pure name) := by
  rw [filePlan]
  cases file.getClassName with
  | error fault => rfl
  | ok name =>
  cases file.getSuperClassName with
  | error fault => rfl
  | ok superClassName =>
  cases file.getSourceFile with
  | error fault => rfl
  | ok sourceFile =>
  cases file.getInterfaceNames with
  | error fault => rfl
  | ok interfaceNames => rfl

theorem exists_superClassName_iff :
    (∃ name, file.superClass = 0 ∧ name = [] ∨
      file.superClass ≠ 0 ∧ ClassNameAt file.constantPool file.superClass name) ↔
        (file.superClass ≠ 0 → ∃ name, ClassNameAt file.constantPool file.superClass name) := by
  by_cases isNull : file.superClass = 0
  · exact iff_of_true ⟨[], .inl ⟨isNull, rfl⟩⟩ fun notNull => absurd isNull notNull
  · constructor
    · rintro ⟨name, ⟨null, -⟩ | ⟨-, named⟩⟩ _
      · exact absurd null isNull
      · exact ⟨name, named⟩
    · intro named
      rcases named isNull with ⟨name, here⟩
      exact ⟨name, .inr ⟨isNull, here⟩⟩

theorem hasNames_iff :
    HasNames file ↔ ∃ name, ClassNameAt file.constantPool file.thisClass name ∧
      ∃ superName, file.superClass = 0 ∧ superName = [] ∨
        file.superClass ≠ 0 ∧ ClassNameAt file.constantPool file.superClass superName := by
  rw [HasNames, ← exists_superClassName_iff]
  exact exists_and_right.symm

theorem exists_sourceFile_iff :
    (∃ text, sourceFileIndex file = none ∧ text = [] ∨
      ∃ index, sourceFileIndex file = some index ∧ TextAt file.constantPool index text) ↔
        HasSourceFile file := by
  rw [HasSourceFile]
  cases sourceFileIndex file with
  | none => simp
  | some index => simp

theorem outcome_getInterfaceNames :
    Outcome file.getInterfaceNames
      (List.Forall₂ (ClassNameAt file.constantPool) file.interfaces)
      (FirstBad (fun index => ∃ name, ClassNameAt file.constantPool index name)
        (LacksClassName file.constantPool) file.interfaces) :=
  .mapM (fun _ => outcome_getClassName) (fun _ => Iff.rfl) file.interfaces

theorem goesWrong_filePlan :
    GoesWrong (filePlan newJString file).2 ↔ FileWrong newJString file := by
  rw [filePlan_snd]
  have members : Outcome (makeMembers newJString file)
      (fun done => makeMembers newJString file = .ok done) (MembersWrong newJString file) :=
    ⟨fun _ => Iff.rfl, goesWrong_makeMembers⟩
  apply (outcome_getClassName.bind fun name _ => outcome_getSuperClassName.bind fun _ _ =>
    outcome_getSourceFile.bind fun _ _ => outcome_getInterfaceNames.bind fun _ _ =>
      members.bind fun _ _ => Outcome.pure name).goesWrong_iff.trans
  constructor
  · rintro (bad | ⟨name, named, ⟨notNull, bad⟩ | ⟨superName, superNamed, rest⟩⟩)
    · exact .className bad
    · exact .superClassName named notNull bad
    have names : HasNames file := hasNames_iff.mpr ⟨name, named, superName, superNamed⟩
    rcases rest with ⟨index, found, bad⟩ | ⟨sourceFile, sourced, rest⟩
    · exact .sourceFile names found bad
    have source : HasSourceFile file := exists_sourceFile_iff.mp ⟨sourceFile, sourced⟩
    rcases rest with bad | ⟨interfaceNames, all, bad | ⟨-, -, never⟩⟩
    · exact .interfaceNames names source bad
    · exact .members names source ((exists_forall₂_iff _).mp ⟨interfaceNames, all⟩) bad
    · exact never.elim
  · intro wrong
    cases wrong with
    | className bad => exact .inl bad
    | superClassName named notNull bad => exact .inr ⟨_, named, .inl ⟨notNull, bad⟩⟩
    | sourceFile names found bad =>
        rcases hasNames_iff.mp names with ⟨name, named, superName, superNamed⟩
        exact .inr ⟨name, named, .inr ⟨superName, superNamed, .inl ⟨_, found, bad⟩⟩⟩
    | interfaceNames names source bad =>
        rcases hasNames_iff.mp names with ⟨name, named, superName, superNamed⟩
        rcases exists_sourceFile_iff.mpr source with ⟨sourceFile, sourced⟩
        exact .inr ⟨name, named, .inr ⟨superName, superNamed, .inr ⟨sourceFile, sourced, .inl bad⟩⟩⟩
    | members names source all bad =>
        rcases hasNames_iff.mp names with ⟨name, named, superName, superNamed⟩
        rcases exists_sourceFile_iff.mpr source with ⟨sourceFile, sourced⟩
        rcases (exists_forall₂_iff _).mpr all with ⟨interfaceNames, allNamed⟩
        exact .inr ⟨name, named, .inr ⟨superName, superNamed, .inr ⟨sourceFile, sourced,
          .inr ⟨interfaceNames, allNamed, .inl bad⟩⟩⟩⟩

/-- A class whose data are read is bad if they hold no class file, or a bad one. -/
theorem classWrong_iff_of_read [Target] {env : LoaderEnv} {loader : LoaderName} {name : Str}
    {data : ClassData} (notArray : firstByte name ≠ chr '[')
    (read : env.reader loader name = some data) :
    ClassWrong env loader name ↔ ¬ StartsWithImage data ∨
      ∃ file cursor, parse data = .ok (file, cursor) ∧ FileWrong env.newJString file := by
  constructor
  · intro wrong
    cases wrong with
    | unread _ other => cases read.symm.trans other
    | noImage _ other noImage =>
        cases read.symm.trans other
        exact .inl noImage
    | file _ other image stands wrong =>
        cases read.symm.trans other
        rcases exists_parse_eq_ok_iff.mpr ⟨_, image, stands⟩ with ⟨cursor, done⟩
        exact .inr ⟨_, cursor, done, wrong⟩
  · rintro (noImage | ⟨file, cursor, done, wrong⟩)
    · exact .noImage notArray read noImage
    · rcases exists_parse_eq_ok_iff.mp ⟨cursor, done⟩ with ⟨bytes, image, stands⟩
      exact .file notArray read image stands wrong

/-- A load whose superclass and interfaces are there goes wrong exactly for a bad class. -/
theorem goesWrong_loadPlan [Target] {env : LoaderEnv} {loader : LoaderName} {name : Str} :
    GoesWrong (loadPlan env loader name).2 ↔ ClassWrong env loader name := by
  rw [loadPlan]
  split
  · next isArray =>
      have array := beq_iff_eq.mp isArray
      apply iff_of_false (not_goesWrong_ok name)
      intro wrong
      cases wrong with
      | unread notArray | noImage notArray | file notArray => exact notArray array
  next isArray =>
  have notArray : firstByte name ≠ chr '[' := fun same => isArray (beq_iff_eq.mpr same)
  cases read : env.reader loader name with
  | none => exact iff_of_true (goesWrong_undefined _) (.unread notArray read)
  | some data =>
      rw [classWrong_iff_of_read notArray read, ← parse_undefined_iff]
      dsimp only
      cases parsed : parse data with
      | error fault =>
          have unparsed : ¬ ∃ file cursor, (.error fault : Exec (ClassFile × Cursor)) =
              .ok (file, cursor) ∧ FileWrong env.newJString file := by
            rintro ⟨_, _, same, -⟩
            cases same
          rw [or_iff_left unparsed]
          constructor
          · rintro ⟨other, same, bad⟩
            cases same
            rcases parse_ends parsed with ⟨message, rfl⟩ | ⟨why, rfl⟩
            · exact absurd trivial bad
            · exact ⟨why, rfl⟩
          · rintro ⟨why, same⟩
            cases same
            exact goesWrong_undefined why
      | ok result =>
          dsimp only
          rw [goesWrong_filePlan]
          constructor
          · exact fun wrong => .inr ⟨_, _, rfl, wrong⟩
          · rintro (⟨why, same⟩ | ⟨file, cursor, same, wrong⟩)
            · cases same
            · cases same
              exact wrong

end Files

end JvmDemo.Runtime
