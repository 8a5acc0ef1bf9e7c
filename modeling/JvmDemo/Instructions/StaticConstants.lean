import JvmDemo.Instructions.StaticFields
import JvmDemo.Runtime.LoadPlan

/-!
# The constants of static final fields

`AllocAndInitStaticVars` writes the constant of every static final field to its slots.
Strings are left out: the descriptor that is compared with has a slash too many.
-/

namespace JvmDemo.Instructions

open JvmDemo.Lib
open JvmDemo.Runtime

/-! ## What fields should hold -/

/-- Zero or null. -/
def zeroOf : Kind → Value
  | .int => .int 0
  | .float => .float 0
  | .long => .long 0
  | .double => .double 0
  | .ref => .ref 0

/-- `Ljava/lang/String;`. -/
def stringDescriptor : Str := str "Ljava/lang/String;"

/-- The number that a constant stands for. -/
def numberOf : Constant → Option Value
  | .integer value => some (.int value)
  | .float bits => some (.float bits)
  | .long value => some (.long value)
  | .double bits => some (.double bits)
  | _ => none

/-- The constant has the kind that a field of this descriptor needs. -/
inductive Matches (descriptor : Str) : Constant → Prop where
  | number {constant : Constant} {value : Value} : numberOf constant = some value →
      fieldKind descriptor = some value.kind → Matches descriptor constant
  | string (value : Str) : descriptor = stringDescriptor → Matches descriptor (.string value)

/-- The constant that the `ConstantValue` attribute of a field points at. -/
def constantOf (info : ClassInfo) (field : Field) : Option Constant :=
  info.getConstant field.constValueIndex.toNat

/-- The field has no `ConstantValue` attribute, or one with a constant that matches. -/
def WellTyped (info : ClassInfo) (field : Field) : Prop :=
  field.constValueIndex = 0 ∨
    ∃ constant, constantOf info field = some constant ∧ Matches field.descriptor constant

/-- The value is zero or null if the field has no `ConstantValue` attribute, and otherwise
the number, or the object for the string. -/
inductive Expects (newJString : Str → Exec DWord) (info : ClassInfo) (field : Field) :
    Value → Prop where
  | absent {kind : Kind} : field.constValueIndex = 0 → fieldKind field.descriptor = some kind →
      Expects newJString info field (zeroOf kind)
  | number {constant : Constant} {value : Value} : constantOf info field = some constant →
      numberOf constant = some value → fieldKind field.descriptor = some value.kind →
        Expects newJString info field value
  | string {value : Str} {ref : DWord} : constantOf info field = some (.string value) →
      field.descriptor = stringDescriptor → newJString value = .ok ref → ref ≠ 0 →
        Expects newJString info field (.ref ref)

/-- The slots from `start` on hold the value. -/
def HoldsAt (vars : Slots) (start : Nat) (value : Value) : Prop :=
  start + value.kind.width ≤ vars.getSize ∧
    Cells.slice vars.slots start value.kind.width = value.words

/-! ## What the code writes -/

section Written

variable {newJString : Str → Exec DWord} {info : ClassInfo} {field : Field}

/-- The number for a field of some kind: zero for a null entry, and otherwise what the entry
is cast to. -/
def castNumber (kind : Kind) (entry : Option Constant) : Exec (Option Value) :=
  match entry.elim (some (zeroOf kind)) numberOf with
  | none => undefined "GetValue of a null constant"
  | some value =>
      if value.kind = kind then pure (some value) else undefined "GetValue of a null constant"

/-- What `InitStaticFinalVar` writes to the slots of a field. -/
def staticFinalValue (newJString : Str → Exec DWord) (info : ClassInfo) (field : Field) :
    Exec (Option Value) :=
  match info.constantPool[field.constValueIndex.toNat]? with
  | none => undefined "read past the end of constants_"
  | some entry => match fieldKind field.descriptor with
    | none => pure none
    | some .ref =>
        if field.descriptor == str "L/java/lang/String;" then match entry with
          | some (.string value) => do
              let string ← newJString value
              pure (some (.ref string))
          | _ => undefined "GetValue of a null constant"
        else pure none
    | some kind =>
        if kind == .int && field.name == str "$assertionsDisabled" then pure none
        else castNumber kind entry

/-- Store a value in the slots of a field. -/
def storeAt (vars : Slots) (start : Nat) : Option Value → Exec Slots
  | none => pure vars
  | some value => vars.setValue start value

theorem firstByte_of_fieldKind_ref {descriptor : Str} (isRef : fieldKind descriptor = some .ref) :
    firstByte descriptor = chr 'L' ∨ firstByte descriptor = chr '[' := by
  by_contra neither
  rw [not_or] at neither
  unfold fieldKind at isRef
  rw [beq_eq_false_iff_ne.mpr neither.1, beq_eq_false_iff_ne.mpr neither.2,
    Bool.or_false, if_neg Bool.false_ne_true] at isRef
  repeat' split at isRef
  all_goals cases isRef

/-- On a reference only the comparison with the misspelt descriptor is left of
`InitStaticFinalVar`. -/
theorem initStaticFinalVar_ref (isRef : fieldKind field.descriptor = some .ref) (vars : Slots) :
    initStaticFinalVar newJString info field vars = (do
      let value ← staticFinalValue newJString info field
      storeAt vars (field.slotId.toNat % 2 ^ 16) value) := by
  have skips : ∀ letter, letter = chr 'L' ∨ letter = chr '[' →
      (letter == chr 'Z' || letter == chr 'B' || letter == chr 'C' || letter == chr 'S' ||
        letter == chr 'I') = false ∧ (letter == chr 'F') = false ∧
      (letter == chr 'J') = false ∧ (letter == chr 'D') = false := by
    rintro letter (rfl | rfl)
    · decide
    · decide
  rcases skips _ (firstByte_of_fieldKind_ref isRef) with ⟨notInt, notFloat, notLong, notDouble⟩
  rw [initStaticFinalVar, staticFinalValue, isRef]
  cases info.constantPool[field.constValueIndex.toNat]? with
  | none => rfl
  | some constant =>
      simp only [notInt, notFloat, notLong, notDouble, Bool.false_eq_true, if_false, Exec.bind_pure]
      cases field.descriptor == str "L/java/lang/String;" with
      | false => rfl
      | true =>
          cases constant with
          | none => rfl
          | some constant =>
              cases constant with
              | string value =>
                  simp only [if_true]
                  cases newJString value <;> rfl
              | _ => rfl

/-- `InitStaticFinalVar` stores the value, if there is one. -/
theorem initStaticFinalVar_eq {kind : Kind} (typed : fieldKind field.descriptor = some kind)
    (vars : Slots) :
    initStaticFinalVar newJString info field vars = (do
      let value ← staticFinalValue newJString info field
      storeAt vars (field.slotId.toNat % 2 ^ 16) value) := by
  by_cases isRef : kind = .ref
  · rw [isRef] at typed
    exact initStaticFinalVar_ref typed vars
  rw [initStaticFinalVar, staticFinalValue, typed]
  cases info.constantPool[field.constValueIndex.toNat]? with
  | none => rfl
  | some constant =>
  dsimp only
  unfold fieldKind at typed
  split at typed
  · next isInt =>
      cases typed
      simp only [Bool.or_eq_true, beq_iff_eq] at isInt
      rcases isInt with (((same | same) | same) | same) | same
      all_goals
        rw [same]
        cases named : field.name == str "$assertionsDisabled" with
        | true => rfl
        | false =>
            cases constant with
            | none => exact bind_pure _
            | some constant => cases constant <;> first | rfl | exact bind_pure _
  split at typed
  · next isFloat =>
      cases typed
      rw [beq_iff_eq.mp isFloat]
      cases constant with
      | none => exact bind_pure _
      | some constant => cases constant <;> first | rfl | exact bind_pure _
  split at typed
  · next isLong =>
      cases typed
      rw [beq_iff_eq.mp isLong]
      cases constant with
      | none => exact bind_pure _
      | some constant => cases constant <;> first | rfl | exact bind_pure _
  split at typed
  · next isDouble =>
      cases typed
      rw [beq_iff_eq.mp isDouble]
      cases constant with
      | none => exact bind_pure _
      | some constant => cases constant <;> first | rfl | exact bind_pure _
  split at typed
  · cases typed
    exact absurd rfl isRef
  · cases typed

/-- The code leaves the slots of the field as they are: references, and the field that
tells whether assertions are disabled. -/
def Skipped (field : Field) : Prop :=
  fieldKind field.descriptor = some .ref ∧ field.descriptor ≠ str "L/java/lang/String;" ∨
    fieldKind field.descriptor = some .int ∧ field.name = str "$assertionsDisabled"

theorem fieldKind_misspelt : fieldKind (str "L/java/lang/String;") = some .ref := by decide

theorem staticFinalValue_of_skipped {entry : Option Constant}
    (read : info.constantPool[field.constValueIndex.toNat]? = some entry)
    (skipped : Skipped field) : staticFinalValue newJString info field = .ok none := by
  rw [staticFinalValue, read]
  rcases skipped with ⟨isRef, notMisspelt⟩ | ⟨isInt, named⟩
  · rw [isRef]
    dsimp only
    rw [beq_eq_false_iff_ne.mpr notMisspelt]
    rfl
  · rw [isInt, named]
    rfl

theorem staticFinalValue_of_number {kind : Kind} {entry : Option Constant}
    (read : info.constantPool[field.constValueIndex.toNat]? = some entry)
    (typed : fieldKind field.descriptor = some kind) (notSkipped : ¬ Skipped field)
    (notRef : kind ≠ .ref) : staticFinalValue newJString info field = castNumber kind entry := by
  rw [staticFinalValue, read, typed]
  cases kind with
  | ref => exact absurd rfl notRef
  | int =>
      have named : (field.name == str "$assertionsDisabled") = false := by
        rw [beq_eq_false_iff_ne]
        exact fun named => notSkipped (.inr ⟨typed, named⟩)
      dsimp only
      rw [named]
      rfl
  | float | long | double => rfl

/-- If the number for a field is known, it is zero for a null entry, and otherwise the
number of the entry. -/
theorem number_of_known {kind : Kind} {entry : Option Constant} {written : Option Value}
    (read : info.constantPool[field.constValueIndex.toNat]? = some entry)
    (typed : fieldKind field.descriptor = some kind) (notSkipped : ¬ Skipped field)
    (notRef : kind ≠ .ref) (known : staticFinalValue newJString info field = .ok written) :
    ∃ value, written = some value ∧ value.kind = kind ∧
      entry.elim (some (zeroOf kind)) numberOf = some value := by
  rw [staticFinalValue_of_number read typed notSkipped notRef, castNumber] at known
  split at known
  · cases known
  · next value number =>
      split at known
      · next kindEq =>
          cases known
          exact ⟨value, rfl, kindEq, number⟩
      · cases known

/-- The same for the string of a misspelt descriptor. -/
theorem string_of_known {entry : Option Constant} {written : Option Value}
    (read : info.constantPool[field.constValueIndex.toNat]? = some entry)
    (misspelt : field.descriptor = str "L/java/lang/String;")
    (known : staticFinalValue newJString info field = .ok written) :
    ∃ value string, entry = some (.string value) ∧ newJString value = .ok string ∧
      written = some (.ref string) := by
  rw [staticFinalValue, read, misspelt, fieldKind_misspelt] at known
  simp only [beq_self_eq_true, if_true] at known
  split at known
  · next value =>
      rcases Exec.bind_eq_ok.mp known with ⟨string, made, same⟩
      cases same
      exact ⟨value, string, rfl, made, rfl⟩
  · cases known

theorem misspelt_of_not_skipped (isRef : fieldKind field.descriptor = some .ref)
    (notSkipped : ¬ Skipped field) : field.descriptor = str "L/java/lang/String;" := by
  by_contra notMisspelt
  exact notSkipped (.inl ⟨isRef, notMisspelt⟩)

/-- What is written has the kind of the field. -/
theorem kind_of_staticFinalValue {value : Value}
    (written : staticFinalValue newJString info field = .ok (some value)) :
    fieldKind field.descriptor = some value.kind := by
  cases read : info.constantPool[field.constValueIndex.toNat]? with
  | none =>
      rw [staticFinalValue, read] at written
      cases written
  | some entry =>
      cases typed : fieldKind field.descriptor with
      | none =>
          rw [staticFinalValue, read, typed] at written
          cases written
      | some kind =>
          by_cases skipped : Skipped field
          · rw [staticFinalValue_of_skipped read skipped] at written
            cases written
          by_cases isRef : kind = .ref
          · rw [isRef] at typed ⊢
            rcases string_of_known read (misspelt_of_not_skipped typed skipped) written with
              ⟨_, string, -, -, same⟩
            cases same
            rfl
          · rcases number_of_known read typed skipped isRef written with ⟨number, same, kindEq, -⟩
            cases same
            rw [kindEq]

end Written

/-! ## The loop -/

section Loop

variable {newJString : Str → Exec DWord} {info : ClassInfo} {field : Field}

/-- The write to the slots of a field, if there is one. -/
def writesOf (newJString : Str → Exec DWord) (info : ClassInfo) (field : Field) :
    List (Nat × List Slot) :=
  if field.isFinal then match staticFinalValue newJString info field with
    | .ok (some value) => [(field.slotId.toNat, value.words)]
    | _ => []
  else []

/-- One turn of the loop over the static fields. -/
def initTurn (newJString : Str → Exec DWord) (info : ClassInfo) (vars : Slots) (field : Field) :
    Exec Slots :=
  if field.isFinal then initStaticFinalVar newJString info field vars else pure vars

theorem allocAndInitStaticVars_eq :
    allocAndInitStaticVars newJString info = info.staticFields.foldlM (initTurn newJString info)
      (Slots.ofCount (info.staticSlotCount.toNat % 2 ^ 16)) := by
  rw [allocAndInitStaticVars, ClassInfo.staticFields]
  generalize Slots.ofCount (info.staticSlotCount.toNat % 2 ^ 16) = start
  generalize info.fields = fields
  induction fields generalizing start with
  | nil => rfl
  | cons field fields ih =>
      rw [List.foldlM_cons, List.filter_cons]
      cases static : field.isStatic with
      | true =>
          rw [if_pos rfl, List.foldlM_cons, Bool.true_and, initTurn]
          congr 1
          funext next
          exact ih next
      | false => exact ih start

/-- The value of the field is known, and lies within the allocation. -/
def Writable (newJString : Str → Exec DWord) (info : ClassInfo) (size : Nat) (field : Field) :
    Prop :=
  ∃ written, staticFinalValue newJString info field = .ok written ∧
    ∀ value, written = some value → field.slotId.toNat + value.kind.width ≤ size

/-- A writable field gets its value. -/
theorem initStaticFinalVar_of_writable {start : Slots} {kind : Kind} {written : Option Value}
    (typed : fieldKind field.descriptor = some kind) (small : start.getSize < 2 ^ 16)
    (known : staticFinalValue newJString info field = .ok written)
    (inside : ∀ value, written = some value →
      field.slotId.toNat + value.kind.width ≤ start.getSize) :
    initStaticFinalVar newJString info field start =
      .ok (written.elim start fun value =>
        ⟨Cells.blit start.slots field.slotId.toNat value.words⟩) := by
  rw [initStaticFinalVar_eq typed, known, Exec.bind_ok]
  cases written with
  | none => rfl
  | some value =>
      have room := inside value rfl
      have index : field.slotId.toNat % 2 ^ 16 = field.slotId.toNat := by
        apply Nat.mod_eq_of_lt
        have width := value.kind.width_pos
        omega
      rw [index, storeAt]
      exact Slots.setValue_of_le value room

/-- If all final fields are writable, the loop writes their values one after the other. -/
theorem foldlM_initTurn {fields : List Field} {start : Slots} (small : start.getSize < 2 ^ 16)
    (typed : ∀ field ∈ fields, (fieldKind field.descriptor).isSome)
    (writable : ∀ field ∈ fields, field.isFinal = true →
      Writable newJString info start.getSize field) :
    fields.foldlM (initTurn newJString info) start =
      .ok ⟨Cells.blitAll start.slots (fields.flatMap (writesOf newJString info))⟩ := by
  induction fields generalizing start with
  | nil => rfl
  | cons field fields ih =>
      have others (next : Slots) (size : next.getSize = start.getSize) := @ih next
        (by rw [size]; exact small) (fun other mem => typed other (List.mem_cons_of_mem _ mem))
        (fun other mem => by rw [size]; exact writable other (List.mem_cons_of_mem _ mem))
      rw [List.foldlM_cons, List.flatMap_cons, initTurn, writesOf]
      cases isFinal : field.isFinal with
      | false => exact others start rfl
      | true =>
          rcases writable field List.mem_cons_self isFinal with ⟨written, known, inside⟩
          rcases Option.isSome_iff_exists.mp (typed field List.mem_cons_self) with ⟨kind, kindEq⟩
          rw [if_pos rfl, if_pos rfl, known, initStaticFinalVar_of_writable kindEq small known inside,
            Exec.bind_ok]
          cases written with
          | none => exact others start rfl
          | some value => exact others _ (Slots.getSize_blit _ _)

/-- A loop that returns has known the value of every final field and stored it. -/
theorem stored_of_foldlM {fields : List Field} {start vars : Slots}
    (typed : ∀ field ∈ fields, (fieldKind field.descriptor).isSome)
    (returned : fields.foldlM (initTurn newJString info) start = .ok vars) :
    ∀ field ∈ fields, field.isFinal = true →
      ∃ written, staticFinalValue newJString info field = .ok written ∧
        ∀ value, written = some value →
          field.slotId.toNat % 2 ^ 16 + value.kind.width ≤ start.getSize := by
  induction fields generalizing start with
  | nil => exact fun _ mem => absurd mem List.not_mem_nil
  | cons first fields ih =>
      rw [List.foldlM_cons] at returned
      rcases Exec.bind_eq_ok.mp returned with ⟨middle, turn, rest⟩
      intro field mem isFinal
      rcases List.mem_cons.mp mem with rfl | later
      · rcases Option.isSome_iff_exists.mp (typed field List.mem_cons_self) with ⟨kind, kindEq⟩
        rw [initTurn, if_pos isFinal, initStaticFinalVar_eq kindEq] at turn
        rcases Exec.bind_eq_ok.mp turn with ⟨written, known, stored⟩
        constructor
        constructor
        · exact known
        · rintro value rfl
          exact (Slots.setValue_eq_ok stored).1
      · have size : middle.getSize = start.getSize := by
          rw [initTurn] at turn
          split at turn
          · exact keepsSize_initStaticFinalVar newJString info first start middle turn
          · exact KeepsSize.same middle turn
        rw [← size]
        exact ih (fun other otherMem => typed other (List.mem_cons_of_mem _ otherMem)) rest field
          later isFinal

theorem mem_writesOf {write : Nat × List Slot} (mem : write ∈ writesOf newJString info field) :
    write.1 = field.slotId.toNat ∧ write.2.length = descriptorWidth field.descriptor := by
  unfold writesOf at mem
  split at mem
  · split at mem
    · next value written =>
        rw [List.mem_singleton.mp mem, Value.length_words,
          descriptorWidth_of_fieldKind (kind_of_staticFinalValue written)]
        exact ⟨rfl, rfl⟩
    · cases mem
  · cases mem

/-- The fields before and after a field have other slots. -/
theorem disjoint_of_tiles {before after : List Field} {total : Nat}
    (tiles : Cells.Tiles 0 ((before ++ field :: after).map Field.block) total) :
    ∀ write ∈ before.flatMap (writesOf newJString info) ++ after.flatMap (writesOf newJString info),
      Cells.Disjoint field.slotId.toNat (descriptorWidth field.descriptor) write.1
        write.2.length := by
  have pairs := List.pairwise_append.mp (List.pairwise_map.mp tiles.pairwise_disjoint)
  intro write mem
  rw [← List.flatMap_append, List.mem_flatMap] at mem
  rcases mem with ⟨other, otherMem, mem⟩
  rcases mem_writesOf mem with ⟨start, length⟩
  rw [start, length]
  rcases List.mem_append.mp otherMem with earlier | later
  · exact (pairs.2.2 other earlier field List.mem_cons_self).symm
  · exact (List.pairwise_cons.mp pairs.2.1).1 other later

variable {before after : List Field} {total size : Nat}

/-- A field that is written has its value. -/
theorem slice_of_written {value : Value}
    (tiles : Cells.Tiles 0 ((before ++ field :: after).map Field.block) total)
    (isFinal : field.isFinal = true)
    (inside : field.slotId.toNat + descriptorWidth field.descriptor ≤ size)
    (written : staticFinalValue newJString info field = .ok (some value)) :
    Cells.slice (Cells.blitAll (List.replicate size 0)
      ((before ++ field :: after).flatMap (writesOf newJString info))) field.slotId.toNat
        (descriptorWidth field.descriptor) = value.words := by
  have width : descriptorWidth field.descriptor = value.words.length := by
    rw [Value.length_words, descriptorWidth_of_fieldKind (kind_of_staticFinalValue written)]
  have here : writesOf newJString info field = [(field.slotId.toNat, value.words)] := by
    rw [writesOf, if_pos isFinal, written]
  have apart := @disjoint_of_tiles newJString info field before after total tiles
  rw [width] at inside apart ⊢
  rw [List.flatMap_append, List.flatMap_cons, here, List.singleton_append]
  apply Cells.slice_blitAll_last
  · rwa [List.length_replicate]
  · exact fun later mem => apart later (List.mem_append_right _ mem)

/-- A field that is not written is zero. -/
theorem slice_of_unwritten
    (tiles : Cells.Tiles 0 ((before ++ field :: after).map Field.block) total)
    (inside : field.slotId.toNat + descriptorWidth field.descriptor ≤ size)
    (unwritten : staticFinalValue newJString info field = .ok none) :
    Cells.slice (Cells.blitAll (List.replicate size 0)
      ((before ++ field :: after).flatMap (writesOf newJString info))) field.slotId.toNat
        (descriptorWidth field.descriptor) =
      List.replicate (descriptorWidth field.descriptor) 0 := by
  have here : writesOf newJString info field = [] := by
    rw [writesOf, unwritten]
    split <;> rfl
  have apart := @disjoint_of_tiles newJString info field before after total tiles
  rw [List.flatMap_append, List.flatMap_cons, here, List.nil_append,
    Cells.slice_blitAll_of_disjoint _ _ apart, Cells.slice, List.drop_replicate,
    List.take_replicate, Nat.min_eq_left (Nat.le_sub_of_add_le' inside)]

end Loop

/-! ## When a field gets its value -/

section Values

variable {newJString : Str → Exec DWord} {info : ClassInfo} {field : Field}

/-- The cast that the code makes of an entry does not fail. -/
def Castable (newJString : Str → Exec DWord) (field : Field) (entry : Option Constant) : Prop :=
  Skipped field ∨
    (field.descriptor = str "L/java/lang/String;" ∧
      ∃ value string, entry = some (.string value) ∧ newJString value = .ok string) ∨
    (fieldKind field.descriptor ≠ some .ref ∧
      ∀ constant, entry = some constant →
        (numberOf constant).map Value.kind = fieldKind field.descriptor)

theorem constantOf_eq_some_iff {constant : Constant} :
    constantOf info field = some constant ↔
      info.constantPool[field.constValueIndex.toNat]? = some (some constant) := by
  rw [constantOf, ClassInfo.getConstant]
  exact Option.join_eq_some_iff

theorem words_zeroOf (kind : Kind) : (zeroOf kind).words = List.replicate kind.width 0 := by
  cases kind <;> decide

theorem kind_zeroOf (kind : Kind) : (zeroOf kind).kind = kind := by
  cases kind <;> rfl

theorem fieldKind_stringDescriptor : fieldKind stringDescriptor = some .ref := by decide

theorem eq_of_words_eq {first second : Value} (kind : first.kind = second.kind)
    (words : first.words = second.words) : first = second := by
  have read := Value.ofWords_words first
  rw [kind, words, Value.ofWords_words] at read
  exact (Option.some.inj read).symm

/-- If the cast does not fail, the value of the field is known. -/
theorem exists_written_of_castable {entry : Option Constant}
    (read : info.constantPool[field.constValueIndex.toNat]? = some entry) {kind : Kind}
    (typed : fieldKind field.descriptor = some kind) (castable : Castable newJString field entry) :
    ∃ written, staticFinalValue newJString info field = .ok written := by
  rcases castable with skipped | ⟨misspelt, value, string, rfl, made⟩ | ⟨notRef, sameKind⟩
  · exact ⟨none, staticFinalValue_of_skipped read skipped⟩
  · rw [staticFinalValue, read, misspelt]
    exact ⟨some (.ref string), by rw [fieldKind_misspelt]; dsimp only; rw [made]; rfl⟩
  · have notRef' : kind ≠ .ref := fun isRef => notRef (by rw [typed, isRef])
    by_cases skipped : Skipped field
    · exact ⟨none, staticFinalValue_of_skipped read skipped⟩
    · rw [staticFinalValue_of_number read typed skipped notRef', castNumber]
      cases entry with
      | none => exact ⟨_, if_pos (kind_zeroOf kind)⟩
      | some constant =>
          have sameKind := sameKind constant rfl
          rw [typed] at sameKind
          rcases Option.map_eq_some_iff.mp sameKind with ⟨value, number, kindEq⟩
          rw [Option.elim_some, number]
          exact ⟨_, if_pos kindEq⟩

/-- If the value of a field is known, the cast has not failed, and there is nothing to
write only if the field is skipped. -/
theorem castable_of_known {kind : Kind} {written : Option Value}
    (typed : fieldKind field.descriptor = some kind)
    (known : staticFinalValue newJString info field = .ok written) :
    (∃ entry, info.constantPool[field.constValueIndex.toNat]? = some entry ∧
      Castable newJString field entry) ∧ (¬ Skipped field → ∃ value, written = some value) := by
  cases read : info.constantPool[field.constValueIndex.toNat]? with
  | none =>
      rw [staticFinalValue, read] at known
      cases known
  | some entry =>
      by_cases skipped : Skipped field
      · exact ⟨⟨entry, rfl, .inl skipped⟩, fun notSkipped => absurd skipped notSkipped⟩
      by_cases isRef : kind = .ref
      · rw [isRef] at typed
        have misspelt := misspelt_of_not_skipped typed skipped
        rcases string_of_known read misspelt known with ⟨value, string, same, made, wrote⟩
        exact ⟨⟨entry, rfl, .inr (.inl ⟨misspelt, value, string, same, made⟩)⟩, fun _ => ⟨_, wrote⟩⟩
      · rcases number_of_known read typed skipped isRef known with ⟨value, wrote, kindEq, number⟩
        have notRef : fieldKind field.descriptor ≠ some .ref := by
          rw [typed]
          exact fun same => isRef (Option.some.inj same)
        have sameKind : ∀ constant, entry = some constant →
            (numberOf constant).map Value.kind = fieldKind field.descriptor := by
          rintro constant rfl
          rw [Option.elim_some] at number
          rw [number, typed, Option.map_some, kindEq]
        exact ⟨⟨entry, rfl, .inr (.inr ⟨notRef, sameKind⟩)⟩, fun _ => ⟨value, wrote⟩⟩

/-- The words that a field has when the code has treated it. -/
def heldWords (kind : Kind) : Option Value → List Word
  | some value => value.words
  | none => List.replicate kind.width 0

/-- What must hold for the code to treat the field, whose slots begin at `start`, as it
should. -/
structure Initialisable (newJString : Str → Exec DWord) (info : ClassInfo) (start size : Nat)
    (field : Field) : Prop where
  /-- The entry of the constant pool exists and is what the code casts it to. -/
  castable : ∃ entry, info.constantPool[field.constValueIndex.toNat]? = some entry ∧
    Castable newJString field entry
  /-- The slots have been allocated. -/
  inside : ¬ Skipped field ∨ WellTyped info field →
    start + descriptorWidth field.descriptor ≤ size
  /-- The field is not a string with a `ConstantValue` attribute. -/
  not_string : field.descriptor = stringDescriptor →
    ∀ value, constantOf info field ≠ some (.string value)
  /-- The field about assertions has no constant other than zero. -/
  not_skipped : fieldKind field.descriptor = some .int →
    field.name = str "$assertionsDisabled" →
      ∀ value, constantOf info field = some (.integer value) → value = 0

variable {start size : Nat} {kind : Kind} {written : Option Value}

theorem kind_ne_ref_of_numberOf {constant : Constant} {value : Value}
    (number : numberOf constant = some value) : value.kind ≠ .ref := by
  cases constant <;> cases number <;> exact nofun

/-- A field without a constant is zero or null. -/
theorem heldWords_of_absent (read : info.constantPool[field.constValueIndex.toNat]? = some none)
    (typed : fieldKind field.descriptor = some kind)
    (known : staticFinalValue newJString info field = .ok written) :
    heldWords kind written = (zeroOf kind).words := by
  by_cases skipped : Skipped field
  · rw [staticFinalValue_of_skipped read skipped] at known
    cases known
    exact (words_zeroOf kind).symm
  · by_cases isRef : kind = .ref
    · rw [isRef] at typed
      rcases string_of_known read (misspelt_of_not_skipped typed skipped) known with ⟨_, _, same, -⟩
      cases same
    · rcases number_of_known read typed skipped isRef known with ⟨value, wrote, -, zero⟩
      rw [wrote, ← Option.some.inj zero]
      rfl

/-- A field with a number has the number, unless it is the one about assertions. -/
theorem heldWords_of_number {constant : Constant} {value : Value}
    (found : constantOf info field = some constant) (number : numberOf constant = some value)
    (typed : fieldKind field.descriptor = some value.kind)
    (known : staticFinalValue newJString info field = .ok written) :
    heldWords value.kind written = value.words ∨
      fieldKind field.descriptor = some .int ∧ field.name = str "$assertionsDisabled" ∧
        heldWords value.kind written = (zeroOf .int).words := by
  have read := constantOf_eq_some_iff.mp found
  by_cases skipped : Skipped field
  · rw [staticFinalValue_of_skipped read skipped] at known
    cases known
    rcases skipped with ⟨isRef, -⟩ | ⟨isInt, named⟩
    · rw [typed] at isRef
      exact absurd (Option.some.inj isRef) (kind_ne_ref_of_numberOf number)
    · have isInt' := isInt
      rw [typed] at isInt'
      rw [Option.some.inj isInt']
      exact .inr ⟨isInt, named, rfl⟩
  · rcases number_of_known read typed skipped (kind_ne_ref_of_numberOf number) known with
      ⟨stored, wrote, -, same⟩
    rw [Option.elim_some, number] at same
    cases same
    rw [wrote]
    exact .inl rfl

theorem eq_integer_of_numberOf {constant : Constant} {value : Value}
    (number : numberOf constant = some value) (isInt : value.kind = .int) :
    ∃ word, constant = .integer word ∧ value = .int word := by
  cases constant <;> cases number <;> first | exact ⟨_, rfl, rfl⟩ | cases isInt

/-- Such a field has the value that it should have. -/
theorem Initialisable.exists_value (sound : Initialisable newJString info start size field)
    (nullFirst : info.constantPool[0]? = some none)
    (typed : fieldKind field.descriptor = some kind) (wellTyped : WellTyped info field)
    (known : staticFinalValue newJString info field = .ok written) :
    ∃ value, Expects newJString info field value ∧ value.kind = kind ∧
      heldWords kind written = value.words := by
  rcases wellTyped with absent | ⟨constant, found, matching⟩
  · have read : info.constantPool[field.constValueIndex.toNat]? = some none := by
      rw [absent]
      exact nullFirst
    exact ⟨zeroOf kind, .absent absent typed, kind_zeroOf kind, heldWords_of_absent read typed known⟩
  · cases matching with
    | string value isString => exact absurd found (sound.not_string isString value)
    | @number constant value number valueKind =>
        rw [valueKind] at typed
        cases typed
        have expects := @Expects.number newJString info field constant value found number valueKind
        rcases heldWords_of_number found number valueKind known with held | ⟨isInt, named, held⟩
        · exact ⟨value, expects, rfl, held⟩
        · rw [valueKind] at isInt
          rcases eq_integer_of_numberOf number (Option.some.inj isInt) with ⟨word, rfl, rfl⟩
          have zero := sound.not_skipped valueKind named word found
          rw [zero] at held expects
          exact ⟨.int 0, expects, rfl, held⟩

/-- If a string has a `ConstantValue` attribute, the field is null all the same. -/
theorem not_string_of_expects {value : Value} (nullFirst : info.constantPool[0]? = some none)
    (expects : Expects newJString info field value)
    (known : staticFinalValue newJString info field = .ok written)
    (held : heldWords value.kind written = value.words)
    (isString : field.descriptor = stringDescriptor) (text : Str) :
    constantOf info field ≠ some (.string text) := by
  intro found
  have read := constantOf_eq_some_iff.mp found
  cases expects with
  | absent index _ =>
      rw [index] at read
      cases nullFirst.symm.trans read
  | number other number _ =>
      cases found.symm.trans other
      cases number
  | @string _ ref _ _ _ notNull =>
      have skipped : Skipped field := by
        rw [Skipped, isString]
        exact .inl ⟨fieldKind_stringDescriptor, by decide⟩
      rw [staticFinalValue_of_skipped read skipped] at known
      cases known
      have null : Value.ref ref = zeroOf .ref := eq_of_words_eq rfl held.symm
      exact absurd (Value.ref.inj null) notNull

/-- The field about assertions is zero, whatever its constant. -/
theorem not_skipped_of_expects {value : Value} (nullFirst : info.constantPool[0]? = some none)
    (expects : Expects newJString info field value)
    (known : staticFinalValue newJString info field = .ok written)
    (held : heldWords value.kind written = value.words)
    (isInt : fieldKind field.descriptor = some .int)
    (named : field.name = str "$assertionsDisabled") {word : Word}
    (found : constantOf info field = some (.integer word)) : word = 0 := by
  have read := constantOf_eq_some_iff.mp found
  cases expects with
  | absent index _ =>
      rw [index] at read
      cases nullFirst.symm.trans read
  | number other number _ =>
      cases found.symm.trans other
      cases number
      rw [staticFinalValue_of_skipped read (.inr ⟨isInt, named⟩)] at known
      cases known
      have zero : Value.int word = zeroOf .int := eq_of_words_eq rfl held.symm
      exact Value.int.inj zero
  | string other _ _ _ => cases found.symm.trans other

end Values

/-! ## Preparation -/

/-- The field has the value that it should have, and its initialisation changes no slot
of another field, whatever the static variables hold. -/
structure Prepared (newJString : Str → Exec DWord) (info : ClassInfo) (vars : Slots)
    (field : Field) : Prop where
  holds : WellTyped info field →
    ∃ value, Expects newJString info field value ∧ HoldsAt vars field.slotId.toNat value
  frame : ∀ before after : Slots, before.getSize = vars.getSize →
    initStaticFinalVar newJString info field before = .ok after →
      ∀ slot, slot < field.slotId.toNat ∨
        field.slotId.toNat + descriptorWidth field.descriptor ≤ slot →
          after.slots[slot]? = before.slots[slot]?

section Preparation

variable {newJString : Str → Exec DWord} {info : ClassInfo} {field : Field} {kind : Kind}
  {written : Option Value} {size : Nat}

theorem kind_of_expects {value : Value} (expects : Expects newJString info field value) :
    fieldKind field.descriptor = some value.kind := by
  cases expects with
  | absent _ typed =>
      rw [kind_zeroOf]
      exact typed
  | number _ _ typed => exact typed
  | string _ isString _ _ =>
      rw [isString]
      exact fieldKind_stringDescriptor

theorem Initialisable.writable (typed : fieldKind field.descriptor = some kind)
    (sound : Initialisable newJString info field.slotId.toNat size field) :
    Writable newJString info size field := by
  rcases sound.castable with ⟨entry, read, castable⟩
  rcases exists_written_of_castable read typed castable with ⟨written, known⟩
  constructor
  constructor
  · exact known
  · rintro value rfl
    have notSkipped : ¬ Skipped field := by
      intro skipped
      rw [staticFinalValue_of_skipped read skipped] at known
      cases known
    rw [← descriptorWidth_of_fieldKind (kind_of_staticFinalValue known)]
    exact sound.inside (.inl notSkipped)

/-- Initialising a writable field changes no slot of another field. -/
theorem frame_of_known {before after : Slots} (typed : fieldKind field.descriptor = some kind)
    (small : before.getSize < 2 ^ 16)
    (known : staticFinalValue newJString info field = .ok written)
    (inside : ∀ value, written = some value →
      field.slotId.toNat + value.kind.width ≤ before.getSize)
    (initialised : initStaticFinalVar newJString info field before = .ok after) {slot : Nat}
    (outside : slot < field.slotId.toNat ∨
      field.slotId.toNat + descriptorWidth field.descriptor ≤ slot) :
    after.slots[slot]? = before.slots[slot]? := by
  rw [initStaticFinalVar_of_writable typed small known inside] at initialised
  cases initialised
  cases written with
  | none => rfl
  | some value =>
      apply Cells.getElem?_blit_of_outside
      rw [Value.length_words, ← descriptorWidth_of_fieldKind (kind_of_staticFinalValue known)]
      exact outside

/-- If the initialisation changes no slot of another field, the slot number is not cut
off: otherwise the value would be stored in the slots of an earlier field. -/
theorem slotId_lt_of_frame {value : Value} (typed : fieldKind field.descriptor = some kind)
    (known : staticFinalValue newJString info field = .ok (some value))
    (inside : field.slotId.toNat % 2 ^ 16 + value.kind.width ≤ size)
    (frame : ∀ before after : Slots, before.getSize = size →
      initStaticFinalVar newJString info field before = .ok after →
        ∀ slot, slot < field.slotId.toNat → after.slots[slot]? = before.slots[slot]?) :
    field.slotId.toNat < 2 ^ 16 := by
  by_contra large
  have positive := value.kind.width_pos
  have length := value.length_words
  rcases List.exists_cons_of_length_pos (length ▸ positive) with ⟨word, rest, words⟩
  -- the slots hold something else before
  let before : Slots := ⟨List.replicate size (word + 1)⟩
  have sizeEq : before.getSize = size := List.length_replicate
  have initialised : initStaticFinalVar newJString info field before =
      .ok ⟨Cells.blit before.slots (field.slotId.toNat % 2 ^ 16) value.words⟩ := by
    rw [initStaticFinalVar_eq typed, known, Exec.bind_ok, storeAt]
    exact Slots.setValue_of_le value (sizeEq ▸ inside)
  have same := frame before _ sizeEq initialised (field.slotId.toNat % 2 ^ 16) (by omega)
  have stored := Cells.getElem?_blit_of_inside (i := 0) before.slots (field.slotId.toNat % 2 ^ 16)
    value.words (by rw [length]; exact positive) (by rw [length, ← Slots.getSize, sizeEq]; exact inside)
  have held : before.slots[field.slotId.toNat % 2 ^ 16]? = some (word + 1) :=
    List.getElem?_replicate_of_lt (by omega)
  dsimp only at same
  rw [Nat.add_zero, same, held, words] at stored
  have differs : word + 1 ≠ word := by bv_omega
  exact differs (Option.some.inj stored)

/-- What the loop leaves in the slots of a final field. -/
theorem slice_eq_heldWords {before after : List Field} {total : Nat}
    (tiles : Cells.Tiles 0 ((before ++ field :: after).map Field.block) total)
    (isFinal : field.isFinal = true) (typed : fieldKind field.descriptor = some kind)
    (inside : field.slotId.toNat + kind.width ≤ size)
    (known : staticFinalValue newJString info field = .ok written) :
    Cells.slice (Cells.blitAll (List.replicate size 0)
      ((before ++ field :: after).flatMap (writesOf newJString info))) field.slotId.toNat
        kind.width = heldWords kind written := by
  rw [← descriptorWidth_of_fieldKind typed] at inside ⊢
  cases written with
  | none =>
      rw [slice_of_unwritten tiles inside known, descriptorWidth_of_fieldKind typed]
      rfl
  | some value => exact slice_of_written tiles isFinal inside known

variable {vars : Slots} {total : Nat}

/-- If all final fields are writable, the static variables hold what is written. -/
theorem allocAndInitStaticVars_of_writable (count : info.staticSlotCount.toNat = total)
    (typed : ∀ field ∈ info.staticFields, (fieldKind field.descriptor).isSome)
    (writable : ∀ field ∈ info.staticFields, field.isFinal = true →
      Writable newJString info (total % 2 ^ 16) field) :
    allocAndInitStaticVars newJString info =
      .ok ⟨Cells.blitAll (List.replicate (total % 2 ^ 16) 0)
        (info.staticFields.flatMap (writesOf newJString info))⟩ := by
  have size : (Slots.ofCount (total % 2 ^ 16)).getSize = total % 2 ^ 16 := Slots.getSize_ofCount _
  rw [allocAndInitStaticVars_eq, count]
  apply foldlM_initTurn
  · rw [size]
    exact Nat.mod_lt _ (by decide)
  · exact typed
  · rw [size]
    exact writable

/-- A field that is as it should be is prepared. -/
theorem Initialisable.prepared (sound : Initialisable newJString info field.slotId.toNat size field)
    (nullFirst : info.constantPool[0]? = some none)
    (typed : fieldKind field.descriptor = some kind) (small : size < 2 ^ 16)
    (sizeEq : vars.getSize = size)
    (held : ∀ written, staticFinalValue newJString info field = .ok written →
      field.slotId.toNat + kind.width ≤ size →
        Cells.slice vars.slots field.slotId.toNat kind.width = heldWords kind written) :
    Prepared newJString info vars field := by
  rcases sound.writable typed with ⟨written, known, room⟩
  constructor
  · intro wellTyped
    rcases sound.exists_value nullFirst typed wellTyped known with ⟨value, expects, rfl, words⟩
    have inside := sound.inside (.inr wellTyped)
    rw [descriptorWidth_of_fieldKind typed] at inside
    rw [← sizeEq] at inside held
    exact ⟨value, expects, inside, (held written known inside).trans words⟩
  · intro before after same initialised slot outside
    rw [← sizeEq, ← same] at small room
    exact frame_of_known typed small known room initialised outside

/-- If all final fields are as they should be, they are prepared. -/
theorem prepared_of_initialisable
    (tiles : Cells.Tiles 0 (info.staticFields.map Field.block) total)
    (count : info.staticSlotCount.toNat = total)
    (typed : ∀ field ∈ info.staticFields, (fieldKind field.descriptor).isSome)
    (nullFirst : info.constantPool[0]? = some none)
    (sound : ∀ field ∈ info.staticFields, field.isFinal = true →
      Initialisable newJString info field.slotId.toNat (total % 2 ^ 16) field) :
    ∃ vars, allocAndInitStaticVars newJString info = .ok vars ∧
      ∀ field ∈ info.staticFields, field.isFinal = true → Prepared newJString info vars field := by
  have allocated := @allocAndInitStaticVars_of_writable newJString info total count typed (by
    intro field mem isFinal
    rcases Option.isSome_iff_exists.mp (typed field mem) with ⟨kind, kindEq⟩
    exact (sound field mem isFinal).writable kindEq)
  have size := getSize_allocAndInitStaticVars allocated
  rw [count] at size
  constructor
  constructor
  · exact allocated
  · intro field mem isFinal
    rcases Option.isSome_iff_exists.mp (typed field mem) with ⟨kind, kindEq⟩
    rcases List.append_of_mem mem with ⟨before, after, split⟩
    apply (sound field mem isFinal).prepared nullFirst kindEq (Nat.mod_lt _ (by decide)) size
    intro written known inside
    rw [split] at tiles ⊢
    exact slice_eq_heldWords tiles isFinal kindEq inside known

/-- If a final field is prepared, its slots are where the code stores it. -/
theorem Prepared.writable (prepared : Prepared newJString info vars field)
    (typed : fieldKind field.descriptor = some kind)
    (known : staticFinalValue newJString info field = .ok written)
    (stored : ∀ value, written = some value →
      field.slotId.toNat % 2 ^ 16 + value.kind.width ≤ vars.getSize) :
    ∀ value, written = some value → field.slotId.toNat + value.kind.width ≤ vars.getSize := by
  rintro value rfl
  have small := slotId_lt_of_frame typed known (stored value rfl)
    fun before after size initialised slot below =>
      prepared.frame before after size initialised slot (.inl below)
  have inside := stored value rfl
  rw [Nat.mod_eq_of_lt small] at inside
  exact inside

/-- If all final fields are prepared, they are writable. -/
theorem writable_of_prepared (count : info.staticSlotCount.toNat = total)
    (typed : ∀ field ∈ info.staticFields, (fieldKind field.descriptor).isSome)
    (allocated : allocAndInitStaticVars newJString info = .ok vars)
    (prepared : ∀ field ∈ info.staticFields, field.isFinal = true →
      Prepared newJString info vars field) :
    ∀ field ∈ info.staticFields, field.isFinal = true →
      Writable newJString info (total % 2 ^ 16) field := by
  have size := getSize_allocAndInitStaticVars allocated
  rw [count] at size
  intro field mem isFinal
  rcases Option.isSome_iff_exists.mp (typed field mem) with ⟨kind, kindEq⟩
  rw [allocAndInitStaticVars_eq, count] at allocated
  rcases stored_of_foldlM typed allocated field mem isFinal with ⟨written, known, stored⟩
  rw [Slots.getSize_ofCount, ← size] at stored
  rw [← size]
  exact ⟨written, known, (prepared field mem isFinal).writable kindEq known stored⟩

/-- A field that is prepared is as it should be, with what its slots hold. -/
theorem Prepared.initialisable (prepared : Prepared newJString info vars field)
    (nullFirst : info.constantPool[0]? = some none)
    (typed : fieldKind field.descriptor = some kind) (sizeEq : vars.getSize = size)
    (known : staticFinalValue newJString info field = .ok written)
    (room : ∀ value, written = some value → field.slotId.toNat + value.kind.width ≤ size)
    (held : field.slotId.toNat + kind.width ≤ size →
      Cells.slice vars.slots field.slotId.toNat kind.width = heldWords kind written) :
    Initialisable newJString info field.slotId.toNat size field := by
  have expected : WellTyped info field → ∃ value, Expects newJString info field value ∧
      field.slotId.toNat + kind.width ≤ size ∧ heldWords value.kind written = value.words := by
    intro wellTyped
    rcases prepared.holds wellTyped with ⟨value, expects, inside, slice⟩
    have sameKind := (kind_of_expects expects).symm.trans typed
    cases sameKind
    rw [sizeEq] at inside
    exact ⟨value, expects, inside, (held inside).symm.trans slice⟩
  rcases castable_of_known typed known with ⟨castable, wrote⟩
  constructor
  · exact castable
  · rintro (notSkipped | wellTyped)
    · rcases wrote notSkipped with ⟨value, rfl⟩
      rw [descriptorWidth_of_fieldKind (kind_of_staticFinalValue known)]
      exact room value rfl
    · rcases expected wellTyped with ⟨_, -, inside, -⟩
      rw [descriptorWidth_of_fieldKind typed]
      exact inside
  · intro isString text found
    rcases expected (.inr ⟨_, found, .string text isString⟩) with ⟨value, expects, -, words⟩
    exact not_string_of_expects nullFirst expects known words isString text found
  · intro isInt named word found
    rcases expected (.inr ⟨_, found, .number rfl isInt⟩) with ⟨value, expects, -, words⟩
    exact not_skipped_of_expects nullFirst expects known words isInt named found

/-- If all final fields are prepared, they are as they should be. -/
theorem initialisable_of_prepared
    (tiles : Cells.Tiles 0 (info.staticFields.map Field.block) total)
    (count : info.staticSlotCount.toNat = total)
    (typed : ∀ field ∈ info.staticFields, (fieldKind field.descriptor).isSome)
    (nullFirst : info.constantPool[0]? = some none)
    (allocated : allocAndInitStaticVars newJString info = .ok vars)
    (prepared : ∀ field ∈ info.staticFields, field.isFinal = true →
      Prepared newJString info vars field) :
    ∀ field ∈ info.staticFields, field.isFinal = true →
      Initialisable newJString info field.slotId.toNat (total % 2 ^ 16) field := by
  have size := getSize_allocAndInitStaticVars allocated
  rw [count] at size
  have writable := writable_of_prepared count typed allocated prepared
  have blitted := allocAndInitStaticVars_of_writable count typed writable
  rw [allocated] at blitted
  cases blitted
  intro field mem isFinal
  rcases Option.isSome_iff_exists.mp (typed field mem) with ⟨kind, kindEq⟩
  rcases writable field mem isFinal with ⟨written, known, room⟩
  rcases List.append_of_mem mem with ⟨before, after, split⟩
  apply (prepared field mem isFinal).initialisable nullFirst kindEq size known room
  intro inside
  rw [split] at tiles ⊢
  exact slice_eq_heldWords tiles isFinal kindEq inside known

end Preparation

/-! ## Classes -/

/-- `PrepareClass` returns, and prepares all static final fields of the class. -/
def PreparesConstants (newJString : Str → Exec DWord) (loaded : Loaded) (id : ClassId) : Prop :=
  ∃ next vars, prepareClass newJString loaded id = .ok next ∧ next.staticVars id = some vars ∧
    ∀ field ∈ (next.table.info id).staticFields, field.isFinal = true →
      Prepared newJString (next.table.info id) vars field

/-- All static final fields of the class are as they should be, with their slots behind
those of the static fields before them, in as many slots as are allocated. -/
def ConstantsInitialisable (newJString : Str → Exec DWord) (info : ClassInfo) : Prop :=
  ∀ before field after, info.staticFields = before ++ field :: after → field.isFinal = true →
    Initialisable newJString info (widths before) (widths info.staticFields % 2 ^ 16) field

section Classes

variable {newJString : Str → Exec DWord} {info : ClassInfo} {loaded : Loaded} {id : ClassId}

/-- The numbering changes nothing that the initialisation looks at. -/
theorem parts_eq_of_blank {view field : Field} (same : view.blank = field.blank) :
    view.name = field.name ∧ view.descriptor = field.descriptor ∧
      view.constValueIndex = field.constValueIndex ∧ view.isFinal = field.isFinal := by
  have parts : view.blank.name = field.blank.name ∧
      view.blank.descriptor = field.blank.descriptor ∧
      view.blank.constValueIndex = field.blank.constValueIndex ∧
      view.blank.isFinal = field.blank.isFinal := by
    rw [same]
    exact ⟨rfl, rfl, rfl, rfl⟩
  exact parts

theorem Initialisable.congr {other : ClassInfo} {field view : Field} {start size : Nat}
    (pool : other.constantPool = info.constantPool) (same : view.blank = field.blank)
    (sound : Initialisable newJString info start size field) :
    Initialisable newJString other start size view := by
  rcases parts_eq_of_blank same with ⟨name, descriptor, index, -⟩
  have skipped : Skipped view ↔ Skipped field := by rw [Skipped, Skipped, name, descriptor]
  have constant : constantOf other view = constantOf info field := by
    rw [constantOf, constantOf, ClassInfo.getConstant, ClassInfo.getConstant, pool, index]
  constructor
  · rcases sound.castable with ⟨entry, read, castable⟩
    rw [pool, index]
    rw [Castable, ← skipped, ← descriptor] at castable
    exact ⟨entry, read, castable⟩
  · rw [WellTyped, skipped, index, constant, descriptor]
    exact sound.inside
  · rw [constant, descriptor]
    exact sound.not_string
  · rw [constant, descriptor, name]
    exact sound.not_skipped

/-- Lists that are the same before the numbering can be split in the same way. -/
theorem exists_split_of_map_blank {first second before after : List Field} {field : Field}
    (same : first.map Field.blank = second.map Field.blank)
    (split : second = before ++ field :: after) :
    ∃ before' field' after', first = before' ++ field' :: after' ∧
      before'.map Field.blank = before.map Field.blank ∧ field'.blank = field.blank := by
  rw [split, List.map_append, List.map_cons] at same
  rcases List.map_eq_append_iff.mp same with ⟨before', rest, rfl, beforeEq, restEq⟩
  rcases List.map_eq_cons_iff.mp restEq with ⟨field', after', rfl, fieldEq, -⟩
  exact ⟨before', field', after', rfl, beforeEq, fieldEq⟩

theorem widths_eq_of_map_blank {first second : List Field}
    (same : first.map Field.blank = second.map Field.blank) : widths first = widths second := by
  have view (fields : List Field) : widths fields = widths (fields.map Field.blank) := by
    rw [widths, widths, List.map_map]
    rfl
  rw [view first, same, ← view second]

theorem map_blank_staticFields (slotId : BitVec 32) (info : ClassInfo) :
    (numberInstanceFields slotId info).staticFields.map Field.blank =
      info.staticFields.map Field.blank ∧
    (numberStaticFields info).staticFields.map Field.blank = info.staticFields.map Field.blank := by
  have select (fields : List Field) :
      (fields.filter fun field => field.isStatic).map Field.blank =
        (fields.map Field.blank).filter fun field => field.isStatic := by
    rw [List.filter_map]
    rfl
  constructor
  · rw [ClassInfo.staticFields, ClassInfo.staticFields, select, select, numberInstanceFields,
      map_blank_numberFields]
  · rw [ClassInfo.staticFields, ClassInfo.staticFields, select, select, numberStaticFields,
      map_blank_numberFields]

/-- The class after both numberings. -/
def numbered (loaded : Loaded) (id : ClassId) : ClassInfo :=
  numberStaticFields
    (numberInstanceFields (loaded.table.firstInstanceSlot id) (loaded.table.info id))

theorem constantPool_numbered :
    (numbered loaded id).constantPool = (loaded.table.info id).constantPool := rfl

theorem map_blank_numbered :
    (numbered loaded id).staticFields.map Field.blank =
      (loaded.table.info id).staticFields.map Field.blank :=
  (map_blank_staticFields 0 _).2.trans (map_blank_staticFields _ _).1

/-- `PrepareClass` prepares the fields if they are prepared after both numberings. -/
theorem preparesConstants_iff_numbered (inside : id < loaded.table.classes.length) :
    PreparesConstants newJString loaded id ↔
      ∃ vars, allocAndInitStaticVars newJString (numbered loaded id) = .ok vars ∧
        ∀ field ∈ (numbered loaded id).staticFields, field.isFinal = true →
          Prepared newJString (numbered loaded id) vars field := by
  have infoEq : (calcStaticFieldSlotIds (calcInstanceFieldSlotIds loaded.table id) id).info id =
      numbered loaded id := by
    rw [calcStaticFieldSlotIds, ClassTable.info_modify_self, calcInstanceFieldSlotIds,
      ClassTable.info_modify_self _ inside]
    · rfl
    · rw [calcInstanceFieldSlotIds, ClassTable.length_modify]
      exact inside
  constructor
  · rintro ⟨next, vars, returned, own, prepared⟩
    rcases Exec.bind_eq_ok.mp returned with ⟨allocated, allocatedEq, same⟩
    cases same
    dsimp only at own prepared
    rw [if_pos rfl] at own
    cases own
    rw [infoEq] at allocatedEq prepared
    exact ⟨vars, allocatedEq, prepared⟩
  · rintro ⟨vars, allocated, prepared⟩
    rw [← infoEq] at allocated prepared
    rw [PreparesConstants, prepareClass, allocated]
    exact ⟨_, vars, rfl, if_pos rfl, prepared⟩

/-- Where the slots of a field begin. -/
theorem slotId_eq_widths {before after : List Field} {field : Field} {total : Nat}
    (tiles : Cells.Tiles 0 (info.staticFields.map Field.block) total)
    (split : info.staticFields = before ++ field :: after) :
    field.slotId.toNat = widths before := by
  rw [split, List.map_append, List.map_cons] at tiles
  rw [tiles.start_eq, Nat.zero_add, List.map_map]
  rfl

/-- The numbered fields are as they should be if the fields are so before. -/
theorem initialisable_numbered_iff {total : Nat}
    (tiles : Cells.Tiles 0 ((numbered loaded id).staticFields.map Field.block) total)
    (totalEq : total = widths (loaded.table.info id).staticFields) :
    (∀ field ∈ (numbered loaded id).staticFields, field.isFinal = true →
      Initialisable newJString (numbered loaded id) field.slotId.toNat (total % 2 ^ 16) field) ↔
    ConstantsInitialisable newJString (loaded.table.info id) := by
  rw [totalEq]
  have blank := @map_blank_numbered loaded id
  constructor
  · intro sound before field after split isFinal
    rcases exists_split_of_map_blank blank split with ⟨before', view, after', viewSplit, sameBefore,
      same⟩
    have viewFinal := (parts_eq_of_blank same).2.2.2.trans isFinal
    have viewMem : view ∈ (numbered loaded id).staticFields := by
      rw [viewSplit]
      exact List.mem_append_right _ List.mem_cons_self
    have sound := sound view viewMem viewFinal
    rw [slotId_eq_widths tiles viewSplit, widths_eq_of_map_blank sameBefore] at sound
    exact sound.congr constantPool_numbered.symm same.symm
  · intro sound view viewMem viewFinal
    rcases List.append_of_mem viewMem with ⟨before', after', viewSplit⟩
    rcases exists_split_of_map_blank blank.symm viewSplit with ⟨before, field, after, split,
      sameBefore, same⟩
    have isFinal := (parts_eq_of_blank same).2.2.2.trans viewFinal
    have sound := sound before field after split isFinal
    rw [widths_eq_of_map_blank sameBefore, ← slotId_eq_widths tiles viewSplit] at sound
    exact sound.congr constantPool_numbered same.symm

/-- For every class with at most 65535 fields, all of which have types, and a null entry
at the start of its constant pool: `PrepareClass` gives every static final field its
constant, zero or null, and changes no other slot with it, exactly when the fields are as
they should be. -/
theorem preparesConstants_iff (inside : id < loaded.table.classes.length)
    (few : (loaded.table.info id).fields.length ≤ 65535)
    (typed : ∀ field ∈ (loaded.table.info id).staticFields, (fieldKind field.descriptor).isSome)
    (nullFirst : (loaded.table.info id).constantPool[0]? = some none) :
    PreparesConstants newJString loaded id ↔
      ConstantsInitialisable newJString (loaded.table.info id) := by
  have fewer : (numberInstanceFields (loaded.table.firstInstanceSlot id)
      (loaded.table.info id)).fields.length ≤ 65535 := by
    have length := congrArg List.length (map_blank_numberFields Field.isInstance
      (loaded.table.firstInstanceSlot id) (loaded.table.info id).fields)
    rw [List.length_map, List.length_map] at length
    exact length ▸ few
  rcases tiles_staticFields fewer with ⟨tiles, count⟩
  have totalEq := widths_eq_of_map_blank (map_blank_staticFields
    (loaded.table.firstInstanceSlot id) (loaded.table.info id)).1
  have viewTyped : ∀ view ∈ (numbered loaded id).staticFields,
      (fieldKind view.descriptor).isSome := by
    intro view viewMem
    rcases List.append_of_mem viewMem with ⟨_, _, viewSplit⟩
    rcases exists_split_of_map_blank map_blank_numbered.symm viewSplit with ⟨_, field, _, split, -,
      same⟩
    rw [← (parts_eq_of_blank same).2.1]
    apply typed
    rw [split]
    exact List.mem_append_right _ List.mem_cons_self
  rw [preparesConstants_iff_numbered inside, ← initialisable_numbered_iff tiles totalEq]
  constructor
  · rintro ⟨vars, allocated, prepared⟩
    exact initialisable_of_prepared tiles count viewTyped nullFirst allocated prepared
  · exact prepared_of_initialisable tiles count viewTyped nullFirst

end Classes

/-- `static final int INT = 100; static final long LONG;`, before the class is prepared. -/
def intAndLong : Loaded where
  table := .ofClasses
    [{ fields := [
        { accessFlags := 0x0018, name := str "INT", descriptor := str "I", constValueIndex := 1 },
        { accessFlags := 0x0018, name := str "LONG", descriptor := str "J" }]
       constantPool := [none, some (.integer 100)] }] (by decide)
  staticVars _ := none

theorem preparesConstants_intAndLong :
    PreparesConstants (fun _ => pure 1) intAndLong 0 := by
  apply (preparesConstants_iff (by decide) (by decide) (by decide) rfl).mpr
  intro before field after split _
  rcases before with - | ⟨first, - | ⟨second, rest⟩⟩
  · cases split
    constructor
    · exact ⟨some (.integer 100), rfl, .inr (.inr ⟨by decide, by rintro _ ⟨⟩; rfl⟩)⟩
    · exact fun _ => by decide
    · exact fun isString => absurd isString (by decide)
    · exact fun _ named => absurd named (by decide)
  · cases split
    constructor
    · exact ⟨none, rfl, .inr (.inr ⟨by decide, nofun⟩)⟩
    · exact fun _ => by decide
    · exact fun isString => absurd isString (by decide)
    · exact fun _ named => absurd named (by decide)
  · have length := congrArg List.length split
    rw [List.length_append, List.length_cons, List.length_cons, List.length_cons] at length
    have two : (intAndLong.table.info 0).staticFields.length = 2 := rfl
    omega

/-- `static final String S = "x";` -/
def stringConstant : Loaded where
  table := .ofClasses
    [{ fields := [
        { accessFlags := 0x0018, name := str "S", descriptor := str "Ljava/lang/String;"
          constValueIndex := 1 }]
       constantPool := [none, some (.string (str "x"))] }] (by decide)
  staticVars _ := none

/-- The string stays null. -/
theorem stringConstant_not_prepared :
    ¬ PreparesConstants (fun _ => pure 1) stringConstant 0 := by
  rintro ⟨next, vars, returned, own, prepared⟩
  cases returned
  cases own
  rcases (prepared _ List.mem_cons_self rfl).holds (.inr ⟨_, rfl, .string _ rfl⟩) with
    ⟨value, expects, -, slice⟩
  cases expects with
  | absent index _ => exact absurd index (by decide)
  | number found number _ =>
      cases found
      cases number
  | string _ _ made _ =>
      cases made
      exact absurd slice (by decide)

end JvmDemo.Instructions
