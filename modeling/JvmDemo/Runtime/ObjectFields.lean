import JvmDemo.Runtime.Heap

/-!
# Fields of objects

`DataObject` keeps a `long`, a `double` or a reference in two slots, as `Slots`
does, but rejoins them differently: the getters of `DataObject` convert the low
half to 64 bits with its sign.  A value whose low half is negative therefore
comes back with ones in its high half.

The setters and getters address the slot with a given id at 16 times the id
behind the header, so fields with different ids never overlap.
-/

namespace JvmDemo.Runtime

open JvmDemo.Lib

/-- What is left of a value whose halves are joined with their signs: the low
half is not negative, or the high half consists of ones.  Values of one slot are
not joined. -/
def Value.SurvivesSignedJoin : Value → Prop
  | .int _ | .float _ => True
  | .long val | .double val | .ref val => val.low.msb = false ∨ val.high = BitVec.allOnes 32

instance : DecidablePred Value.SurvivesSignedJoin := fun value => by
  cases value <;> dsimp only [Value.SurvivesSignedJoin] <;> infer_instance

namespace DataObject

/-! ## Addresses of fields -/

variable {memory : Memory} {object : DWord} {slotId other : BitVec 32}

/-- The addresses of two fields differ by a multiple of 16. -/
theorem fieldAddress_apart (differ : slotId ≠ other) :
    fieldAddress object slotId + 16 ≤ fieldAddress object other ∨
      fieldAddress object other + 16 ≤ fieldAddress object slotId := by
  have ids : slotId.toNat ≠ other.toNat := fun same => differ (BitVec.eq_of_toNat_eq same)
  have slotBound := slotId.isLt
  have otherBound := other.isLt
  rw [toNat_fieldAddress, toNat_fieldAddress, BitVec.toNat_signExtend, BitVec.toNat_signExtend,
    BitVec.toNat_setWidth, BitVec.toNat_setWidth]
  split <;> split <;> omega

/-! ## Setters and getters -/

/-- The getters of two slots join the halves with their signs. -/
theorem getLongField_eq (memory : Memory) (object : DWord) (slotId : BitVec 32) :
    getLongField memory object slotId =
      DWord.joinSigned (memory.read32 (fieldAddress object slotId))
        (memory.read32 (fieldAddress object slotId + 4)) := rfl

theorem getLongField_setLongField (memory : Memory) (object : DWord) (slotId : BitVec 32)
    (value : DWord) :
    getLongField (setLongField memory object slotId value) object slotId =
      DWord.joinSigned value.low value.high := by
  rw [getLongField_eq, setLongField, Memory.read32_write32_self,
    Memory.read32_write32_of_apart _ (Or.inl (Nat.le_refl _)), Memory.read32_write32_self]

/-- A setter changes no word at the address of another field. -/
theorem read32_setField (value : Value) {address : Nat}
    (apart : address + 4 ≤ fieldAddress object slotId ∨
      fieldAddress object slotId + 8 ≤ address) :
    (setField memory object slotId value).read32 address = memory.read32 address := by
  have wide (val : DWord) :
      (setLongField memory object slotId val).read32 address = memory.read32 address := by
    rw [setLongField, Memory.read32_write32_of_apart _ (by omega),
      Memory.read32_write32_of_apart _ (by omega)]
  cases value with
  | int val => exact Memory.read32_write32_of_apart val (by omega)
  | float bits => exact Memory.read32_write32_of_apart bits (by omega)
  | long val => exact wide val
  | double bits => exact wide bits
  | ref address => exact wide address

/-- A getter depends on the two words at its address only. -/
theorem getField_congr {first second : Memory} (kind : Kind)
    (low : first.read32 (fieldAddress object slotId) =
      second.read32 (fieldAddress object slotId))
    (high : first.read32 (fieldAddress object slotId + 4) =
      second.read32 (fieldAddress object slotId + 4)) :
    getField first object slotId kind = getField second object slotId kind := by
  cases kind with
  | int => exact congrArg Value.int low
  | float => exact congrArg Value.float low
  | long => exact congrArg Value.long (by rw [getLongField_eq, getLongField_eq, low, high])
  | double => exact congrArg Value.double (by
      rw [getDoubleField, getLongField_eq, getLongField_eq, low, high])
  | ref => exact congrArg Value.ref (by
      rw [getRefField, getLongField_eq, getLongField_eq, low, high])

theorem getField_setField_of_ne (value : Value) (differ : slotId ≠ other) (kind : Kind) :
    getField (setField memory object slotId value) object other kind =
      getField memory object other kind := by
  have apart : fieldAddress object slotId + 16 ≤ fieldAddress object other ∨
      fieldAddress object other + 16 ≤ fieldAddress object slotId := fieldAddress_apart differ
  exact getField_congr kind (read32_setField value (by omega)) (read32_setField value (by omega))

/-- What a getter returns after its setter. -/
theorem getField_setField_self (memory : Memory) (object : DWord) (slotId : BitVec 32)
    (value : Value) :
    getField (setField memory object slotId value) object slotId value.kind = value ↔
      value.SurvivesSignedJoin := by
  cases value with
  | int val =>
      simp [Value.kind, getField, setField, getIntField, setIntField, Memory.read32_write32_self,
        Value.SurvivesSignedJoin]
  | float bits =>
      simp [Value.kind, getField, setField, getFloatField, setFloatField, getIntField, setIntField,
        Memory.read32_write32_self, Value.SurvivesSignedJoin]
  | long val =>
      simp only [Value.kind, getField, setField, getLongField_setLongField, Value.long.injEq]
      exact DWord.joinSigned_low_high_iff val
  | double bits =>
      simp only [Value.kind, getField, setField, getDoubleField, setDoubleField,
        getLongField_setLongField, Value.double.injEq]
      exact DWord.joinSigned_low_high_iff bits
  | ref address =>
      simp only [Value.kind, getField, setField, getRefField, setRefField,
        getLongField_setLongField, Value.ref.injEq]
      exact DWord.joinSigned_low_high_iff address

end DataObject

/-! ## Round trips -/

/-- A field keeps a value: the getter returns what the setter stored, as a slot
array does with the same value, and every field whose slots are disjoint stays
as it was. -/
structure KeepsField (memory : Memory) (object : DWord) (slotId : BitVec 32) (value : Value) :
    Prop where
  same : DataObject.getField (DataObject.setField memory object slotId value) object slotId
    value.kind = value
  agrees : ∀ (slots : Slots) (index : Nat), index + value.kind.width ≤ slots.getSize →
    (do
      let stored ← slots.setValue index value
      stored.getValue index value.kind) =
      .ok (DataObject.getField (DataObject.setField memory object slotId value) object slotId
        value.kind)
  others : ∀ (other : BitVec 32) (kind : Kind),
    Cells.Disjoint slotId.toNat value.kind.width other.toNat kind.width →
      DataObject.getField (DataObject.setField memory object slotId value) object other kind =
        DataObject.getField memory object other kind

/-- For every object, slot id and value: a field keeps the value exactly when
joining its halves with their signs does. -/
theorem keepsField_iff (memory : Memory) (object : DWord) (slotId : BitVec 32) (value : Value) :
    KeepsField memory object slotId value ↔ value.SurvivesSignedJoin := by
  constructor
  · intro keeps
    exact (DataObject.getField_setField_self memory object slotId value).mp keeps.same
  · intro survives
    have same := (DataObject.getField_setField_self memory object slotId value).mpr survives
    refine ⟨same, ?_, ?_⟩
    · intro slots index inside
      rw [same]
      exact Slots.getValue_of_setValue value inside
    · intro other kind disjoint
      apply DataObject.getField_setField_of_ne value _ kind
      rintro rfl
      have width := value.kind.width_pos
      have otherWidth := kind.width_pos
      rcases disjoint with below | above <;> omega

/-- The `long` 2147483648 in the first field of an object: the getter returns
-2147483648. -/
theorem high_half_not_kept :
    DataObject.getLongField (DataObject.setLongField (fun _ => 0) 0x100000 0 0x80000000) 0x100000 0
        = 0xffffffff80000000 ∧
      ¬ KeepsField (fun _ => 0) 0x100000 0 (.long 0x80000000) := by
  have read : DataObject.getLongField
      (DataObject.setLongField (fun _ => 0) 0x100000 0 0x80000000) 0x100000 0 =
        0xffffffff80000000 := by decide
  refine ⟨read, fun keeps => ?_⟩
  have same : Value.long (DataObject.getLongField
      (DataObject.setLongField (fun _ => 0) 0x100000 0 0x80000000) 0x100000 0) =
        .long 0x80000000 := keeps.same
  rw [read] at same
  cases same

end JvmDemo.Runtime
