import JvmDemo.Runtime.Slots

/-!
# Accesses to a slot array

Each accessor of `Slots` makes its own check.  The checks for one slot compare
the index with the length, and those for two slots with the length minus one,
which wraps around on an empty array: there they let every index pass.
`GetSlot` has the check for two slots although it reads one, so it refuses the
last slot as well.

Inside the array, the typed getters and setters obey the laws of an array of
typed values.
-/

namespace JvmDemo.Runtime

open JvmDemo.Lib
open JvmDemo.Lib.Cells (blit slice)

/-! ## Operations that do not abort -/

section

variable {α β : Type}

theorem not_aborts_ok (value : α) : ¬ Aborts (.ok value) := by
  rintro ⟨message, ⟨⟩⟩

theorem not_aborts_undefined (why : String) : ¬ Aborts (undefined why : Exec α) := by
  rintro ⟨message, ⟨⟩⟩

theorem not_aborts_bind {first : Exec α} {next : α → Exec β} (here : ¬ Aborts first)
    (later : ∀ value, ¬ Aborts (next value)) : ¬ Aborts (first >>= next) := by
  cases first with
  | ok value => exact later value
  | error fault =>
      rintro ⟨message, ⟨⟩⟩
      exact here ⟨message, rfl⟩

theorem aborts_map_iff {result : Exec α} (f : α → β) : Aborts (f <$> result) ↔ Aborts result := by
  cases result with
  | ok value => exact iff_of_false (not_aborts_ok (f value)) (not_aborts_ok value)
  | error fault =>
      constructor
      · rintro ⟨message, ⟨⟩⟩
        exact ⟨message, rfl⟩
      · rintro ⟨message, ⟨⟩⟩
        exact ⟨message, rfl⟩

/-- A check that aborts, before something that does not. -/
theorem aborts_check_iff {check : Prop} [Decidable check] (message : String) {rest : Exec α}
    (fine : ¬ Aborts rest) : Aborts (if check then fatal message else rest) ↔ check := by
  by_cases refused : check
  · rw [if_pos refused]
    exact iff_of_true (aborts_fatal message) refused
  · rw [if_neg refused]
    exact iff_of_false fine refused

end

namespace Slots

variable (s : Slots) (index : Nat)

theorem not_aborts_readAt : ¬ Aborts (s.readAt index) := by
  rw [readAt]
  split
  · exact not_aborts_ok _
  · exact not_aborts_undefined _

theorem not_aborts_writeAt (slot : Slot) : ¬ Aborts (s.writeAt index slot) := by
  rw [writeAt]
  split
  · exact not_aborts_ok _
  · exact not_aborts_undefined _

/-! ## When the checks abort -/

theorem aborts_setOne_iff (what : String) (val : Slot) :
    Aborts (setOne what s index val) ↔ s.getSize ≤ index :=
  aborts_check_iff _ (s.not_aborts_writeAt index val)

theorem aborts_getOne_iff (what : String) : Aborts (getOne what s index) ↔ s.getSize ≤ index :=
  aborts_check_iff _ (s.not_aborts_readAt index)

theorem aborts_setLong_iff (val : DWord) :
    Aborts (s.setLong index val) ↔ s.sizeMinusOne ≤ index :=
  aborts_check_iff _ (not_aborts_bind (s.not_aborts_writeAt index val.low)
    fun first => first.not_aborts_writeAt (index + 1) val.high)

theorem aborts_getLong_iff : Aborts (s.getLong index) ↔ s.sizeMinusOne ≤ index :=
  aborts_check_iff _ (not_aborts_bind (s.not_aborts_readAt index) fun _ =>
    not_aborts_bind (s.not_aborts_readAt (index + 1)) fun _ => not_aborts_ok _)

/-- A check that is made twice aborts as if it were made once. -/
theorem aborts_checked_twice_iff {α : Type} (message : String) {rest : Exec α}
    (same : Aborts rest ↔ s.sizeMinusOne ≤ index) :
    Aborts (if s.sizeMinusOne ≤ index then fatal message else rest) ↔
      s.sizeMinusOne ≤ index := by
  by_cases refused : s.sizeMinusOne ≤ index
  · rw [if_pos refused]
    exact iff_of_true (aborts_fatal message) refused
  · rw [if_neg refused]
    exact same

theorem aborts_setDouble_iff (val : DWord) :
    Aborts (s.setDouble index val) ↔ s.sizeMinusOne ≤ index :=
  s.aborts_checked_twice_iff index _ (s.aborts_setLong_iff index val)

theorem aborts_getDouble_iff : Aborts (s.getDouble index) ↔ s.sizeMinusOne ≤ index :=
  s.aborts_checked_twice_iff index _ (s.aborts_getLong_iff index)

theorem aborts_getSlot_iff : Aborts (s.getSlot index) ↔ s.sizeMinusOne ≤ index :=
  aborts_check_iff _ (s.not_aborts_readAt index)

end Slots

/-! ## The accessors -/

/-- An accessor, with the value that a setter is given. -/
inductive SlotAccess where
  | setInt (val : Word)
  | getInt
  | setFloat (bits : Word)
  | getFloat
  | setLong (val : DWord)
  | getLong
  | setDouble (bits : DWord)
  | getDouble
  | setRef (address : DWord)
  | getRef
  | setSlot (slot : Slot)
  | getSlot
  deriving DecidableEq, Repr

namespace SlotAccess

/-- The slots that are touched. -/
def width : SlotAccess → Nat
  | setInt _ | getInt | setFloat _ | getFloat | setSlot _ | getSlot => 1
  | setLong _ | getLong | setDouble _ | getDouble | setRef _ | getRef => 2

/-- Whether the access returns; the index is a `uint16_t`. -/
def run (s : Slots) (index : BitVec 16) : SlotAccess → Exec Unit
  | setInt val => (fun _ => ()) <$> s.setInt index.toNat val
  | getInt => (fun _ => ()) <$> s.getInt index.toNat
  | setFloat bits => (fun _ => ()) <$> s.setFloat index.toNat bits
  | getFloat => (fun _ => ()) <$> s.getFloat index.toNat
  | setLong val => (fun _ => ()) <$> s.setLong index.toNat val
  | getLong => (fun _ => ()) <$> s.getLong index.toNat
  | setDouble bits => (fun _ => ()) <$> s.setDouble index.toNat bits
  | getDouble => (fun _ => ()) <$> s.getDouble index.toNat
  | setRef address => (fun _ => ()) <$> s.setRef index.toNat address
  | getRef => (fun _ => ()) <$> s.getRef index.toNat
  | setSlot slot => (fun _ => ()) <$> s.setSlot index.toNat slot
  | getSlot => (fun _ => ()) <$> s.getSlot index.toNat

/-- The check for two slots: that of all accesses to two slots, and of `GetSlot`. -/
def ChecksTwo (access : SlotAccess) : Prop := access.width = 2 ∨ access = getSlot

variable {s : Slots} {index : BitVec 16} {access : SlotAccess}

theorem aborts_run_iff_one (one : ¬ access.ChecksTwo) :
    Aborts (access.run s index) ↔ s.getSize ≤ index.toNat := by
  cases access with
  | setInt val => exact (aborts_map_iff _).trans (s.aborts_setOne_iff _ _ val)
  | getInt => exact (aborts_map_iff _).trans (s.aborts_getOne_iff _ _)
  | setFloat bits => exact (aborts_map_iff _).trans (s.aborts_setOne_iff _ _ bits)
  | getFloat => exact (aborts_map_iff _).trans (s.aborts_getOne_iff _ _)
  | setSlot slot => exact (aborts_map_iff _).trans (s.aborts_setOne_iff _ _ slot)
  | getSlot => exact absurd (.inr rfl) one
  | _ => exact absurd (.inl rfl) one

theorem aborts_run_iff_two (two : access.ChecksTwo) :
    Aborts (access.run s index) ↔ s.sizeMinusOne ≤ index.toNat := by
  cases access with
  | setLong val => exact (aborts_map_iff _).trans (s.aborts_setLong_iff _ val)
  | getLong => exact (aborts_map_iff _).trans (s.aborts_getLong_iff _)
  | setDouble bits => exact (aborts_map_iff _).trans (s.aborts_setDouble_iff _ bits)
  | getDouble => exact (aborts_map_iff _).trans (s.aborts_getDouble_iff _)
  | setRef address => exact (aborts_map_iff _).trans (s.aborts_setLong_iff _ address)
  | getRef => exact (aborts_map_iff _).trans (s.aborts_getLong_iff _)
  | getSlot => exact (aborts_map_iff _).trans (s.aborts_getSlot_iff _)
  | _ =>
      rcases two with one | other
      · cases one
      · cases other

/-- The access aborts exactly when it would touch a slot outside the array. -/
def Exact (s : Slots) (index : BitVec 16) (access : SlotAccess) : Prop :=
  Aborts (access.run s index) ↔ s.getSize < index.toNat + access.width

theorem width_eq_one_or_two (access : SlotAccess) : access.width = 1 ∨ access.width = 2 := by
  cases access <;> simp only [width, true_or, or_true]

/-- The check of an access to one slot is exact, except for `GetSlot`; those of the
others are exact except on an empty array, and that of `GetSlot` not for the last
slot either. -/
theorem exact_iff (s : Slots) (index : BitVec 16) (access : SlotAccess) :
    access.Exact s index ↔
      (access.width = 2 → s.getSize ≠ 0) ∧
        (access = getSlot → s.getSize ≠ 0 ∧ index.toNat + 1 ≠ s.getSize) := by
  have bound := index.isLt
  by_cases isGetSlot : access = getSlot
  · have one : access.width = 1 := by rw [isGetSlot]; rfl
    have two : access.ChecksTwo := .inr isGetSlot
    rw [Exact, aborts_run_iff_two two, Slots.sizeMinusOne, one]
    simp only [isGetSlot, OfNat.one_ne_ofNat, false_implies, true_implies, true_and]
    split <;> omega
  · rcases access.width_eq_one_or_two with one | wide
    · have single : ¬ access.ChecksTwo := by
        rintro (wide | same)
        · omega
        · exact isGetSlot same
      rw [Exact, aborts_run_iff_one single, one]
      simp only [isGetSlot, OfNat.one_ne_ofNat, false_implies, and_true, iff_true]
      exact Nat.lt_succ_iff.symm
    · rw [Exact, aborts_run_iff_two (.inl wide), Slots.sizeMinusOne, wide]
      simp only [isGetSlot, false_implies, true_implies, and_true]
      split <;> omega

/-- `GetSlot` refuses the only slot of an array, and `SetLong` writes behind the end of an
empty one. -/
theorem last_slot_refused :
    (∃ message, (Slots.ofCount 1).getSlot 0 = fatal message) ∧
      (Slots.ofCount 0).setLong 0 1 = undefined "write past the end of slots_" ∧
      ¬ getSlot.Exact (Slots.ofCount 1) 0 ∧ ¬ (setLong 1).Exact (Slots.ofCount 0) 0 := by
  refine ⟨⟨_, rfl⟩, rfl, ?_, ?_⟩
  · intro precise
    have refused : Aborts (getSlot.run (Slots.ofCount 1) 0) := ⟨_, rfl⟩
    exact absurd (precise.mp refused) (by decide)
  · intro precise
    rcases precise.mpr (by decide) with ⟨message, written⟩
    have undefinedWrite : (setLong 1).run (Slots.ofCount 0) 0 =
        undefined "write past the end of slots_" := rfl
    rw [undefinedWrite] at written
    cases written

end SlotAccess

/-! ## Laws of typed values -/

namespace Slots

/-- `SetLong` with its two halves as the source takes them from the value. -/
theorem setLong_eq_masked (s : Slots) (index : Nat) (val : DWord) :
    s.setLong index val =
      if s.sizeMinusOne ≤ index then
        fatal (outOfIndex "SetLong out of index, long need two slots" index s)
      else
        s.writeAt index ((val &&& 0xFFFFFFFF).setWidth 32) >>= fun first =>
          first.writeAt (index + 1) ((val.sshiftRight 32 &&& 0xFFFFFFFF).setWidth 32) := by
  rw [DWord.low_eq_and, DWord.high_eq_and, setLong]

section Laws

variable {s : Slots} {index other : Nat} {value otherValue : Value}

theorem length_words_le (inside : index + value.kind.width ≤ s.getSize) :
    index + value.words.length ≤ s.slots.length := by
  rw [Value.length_words]
  exact inside

/-- A set after another one. -/
theorem setValue_bind_setValue (inside : index + value.kind.width ≤ s.getSize)
    (otherInside : other + otherValue.kind.width ≤ s.getSize) :
    (s.setValue index value >>= fun first => first.setValue other otherValue) =
      .ok ⟨blit (blit s.slots index value.words) other otherValue.words⟩ := by
  have fits : other + otherValue.kind.width ≤
      (⟨blit s.slots index value.words⟩ : Slots).getSize := by rwa [getSize_blit]
  rw [setValue_of_le value inside, Exec.bind_ok, setValue_of_le otherValue fits]

/-- Sets on disjoint ranges commute. -/
theorem setValue_comm (inside : index + value.kind.width ≤ s.getSize)
    (otherInside : other + otherValue.kind.width ≤ s.getSize)
    (disjoint : Cells.Disjoint index value.kind.width other otherValue.kind.width) :
    (s.setValue index value >>= fun first => first.setValue other otherValue) =
      (s.setValue other otherValue >>= fun first => first.setValue index value) := by
  rw [← Value.length_words, ← Value.length_words] at disjoint
  rw [setValue_bind_setValue inside otherInside, setValue_bind_setValue otherInside inside,
    Cells.blit_comm s.slots (length_words_le inside) (length_words_le otherInside) disjoint]

end Laws

/-- What a set of a value does to the array: the getter of its kind returns the value, no
other slot changes, a set elsewhere may come before or after, and a later set at the
same index is as if it were the only one, on all slots that it takes. -/
structure SetGetLaws (s : Slots) (index : Nat) (value : Value) (stored : Slots) : Prop where
  returned : stored.getValue index value.kind = .ok value
  size : stored.getSize = s.getSize
  unchanged : ∀ i, i < index ∨ index + value.kind.width ≤ i → stored.slots[i]? = s.slots[i]?
  commutes : ∀ (other : Nat) (otherValue : Value),
    other + otherValue.kind.width ≤ s.getSize →
    Cells.Disjoint index value.kind.width other otherValue.kind.width →
    ∃ both, stored.setValue other otherValue = .ok both ∧
      (s.setValue other otherValue >>= fun first => first.setValue index value) = .ok both
  overrides : ∀ later : Value, index + later.kind.width ≤ s.getSize →
    ∃ after alone, stored.setValue index later = .ok after ∧ s.setValue index later = .ok alone ∧
      after.getValue index later.kind = .ok later ∧
      (∀ i, index ≤ i → i < index + later.kind.width → after.slots[i]? = alone.slots[i]?) ∧
      (value.kind.width ≤ later.kind.width → after = alone)

/-- For every array, index and value that fits. -/
theorem setGetLaws {s : Slots} {index : Nat} {value : Value}
    (inside : index + value.kind.width ≤ s.getSize) :
    ∃ stored, s.setValue index value = .ok stored ∧ SetGetLaws s index value stored := by
  have first := setValue_of_le value inside
  refine ⟨_, first, ?_⟩
  constructor
  case returned =>
    have roundTrip := getValue_of_setValue value inside
    rwa [first, Exec.bind_ok] at roundTrip
  case size => exact getSize_blit index value.words
  case unchanged =>
    intro i outside
    apply Cells.getElem?_blit_of_outside
    rwa [Value.length_words]
  case commutes =>
    intro other otherValue otherInside disjoint
    have both := setValue_bind_setValue inside otherInside
    refine ⟨_, ?_, (setValue_comm inside otherInside disjoint).symm.trans both⟩
    rwa [first, Exec.bind_ok] at both
  case overrides =>
    intro later laterInside
    have again : index + later.kind.width ≤
        (⟨blit s.slots index value.words⟩ : Slots).getSize := by rwa [getSize_blit]
    have laterFits := length_words_le laterInside
    refine ⟨_, _, setValue_of_le later again, setValue_of_le later laterInside, ?_, ?_, ?_⟩
    · have roundTrip := getValue_of_setValue later again
      rwa [setValue_of_le later again, Exec.bind_ok] at roundTrip
    · intro i lower upper
      rw [← Value.length_words] at upper
      rw [Cells.getElem?_blit_of_range _ (by rwa [Cells.length_blit]) lower upper,
        Cells.getElem?_blit_of_range _ laterFits lower upper]
    · intro covers
      rw [← Value.length_words, ← Value.length_words] at covers
      exact congrArg Slots.mk (Cells.blit_blit_of_length_le s.slots covers laterFits)

/-- A negative `long` whose lower half has its top bit set. -/
theorem setGetLaws_negative : ∃ stored,
    (ofCount 3).setValue 1 (.long (-2997924580)) = .ok stored ∧
      SetGetLaws (ofCount 3) 1 (.long (-2997924580)) stored :=
  setGetLaws (by decide)

end Slots

end JvmDemo.Runtime
