import JvmDemo.Runtime.Fault
import JvmDemo.Lib.Cells

/-!
# Slot arrays

`Slots` is the storage shared by local variables, operand stacks and static
variables: a vector of 32-bit slots.  An `int` or a `float` takes one slot, a
`long`, a `double` and a reference take two, the low half first.  `float` and
`double` values are carried by their bit patterns, which `memcpy` preserves.

The bounds checks compare a `uint16_t` index with `size_t` lengths, so the
length minus one wraps around on an empty vector.
-/

namespace JvmDemo.Runtime

open JvmDemo.Lib
open JvmDemo.Lib.Cells (blit slice)

/-! ## Typed values -/

/-- The kinds of values that slots hold. -/
inductive Kind where
  | int | float | long | double | ref
  deriving DecidableEq, Repr

/-- The number of slots a kind takes in a slot array. -/
def Kind.width : Kind → Nat
  | .int | .float => 1
  | .long | .double | .ref => 2

/-- The number of local variable indices that the compiler gives a kind. -/
def Kind.indices : Kind → Nat
  | .int | .float | .ref => 1
  | .long | .double => 2

/-- A typed value; floating-point values and references by their bits. -/
inductive Value where
  | int (val : Word)
  | float (bits : Word)
  | long (val : DWord)
  | double (bits : DWord)
  | ref (address : DWord)
  deriving DecidableEq, Repr

namespace Value

def kind : Value → Kind
  | .int _ => .int
  | .float _ => .float
  | .long _ => .long
  | .double _ => .double
  | .ref _ => .ref

/-- The slots that hold a value, in storage order. -/
def words : Value → List Word
  | .int val | .float val => [val]
  | .long val | .double val | .ref val => val.words

/-- The value of a kind that a block of slots holds. -/
def ofWords : Kind → List Word → Option Value
  | .int, [val] => some (.int val)
  | .float, [val] => some (.float val)
  | .long, [low, high] => some (.long (DWord.join low high))
  | .double, [low, high] => some (.double (DWord.join low high))
  | .ref, [low, high] => some (.ref (DWord.join low high))
  | _, _ => none

@[simp]
theorem length_words (value : Value) : value.words.length = value.kind.width := by
  cases value <;> rfl

@[simp]
theorem ofWords_words (value : Value) : ofWords value.kind value.words = some value := by
  cases value <;> simp [words, kind, ofWords, DWord.words]

end Value

theorem Kind.width_pos (kind : Kind) : 0 < kind.width := by cases kind <;> decide

theorem Kind.width_le_two (kind : Kind) : kind.width ≤ 2 := by cases kind <;> decide

theorem Kind.indices_le_width (kind : Kind) : kind.indices ≤ kind.width := by
  cases kind <;> decide

/-- The slot array and the compiler differ on references only. -/
theorem Kind.indices_eq_width_iff (kind : Kind) : kind.indices = kind.width ↔ kind ≠ .ref := by
  cases kind <;> decide

/-! ## The slot array -/

/-- One slot of storage, `Slot::num`. -/
abbrev Slot := Word

/-- The vector is allocated once by the constructor, with capacity equal to its
size. -/
structure Slots where
  slots : List Slot
  deriving DecidableEq, Repr

namespace Slots

/-- `Slots(count)`: the vector value-initialises its elements. -/
def ofCount (count : Nat) : Slots := ⟨List.replicate count 0⟩

/-- `GetSize`, which is also the vector's capacity. -/
def getSize (s : Slots) : Nat := s.slots.length

/-- `slots_.size() - 1` in `size_t`, which wraps around at zero. -/
def sizeMinusOne (s : Slots) : Nat :=
  if s.getSize = 0 then 2 ^ 64 - 1 else s.getSize - 1

/-- `slots_[index]` read. -/
def readAt (s : Slots) (index : Nat) : Exec Slot :=
  match s.slots[index]? with
  | some slot => .ok slot
  | none => undefined "read past the end of slots_"

/-- `slots_[index]` written. -/
def writeAt (s : Slots) (index : Nat) (slot : Slot) : Exec Slots :=
  if index < s.getSize then .ok ⟨s.slots.set index slot⟩
  else undefined "write past the end of slots_"

/-- The text of the out-of-range messages. -/
def outOfIndex (what : String) (index : Nat) (s : Slots) : String :=
  what ++ ", index = " ++ toString index ++ ", maxIndex = " ++ toString s.getSize

/-- The setters of one slot: a check against the capacity, then the write. -/
def setOne (what : String) (s : Slots) (index : Nat) (val : Slot) : Exec Slots :=
  if s.getSize ≤ index then fatal (outOfIndex what index s)
  else s.writeAt index val

/-- The getters of one slot that check against the size. -/
def getOne (what : String) (s : Slots) (index : Nat) : Exec Slot :=
  if s.getSize ≤ index then fatal (outOfIndex what index s)
  else s.readAt index

/-- `SetInt`. -/
def setInt (s : Slots) (index : Nat) (val : Word) : Exec Slots :=
  setOne "SetInt out of index" s index val

/-- `GetInt`. -/
def getInt (s : Slots) (index : Nat) : Exec Word :=
  getOne "GetInt out of index" s index

/-- `SetFloat`, on the bit pattern. -/
def setFloat (s : Slots) (index : Nat) (val : Word) : Exec Slots :=
  setOne "SetFloat out of index" s index val

/-- `GetFloat`; the message names the setter, as in the source. -/
def getFloat (s : Slots) (index : Nat) : Exec Word :=
  getOne "SetFloat out of index" s index

/-- `SetLong`. -/
def setLong (s : Slots) (index : Nat) (val : DWord) : Exec Slots := do
  if s.sizeMinusOne ≤ index then
    fatal (outOfIndex "SetLong out of index, long need two slots" index s)
  else
    let first ← s.writeAt index val.low
    first.writeAt (index + 1) val.high

/-- `GetLong`. -/
def getLong (s : Slots) (index : Nat) : Exec DWord := do
  if s.sizeMinusOne ≤ index then
    fatal (outOfIndex "GetLong out of index, long need two slots" index s)
  else
    let low ← s.readAt index
    let high ← s.readAt (index + 1)
    pure (DWord.join low high)

/-- `SetDouble`: its own check, then `SetLong` on the bit pattern. -/
def setDouble (s : Slots) (index : Nat) (val : DWord) : Exec Slots :=
  if s.sizeMinusOne ≤ index then
    fatal (outOfIndex "SetDouble out of index, double need two slots" index s)
  else s.setLong index val

/-- `GetDouble`. -/
def getDouble (s : Slots) (index : Nat) : Exec DWord :=
  if s.sizeMinusOne ≤ index then
    fatal (outOfIndex "GetDouble out of index, double need two slots" index s)
  else s.getLong index

/-- `SetRef`: the pointer is stored as a `long`. -/
def setRef (s : Slots) (index : Nat) (ref : DWord) : Exec Slots := s.setLong index ref

/-- `GetRef`. -/
def getRef (s : Slots) (index : Nat) : Exec DWord := s.getLong index

/-- `SetSlot`. -/
def setSlot (s : Slots) (index : Nat) (slot : Slot) : Exec Slots :=
  setOne "SetSlot out of index" s index slot

/-- `GetSlot`: although it reads one slot, its check is the one of the two-slot
getters. -/
def getSlot (s : Slots) (index : Nat) : Exec Slot :=
  if s.sizeMinusOne ≤ index then
    fatal (outOfIndex "GetSlot out of index, long need two slots" index s)
  else s.readAt index

/-- The setter of the value's kind. -/
def setValue (s : Slots) (index : Nat) : Value → Exec Slots
  | .int val => s.setInt index val
  | .float bits => s.setFloat index bits
  | .long val => s.setLong index val
  | .double bits => s.setDouble index bits
  | .ref address => s.setRef index address

/-- The getter of a kind. -/
def getValue (s : Slots) (index : Nat) : Kind → Exec Value
  | .int => Value.int <$> s.getInt index
  | .float => Value.float <$> s.getFloat index
  | .long => Value.long <$> s.getLong index
  | .double => Value.double <$> s.getDouble index
  | .ref => Value.ref <$> s.getRef index

/-! ## Accesses inside the array -/

variable {s : Slots} {index : Nat}

theorem getSize_ofCount (count : Nat) : (ofCount count).getSize = count := by
  simp [ofCount, getSize]

/-- On a non-empty array the wrapped length minus one is the ordinary one. -/
theorem sizeMinusOne_eq (nonempty : 0 < s.getSize) : s.sizeMinusOne = s.getSize - 1 :=
  if_neg (by omega)

theorem readAt_of_getElem?_eq {slot : Slot} (found : s.slots[index]? = some slot) :
    s.readAt index = .ok slot := by
  simp [readAt, found]

theorem writeAt_of_lt (inside : index < s.getSize) (slot : Slot) :
    s.writeAt index slot = .ok ⟨s.slots.set index slot⟩ := by
  simp [writeAt, inside]

/-- The check of the one-slot accessors is exact. -/
theorem setOne_of_lt (what : String) (inside : index < s.getSize) (val : Slot) :
    setOne what s index val = .ok ⟨blit s.slots index [val]⟩ := by
  rw [setOne, if_neg (by omega), writeAt_of_lt inside]
  rfl

theorem getOne_of_getElem?_eq (what : String) {slot : Slot}
    (found : s.slots[index]? = some slot) : getOne what s index = .ok slot := by
  have inside : index < s.getSize := (List.getElem?_eq_some_iff.mp found).1
  rw [getOne, if_neg (by omega), readAt_of_getElem?_eq found]

/-- The check of the two-slot accessors passes when both slots exist. -/
theorem not_sizeMinusOne_le (inside : index + 2 ≤ s.getSize) : ¬ s.sizeMinusOne ≤ index := by
  rw [sizeMinusOne_eq (by omega)]
  omega

theorem setLong_of_le (inside : index + 2 ≤ s.getSize) (val : DWord) :
    s.setLong index val = .ok ⟨blit s.slots index val.words⟩ := by
  have second : index + 1 < (⟨s.slots.set index val.low⟩ : Slots).getSize := by
    simp only [getSize, List.length_set] at inside ⊢
    omega
  rw [setLong, if_neg (not_sizeMinusOne_le inside), writeAt_of_lt (by omega)]
  simp [writeAt_of_lt second, DWord.words, blit]

theorem getLong_of_slice_eq (inside : index + 2 ≤ s.getSize) {val : DWord}
    (held : slice s.slots index 2 = val.words) : s.getLong index = .ok val := by
  have cell (i : Nat) (small : i < 2) : s.slots[index + i]? = val.words[i]? := by
    rw [← held, Cells.getElem?_slice, if_pos small]
  have first : s.readAt index = .ok val.low := readAt_of_getElem?_eq (cell 0 (by omega))
  have second : s.readAt (index + 1) = .ok val.high :=
    readAt_of_getElem?_eq (cell 1 (by omega))
  rw [getLong, if_neg (not_sizeMinusOne_le inside), first, second]
  simp [pure, Except.pure]

/-- A typed setter whose slots exist writes the value's words and nothing
else. -/
theorem setValue_of_le (value : Value)
    (inside : index + value.kind.width ≤ s.getSize) :
    s.setValue index value = .ok ⟨blit s.slots index value.words⟩ := by
  cases value with
  | int val => exact setOne_of_lt _ inside val
  | float bits => exact setOne_of_lt _ inside bits
  | long val => exact setLong_of_le inside val
  | double bits =>
      rw [setValue, setDouble, if_neg (not_sizeMinusOne_le inside)]
      exact setLong_of_le inside bits
  | ref address => exact setLong_of_le inside address

/-- A typed getter returns the value whose words it finds. -/
theorem getValue_of_slice_eq (value : Value)
    (inside : index + value.kind.width ≤ s.getSize)
    (held : slice s.slots index value.kind.width = value.words) :
    s.getValue index value.kind = .ok value := by
  cases value with
  | int val =>
      have found : s.slots[index]? = some val := by
        have cell := Cells.getElem?_slice s.slots index 1 0
        rw [show slice s.slots index 1 = [val] from held] at cell
        simpa using cell.symm
      simp [getValue, Value.kind, getInt, getOne_of_getElem?_eq _ found, Functor.map, Except.map]
  | float bits =>
      have found : s.slots[index]? = some bits := by
        have cell := Cells.getElem?_slice s.slots index 1 0
        rw [show slice s.slots index 1 = [bits] from held] at cell
        simpa using cell.symm
      simp [getValue, Value.kind, getFloat, getOne_of_getElem?_eq _ found, Functor.map, Except.map]
  | long val =>
      simp [getValue, Value.kind, getLong_of_slice_eq inside held, Functor.map, Except.map]
  | double bits =>
      simp [getValue, Value.kind, getDouble, not_sizeMinusOne_le inside,
        getLong_of_slice_eq inside held, Functor.map, Except.map]
  | ref address =>
      simp [getValue, Value.kind, getRef, getLong_of_slice_eq inside held, Functor.map,
        Except.map]

@[simp]
theorem getSize_blit (start : Nat) (block : List Slot) :
    (⟨blit s.slots start block⟩ : Slots).getSize = s.getSize := by
  simp [getSize]

/-- A slot array returns what was stored. -/
theorem getValue_of_setValue (value : Value) (inside : index + value.kind.width ≤ s.getSize) :
    (do
      let stored ← s.setValue index value
      stored.getValue index value.kind) = .ok value := by
  rw [setValue_of_le value inside, Exec.bind_ok]
  apply getValue_of_slice_eq
  · rw [getSize_blit]
    exact inside
  · rw [← Value.length_words]
    exact Cells.slice_blit_self _ _ _ (by rw [Value.length_words]; exact inside)

/-- As many slots as a kind takes hold some value of it. -/
theorem exists_value_of_length {kind : Kind} {block : List Slot}
    (length : block.length = kind.width) :
    ∃ value : Value, value.kind = kind ∧ block = value.words := by
  cases kind with
  | int =>
      obtain ⟨val, rfl⟩ := List.length_eq_one_iff.mp length
      exact ⟨.int val, rfl, rfl⟩
  | float =>
      obtain ⟨bits, rfl⟩ := List.length_eq_one_iff.mp length
      exact ⟨.float bits, rfl, rfl⟩
  | long =>
      obtain ⟨low, high, rfl⟩ := List.length_eq_two.mp length
      exact ⟨.long (DWord.join low high), rfl, by simp [Value.words, DWord.words]⟩
  | double =>
      obtain ⟨low, high, rfl⟩ := List.length_eq_two.mp length
      exact ⟨.double (DWord.join low high), rfl, by simp [Value.words, DWord.words]⟩
  | ref =>
      obtain ⟨low, high, rfl⟩ := List.length_eq_two.mp length
      exact ⟨.ref (DWord.join low high), rfl, by simp [Value.words, DWord.words]⟩

/-- A block stored elsewhere does not change what a getter returns. -/
theorem getValue_blit_of_disjoint {kind : Kind} {start : Nat} {block : List Slot}
    (inside : index + kind.width ≤ s.getSize)
    (disjoint : Cells.Disjoint index kind.width start block.length) :
    (⟨blit s.slots start block⟩ : Slots).getValue index kind = s.getValue index kind := by
  have length : (slice s.slots index kind.width).length = kind.width := by
    have longer : kind.width ≤ s.slots.length - index := by
      rw [getSize] at inside
      omega
    rw [slice, List.length_take, List.length_drop]
    exact Nat.min_eq_left longer
  obtain ⟨value, rfl, held⟩ := exists_value_of_length length
  rw [getValue_of_slice_eq value inside held]
  apply getValue_of_slice_eq
  · rw [getSize_blit]
    exact inside
  · rw [Cells.slice_blit_of_disjoint _ disjoint]
    exact held

/-! ## Accesses that return -/

theorem setOne_eq_ok {what : String} {val : Slot} {next : Slots}
    (stored : setOne what s index val = .ok next) : index < s.getSize := by
  by_contra outside
  rw [setOne, if_pos (by omega)] at stored
  cases stored

theorem setLong_eq_ok {val : DWord} {next : Slots} (stored : s.setLong index val = .ok next) :
    index + 2 ≤ s.getSize := by
  by_contra outside
  by_cases checked : s.sizeMinusOne ≤ index
  · rw [setLong, if_pos checked] at stored
    cases stored
  · -- the check passes on an empty array only
    have empty : s.getSize = 0 := by
      by_contra nonempty
      rw [sizeMinusOne_eq (by omega)] at checked
      omega
    rw [setLong, if_neg checked, writeAt, if_neg (by omega)] at stored
    cases stored

/-- A typed setter returns only if the value's slots exist. -/
theorem setValue_eq_ok {value : Value} {next : Slots}
    (stored : s.setValue index value = .ok next) :
    index + value.kind.width ≤ s.getSize ∧ next = ⟨blit s.slots index value.words⟩ := by
  have inside : index + value.kind.width ≤ s.getSize := by
    cases value with
    | int val => exact setOne_eq_ok stored
    | float bits => exact setOne_eq_ok stored
    | long val => exact setLong_eq_ok stored
    | double bits =>
        rw [setValue, setDouble] at stored
        split at stored
        · cases stored
        · exact setLong_eq_ok stored
    | ref address => exact setLong_eq_ok stored
  rw [setValue_of_le value inside] at stored
  cases stored
  exact ⟨inside, rfl⟩

theorem getSize_of_setValue {value : Value} {next : Slots}
    (stored : s.setValue index value = .ok next) : next.getSize = s.getSize := by
  rw [(setValue_eq_ok stored).2, getSize_blit]

theorem readAt_eq_ok {slot : Slot} (read : s.readAt index = .ok slot) :
    s.slots[index]? = some slot := by
  unfold readAt at read
  split at read
  · cases read
    assumption
  · cases read

theorem getOne_eq_ok {what : String} {slot : Slot} (read : getOne what s index = .ok slot) :
    s.slots[index]? = some slot := by
  unfold getOne at read
  split at read
  · cases read
  · exact readAt_eq_ok read

theorem getLong_eq_ok {val : DWord} (read : s.getLong index = .ok val) :
    s.slots[index]? = some val.low ∧ s.slots[index + 1]? = some val.high := by
  unfold getLong at read
  split at read
  · cases read
  · rcases Exec.bind_eq_ok.mp read with ⟨low, lowEq, rest⟩
    rcases Exec.bind_eq_ok.mp rest with ⟨high, highEq, joined⟩
    cases joined
    rw [DWord.low_join, DWord.high_join]
    exact ⟨readAt_eq_ok lowEq, readAt_eq_ok highEq⟩

/-- The slots from which a typed getter returned a value hold its words. -/
theorem getElem?_of_getValue_eq_ok {value : Value}
    (read : s.getValue index value.kind = .ok value) {i : Nat} (small : i < value.kind.width) :
    s.slots[index + i]? = value.words[i]? := by
  have halves {val : DWord} (long : s.getLong index = .ok val) (two : i < 2) :
      s.slots[index + i]? = val.words[i]? := by
    rcases getLong_eq_ok long with ⟨low, high⟩
    match i, two with
    | 0, _ => exact low
    | 1, _ => exact high
  cases value with
  | int val =>
      rcases Exec.bind_eq_ok.mp read with ⟨slot, slotEq, same⟩
      cases same
      obtain rfl : i = 0 := Nat.lt_one_iff.mp small
      exact getOne_eq_ok slotEq
  | float bits =>
      rcases Exec.bind_eq_ok.mp read with ⟨slot, slotEq, same⟩
      cases same
      obtain rfl : i = 0 := Nat.lt_one_iff.mp small
      exact getOne_eq_ok slotEq
  | long val =>
      rcases Exec.bind_eq_ok.mp read with ⟨long, longEq, same⟩
      cases same
      exact halves longEq small
  | double bits =>
      rcases Exec.bind_eq_ok.mp read with ⟨long, longEq, same⟩
      cases same
      rw [getDouble] at longEq
      split at longEq
      · cases longEq
      · exact halves longEq small
  | ref address =>
      rcases Exec.bind_eq_ok.mp read with ⟨long, longEq, same⟩
      cases same
      exact halves longEq small

end Slots

end JvmDemo.Runtime
