import JvmDemo.Classfile.RoundTrip

/-!
# The shifts of `ParseUnsignedInt`

The template shifts every byte as an `int`, whatever the type of the result.  Up to four
bytes that is the big-endian value; for the eight bytes of a `long` or `double` constant the
first shift already has no defined result.
-/

namespace JvmDemo.Classfile

open JvmDemo.Lib
open JvmDemo.Runtime
open JvmDemo.Lib.Reader (Reads)

namespace Parser

/-! ## Defined shifts -/

/-- `x << amount` on an `int`, as far as C++ defines it. -/
def definedShift (x : BitVec 32) (amount : Nat) : Exec (BitVec 32) :=
  if amount < 32 then .ok (x <<< amount)
  else undefined "shift of an int by its width or more"

/-- The loop of `ParseUnsignedInt` where only defined shifts return. -/
def definedIntLoop (width : Nat) : Nat → BitVec width → Parser (BitVec width)
  | 0, t => pure t
  | left + 1, t => do
      let byte ← Reader.next pastTheEnd
      let shifted ← lift (definedShift (byte.setWidth 32) (left * 8))
      definedIntLoop width left (t ||| shifted.signExtend width)

/-- `ParseUnsignedInt` where only defined shifts return. -/
def definedInt (width : Nat) : Parser (BitVec width) := definedIntLoop width (width / 8) 0

/-- Up to four bytes all shifts are defined, and no target matters. -/
theorem definedIntLoop_eq [Target] {width left : Nat} (few : left ≤ 4) (t : BitVec width) :
    definedIntLoop width left t = parseUnsignedIntLoop width left t := by
  induction left generalizing t with
  | zero => rfl
  | succ left ih =>
      have small : left * 8 < 32 := by omega
      rw [definedIntLoop, parseUnsignedIntLoop]
      congr 1
      funext byte
      rw [definedShift, if_pos small, lift, shiftLeft, if_pos small]
      exact ih (Nat.le_of_succ_le few) _

/-- From five bytes on the first shift is not defined. -/
theorem definedIntLoop_ne_ok {width left : Nat} (many : 4 ≤ left) {t value : BitVec width}
    {data : List Byte} {cursor after : Cursor} :
    definedIntLoop width (left + 1) t data cursor ≠ .ok (value, after) := by
  intro returned
  rcases Reader.bind_eq_ok returned with ⟨byte, middle, -, rest⟩
  rcases Reader.bind_eq_ok rest with ⟨shifted, behind, lifted, -⟩
  rw [definedShift, if_neg (by omega)] at lifted
  cases lifted

theorem definedInt_eq_loop (size : Nat) :
    definedInt (size * 8) = definedIntLoop (size * 8) size 0 := by
  rw [definedInt, Nat.mul_div_cancel size (by decide)]

theorem definedInt_ne_ok {size : Nat} (many : 4 < size) {value : BitVec (size * 8)}
    {data : List Byte} {cursor after : Cursor} :
    definedInt (size * 8) data cursor ≠ .ok (value, after) := by
  rw [definedInt_eq_loop]
  cases size with
  | zero => exact absurd many (Nat.not_lt_zero 4)
  | succ left => exact definedIntLoop_ne_ok (Nat.le_of_lt_succ many)

/-! ## The value -/

/-- The big-endian value of a byte string. -/
def bigEndian : List Byte → Nat
  | [] => 0
  | byte :: bytes => byte.toNat * 2 ^ (bytes.length * 8) + bigEndian bytes

theorem bigEndian_lt (bytes : List Byte) : bigEndian bytes < 2 ^ (bytes.length * 8) := by
  induction bytes with
  | nil => exact Nat.one_pos
  | cons byte bytes ih =>
      have small := byte.isLt
      calc byte.toNat * 2 ^ (bytes.length * 8) + bigEndian bytes
          < byte.toNat * 2 ^ (bytes.length * 8) + 2 ^ (bytes.length * 8) :=
            Nat.add_lt_add_left ih _
        _ = (byte.toNat + 1) * 2 ^ (bytes.length * 8) := (Nat.succ_mul _ _).symm
        _ ≤ 2 ^ 8 * 2 ^ (bytes.length * 8) := Nat.mul_le_mul_right _ small
        _ = 2 ^ ((byte :: bytes).length * 8) := by
            rw [← Nat.pow_add, List.length_cons, Nat.succ_mul, Nat.add_comm]

section Values

variable [Target] {width : Nat}

/-- A shifted byte within an `int` and the result. -/
theorem toNat_shifted {amount : Nat} (narrow : width ≤ 32) (room : amount + 8 ≤ width)
    (byte : Byte) :
    ((shiftLeft (byte.setWidth 32) amount).signExtend width).toNat = byte.toNat * 2 ^ amount := by
  have small := byte.isLt
  have inside : byte.toNat * 2 ^ amount < 2 ^ width :=
    calc byte.toNat * 2 ^ amount < 2 ^ 8 * 2 ^ amount :=
          Nat.mul_lt_mul_of_pos_right small (Nat.two_pow_pos _)
      _ = 2 ^ (8 + amount) := (Nat.pow_add 2 8 amount).symm
      _ ≤ 2 ^ width := Nat.pow_le_pow_right (by decide) (by omega)
  have insideInt : byte.toNat * 2 ^ amount < 2 ^ 32 :=
    Nat.lt_of_lt_of_le inside (Nat.pow_le_pow_right (by decide) narrow)
  rw [shiftLeft, if_pos (by omega), BitVec.signExtend_eq_setWidth_of_le _ narrow,
    BitVec.toNat_setWidth, BitVec.toNat_shiftLeft, BitVec.toNat_setWidth, Nat.shiftLeft_eq,
    Nat.mod_eq_of_lt (Nat.lt_of_lt_of_le small (by decide)), Nat.mod_eq_of_lt insideInt,
    Nat.mod_eq_of_lt inside]

/-- The bytes fill the free places of `t`, one after the other. -/
theorem toNat_joinBytes (narrow : width ≤ 32) {bytes : List Byte} {t : BitVec width}
    (room : bytes.length * 8 ≤ width) (free : 2 ^ (bytes.length * 8) ∣ t.toNat) :
    (joinBytes width t bytes).toNat = t.toNat + bigEndian bytes := by
  induction bytes generalizing t with
  | nil => rfl
  | cons byte bytes ih =>
      rw [List.length_cons, Nat.succ_mul] at room free
      have shifted := toNat_shifted narrow room byte
      have below : byte.toNat * 2 ^ (bytes.length * 8) < 2 ^ (bytes.length * 8 + 8) := by
        rw [Nat.pow_add, Nat.mul_comm]
        exact Nat.mul_lt_mul_of_pos_left byte.isLt (Nat.two_pow_pos _)
      -- nothing overlaps, so the disjunction is a sum
      have sum : (t ||| (shiftLeft (byte.setWidth 32) (bytes.length * 8)).signExtend width).toNat =
          t.toNat + byte.toNat * 2 ^ (bytes.length * 8) := by
        rcases free with ⟨high, highEq⟩
        rw [BitVec.toNat_or, shifted, highEq, ← Nat.two_pow_add_eq_or_of_lt below]
      rw [joinBytes, ih (Nat.le_trans (Nat.le_add_right _ _) room), sum, bigEndian, Nat.add_assoc]
      rw [sum]
      apply Nat.dvd_add
      · exact Nat.dvd_trans (Nat.pow_dvd_pow 2 (Nat.le_add_right _ _)) free
      · exact Nat.dvd_mul_left _ _

/-- Up to four bytes, `ParseUnsignedInt` computes the big-endian value. -/
theorem joinBytes_eq_bigEndian {bytes : List Byte} (few : bytes.length ≤ 4) :
    joinBytes (bytes.length * 8) 0 bytes = BitVec.ofNat _ (bigEndian bytes) := by
  apply BitVec.eq_of_toNat_eq
  rw [toNat_joinBytes (by omega) (Nat.le_refl _) (Nat.dvd_zero _), BitVec.toNat_ofNat,
    Nat.mod_eq_of_lt (bigEndian_lt bytes)]
  exact Nat.zero_add _

end Values

/-! ## What is read -/

/-- The template `ParseUnsignedInt` for a type of some bytes, and the methods
`ParseConstantInfo` of the two 64-bit constants. -/
inductive Reading where
  | unsignedInt (size : Nat)
  | long
  | double

/-- The bytes that are read. -/
def Reading.size : Reading → Nat
  | .unsignedInt size => size
  | .long => 8
  | .double => 8

/-- `ConstantLongInfo::ParseConstantInfo` where only defined shifts return. -/
def definedLong : Parser ConstantInfo := do
  let value ← definedInt 64
  pure (.long value)

/-- `ConstantDoubleInfo::ParseConstantInfo` where only defined shifts return. -/
def definedDouble : Parser ConstantInfo := do
  let value ← definedInt 64
  pure (.double value)

/-- The code shifts as C++ defines it, and reads the big-endian value on every target. -/
def ReadsBigEndian (pos : Nat) (bytes : List Byte) : Reading → Prop
  | .unsignedInt size =>
      Reads (definedInt (size * 8)) pos bytes (BitVec.ofNat _ (bigEndian bytes)) ∧
        ∀ target : Target,
          Reads (@parseUnsignedInt target (size * 8)) pos bytes (BitVec.ofNat _ (bigEndian bytes))
  | .long =>
      Reads definedLong pos bytes (.long (BitVec.ofNat _ (bigEndian bytes))) ∧
        ∀ target : Target, Reads (@parseConstantInfoOf target .long) pos bytes
          (.long (BitVec.ofNat _ (bigEndian bytes)))
  | .double =>
      Reads definedDouble pos bytes (.double (BitVec.ofNat _ (bigEndian bytes))) ∧
        ∀ target : Target, Reads (@parseConstantInfoOf target .double) pos bytes
          (.double (BitVec.ofNat _ (bigEndian bytes)))

section Readings

variable {pos : Nat} {bytes : List Byte}

/-- Up to four bytes are read as they should be. -/
theorem readsBigEndian_of_le (few : bytes.length ≤ 4) :
    ReadsBigEndian pos bytes (.unsignedInt bytes.length) := by
  have compiled : ∀ target : Target,
      Reads (@parseUnsignedInt target (bytes.length * 8)) pos bytes
        (BitVec.ofNat _ (bigEndian bytes)) := by
    intro target
    rw [← joinBytes_eq_bigEndian few, parseUnsignedInt, Nat.mul_div_cancel _ (by decide)]
    exact reads_parseUnsignedIntLoop _ bytes 0 pos
  constructor
  · let target : Target := ⟨fun x _ => x⟩
    have reads := compiled target
    rw [parseUnsignedInt, Nat.mul_div_cancel _ (by decide), ← definedIntLoop_eq few,
      ← definedInt_eq_loop] at reads
    exact reads
  · exact compiled

/-- The two constants have too many bytes. -/
theorem not_reads_definedInt64 {build : BitVec 64 → ConstantInfo} {constant : ConstantInfo} :
    ¬ Reads (definedInt 64 >>= fun value => pure (build value)) pos bytes constant := by
  intro reads
  rcases reads.returns with ⟨data, cursor, after, returned⟩
  rcases Reader.bind_eq_ok returned with ⟨value, middle, first, -⟩
  exact @definedInt_ne_ok 8 (by decide) value data cursor middle first

/-- For every instance of the template and both constants, every position and all bytes:
they are read as they should be exactly when there are at most four of them. -/
theorem readsBigEndian_iff {reading : Reading} (length : bytes.length = reading.size) :
    ReadsBigEndian pos bytes reading ↔ reading.size ≤ 4 := by
  cases reading with
  | unsignedInt size =>
      change bytes.length = size at length
      subst length
      constructor
      · rintro ⟨defined, -⟩
        rcases defined.returns with ⟨data, cursor, after, returned⟩
        by_contra many
        exact definedInt_ne_ok (Nat.lt_of_not_le many) returned
      · exact readsBigEndian_of_le
  | long | double =>
      constructor
      · exact fun reads => absurd reads.1 not_reads_definedInt64
      · exact fun few => absurd few (by decide)

/-- The magic number. -/
theorem readsBigEndian_magic :
    ReadsBigEndian 0 [0xCA, 0xFE, 0xBA, 0xBE] (.unsignedInt 4) ∧
      bigEndian [0xCA, 0xFE, 0xBA, 0xBE] = 0xCAFEBABE :=
  ⟨(readsBigEndian_iff rfl).mpr (by decide), by decide⟩

/-- `4294967296L`: the shifts are not defined, and where the amounts are masked it is read
as one. -/
theorem long_read_as_one :
    ¬ ReadsBigEndian 0 [0, 0, 0, 1, 0, 0, 0, 0] .long ∧
      bigEndian [0, 0, 0, 1, 0, 0, 0, 0] = 4294967296 ∧
      Reads (@parseConstantInfoOf maskedShift .long) 0 [0, 0, 0, 1, 0, 0, 0, 0] (.long 1) := by
  constructor
  · exact fun reads => not_reads_definedInt64 reads.1
  constructor
  · decide
  · have reads := @reads_parseUnsignedIntLoop maskedShift 64 [0, 0, 0, 1, 0, 0, 0, 0] 0 0
    have value : @joinBytes maskedShift 64 0 [0, 0, 0, 1, 0, 0, 0, 0] = 1 := by decide
    rw [value] at reads
    exact reads.map ConstantInfo.long

end Readings

end Parser

end JvmDemo.Classfile
