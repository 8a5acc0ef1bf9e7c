import Mathlib.Algebra.Order.Ring.Int

/-!
# Fixed-width words and their halves

A 64-bit value is stored as two 32-bit words, the low one first.  This module
fixes the word types and proves that splitting and rejoining a value by shifts
and masks loses nothing, and that the mask of a negated power of two rounds
down.  Byte strings and their big-endian readings are in `JvmDemo.Lib.Reader`.
-/

namespace JvmDemo.Lib

/-- An 8-bit unit of storage. -/
abbrev Byte := BitVec 8

/-- A 32-bit unit of storage. -/
abbrev Word := BitVec 32

/-- A 64-bit value. -/
abbrev DWord := BitVec 64

namespace DWord

/-- The less significant half. -/
def low (value : DWord) : Word := value.setWidth 32

/-- The more significant half, taken by an arithmetic shift. -/
def high (value : DWord) : Word := (value.sshiftRight 32).setWidth 32

/-- Rejoin two halves by a left shift of the zero-extended high half. -/
def join (low high : Word) : DWord := (high.setWidth 64 <<< 32) ||| low.setWidth 64

/-- A mask of ones on the lower half is the narrowing itself. -/
theorem low_eq_and (value : DWord) : (value &&& 0xFFFFFFFF).setWidth 32 = value.low := by
  have mask : (0xFFFFFFFF : DWord).setWidth 32 = BitVec.allOnes 32 := by decide
  rw [BitVec.setWidth_and, mask, BitVec.and_allOnes, low]

theorem high_eq_and (value : DWord) :
    (value.sshiftRight 32 &&& 0xFFFFFFFF).setWidth 32 = value.high :=
  low_eq_and (value.sshiftRight 32)

/-- The two words of a value in storage order. -/
def words (value : DWord) : List Word := [value.low, value.high]

@[simp]
theorem join_low_high (value : DWord) : join value.low value.high = value := by
  apply BitVec.eq_of_getLsbD_eq
  intro i bound
  simp only [join, low, high, BitVec.getLsbD_or, BitVec.getLsbD_shiftLeft,
    BitVec.getLsbD_setWidth, BitVec.getLsbD_sshiftRight]
  by_cases small : i < 32
  · simp [small, bound]
  · have shifted : 32 + (i - 32) = i := by omega
    have inHigh : i - 32 < 32 := by omega
    have inWide : i - 32 < 64 := by omega
    simp [small, bound, shifted, inHigh, inWide]

@[simp]
theorem low_join (low high : Word) : (join low high).low = low := by
  apply BitVec.eq_of_getLsbD_eq
  intro i bound
  simp only [join, DWord.low, BitVec.getLsbD_or, BitVec.getLsbD_shiftLeft,
    BitVec.getLsbD_setWidth]
  have inWide : i < 64 := by omega
  simp [bound, inWide]

@[simp]
theorem high_join (low high : Word) : (join low high).high = high := by
  apply BitVec.eq_of_getLsbD_eq
  intro i bound
  have above : ¬ 32 + i < 32 := by omega
  have inWide : i < 64 := by omega
  have sum : 32 + i < 64 := by omega
  simp only [join, DWord.high, BitVec.getLsbD_or, BitVec.getLsbD_shiftLeft,
    BitVec.getLsbD_setWidth, BitVec.getLsbD_sshiftRight]
  simp [bound, inWide, sum, above, Nat.not_le.mpr inWide]

@[simp]
theorem length_words (value : DWord) : value.words.length = 2 := rfl

/-! ## Joining sign-extended halves -/

/-- Rejoin two halves that are both extended with their sign. -/
def joinSigned (low high : Word) : DWord := (high.signExtend 64 <<< 32) ||| low.signExtend 64

/-- A negative low half overwrites the high half with ones. -/
theorem joinSigned_eq (low high : Word) :
    joinSigned low high = join low (if low.msb then BitVec.allOnes 32 else high) := by
  apply BitVec.eq_of_getLsbD_eq
  intro i bound
  simp only [joinSigned, join, BitVec.getLsbD_or, BitVec.getLsbD_shiftLeft,
    BitVec.getLsbD_signExtend, BitVec.getLsbD_setWidth]
  by_cases small : i < 32
  · simp [small, bound]
  · have inHigh : i - 32 < 32 := by omega
    have inWide : i - 32 < 64 := by omega
    have above : low.getLsbD i = false := BitVec.getLsbD_of_ge low i (by omega)
    cases negative : low.msb with
    | false => simp [small, bound, inHigh, inWide, above]
    | true =>
        rw [if_pos rfl, BitVec.getLsbD_allOnes]
        simp [small, bound, inHigh, inWide, above]

/-- A value survives exactly when its low half is not negative, or the ones that
it brings are there. -/
theorem joinSigned_low_high_iff (value : DWord) :
    joinSigned value.low value.high = value ↔
      value.low.msb = false ∨ value.high = BitVec.allOnes 32 := by
  rw [joinSigned_eq]
  cases negative : value.low.msb with
  | false => simp
  | true =>
      simp only [if_true, Bool.true_eq_false, false_or]
      constructor
      · intro joined
        rw [← high_join value.low (BitVec.allOnes 32), joined]
      · intro ones
        rw [← ones, join_low_high]

end DWord

/-- The bytes of a word, shifted to their places, make the word. -/
theorem be32_join (value : Word) :
    (value.extractLsb' 24 8).setWidth 32 <<< 24 ||| (value.extractLsb' 16 8).setWidth 32 <<< 16 |||
      (value.extractLsb' 8 8).setWidth 32 <<< 8 ||| (value.extractLsb' 0 8).setWidth 32 =
      value := by
  apply BitVec.eq_of_getLsbD_eq
  intro i bound
  simp only [BitVec.getLsbD_or, BitVec.getLsbD_shiftLeft, BitVec.getLsbD_setWidth,
    BitVec.getLsbD_extractLsb']
  obtain small | small | small | small :
      i < 8 ∨ (8 ≤ i ∧ i < 16) ∨ (16 ≤ i ∧ i < 24) ∨ 24 ≤ i := by omega
  all_goals grind

/-! ## Rounding by a mask -/

/-- The mask of a negated power of two clears the bits below it. -/
theorem and_neg_twoPow {w k : Nat} (x : BitVec w) (small : k < w) :
    x &&& -BitVec.twoPow w k = (x >>> k) <<< k := by
  apply BitVec.eq_of_getLsbD_eq
  intro i bound
  simp only [BitVec.getLsbD_and, BitVec.getLsbD_neg, BitVec.getLsbD_twoPow,
    BitVec.getLsbD_shiftLeft, BitVec.getLsbD_ushiftRight]
  obtain below | same | above : i < k ∨ i = k ∨ k < i := by omega
  · have notSame : k ≠ i := by omega
    have notAbove : ¬ k < i := by omega
    simp [below, notSame, notAbove]
  · simp [same, small]
  · have notSame : k ≠ i := by omega
    have notBelow : ¬ i < k := by omega
    have sum : k + (i - k) = i := by omega
    simp [above, notSame, notBelow, bound, sum, small]

/-- Rounding down to a multiple of a power of two. -/
theorem toNat_and_neg_twoPow {w k : Nat} (x : BitVec w) (small : k < w) :
    (x &&& -BitVec.twoPow w k).toNat = x.toNat - x.toNat % 2 ^ k := by
  have bound := x.isLt
  have quotient := Nat.div_add_mod' x.toNat (2 ^ k)
  have inside : x.toNat / 2 ^ k * 2 ^ k < 2 ^ w := by omega
  rw [and_neg_twoPow x small, BitVec.toNat_shiftLeft, BitVec.toNat_ushiftRight,
    Nat.shiftRight_eq_div_pow, Nat.shiftLeft_eq, Nat.mod_eq_of_lt inside]
  omega

end JvmDemo.Lib
