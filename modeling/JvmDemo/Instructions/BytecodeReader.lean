import JvmDemo.Lib.Reader
import JvmDemo.Runtime.Fault

/-!
# The bytecode reader

`BytecodeReader` walks over the code vector of a method.  Every read goes
through `vector::at`, which throws past the end.  The reader's position is a
natural number here: a negative `pc_` makes the first read throw, and code
vectors come from class files of fewer than `2 ^ 31` bytes.
-/

namespace JvmDemo.Instructions

open JvmDemo.Lib
open JvmDemo.Runtime
open JvmDemo.Lib.Reader (Reads)

abbrev BytecodeReader := Reader Fault

namespace BytecodeReader

/-- What `vector::at` throws. -/
def outOfRange : Fault := .thrown "std::out_of_range"

/-- `ReadUnsignedInt8`. -/
def readUnsignedInt8 : BytecodeReader Byte := Reader.next outOfRange

/-- `ReadInt8`: the same bits, read as signed. -/
def readInt8 : BytecodeReader (BitVec 8) := readUnsignedInt8

/-- `ReadUnsignedInt16`. -/
def readUnsignedInt16 : BytecodeReader (BitVec 16) := do
  let b1 ← readUnsignedInt8
  let b2 ← readUnsignedInt8
  pure ((b1.setWidth 16 <<< 8) ||| b2.setWidth 16)

/-- `ReadInt16`. -/
def readInt16 : BytecodeReader (BitVec 16) := readUnsignedInt16

/-- `readInt32`. -/
def readInt32 : BytecodeReader (BitVec 32) := do
  let b1 ← readUnsignedInt8
  let b2 ← readUnsignedInt8
  let b3 ← readUnsignedInt8
  let b4 ← readUnsignedInt8
  pure ((b1.setWidth 32 <<< 24) ||| (b2.setWidth 32 <<< 16) ||| (b3.setWidth 32 <<< 8) |||
    b4.setWidth 32)

/-- `readInt32s`: a signed loop bound, so a negative count reads nothing. -/
def readInt32s (n : BitVec 32) : BytecodeReader (List (BitVec 32)) :=
  Reader.times readInt32 n.toInt.toNat

/-- The loop of `skipPadding`, which runs at most three times. -/
def skipPaddingLoop : Nat → BytecodeReader Unit
  | 0 => pure ()
  | fuel + 1 => do
      let pc ← Reader.position
      if pc % 4 = 0 then pure ()
      else
        let _ ← readUnsignedInt8
        skipPaddingLoop fuel

/-- `skipPadding`. -/
def skipPadding : BytecodeReader Unit := skipPaddingLoop 3

/-! ## What the reads return -/

theorem reads_readUnsignedInt8 (pc : Nat) (byte : Byte) : Reads readUnsignedInt8 pc [byte] byte :=
  Reader.reads_next _ _ _

theorem reads_readUnsignedInt16 (pc : Nat) (value : BitVec 16) :
    Reads readUnsignedInt16 pc (be16 value) value := by
  apply Reader.reads_next_bind
  apply Reader.reads_next_bind
  rw [be16_join]
  exact Reader.reads_pure value _

theorem reads_readInt32 (pc : Nat) (value : BitVec 32) :
    Reads readInt32 pc (be32 value) value := by
  apply Reader.reads_next_bind
  apply Reader.reads_next_bind
  apply Reader.reads_next_bind
  apply Reader.reads_next_bind
  rw [be32_join]
  exact Reader.reads_pure value _

/-- A table of as many entries as the count says. -/
theorem reads_readInt32s (pc : Nat) {n : BitVec 32} {values : List (BitVec 32)}
    (count : n.toInt = values.length) : Reads (readInt32s n) pc (values.flatMap be32) values := by
  rw [readInt32s, count, Int.toNat_natCast]
  exact Reader.reads_times values (fun pc value _ => reads_readInt32 pc value) pc

/-- The number of padding bytes before operands that are aligned to a multiple
of four. -/
def padding (pc : Nat) : Nat := (4 - pc % 4) % 4

theorem reads_skipPaddingLoop (fuel pc : Nat) (pad : List Byte)
    (length_pad : pad.length = padding pc) (enough : padding pc ≤ fuel) :
    Reads (skipPaddingLoop fuel) pc pad () := by
  induction fuel generalizing pc pad with
  | zero =>
      obtain rfl : pad = [] := List.eq_nil_of_length_eq_zero (by omega)
      exact Reader.reads_pure () pc
  | succ fuel ih =>
      by_cases aligned : pc % 4 = 0
      · have none : pad.length = 0 := by simp [length_pad, padding, aligned]
        obtain rfl : pad = [] := List.eq_nil_of_length_eq_zero none
        refine (Reader.reads_position pc).bind ?_
        rw [if_pos aligned]
        exact Reader.reads_pure () _
      · have padding_succ : padding (pc + 1) + 1 = padding pc := by
          unfold padding
          omega
        cases pad with
        | nil =>
            simp only [List.length_nil] at length_pad
            omega
        | cons byte pad =>
            simp only [List.length_cons] at length_pad
            refine (Reader.reads_position pc).bind ?_
            rw [if_neg aligned]
            exact (reads_readUnsignedInt8 _ byte).bind (ih _ pad (by simp; omega) (by simp; omega))

theorem reads_skipPadding (pc : Nat) (pad : List Byte) (length_pad : pad.length = padding pc) :
    Reads skipPadding pc pad () := by
  apply reads_skipPaddingLoop 3 pc pad length_pad
  unfold padding
  omega

end BytecodeReader

end JvmDemo.Instructions
