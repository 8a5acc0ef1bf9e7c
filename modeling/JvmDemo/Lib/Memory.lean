import JvmDemo.Lib.Words

/-!
# Byte-addressed memory

A memory gives every address a byte.  Words are read and written in
little-endian order at any address.
-/

namespace JvmDemo.Lib

/-- The content of every address. -/
abbrev Memory := Nat → Byte

namespace Memory

/-- Write one byte. -/
def write8 (memory : Memory) (address : Nat) (value : Byte) : Memory := fun i =>
  if i = address then value else memory i

/-- The 32-bit word at an address. -/
def read32 (memory : Memory) (address : Nat) : Word :=
  (memory address).setWidth 32 ||| (memory (address + 1)).setWidth 32 <<< 8 |||
    (memory (address + 2)).setWidth 32 <<< 16 ||| (memory (address + 3)).setWidth 32 <<< 24

/-- Write a 32-bit word. -/
def write32 (memory : Memory) (address : Nat) (value : Word) : Memory := fun i =>
  if address ≤ i ∧ i < address + 4 then value.extractLsb' (8 * (i - address)) 8 else memory i

/-- The 64-bit word at an address. -/
def read64 (memory : Memory) (address : Nat) : DWord :=
  DWord.join (memory.read32 address) (memory.read32 (address + 4))

/-- Write a 64-bit word. -/
def write64 (memory : Memory) (address : Nat) (value : DWord) : Memory :=
  (memory.write32 address value.low).write32 (address + 4) value.high

/-! ## What a read finds after a write -/

variable {memory : Memory} {address other : Nat}

theorem write32_of_outside (value : Word) (outside : other < address ∨ address + 4 ≤ other) :
    memory.write32 address value other = memory other := by
  rw [write32, if_neg (by omega)]

theorem write32_of_inside (value : Word) {i : Nat} (inside : i < 4) :
    memory.write32 address value (address + i) = value.extractLsb' (8 * i) 8 := by
  rw [write32, if_pos (by omega), Nat.add_sub_cancel_left]

/-- The bytes of a word, shifted to their places, make the word. -/
theorem le32_join (value : Word) :
    (value.extractLsb' 0 8).setWidth 32 ||| (value.extractLsb' 8 8).setWidth 32 <<< 8 |||
      (value.extractLsb' 16 8).setWidth 32 <<< 16 ||| (value.extractLsb' 24 8).setWidth 32 <<< 24 =
      value := by
  have reverse (first second third fourth : Word) :
      first ||| second ||| third ||| fourth = fourth ||| third ||| second ||| first := by
    ac_rfl
  rw [reverse]
  exact be32_join value

theorem read32_write32_self (memory : Memory) (address : Nat) (value : Word) :
    (memory.write32 address value).read32 address = value := by
  have first : memory.write32 address value (address + 0) = value.extractLsb' (8 * 0) 8 :=
    write32_of_inside value (by omega)
  rw [read32, write32_of_inside value (show 1 < 4 by omega),
    write32_of_inside value (show 2 < 4 by omega), write32_of_inside value (show 3 < 4 by omega)]
  rw [Nat.add_zero] at first
  rw [first]
  exact le32_join value

/-- A write leaves the words that it does not overlap. -/
theorem read32_write32_of_apart (value : Word) (apart : other + 4 ≤ address ∨ address + 4 ≤ other) :
    (memory.write32 address value).read32 other = memory.read32 other := by
  rw [read32, read32, write32_of_outside value (by omega), write32_of_outside value (by omega),
    write32_of_outside value (by omega), write32_of_outside value (by omega)]

end Memory

end JvmDemo.Lib
