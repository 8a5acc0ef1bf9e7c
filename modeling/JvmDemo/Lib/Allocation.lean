import JvmDemo.Lib.Words

/-!
# The contract of a C allocator

A program with a state of type `σ` calls `calloc` and `realloc`.  The contract
says what the calls do to the set of live blocks: a block is one that an earlier
call returned and no call has released, and `realloc` is defined only on the
address at which a live block starts.  It then releases that block, also where
the new one starts at the same address.  Where a call may fail or move a block,
the contract leaves it open.
-/

namespace JvmDemo.Lib

/-- The size of the live block that starts at an address. -/
abbrev LiveBlocks := DWord → Option Nat

namespace LiveBlocks

variable (live : LiveBlocks)

/-- With a block that has been allocated. -/
def insert (start : DWord) (size : Nat) : LiveBlocks :=
  fun address => if address = start then some size else live address

/-- Without a block that has been released. -/
def erase (start : DWord) : LiveBlocks :=
  fun address => if address = start then none else live address

@[simp]
theorem insert_self (start : DWord) (size : Nat) : live.insert start size start = some size :=
  if_pos rfl

theorem insert_of_ne {start address : DWord} (size : Nat) (differ : address ≠ start) :
    live.insert start size address = live address :=
  if_neg differ

theorem erase_of_ne {start address : DWord} (differ : address ≠ start) :
    live.erase start address = live address :=
  if_neg differ

/-- There is room for a block: it does not start at the null pointer, ends in the
address space, and meets no live block. -/
structure Room (start : DWord) (size : Nat) : Prop where
  notNull : start ≠ 0
  inside : start.toNat + size ≤ 2 ^ 64
  apart : ∀ other otherSize, live other = some otherSize →
    start.toNat + size ≤ other.toNat ∨ other.toNat + otherSize ≤ start.toNat

/-- No other block starts inside a block. -/
theorem Room.eq_none {live : LiveBlocks} {start address : DWord} {size : Nat}
    (room : live.Room start size) (above : start.toNat < address.toNat)
    (below : address.toNat < start.toNat + size) : live address = none := by
  cases found : live address with
  | none => rfl
  | some otherSize =>
      have apart := room.apart address otherSize found
      omega

end LiveBlocks

/-- The calls, as functions of the state; they may also not return. -/
structure Allocator (ε σ : Type) where
  calloc : DWord → σ → Except ε (DWord × σ)
  realloc : DWord → DWord → σ → Except ε (DWord × σ)

/-- The allocator keeps the contract, with `illegal` for a call that it leaves
undefined. -/
structure Allocator.Obeys {ε σ : Type} (allocator : Allocator ε σ) (live : σ → LiveBlocks)
    (illegal : ε) : Prop where
  calloc_null : ∀ {size state after}, allocator.calloc size state = .ok (0, after) →
    live after = live state
  calloc_block : ∀ {size state block after}, allocator.calloc size state = .ok (block, after) →
    block ≠ 0 → (live state).Room block size.toNat ∧
      live after = (live state).insert block size.toNat
  realloc_illegal : ∀ {start size state}, live state start = none →
    allocator.realloc start size state = .error illegal
  realloc_legal : ∀ {start size state}, live state start ≠ none →
    allocator.realloc start size state ≠ .error illegal
  realloc_null : ∀ {start size state after},
    allocator.realloc start size state = .ok (0, after) →
      live after = if size = 0 then (live state).erase start else live state
  realloc_block : ∀ {start size state block after},
    allocator.realloc start size state = .ok (block, after) → block ≠ 0 →
      ((live state).erase start).Room block size.toNat ∧
        live after = ((live state).erase start).insert block size.toNat

end JvmDemo.Lib
