import Mathlib.Algebra.Order.Ring.Nat
import Mathlib.Data.List.Basic

/-!
# Block reads and writes on a list of cells

Values of different widths share one array.  A write replaces a block of
consecutive cells, a read returns one.  The laws below say what a read returns
after a write to the same block and after a write to a disjoint block.
-/

namespace JvmDemo.Lib.Cells

universe u

variable {α : Type u}

/-- Replace the cells from `start` on by `block`, one after the other. -/
def blit (cells : List α) (start : Nat) : List α → List α
  | [] => cells
  | value :: block => blit (cells.set start value) (start + 1) block

/-- The `count` cells from `start` on. -/
def slice (cells : List α) (start count : Nat) : List α :=
  (cells.drop start).take count

/-- Two blocks of cells have no cell in common. -/
def Disjoint (firstStart firstCount secondStart secondCount : Nat) : Prop :=
  firstStart + firstCount ≤ secondStart ∨ secondStart + secondCount ≤ firstStart

instance (a b c d : Nat) : Decidable (Disjoint a b c d) :=
  inferInstanceAs (Decidable (_ ∨ _))

theorem Disjoint.symm {a b c d : Nat} (disjoint : Disjoint a b c d) : Disjoint c d a b :=
  Or.symm disjoint

@[simp]
theorem length_blit (cells : List α) (start : Nat) (block : List α) :
    (blit cells start block).length = cells.length := by
  induction block generalizing cells start with
  | nil => rfl
  | cons value block ih => simp [blit, ih]

/-- A cell outside the written block keeps its content. -/
theorem getElem?_blit_of_outside (cells : List α) (start : Nat) (block : List α) {i : Nat}
    (outside : i < start ∨ start + block.length ≤ i) :
    (blit cells start block)[i]? = cells[i]? := by
  induction block generalizing cells start with
  | nil => rfl
  | cons value block ih =>
      simp only [List.length_cons] at outside
      rw [blit, ih _ _ (by omega), List.getElem?_set_ne (by omega)]

/-- A cell inside the written block holds the written value. -/
theorem getElem?_blit_of_inside (cells : List α) (start : Nat) (block : List α) {i : Nat}
    (inside : i < block.length) (fits : start + block.length ≤ cells.length) :
    (blit cells start block)[start + i]? = block[i]? := by
  induction block generalizing cells start i with
  | nil => simp at inside
  | cons value block ih =>
      simp only [List.length_cons] at inside fits
      cases i with
      | zero =>
          rw [blit, getElem?_blit_of_outside _ _ _ (by omega)]
          simp [List.getElem?_set_self (show start < cells.length by omega)]
      | succ i =>
          have rest : (blit (cells.set start value) (start + 1) block)[start + 1 + i]? =
              block[i]? := by
            apply ih
            · omega
            · rw [List.length_set]
              omega
          rw [blit, show start + (i + 1) = start + 1 + i by omega, rest]
          simp

theorem getElem?_slice (cells : List α) (start count i : Nat) :
    (slice cells start count)[i]? = if i < count then cells[start + i]? else none := by
  simp [slice, List.getElem?_take, List.getElem?_drop]

/-- Reading back a written block returns it. -/
theorem slice_blit_self (cells : List α) (start : Nat) (block : List α)
    (fits : start + block.length ≤ cells.length) :
    slice (blit cells start block) start block.length = block := by
  apply List.ext_getElem?
  intro i
  rw [getElem?_slice]
  by_cases inside : i < block.length
  · rw [if_pos inside, getElem?_blit_of_inside _ _ _ inside fits]
  · rw [if_neg inside, List.getElem?_eq_none (by omega)]

/-- A write leaves every disjoint block as it was. -/
theorem slice_blit_of_disjoint (cells : List α) {start count writeStart : Nat} {block : List α}
    (disjoint : Disjoint start count writeStart block.length) :
    slice (blit cells writeStart block) start count = slice cells start count := by
  apply List.ext_getElem?
  intro i
  rw [getElem?_slice, getElem?_slice]
  by_cases inside : i < count
  · rw [if_pos inside, if_pos inside, getElem?_blit_of_outside]
    unfold Disjoint at disjoint
    omega
  · rw [if_neg inside, if_neg inside]

/-- The cells below a written block are untouched. -/
theorem take_blit (cells : List α) (start : Nat) (block : List α) :
    (blit cells start block).take start = cells.take start := by
  have below : Disjoint 0 start start block.length := Or.inl (by omega)
  simpa [slice] using slice_blit_of_disjoint cells below

/-- The cells up to the end of a written block are the cells below it followed
by the block. -/
theorem take_blit_add (cells : List α) (start : Nat) (block : List α)
    (fits : start + block.length ≤ cells.length) :
    (blit cells start block).take (start + block.length) = cells.take start ++ block := by
  rw [List.take_add, take_blit]
  congr 1
  exact slice_blit_self cells start block fits

/-- The end of a known leading part is the block found there. -/
theorem slice_of_take_eq {cells below block : List α}
    (held : cells.take (below.length + block.length) = below ++ block) :
    slice cells below.length block.length = block := by
  have dropped := congrArg (List.drop below.length) held
  rw [List.drop_take] at dropped
  simpa [slice] using dropped

/-! ## Two writes -/

/-- A cell of a written block. -/
theorem getElem?_blit_of_range (cells : List α) {start : Nat} {block : List α}
    (fits : start + block.length ≤ cells.length) {i : Nat} (lower : start ≤ i)
    (upper : i < start + block.length) : (blit cells start block)[i]? = block[i - start]? := by
  have within : i - start < block.length := by omega
  have cell := getElem?_blit_of_inside cells start block within fits
  rwa [Nat.add_sub_cancel' lower] at cell

/-- Disjoint blocks are written in either order. -/
theorem blit_comm (cells : List α) {start other : Nat} {block otherBlock : List α}
    (fits : start + block.length ≤ cells.length)
    (otherFits : other + otherBlock.length ≤ cells.length)
    (disjoint : Disjoint start block.length other otherBlock.length) :
    blit (blit cells start block) other otherBlock =
      blit (blit cells other otherBlock) start block := by
  unfold Disjoint at disjoint
  apply List.ext_getElem?
  intro i
  by_cases first : start ≤ i ∧ i < start + block.length
  · rw [getElem?_blit_of_outside _ _ _ (by omega),
      getElem?_blit_of_range _ fits first.1 first.2,
      getElem?_blit_of_range _ (by rwa [length_blit]) first.1 first.2]
  · by_cases second : other ≤ i ∧ i < other + otherBlock.length
    · rw [getElem?_blit_of_range _ (by rwa [length_blit]) second.1 second.2,
        getElem?_blit_of_outside _ start block (by omega),
        getElem?_blit_of_range _ otherFits second.1 second.2]
    · rw [getElem?_blit_of_outside _ _ _ (by omega), getElem?_blit_of_outside _ _ _ (by omega),
        getElem?_blit_of_outside _ _ _ (by omega), getElem?_blit_of_outside _ _ _ (by omega)]

/-- A block that is not shorter overwrites the one before. -/
theorem blit_blit_of_length_le (cells : List α) {start : Nat} {block later : List α}
    (covers : block.length ≤ later.length) (fits : start + later.length ≤ cells.length) :
    blit (blit cells start block) start later = blit cells start later := by
  apply List.ext_getElem?
  intro i
  by_cases written : start ≤ i ∧ i < start + later.length
  · rw [getElem?_blit_of_range _ (by rwa [length_blit]) written.1 written.2,
      getElem?_blit_of_range _ fits written.1 written.2]
  · rw [getElem?_blit_of_outside _ _ _ (by omega), getElem?_blit_of_outside _ _ _ (by omega),
      getElem?_blit_of_outside _ _ _ (by omega)]

/-! ## Sequences of writes -/

/-- Blocks written one after the other, each with its start. -/
def blitAll (cells : List α) : List (Nat × List α) → List α
  | [] => cells
  | (start, block) :: writes => blitAll (blit cells start block) writes

@[simp]
theorem length_blitAll (cells : List α) (writes : List (Nat × List α)) :
    (blitAll cells writes).length = cells.length := by
  induction writes generalizing cells with
  | nil => rfl
  | cons write writes ih => simp [blitAll, ih]

theorem blitAll_append (cells : List α) (first second : List (Nat × List α)) :
    blitAll cells (first ++ second) = blitAll (blitAll cells first) second := by
  induction first generalizing cells with
  | nil => rfl
  | cons write first ih => simp [blitAll, ih]

/-- Writes leave a block as it was when each of them is disjoint from it. -/
theorem slice_blitAll_of_disjoint (cells : List α) {start count : Nat}
    (writes : List (Nat × List α))
    (disjoint : ∀ write ∈ writes, Disjoint start count write.1 write.2.length) :
    slice (blitAll cells writes) start count = slice cells start count := by
  induction writes generalizing cells with
  | nil => rfl
  | cons write writes ih =>
      have here := disjoint write List.mem_cons_self
      rw [blitAll, ih _ fun later mem => disjoint later (List.mem_cons_of_mem _ mem),
        slice_blit_of_disjoint cells here]

/-- A block reads as it was last written when every later write is disjoint from
it. -/
theorem slice_blitAll_last (cells : List α) (before after : List (Nat × List α)) (start : Nat)
    (block : List α) (fits : start + block.length ≤ cells.length)
    (disjoint : ∀ later ∈ after, Disjoint start block.length later.1 later.2.length) :
    slice (blitAll cells (before ++ (start, block) :: after)) start block.length = block := by
  rw [blitAll_append, blitAll, slice_blitAll_of_disjoint _ after disjoint]
  exact slice_blit_self _ start block (by rw [length_blitAll]; exact fits)

/-- A cell that some write covers has a written value. -/
theorem getElem?_blitAll_of_covered (cells : List α) {holds : α → Prop} {i : Nat}
    (writes : List (Nat × List α))
    (fits : ∀ write ∈ writes, write.1 + write.2.length ≤ cells.length)
    (written : ∀ write ∈ writes, ∀ value ∈ write.2, holds value)
    (covered : (∃ value, cells[i]? = some value ∧ holds value) ∨
      ∃ write ∈ writes, write.1 ≤ i ∧ i < write.1 + write.2.length) :
    ∃ value, (blitAll cells writes)[i]? = some value ∧ holds value := by
  induction writes generalizing cells with
  | nil =>
      rcases covered with held | ⟨write, mem, -⟩
      · exact held
      · cases mem
  | cons write writes ih =>
      have inside := fits write List.mem_cons_self
      apply ih
      · intro later mem
        rw [length_blit]
        exact fits later (List.mem_cons_of_mem _ mem)
      · exact fun later mem => written later (List.mem_cons_of_mem _ mem)
      · by_cases here : write.1 ≤ i ∧ i < write.1 + write.2.length
        · left
          have offset : i - write.1 < write.2.length := by omega
          refine ⟨write.2[i - write.1], ?_, written write List.mem_cons_self _ (List.getElem_mem _)⟩
          have cell := getElem?_blit_of_inside cells write.1 write.2 offset inside
          rwa [Nat.add_sub_cancel' here.1, List.getElem?_eq_getElem offset] at cell
        · rcases covered with ⟨value, found, good⟩ | ⟨other, mem, covers⟩
          · left
            refine ⟨value, ?_, good⟩
            rw [getElem?_blit_of_outside _ _ _ (by omega), found]
          · rcases List.mem_cons.mp mem with rfl | later
            · exact absurd covers here
            · exact Or.inr ⟨other, later, covers⟩

/-! ## Blocks laid out one after the other -/

/-- Blocks, each with its start and its size, that follow each other from one
cell to another. -/
inductive Tiles : Nat → List (Nat × Nat) → Nat → Prop where
  | nil (start : Nat) : Tiles start [] start
  | cons {start count stop : Nat} {blocks : List (Nat × Nat)} :
      Tiles (start + count) blocks stop → Tiles start ((start, count) :: blocks) stop

namespace Tiles

variable {start middle stop : Nat} {blocks others : List (Nat × Nat)}

theorem le (tiles : Tiles start blocks stop) : start ≤ stop := by
  induction tiles with
  | nil => exact Nat.le_refl _
  | cons _ ih => exact Nat.le_trans (Nat.le_add_right _ _) ih

theorem append (first : Tiles start blocks middle) (second : Tiles middle others stop) :
    Tiles start (blocks ++ others) stop := by
  induction first with
  | nil => exact second
  | cons _ ih => exact .cons (ih second)

theorem inside (tiles : Tiles start blocks stop) :
    ∀ block ∈ blocks, start ≤ block.1 ∧ block.1 + block.2 ≤ stop := by
  induction tiles with
  | nil =>
      rintro block ⟨⟩
  | cons tiles ih =>
      intro block mem
      rcases List.mem_cons.mp mem with rfl | rest
      · exact ⟨Nat.le_refl _, tiles.le⟩
      · rcases ih block rest with ⟨lower, upper⟩
        exact ⟨Nat.le_trans (Nat.le_add_right _ _) lower, upper⟩

/-- A block starts behind those before it. -/
theorem start_eq {count first : Nat} (tiles : Tiles start (blocks ++ (first, count) :: others) stop) :
    first = start + (blocks.map Prod.snd).sum := by
  induction blocks generalizing start with
  | nil =>
      cases tiles
      rfl
  | cons block blocks ih =>
      cases tiles with
      | cons rest =>
          rw [ih rest, List.map_cons, List.sum_cons, Nat.add_assoc]

theorem pairwise_disjoint (tiles : Tiles start blocks stop) :
    blocks.Pairwise fun first second => Disjoint first.1 first.2 second.1 second.2 := by
  induction tiles with
  | nil => exact .nil
  | cons tiles ih => exact .cons (fun block mem => Or.inl (tiles.inside block mem).1) ih

theorem covered (tiles : Tiles start blocks stop) {cell : Nat} (lower : start ≤ cell)
    (upper : cell < stop) : ∃ block ∈ blocks, block.1 ≤ cell ∧ cell < block.1 + block.2 := by
  induction tiles with
  | nil => exact absurd upper (Nat.not_lt.mpr lower)
  | @cons start count stop blocks tiles ih =>
      by_cases here : cell < start + count
      · exact ⟨(start, count), List.mem_cons_self, lower, here⟩
      · rcases ih (Nat.le_of_not_lt here) upper with ⟨block, mem, within⟩
        exact ⟨block, List.mem_cons_of_mem _ mem, within⟩

end Tiles

end JvmDemo.Lib.Cells
