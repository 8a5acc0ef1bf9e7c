import Mathlib.Data.List.Basic

/-!
# Occurrences of a pattern in a text

`findSub` looks for the first occurrence of a pattern, `findLast` for the last
one of a value.  `Replaced` says what the replacement of all occurrences from
left to right is: at every position the pattern occurs and is replaced, and the
text behind it is next, or it does not occur, and one element is kept.

A text that is split at a separator has one part more than it has separators.
-/

namespace JvmDemo.Lib

universe u

variable {α : Type u}

/-- A text is cut at the last occurrence of a value. -/
theorem eq_append_cons_of_last {value : α} {text : List α} (mem : value ∈ text) :
    ∃ front rest, text = front ++ value :: rest ∧ value ∉ rest := by
  rcases List.eq_append_cons_of_mem (List.mem_reverse.mpr mem) with ⟨later, earlier, split, absent⟩
  refine ⟨earlier.reverse, later.reverse, ?_, by rwa [List.mem_reverse]⟩
  rw [← List.reverse_reverse text, split, List.reverse_append, List.reverse_cons,
    List.append_assoc]
  rfl

section Search

variable [DecidableEq α]

/-- The position of the first occurrence of a pattern. -/
def findSub (pattern : List α) : List α → Option Nat
  | [] => if pattern = [] then some 0 else none
  | first :: rest =>
      if pattern <+: first :: rest then some 0 else (findSub pattern rest).map (· + 1)

/-- The pattern stands at the position that is found, and not before it. -/
theorem findSub_eq_some {pattern text : List α} {pos : Nat}
    (found : findSub pattern text = some pos) :
    ∃ front rest, text = front ++ (pattern ++ rest) ∧ front.length = pos ∧
      ∀ earlier, earlier < pos → ¬ pattern <+: text.drop earlier := by
  induction text generalizing pos with
  | nil =>
      rw [findSub] at found
      split at found
      case isTrue empty =>
        cases found
        refine ⟨[], [], by rw [empty]; rfl, rfl, ?_⟩
        exact fun earlier before => absurd before (Nat.not_lt_zero _)
      case isFalse => cases found
  | cons first text ih =>
      rw [findSub] at found
      split at found
      case isTrue here =>
        cases found
        rcases here with ⟨rest, split⟩
        refine ⟨[], rest, split.symm, rfl, ?_⟩
        exact fun earlier before => absurd before (Nat.not_lt_zero _)
      case isFalse elsewhere =>
        rcases Option.map_eq_some_iff.mp found with ⟨later, laterFound, rfl⟩
        rcases ih laterFound with ⟨front, rest, split, length, none⟩
        refine ⟨first :: front, rest, by rw [split]; rfl, by rw [← length]; rfl, ?_⟩
        intro earlier before
        cases earlier with
        | zero => exact elsewhere
        | succ earlier => exact none earlier (Nat.lt_of_succ_lt_succ before)

/-- Nothing is found exactly where the pattern does not occur. -/
theorem findSub_eq_none_iff {pattern text : List α} :
    findSub pattern text = none ↔ ¬ pattern <:+: text := by
  induction text with
  | nil =>
      rw [findSub, List.infix_nil]
      by_cases empty : pattern = []
      · simp [empty]
      · simp [empty]
  | cons first text ih =>
      rw [findSub, List.infix_cons_iff, not_or, ← ih]
      by_cases here : pattern <+: first :: text
      · simp [here]
      · simp [here]

/-- A single element is found at its first occurrence. -/
theorem findSub_singleton {separator : α} {front : List α} (absent : separator ∉ front)
    (rest : List α) : findSub [separator] (front ++ separator :: rest) = some front.length := by
  induction front with
  | nil =>
      have here : [separator] <+: separator :: rest := ⟨rest, rfl⟩
      rw [List.nil_append, findSub, if_pos here]
      rfl
  | cons first front ih =>
      rw [List.mem_cons, not_or] at absent
      have elsewhere : ¬ [separator] <+: first :: (front ++ separator :: rest) := by
        rw [List.cons_prefix_cons]
        exact fun same => absent.1 same.1
      rw [List.cons_append, findSub, if_neg elsewhere, ih absent.2]
      rfl

theorem findSub_singleton_eq_none_iff {separator : α} {text : List α} :
    findSub [separator] text = none ↔ separator ∉ text := by
  rw [findSub_eq_none_iff, not_iff_not]
  constructor
  · exact fun occurs => occurs.subset (List.mem_singleton_self _)
  · intro mem
    rcases List.append_of_mem mem with ⟨front, rest, split⟩
    exact ⟨front, rest, by rw [split, List.append_assoc]; rfl⟩

/-- The position of the last occurrence of a value. -/
def findLast (value : α) : List α → Option Nat
  | [] => none
  | first :: rest =>
      match findLast value rest with
      | some pos => some (pos + 1)
      | none => if first = value then some 0 else none

theorem findLast_eq_none {value : α} {text : List α} (absent : value ∉ text) :
    findLast value text = none := by
  induction text with
  | nil => rfl
  | cons first text ih =>
      rw [List.mem_cons, not_or] at absent
      rw [findLast, ih absent.2]
      exact if_neg (Ne.symm absent.1)

theorem findLast_append_cons {value : α} {rest : List α} (absent : value ∉ rest)
    (front : List α) : findLast value (front ++ value :: rest) = some front.length := by
  induction front with
  | nil =>
      rw [List.nil_append, findLast, findLast_eq_none absent]
      exact if_pos rfl
  | cons first front ih =>
      rw [List.cons_append, findLast, ih]
      rfl

end Search

/-! ## Replacement from left to right -/

/-- The text with every occurrence of the pattern replaced, from left to right and without
overlaps; what is put in is not looked at again. -/
inductive Replaced (pattern new : List α) : List α → List α → Prop where
  | nil : Replaced pattern new [] []
  | keep {first rest result} (elsewhere : ¬ pattern <+: first :: rest)
      (later : Replaced pattern new rest result) :
      Replaced pattern new (first :: rest) (first :: result)
  | replace {rest result} (later : Replaced pattern new rest result) :
      Replaced pattern new (pattern ++ rest) (new ++ result)

namespace Replaced

variable {pattern new text result other : List α}

/-- Without an occurrence the text stays. -/
theorem of_absent (absent : ¬ pattern <:+: text) : Replaced pattern new text text := by
  induction text with
  | nil => exact .nil
  | cons first text ih =>
      rw [List.infix_cons_iff, not_or] at absent
      exact .keep absent.1 (ih absent.2)

/-- The first occurrence is replaced, and what stands before it is kept. -/
theorem of_first {front rest : List α}
    (none : ∀ earlier, earlier < front.length →
      ¬ pattern <+: (front ++ (pattern ++ rest)).drop earlier)
    (later : Replaced pattern new rest result) :
    Replaced pattern new (front ++ (pattern ++ rest)) (front ++ (new ++ result)) := by
  induction front with
  | nil => exact .replace later
  | cons first front ih =>
      have elsewhere := none 0 (Nat.succ_pos _)
      exact .keep elsewhere (ih fun earlier before => none (earlier + 1) (Nat.succ_lt_succ before))

/-- There is one result at most. -/
theorem unique (nonempty : pattern ≠ []) (replaced : Replaced pattern new text result)
    (otherReplaced : Replaced pattern new text other) : result = other := by
  induction replaced generalizing other with
  | nil =>
      generalize empty : ([] : List α) = text at otherReplaced
      cases otherReplaced with
      | nil => rfl
      | keep => cases empty
      | replace =>
          rw [eq_comm, List.append_eq_nil_iff] at empty
          exact absurd empty.1 nonempty
  | @keep first rest result elsewhere later ih =>
      generalize whole : first :: rest = text at otherReplaced
      cases otherReplaced with
      | nil => cases whole
      | keep _ otherLater =>
          cases whole
          rw [ih otherLater]
      | replace =>
          rw [whole] at elsewhere
          exact absurd (List.prefix_append _ _) elsewhere
  | @replace rest result later ih =>
      generalize whole : pattern ++ rest = text at otherReplaced
      cases otherReplaced with
      | nil =>
          rw [List.append_eq_nil_iff] at whole
          exact absurd whole.1 nonempty
      | keep elsewhere _ =>
          rw [← whole] at elsewhere
          exact absurd (List.prefix_append _ _) elsewhere
      | replace otherLater =>
          rw [List.append_cancel_left_eq] at whole
          subst whole
          rw [ih otherLater]

/-- A single element is replaced wherever it stands. -/
theorem of_singleton [DecidableEq α] (old new : α) (text : List α) :
    Replaced [old] [new] text (text.map fun value => if value = old then new else value) := by
  induction text with
  | nil => exact .nil
  | cons first text ih =>
      by_cases same : first = old
      · rw [List.map_cons, if_pos same, same]
        exact .replace ih
      · rw [List.map_cons, if_neg same]
        apply Replaced.keep _ ih
        rw [List.cons_prefix_cons]
        exact fun found => same found.1.symm

end Replaced

/-! ## Parts between separators -/

section Parts

variable [DecidableEq α]

theorem length_splitOn (separator : α) (text : List α) :
    (text.splitOn separator).length = text.count separator + 1 := by
  induction text with
  | nil => rfl
  | cons first text ih =>
      rw [List.splitOn_cons_eq_if_modifyHead]
      by_cases same : first = separator
      · simp [same, ih]
      · simp [same, ih]

/-- No part contains the separator. -/
theorem not_mem_of_mem_splitOn {separator : α} {text part : List α}
    (mem : part ∈ text.splitOn separator) : separator ∉ part := by
  induction text generalizing part with
  | nil =>
      rw [List.splitOn_nil, List.mem_singleton] at mem
      rw [mem]
      exact List.not_mem_nil
  | cons first text ih =>
      rw [List.splitOn_cons_eq_if_modifyHead] at mem
      by_cases same : first = separator
      · rw [if_pos (beq_iff_eq.mpr same), List.mem_cons] at mem
        rcases mem with rfl | later
        · exact List.not_mem_nil
        · exact ih later
      · rw [if_neg (beq_iff_eq.not.mpr same)] at mem
        cases parts : text.splitOn separator with
        | nil => exact absurd parts (List.splitOn_ne_nil _ _)
        | cons head tail =>
            rw [parts, List.modifyHead_cons, List.mem_cons] at mem
            rcases mem with rfl | later
            · rw [List.mem_cons, not_or]
              exact ⟨Ne.symm same, ih (by rw [parts]; exact List.mem_cons_self)⟩
            · exact ih (by rw [parts]; exact List.mem_cons_of_mem _ later)

end Parts

end JvmDemo.Lib
