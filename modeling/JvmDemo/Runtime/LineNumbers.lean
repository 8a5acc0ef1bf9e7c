import JvmDemo.Classfile.Types
import JvmDemo.Runtime.Class

/-!
# Line numbers of a method

The constructor of `Method` copies the first `LineNumberTable` attribute of the
`Code` attribute, and `GetLineNumber` returns the line of the first entry whose
`start_pc` is not above the pc.  Compilers emit the entries by ascending
`start_pc`, so the first entry of the table answers for every pc behind its
start, whatever the other entries say.
-/

namespace JvmDemo.Runtime

open JvmDemo.Lib
open JvmDemo.Classfile

/-- A `LineNumberEntry`. -/
structure LineNumberEntry where
  startPc : BitVec 16
  lineNumber : BitVec 16
  deriving DecidableEq, Repr

namespace LineNumberEntry

/-- `pc >= entry.start_pc`, with both sides converted to `int`. -/
def StartsBy (entry : LineNumberEntry) (pc : Word) : Prop := (entry.startPc.toNat : Int) ≤ pc.toInt

instance (entry : LineNumberEntry) (pc : Word) : Decidable (entry.StartsBy pc) :=
  inferInstanceAs (Decidable (_ ≤ _))

/-- `(int32_t)entry.line_number`. -/
def line (entry : LineNumberEntry) : Word := entry.lineNumber.setWidth 32

end LineNumberEntry

namespace Method

/-- The loop of the constructor over the attributes of a `Code` attribute: the
first `LineNumberTable` is copied.  Without one, `line_number_table_` stays what it
was before. -/
def copyLineNumberTable (before : Option (List LineNumberEntry)) :
    List AttributeInfo → Option (List LineNumberEntry)
  | [] => before
  | .lineNumberTable entries :: _ =>
      some (entries.map fun entry => ⟨entry.startPc, entry.lineNumber⟩)
  | _ :: attributes => copyLineNumberTable before attributes

/-- `GetLineNumber`, with `line_number_table_`. -/
def getLineNumber (method : Method) (lineNumberTable : Option (List LineNumberEntry))
    (pc : Word) : Word :=
  if method.isNative then -2
  else match lineNumberTable with
    | none => -1
    | some entries =>
        match entries.find? fun entry => decide (entry.StartsBy pc) with
        | some entry => entry.line
        | none => -1

end Method

/-- The constructor takes the entries of an attribute that has no other
`LineNumberTable` before it. -/
theorem copyLineNumberTable_eq (before : Option (List LineNumberEntry))
    {skipped rest : List AttributeInfo} {entries : List LineNumberTableEntry}
    (other : ∀ info ∈ skipped, ∀ table, info ≠ .lineNumberTable table) :
    Method.copyLineNumberTable before (skipped ++ .lineNumberTable entries :: rest) =
      some (entries.map fun entry => ⟨entry.startPc, entry.lineNumber⟩) := by
  induction skipped with
  | nil => rfl
  | cons info skipped ih =>
      have later := ih fun later mem => other later (List.mem_cons_of_mem _ mem)
      cases info
      case lineNumberTable table => exact absurd rfl (other _ List.mem_cons_self table)
      all_goals exact later

/-! ## The entry that is meant -/

/-- An entry with the greatest `start_pc` that does not exceed the pc. -/
structure Covers (table : List LineNumberEntry) (pc : Word) (entry : LineNumberEntry) : Prop where
  mem : entry ∈ table
  startsBy : entry.StartsBy pc
  last : ∀ other ∈ table, other.StartsBy pc → other.startPc ≤ entry.startPc

/-- By ascending `start_pc`. -/
def Ascending (table : List LineNumberEntry) : Prop :=
  table.Pairwise fun entry later => entry.startPc ≤ later.startPc

theorem LineNumberEntry.StartsBy.mono {entry later : LineNumberEntry} {pc : Word}
    (starts : later.StartsBy pc) (ordered : entry.startPc ≤ later.startPc) : entry.StartsBy pc := by
  have bound : entry.startPc.toNat ≤ later.startPc.toNat := ordered
  rw [LineNumberEntry.StartsBy] at starts ⊢
  omega

/-- Where the first entry does not start, none does. -/
theorem Ascending.not_startsBy {first : LineNumberEntry} {rest : List LineNumberEntry} {pc : Word}
    (ascending : Ascending (first :: rest)) (before : ¬ first.StartsBy pc) :
    ∀ entry ∈ first :: rest, ¬ entry.StartsBy pc := by
  intro entry mem starts
  rcases List.mem_cons.mp mem with rfl | later
  · exact before starts
  · exact before (starts.mono (List.rel_of_pairwise_cons ascending later))

/-- In an ascending table the search stops at the first entry or not at all. -/
theorem find?_startsBy {first : LineNumberEntry} {rest : List LineNumberEntry}
    (ascending : Ascending (first :: rest)) (pc : Word) :
    ((first :: rest).find? fun entry => decide (entry.StartsBy pc)) =
      if first.StartsBy pc then some first else none := by
  split
  case isTrue starts => exact List.find?_cons_of_pos (decide_eq_true starts)
  case isFalse before =>
    rw [List.find?_eq_none]
    intro entry mem
    rw [decide_eq_true_iff]
    exact ascending.not_startsBy before entry mem

/-! ## What the lookup finds -/

/-- The lookup gives the line of the covering entry, or -1 for a pc before all
entries. -/
structure FindsLine (method : Method) (table : List LineNumberEntry) (pc : Word) : Prop where
  covered : (∃ entry ∈ table, entry.StartsBy pc) →
    ∃ entry, Covers table pc entry ∧ method.getLineNumber (some table) pc = entry.line
  before : (∀ entry ∈ table, ¬ entry.StartsBy pc) → method.getLineNumber (some table) pc = -1

theorem LineNumberEntry.line_inj {entry other : LineNumberEntry} :
    entry.line = other.line ↔ entry.lineNumber = other.lineNumber := by
  constructor
  · intro same
    have values := congrArg BitVec.toNat same
    have bound := entry.lineNumber.isLt
    have otherBound := other.lineNumber.isLt
    rw [LineNumberEntry.line, LineNumberEntry.line, BitVec.toNat_setWidth, BitVec.toNat_setWidth,
      Nat.mod_eq_of_lt (by omega), Nat.mod_eq_of_lt (by omega)] at values
    exact BitVec.eq_of_toNat_eq values
  · intro same
    rw [LineNumberEntry.line, LineNumberEntry.line, same]

theorem getLineNumber_cons {method : Method} (notNative : method.isNative = false)
    {first : LineNumberEntry} {rest : List LineNumberEntry} (ascending : Ascending (first :: rest))
    (pc : Word) : method.getLineNumber (some (first :: rest)) pc =
      if first.StartsBy pc then first.line else -1 := by
  rw [Method.getLineNumber, notNative, if_neg (by decide)]
  simp only [find?_startsBy ascending]
  by_cases starts : first.StartsBy pc
  · simp only [if_pos starts]
  · simp only [if_neg starts]

/-- The lookup is right exactly for a pc before all entries, and where a covering
entry has the line of the first entry of the table. -/
theorem findsLine_iff {method : Method} (notNative : method.isNative = false)
    {table : List LineNumberEntry} (ascending : Ascending table) (pc : Word) :
    FindsLine method table pc ↔
      (∀ entry ∈ table, ¬ entry.StartsBy pc) ∨
        ∃ first entry, table.head? = some first ∧ Covers table pc entry ∧
          entry.lineNumber = first.lineNumber := by
  cases table with
  | nil =>
      constructor
      · exact fun _ => .inl fun entry mem => absurd mem List.not_mem_nil
      · intro _
        constructor
        · rintro ⟨entry, mem, -⟩
          exact absurd mem List.not_mem_nil
        · intro _
          rw [Method.getLineNumber, notNative]
          rfl
  | cons first rest =>
      have result := getLineNumber_cons notNative ascending pc
      by_cases starts : first.StartsBy pc
      · rw [if_pos starts] at result
        have reached : ∃ entry ∈ first :: rest, entry.StartsBy pc := ⟨first, List.mem_cons_self, starts⟩
        constructor
        · intro finds
          rcases finds.covered reached with ⟨entry, covers, line⟩
          rw [result, LineNumberEntry.line_inj] at line
          exact .inr ⟨first, entry, rfl, covers, line.symm⟩
        · rintro (noEntry | ⟨_, entry, ⟨⟩, covers, sameLine⟩)
          · exact absurd starts (noEntry first List.mem_cons_self)
          · constructor
            · exact fun _ => ⟨entry, covers, by rw [result, LineNumberEntry.line_inj, sameLine]⟩
            · exact fun noEntry => absurd starts (noEntry first List.mem_cons_self)
      · rw [if_neg starts] at result
        have noEntry := ascending.not_startsBy starts
        constructor
        · exact fun _ => .inl noEntry
        · intro _
          constructor
          · rintro ⟨entry, mem, entryStarts⟩
            exact absurd entryStarts (noEntry entry mem)
          · exact fun _ => result

/-- Two entries of one line, and a pc in the range of the second one. -/
theorem findsLine_sameLine : FindsLine {} [⟨0, 10⟩, ⟨5, 10⟩] 7 := by
  have ascending : Ascending [⟨0, 10⟩, ⟨5, 10⟩] := by simp [Ascending]
  apply (@findsLine_iff {} (by decide) [⟨0, 10⟩, ⟨5, 10⟩] ascending 7).mpr
  exact .inr ⟨⟨0, 10⟩, ⟨5, 10⟩, rfl, ⟨by decide, by decide, by decide⟩, rfl⟩

/-- With line 10 from pc 0 on and line 11 from pc 5 on, pc 5 is given line 10. -/
theorem second_range_missed :
    Ascending [⟨0, 10⟩, ⟨5, 11⟩] ∧ Covers [⟨0, 10⟩, ⟨5, 11⟩] 5 ⟨5, 11⟩ ∧
      Method.getLineNumber {} (some [⟨0, 10⟩, ⟨5, 11⟩]) 5 = 10 ∧
      ¬ FindsLine {} [⟨0, 10⟩, ⟨5, 11⟩] 5 := by
  have ascending : Ascending [⟨0, 10⟩, ⟨5, 11⟩] := by simp [Ascending]
  have covers : Covers [⟨0, 10⟩, ⟨5, 11⟩] 5 ⟨5, 11⟩ := ⟨by decide, by decide, by decide⟩
  refine ⟨ascending, covers, by decide, ?_⟩
  intro finds
  rcases finds.covered ⟨⟨5, 11⟩, covers.mem, covers.startsBy⟩ with ⟨entry, meant, line⟩
  have last := meant.last _ covers.mem covers.startsBy
  rcases List.mem_cons.mp meant.mem with rfl | later
  · exact absurd last (by decide)
  · rw [List.mem_singleton] at later
    rw [later] at line
    exact absurd line (by decide)

end JvmDemo.Runtime
