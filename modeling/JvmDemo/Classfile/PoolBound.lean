import JvmDemo.Classfile.Robustness
import Mathlib.Data.List.Induction

/-!
# How far the loop of `ParseConstantPool` goes

The loop has an index of 16 bits and stores one or two entries in a turn, so the index is the
number of stored entries as long as that number fits.  A `long` or `double` constant at the
last index carries it past the count.
-/

namespace JvmDemo.Classfile.Parser

open JvmDemo.Lib
open JvmDemo.Runtime
open JvmDemo.Classfile.Format

section Loop

variable [Target] {count : BitVec 16} {data : List Byte} {start : Cursor}

/-! ## Entries and turns -/

/-- So many entries as they stand in the class data one after the other, and where they
end. -/
def entriesFrom (data : List Byte) (start : Cursor) : Nat → Option (List ConstantInfo × Cursor)
  | 0 => some ([], start)
  | turns + 1 => match entriesFrom data start turns with
    | none => none
    | some (entries, middle) => match parseConstantInfo data middle with
      | .error _ => none
      | .ok (info, after) => some (entries ++ [info], after)

/-- The index of the loop after some entries. -/
def nextIndex (entries : List ConstantInfo) : BitVec 16 :=
  BitVec.ofNat 16 (poolEntries entries).length

/-- The entries that the loop has parsed after some turns, and where it stands. -/
inductive Parsed (count : BitVec 16) (data : List Byte) (start : Cursor) :
    List ConstantInfo → Cursor → Prop where
  | start : Parsed count data start [] start
  | turn {entries : List ConstantInfo} {info : ConstantInfo} {middle after : Cursor} :
      Parsed count data start entries middle → nextIndex entries < count →
        parseConstantInfo data middle = .ok (info, after) →
          Parsed count data start (entries ++ [info]) after

variable {entries : List ConstantInfo} {info : ConstantInfo} {middle after : Cursor} {turns : Nat}

theorem entriesFrom_succ {all : List ConstantInfo} :
    entriesFrom data start (turns + 1) = some (all, after) ↔
      ∃ entries middle info, entriesFrom data start turns = some (entries, middle) ∧
        parseConstantInfo data middle = .ok (info, after) ∧ all = entries ++ [info] := by
  rw [entriesFrom]
  constructor
  · intro found
    split at found
    · cases found
    · next entries middle first =>
        split at found
        · cases found
        · next info behind parsed =>
            cases found
            exact ⟨entries, middle, info, first, parsed, rfl⟩
  · rintro ⟨entries, middle, info, first, parsed, rfl⟩
    rw [first]
    dsimp only
    rw [parsed]

theorem length_of_entriesFrom (found : entriesFrom data start turns = some (entries, after)) :
    entries.length = turns := by
  induction turns generalizing entries after with
  | zero =>
      cases found
      rfl
  | succ turns ih =>
      rcases entriesFrom_succ.mp found with ⟨before, middle, info, first, -, rfl⟩
      rw [List.length_append, ih first]
      rfl

/-- More entries begin with the fewer. -/
theorem prefix_of_entriesFrom {more : Nat} {all : List ConstantInfo} {behind : Cursor}
    (found : entriesFrom data start turns = some (entries, after))
    (foundAll : entriesFrom data start (turns + more) = some (all, behind)) : entries <+: all := by
  induction more generalizing all behind with
  | zero =>
      rw [Nat.add_zero, found] at foundAll
      cases foundAll
      exact List.prefix_rfl
  | succ more ih =>
      rcases entriesFrom_succ.mp foundAll with ⟨before, middle, info, first, -, rfl⟩
      exact (ih first).trans (List.prefix_append _ _)

theorem Parsed.entriesFrom (parsed : Parsed count data start entries after) :
    entriesFrom data start entries.length = some (entries, after) := by
  induction parsed with
  | start => rfl
  | @turn entries info middle after _ _ read ih =>
      rw [List.length_append]
      exact entriesFrom_succ.mpr ⟨entries, middle, info, ih, read, rfl⟩

/-! ## Sizes -/

omit [Target] in
theorem length_poolEntries_append (entries : List ConstantInfo) (info : ConstantInfo) :
    (poolEntries (entries ++ [info])).length =
      (poolEntries entries).length + (slots info).length := by
  rw [poolEntries_append, List.length_append]

omit [Target] in
theorem length_lt_length_poolEntries (entries : List ConstantInfo) :
    entries.length < (poolEntries entries).length := by
  induction entries using List.reverseRecOn with
  | nil => exact Nat.one_pos
  | append_singleton entries info ih =>
      have positive := length_slots_pos info
      rw [length_poolEntries_append, List.length_append, List.length_singleton]
      omega

omit [Target] in
theorem length_poolEntries_le_of_prefix {fewer : List ConstantInfo} (starts : fewer <+: entries) :
    (poolEntries fewer).length ≤ (poolEntries entries).length := by
  rcases starts with ⟨rest, rfl⟩
  simp [poolEntries]

omit [Target] in
theorem toNat_nextIndex (small : (poolEntries entries).length < 2 ^ 16) :
    (nextIndex entries).toNat = (poolEntries entries).length := by
  rw [nextIndex, BitVec.toNat_ofNat, Nat.mod_eq_of_lt small]

omit [Target] in
/-- The two increments of the index. -/
theorem nextIndex_append (entries : List ConstantInfo) (info : ConstantInfo) :
    nextIndex (entries ++ [info]) =
      if info.getConstantType.isWide then nextIndex entries + 1 + 1 else nextIndex entries + 1 := by
  rw [nextIndex, length_poolEntries_append, slots]
  split
  · rw [BitVec.add_assoc]
    exact BitVec.ofNat_add _ _
  · exact BitVec.ofNat_add _ _

/-! ## The loop -/

/-- A turn of the loop. -/
theorem parseConstantPoolLoop_turn {fuel : Nat} (below : nextIndex entries < count)
    (read : parseConstantInfo data middle = .ok (info, after)) :
    parseConstantPoolLoop count (fuel + 1) (nextIndex entries) (poolEntries entries) data middle =
      parseConstantPoolLoop count fuel (nextIndex (entries ++ [info]))
        (poolEntries (entries ++ [info])) data after := by
  rw [parseConstantPoolLoop, if_pos below, Reader.bind_of_ok read, nextIndex_append,
    poolEntries_append, slots]
  split
  · rfl
  · rfl

/-- After so many turns, the loop goes on from the entries that it has parsed. -/
theorem Parsed.loop_eq (parsed : Parsed count data start entries after) (fuel : Nat) :
    parseConstantPoolLoop count (entries.length + fuel) 1 [none] data start =
      parseConstantPoolLoop count fuel (nextIndex entries) (poolEntries entries) data after := by
  induction parsed generalizing fuel with
  | start =>
      rw [List.length_nil, Nat.zero_add]
      rfl
  | @turn entries info middle after _ below read ih =>
      rw [List.length_append, Nat.add_assoc, List.length_singleton, Nat.add_comm 1 fuel, ih,
        parseConstantPoolLoop_turn below read]

/-- If the loop returns, it has parsed entries up to an index that is not below the
count. -/
theorem parsed_of_loop {fuel : Nat} {result : List (Option ConstantInfo)}
    (parsed : Parsed count data start entries middle)
    (returned : parseConstantPoolLoop count fuel (nextIndex entries) (poolEntries entries) data
      middle = .ok (result, after)) :
    ∃ all, Parsed count data start all after ∧ ¬ nextIndex all < count ∧
      result = poolEntries all := by
  induction fuel generalizing entries middle with
  | zero => cases returned
  | succ fuel ih =>
      by_cases below : nextIndex entries < count
      · have run := returned
        rw [parseConstantPoolLoop, if_pos below] at run
        rcases Reader.bind_eq_ok run with ⟨info, behind, read, -⟩
        rw [parseConstantPoolLoop_turn below read] at returned
        exact ih (parsed.turn below read) returned
      · rw [parseConstantPoolLoop, if_neg below] at returned
        cases returned
        exact ⟨entries, parsed, below, rfl⟩

/-- An entry takes at least its tag. -/
theorem pos_lt_of_parseConstantInfo (read : parseConstantInfo data middle = .ok (info, after)) :
    middle.pos < data.length ∧ middle.pos < after.pos := by
  rcases understands_constant.returns read with ⟨bytes, accepted, stands, moved, -⟩
  have positive := length_constant_pos accepted
  have bound := stands.length_le
  rw [List.length_drop] at bound
  omega

/-- There are at most as many entries as bytes. -/
theorem Parsed.length_le (parsed : Parsed count data start entries after) :
    start.pos + entries.length ≤ after.pos ∧ entries.length ≤ data.length := by
  induction parsed with
  | start => exact ⟨Nat.le_refl _, Nat.zero_le _⟩
  | turn _ _ read ih =>
      rcases pos_lt_of_parseConstantInfo read with ⟨inside, moved⟩
      rw [List.length_append, List.length_singleton]
      omega

variable {cursor : Cursor}

/-- `ParseConstantPool` returns exactly what its loop has parsed when the index is not
below the count any more. -/
theorem parseConstantPool_eq_ok_iff
    (counted : parseUnsignedInt 16 data cursor = .ok (count, start)) {pool : ConstantPool} :
    parseConstantPool data cursor = .ok (pool, after) ↔
      ∃ entries, Parsed count data start entries after ∧ ¬ nextIndex entries < count ∧
        pool = ⟨count, poolEntries entries⟩ := by
  have unfolded : parseConstantPool data cursor =
      (do
        let constantInfos ← parseConstantPoolLoop count (data.length + 1) 1 [none]
        pure (⟨count, constantInfos⟩ : ConstantPool) : Parser ConstantPool) data start := by
    rw [parseConstantPool, Reader.bind_of_ok counted]
    rfl
  rw [unfolded]
  constructor
  · intro returned
    rcases Reader.bind_eq_ok returned with ⟨result, behind, run, built⟩
    cases built
    have first : Parsed count data start [] start := .start
    rcases parsed_of_loop first run with ⟨entries, parsed, above, rfl⟩
    exact ⟨entries, parsed, above, rfl⟩
  · rintro ⟨entries, parsed, above, rfl⟩
    have enough := parsed.length_le.2
    have fuel : data.length + 1 = entries.length + (data.length - entries.length + 1) := by omega
    have run : parseConstantPoolLoop count (data.length + 1) 1 [none] data start =
        .ok (poolEntries entries, after) := by
      rw [fuel, parsed.loop_eq, parseConstantPoolLoop, if_neg above]
      rfl
    rw [Reader.bind_of_ok run]
    rfl

/-! ## The bound -/

/-- The loop parses fewer entries than the count, and a pool that is returned has as many
stored entries as its count, or only the first one: `GetConstantInfo` finds an entry
at every index that it accepts. -/
structure Bounded (data : List Byte) (cursor start : Cursor) (count : BitVec 16) : Prop where
  parsed : ∀ entries after, Parsed count data start entries after →
    entries.length ≤ max count.toNat 1 - 1
  stored : ∀ pool after, parseConstantPool data cursor = .ok (pool, after) →
    pool.constantInfos.length = max count.toNat 1 ∧
      ∀ index : BitVec 16, 1 ≤ index → index < count →
        ∃ entry, pool.getConstantInfo index = .ok entry

/-- A `long` or `double` constant stands at the last index. -/
def WideLast (data : List Byte) (start : Cursor) (count : BitVec 16) : Prop :=
  ∃ turns entries middle info after,
    entriesFrom data start turns = some (entries, middle) ∧
      parseConstantInfo data middle = .ok (info, after) ∧
      info.getConstantType.isWide = true ∧ (poolEntries entries).length + 1 = count.toNat

/-- The entries come to an end before an index of 65535, and there are fewer than that. -/
def BreaksOff (data : List Byte) (start : Cursor) : Prop :=
  ∀ turns entries after, entriesFrom data start turns = some (entries, after) →
    entries.length < 65535 ∧ nextIndex entries ≠ 65535

omit [Target] in
/-- A turn does not store more entries than the count, unless it stores a wide constant at
the last index. -/
theorem length_poolEntries_append_le (below : nextIndex entries < count)
    (stored : (poolEntries entries).length ≤ max count.toNat 1)
    (narrow : info.getConstantType.isWide = true → (poolEntries entries).length + 1 ≠ count.toNat) :
    (poolEntries (entries ++ [info])).length ≤ max count.toNat 1 := by
  have bound := count.isLt
  rw [BitVec.lt_def, toNat_nextIndex (by omega)] at below
  rw [length_poolEntries_append, slots]
  split
  · next isWide =>
      have notLast := narrow isWide
      rw [List.length_cons, List.length_singleton]
      omega
  · rw [List.length_singleton]
    omega

omit [Target] in
/-- So if the loop ends, it has stored as many entries as the count. -/
theorem length_poolEntries_eq_of_le (stored : (poolEntries entries).length ≤ max count.toNat 1)
    (above : ¬ nextIndex entries < count) : (poolEntries entries).length = max count.toNat 1 := by
  have bound := count.isLt
  have positive := length_lt_length_poolEntries entries
  rw [BitVec.lt_def, toNat_nextIndex (by omega)] at above
  omega

theorem Parsed.length_poolEntries_le (narrow : ¬ WideLast data start count)
    (parsed : Parsed count data start entries after) :
    (poolEntries entries).length ≤ max count.toNat 1 := by
  induction parsed with
  | start => exact Nat.le_max_right _ _
  | @turn entries info middle after parsed below read ih =>
      apply length_poolEntries_append_le below ih
      intro isWide last
      exact narrow ⟨_, entries, middle, info, after, parsed.entriesFrom, read, isWide, last⟩

theorem bounded_of_not_wideLast
    (counted : parseUnsignedInt 16 data cursor = .ok (count, start))
    (narrow : ¬ WideLast data start count) : Bounded data cursor start count := by
  constructor
  · intro entries after parsed
    have stored := parsed.length_poolEntries_le narrow
    have fewer := length_lt_length_poolEntries entries
    omega
  · intro pool after returned
    rcases (parseConstantPool_eq_ok_iff counted).mp returned with ⟨entries, parsed, above, rfl⟩
    have length := length_poolEntries_eq_of_le (parsed.length_poolEntries_le narrow) above
    constructor
    · exact length
    · intro index positive below
      have inside : index.toNat < (poolEntries entries).length := by
        rw [BitVec.lt_def] at below
        omega
      have accepted : ¬ (index < 1 ∨ count ≤ index) := by
        rw [not_or, BitVec.not_lt, BitVec.not_le]
        exact ⟨positive, below⟩
      constructor
      rw [ConstantPool.getConstantInfo, if_neg accepted, List.getElem?_eq_getElem inside]

/-- With the count 65535, entries that break off have no return. -/
theorem bounded_of_breaksOff
    (counted : parseUnsignedInt 16 data cursor = .ok (65535, start))
    (breaks : BreaksOff data start) : Bounded data cursor start 65535 := by
  constructor
  · intro entries after parsed
    have fewer := (breaks _ entries after parsed.entriesFrom).1
    exact Nat.le_of_lt_succ fewer
  · intro pool after returned
    rcases (parseConstantPool_eq_ok_iff counted).mp returned with ⟨entries, parsed, above, -⟩
    have last : nextIndex entries = 65535 := by
      have small := (nextIndex entries).isLt
      apply BitVec.eq_of_toNat_eq
      rw [BitVec.lt_def] at above
      have largest : (65535 : BitVec 16).toNat = 65535 := rfl
      omega
    exact absurd last (breaks _ entries after parsed.entriesFrom).2

/-- The loop parses the entries up to the count. -/
theorem parsed_of_entriesFrom (found : entriesFrom data start turns = some (entries, after))
    (inside : (poolEntries entries).length ≤ count.toNat) :
    Parsed count data start entries after := by
  induction turns generalizing entries after with
  | zero =>
      cases found
      exact .start
  | succ turns ih =>
      rcases entriesFrom_succ.mp found with ⟨before, middle, info, first, read, rfl⟩
      have bound := count.isLt
      have positive := length_slots_pos info
      rw [length_poolEntries_append] at inside
      apply (ih first (by omega)).turn _ read
      rw [BitVec.lt_def, toNat_nextIndex (by omega)]
      omega

/-- A loop that never gets to its count parses all entries. -/
theorem parsed_of_never
    (never : ∀ entries after, Parsed count data start entries after → nextIndex entries < count)
    (found : entriesFrom data start turns = some (entries, after)) :
    Parsed count data start entries after := by
  induction turns generalizing entries after with
  | zero =>
      cases found
      exact .start
  | succ turns ih =>
      rcases entriesFrom_succ.mp found with ⟨before, middle, info, first, read, rfl⟩
      have parsed := ih first
      exact parsed.turn (never _ _ parsed) read

/-- The smaller of two numbers of entries gives the beginning of the other. -/
theorem prefix_of_length_le {fewer : List ConstantInfo} {behind : Cursor}
    (found : entriesFrom data start fewer.length = some (fewer, behind))
    (foundAll : entriesFrom data start entries.length = some (entries, after))
    (le : fewer.length ≤ entries.length) : fewer <+: entries := by
  rcases Nat.exists_eq_add_of_le le with ⟨more, lengthEq⟩
  rw [lengthEq] at foundAll
  exact prefix_of_entriesFrom found foundAll

/-- The loop parses a wide constant at the last index, and then has stored one entry more
than the count. -/
theorem WideLast.exists_parsed (wide : WideLast data start count) :
    ∃ entries info middle after, Parsed count data start entries middle ∧
      Parsed count data start (entries ++ [info]) after ∧
      (poolEntries entries).length + 1 = count.toNat ∧
      (poolEntries (entries ++ [info])).length = count.toNat + 1 := by
  rcases wide with ⟨turns, entries, middle, info, after, found, read, isWide, last⟩
  have bound := count.isLt
  have parsed : Parsed count data start entries middle :=
    parsed_of_entriesFrom found (by omega)
  have below : nextIndex entries < count := by
    rw [BitVec.lt_def, toNat_nextIndex (by omega)]
    omega
  have size : (poolEntries (entries ++ [info])).length = count.toNat + 1 := by
    rw [length_poolEntries_append, slots, if_pos isWide, List.length_cons, List.length_singleton]
    omega
  exact ⟨entries, info, middle, after, parsed, parsed.turn below read, last, size⟩

/-- If the loop gets to an index that is not below the count, it has stored as many entries
as the count. -/
theorem Bounded.stored_of_parsed
    (counted : parseUnsignedInt 16 data cursor = .ok (count, start))
    (bounded : Bounded data cursor start count) (parsed : Parsed count data start entries after)
    (above : ¬ nextIndex entries < count) :
    (poolEntries entries).length = max count.toNat 1 := by
  have returned := (parseConstantPool_eq_ok_iff counted).mpr ⟨entries, parsed, above, rfl⟩
  exact (bounded.stored _ _ returned).1

/-- With a wide constant at the last index the loop can keep to the count only if its index
wraps around to zero. -/
theorem count_eq_of_wideLast
    (counted : parseUnsignedInt 16 data cursor = .ok (count, start))
    (bounded : Bounded data cursor start count) (wide : WideLast data start count) :
    count = 65535 := by
  rcases wide.exists_parsed with ⟨entries, info, middle, behind, -, parsed, last, size⟩
  have bound := count.isLt
  by_contra smaller
  have notLast : count.toNat ≠ 65535 := fun same => smaller (BitVec.eq_of_toNat_eq same)
  have above : ¬ nextIndex (entries ++ [info]) < count := by
    rw [BitVec.lt_def, toNat_nextIndex (by omega)]
    omega
  have stored := bounded.stored_of_parsed counted parsed above
  omega

/-- It does not return then: the number of stored entries has skipped the count. -/
theorem nextIndex_lt_of_wideLast
    (counted : parseUnsignedInt 16 data cursor = .ok (count, start))
    (bounded : Bounded data cursor start count) (wide : WideLast data start count)
    (parsed : Parsed count data start entries after) : nextIndex entries < count := by
  rcases wide.exists_parsed with ⟨before, info, middle, behind, parsedBefore, parsedNext, last, size⟩
  by_contra above
  have stored := bounded.stored_of_parsed counted parsed above
  by_cases shorter : entries.length ≤ before.length
  · have fewer := length_poolEntries_le_of_prefix
      (prefix_of_length_le parsed.entriesFrom parsedBefore.entriesFrom shorter)
    omega
  · have longer : (before ++ [info]).length ≤ entries.length := by
      rw [List.length_append, List.length_singleton]
      omega
    have more := length_poolEntries_le_of_prefix
      (prefix_of_length_le parsedNext.entriesFrom parsed.entriesFrom longer)
    omega

theorem breaksOff_of_wideLast
    (counted : parseUnsignedInt 16 data cursor = .ok (count, start))
    (bounded : Bounded data cursor start count) (wide : WideLast data start count) :
    count = 65535 ∧ BreaksOff data start := by
  have countEq := count_eq_of_wideLast counted bounded wide
  have never := fun all after => @nextIndex_lt_of_wideLast _ count data start all after cursor
    counted bounded wide
  constructor
  · exact countEq
  · intro turns all after found
    have parsed := parsed_of_never never found
    have fewer := bounded.parsed all after parsed
    have index := never all after parsed
    rw [countEq] at fewer index
    constructor
    · exact Nat.lt_succ_of_le fewer
    · intro same
      rw [same] at index
      exact absurd index (BitVec.lt_irrefl _)

/-- For every count that is declared and all data behind it: the loop keeps to the count
exactly when no `long` or `double` constant stands at the last index, or the count is 65535
and the entries break off before the loop returns. -/
theorem bounded_iff (counted : parseUnsignedInt 16 data cursor = .ok (count, start)) :
    Bounded data cursor start count ↔
      ¬ WideLast data start count ∨ count = 65535 ∧ BreaksOff data start := by
  constructor
  · intro bounded
    by_cases wide : WideLast data start count
    · exact .inr (breaksOff_of_wideLast counted bounded wide)
    · exact .inl wide
  · rintro (narrow | ⟨rfl, breaks⟩)
    · exact bounded_of_not_wideLast counted narrow
    · exact bounded_of_breaksOff counted breaks

end Loop

/-- A `long` constant, and a class at the last index. -/
def longClassData : List Byte := [0, 4, 5, 0, 0, 0, 0, 0, 0, 0, 0, 7, 0, 1]

theorem bounded_longClass :
    ∃ start, @parseUnsignedInt maskedShift 16 longClassData ⟨0, 0⟩ = .ok (4, start) ∧
      @Bounded maskedShift longClassData ⟨0, 0⟩ start 4 := by
  have counted : @parseUnsignedInt maskedShift 16 longClassData ⟨0, 0⟩ = .ok (4, ⟨2, 2⟩) := rfl
  refine ⟨⟨2, 2⟩, counted, (@bounded_iff maskedShift _ _ _ _ counted).mpr (.inl ?_)⟩
  rintro ⟨turns, entries, middle, info, after, found, read, isWide, last⟩
  have four : (4 : BitVec 16).toNat = 4 := rfl
  have length := @length_of_entriesFrom maskedShift _ _ _ _ _ found
  have fewer := length_lt_length_poolEntries entries
  rcases turns with - | turns
  · -- the `long` stands before the last index
    cases found
    rw [four] at last
    cases last
  · rcases turns with - | turns
    · -- the class stands at the last index
      cases found
      cases read
      cases isWide
    · rcases turns with - | turns
      · cases found
        rw [four] at last
        cases last
      · omega

/-- A `long` constant at the last index: three entries are stored. -/
theorem long_stored_beyond_count :
    ∃ start, @parseUnsignedInt maskedShift 16 [0, 2, 5, 0, 0, 0, 0, 0, 0, 0, 0] ⟨0, 0⟩ =
        .ok (2, start) ∧
      ¬ @Bounded maskedShift [0, 2, 5, 0, 0, 0, 0, 0, 0, 0, 0] ⟨0, 0⟩ start 2 := by
  constructor
  constructor
  · rfl
  · intro bounded
    have returned : @parseConstantPool maskedShift [0, 2, 5, 0, 0, 0, 0, 0, 0, 0, 0] ⟨0, 0⟩ =
        .ok (⟨2, [none, some (.long 0), none]⟩, ⟨11, 11⟩) := rfl
    have stored := (@Bounded.stored maskedShift _ _ _ _ bounded _ _ returned).1
    exact absurd stored (by decide)

end JvmDemo.Classfile.Parser
