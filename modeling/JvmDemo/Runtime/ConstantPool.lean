import JvmDemo.Classfile.PoolBound
import JvmDemo.Runtime.Class
import Mathlib.Data.List.GetD
import Mathlib.Tactic.IntervalCases

/-!
# The run-time constant pool

The constructor of `runtime::ConstantPool` walks over the pool of the class file
with an index of its own, skips the second index of a `Long` or `Double`, and
resolves names through one or two further entries.  Entries without a run-time
counterpart stay null.

The parser and the constructor agree on the indices, because what the parser
leaves is the sequence of constants with a null behind each wide one.
-/

namespace JvmDemo.Runtime

open JvmDemo.Lib
open JvmDemo.Classfile

/-! ## The constructor -/

/-- The object for a member reference, by the names that it resolves to. -/
def createMemberRef (pool : ConstantPool) (build : Str → Str → Str → Constant)
    (classIndex nameAndTypeIndex : BitVec 16) : Exec (Option Constant) := do
  let className ← pool.getClassName classIndex
  let (name, descriptor) ← pool.getNameAndType nameAndTypeIndex
  pure (some (build className name descriptor))

/-- The object that the constructor makes for an entry, if any. -/
def createConstant (pool : ConstantPool) : ConstantInfo → Exec (Option Constant)
  | .integer value => pure (some (.integer value))
  | .float value => pure (some (.float value))
  | .long value => pure (some (.long value))
  | .double value => pure (some (.double value))
  | .string stringIndex => do
      let value ← pool.getUtf8 stringIndex
      pure (some (.string value))
  | .classInfo nameIndex => do
      let className ← pool.getUtf8 nameIndex
      pure (some (.classRef className))
  | .fieldRef classIndex nameAndTypeIndex =>
      createMemberRef pool .fieldRef classIndex nameAndTypeIndex
  | .methodRef classIndex nameAndTypeIndex =>
      createMemberRef pool .methodRef classIndex nameAndTypeIndex
  | .interfaceMethodRef classIndex nameAndTypeIndex =>
      createMemberRef pool .interfaceMethodRef classIndex nameAndTypeIndex
  | _ => pure none

/-- `constants_[i] = constant`. -/
def putConstant (constants : List (Option Constant)) (i : Nat) (constant : Option Constant) :
    Exec (List (Option Constant)) :=
  if i < constants.length then .ok (constants.set i constant)
  else undefined "constants_ out of bounds"

/-- An entry without a counterpart is not assigned. -/
def keepConstant (constants : List (Option Constant)) (i : Nat) :
    Option Constant → Exec (List (Option Constant))
  | some constant => putConstant constants i (some constant)
  | none => pure constants

/-- The loop of the constructor. -/
def createConstantsLoop (pool : ConstantPool) :
    Nat → Nat → List (Option Constant) → Exec (List (Option Constant))
  | 0, _, _ => .error .diverges
  | fuel + 1, i, constants =>
      if i < pool.constantPoolCount.toNat then do
        match ← pool.getConstantInfo (BitVec.ofNat 16 i) with
        | none => undefined "GetConstantType of a null entry"
        | some info => do
            let created ← createConstant pool info
            let constants ← keepConstant constants i created
            if info.getConstantType.isWide then do
              let constants ← putConstant constants (i + 1) none
              createConstantsLoop pool fuel (i + 1 + 1) constants
            else createConstantsLoop pool fuel (i + 1) constants
      else pure constants

/-- The constructor of `runtime::ConstantPool`.  The vector starts with nulls;
each turn moves the index on, so the count bounds their number. -/
def createConstants (pool : ConstantPool) : Exec (List (Option Constant)) :=
  createConstantsLoop pool (pool.constantPoolCount.toNat + 1) 1
    (List.replicate pool.constantPoolCount.toNat none)

/-! ## Well-formed pools -/

/-- The constant at an index that the pool admits. -/
def entryAt (pool : ConstantPool) (index : BitVec 16) : Option ConstantInfo :=
  if index < 1 ∨ pool.constantPoolCount ≤ index then none
  else (pool.constantInfos[index.toNat]?).join

/-- The text of a `Utf8` entry. -/
def TextAt (pool : ConstantPool) (index : BitVec 16) (value : Str) : Prop :=
  entryAt pool index = some (.utf8 value)

/-- The name that a `Class` entry points at. -/
def ClassNameAt (pool : ConstantPool) (index : BitVec 16) (className : Str) : Prop :=
  ∃ nameIndex, entryAt pool index = some (.classInfo nameIndex) ∧ TextAt pool nameIndex className

/-- The two texts that a `NameAndType` entry points at. -/
def NameAndTypeAt (pool : ConstantPool) (index : BitVec 16) (name descriptor : Str) : Prop :=
  ∃ nameIndex descriptorIndex, entryAt pool index = some (.nameAndType nameIndex descriptorIndex) ∧
    TextAt pool nameIndex name ∧ TextAt pool descriptorIndex descriptor

/-- What an entry refers to is there and has the right tag. -/
def RefersWell (pool : ConstantPool) : ConstantInfo → Prop
  | .classInfo nameIndex => ∃ value, TextAt pool nameIndex value
  | .string stringIndex => ∃ value, TextAt pool stringIndex value
  | .fieldRef classIndex nameAndTypeIndex
  | .methodRef classIndex nameAndTypeIndex
  | .interfaceMethodRef classIndex nameAndTypeIndex =>
      (∃ nameIndex, entryAt pool classIndex = some (.classInfo nameIndex)) ∧
        ∃ nameIndex descriptorIndex,
          entryAt pool nameAndTypeIndex = some (.nameAndType nameIndex descriptorIndex)
  | .nameAndType nameIndex descriptorIndex =>
      (∃ name, TextAt pool nameIndex name) ∧ ∃ descriptor, TextAt pool descriptorIndex descriptor
  | _ => True

/-- Two-index entries fit, and references lead to entries of the right tags. -/
structure WellFormedPool (pool : ConstantPool) : Prop where
  wide_fits : ∀ index info, entryAt pool index = some info →
    info.getConstantType.isWide = true → index.toNat + 1 < pool.constantPoolCount.toNat
  refers : ∀ index info, entryAt pool index = some info → RefersWell pool info

/-- The tags with a run-time counterpart. -/
def isKept : ConstantType → Bool
  | .integer | .float | .long | .double | .string | .classInfo | .fieldRef | .methodRef
  | .interfaceMethodRef => true
  | _ => false

/-- The run-time entry for an entry of the class file. -/
inductive Simulates (pool : ConstantPool) : Option ConstantInfo → Option Constant → Prop where
  | integer (value : Word) : Simulates pool (some (.integer value)) (some (.integer value))
  | float (value : Word) : Simulates pool (some (.float value)) (some (.float value))
  | long (value : DWord) : Simulates pool (some (.long value)) (some (.long value))
  | double (value : DWord) : Simulates pool (some (.double value)) (some (.double value))
  | string {stringIndex : BitVec 16} {value : Str} (found : TextAt pool stringIndex value) :
      Simulates pool (some (.string stringIndex)) (some (.string value))
  | classRef {nameIndex : BitVec 16} {className : Str} (found : TextAt pool nameIndex className) :
      Simulates pool (some (.classInfo nameIndex)) (some (.classRef className))
  | fieldRef {classIndex nameAndTypeIndex : BitVec 16} {className name descriptor : Str}
      (owner : ClassNameAt pool classIndex className)
      (member : NameAndTypeAt pool nameAndTypeIndex name descriptor) :
      Simulates pool (some (.fieldRef classIndex nameAndTypeIndex))
        (some (.fieldRef className name descriptor))
  | methodRef {classIndex nameAndTypeIndex : BitVec 16} {className name descriptor : Str}
      (owner : ClassNameAt pool classIndex className)
      (member : NameAndTypeAt pool nameAndTypeIndex name descriptor) :
      Simulates pool (some (.methodRef classIndex nameAndTypeIndex))
        (some (.methodRef className name descriptor))
  | interfaceMethodRef {classIndex nameAndTypeIndex : BitVec 16} {className name descriptor : Str}
      (owner : ClassNameAt pool classIndex className)
      (member : NameAndTypeAt pool nameAndTypeIndex name descriptor) :
      Simulates pool (some (.interfaceMethodRef classIndex nameAndTypeIndex))
        (some (.interfaceMethodRef className name descriptor))
  | other {info : ConstantInfo} (dropped : isKept info.getConstantType = false) :
      Simulates pool (some info) none
  | unused : Simulates pool none none

/-! ## Resolution of one entry -/

section Entry

variable {pool : ConstantPool}

theorem getElem_of_entryAt {index : BitVec 16} {info : ConstantInfo}
    (found : entryAt pool index = some info) :
    pool.constantInfos[index.toNat]? = some (some info) := by
  unfold entryAt at found
  split at found
  · cases found
  · exact Option.join_eq_some_iff.mp found

theorem getConstantInfo_of_entryAt {index : BitVec 16} {info : ConstantInfo}
    (found : entryAt pool index = some info) : pool.getConstantInfo index = .ok (some info) := by
  unfold entryAt at found
  unfold ConstantPool.getConstantInfo
  split at found
  · cases found
  · next admitted =>
      rw [if_neg admitted, Option.join_eq_some_iff.mp found]

/-- The entry at an index inside the pool, as the accessors see it. -/
theorem entryAt_of_getElem {i : Nat} {info : ConstantInfo} (positive : 0 < i)
    (inside : i < pool.constantPoolCount.toNat)
    (found : pool.constantInfos[i]? = some (some info)) :
    entryAt pool (BitVec.ofNat 16 i) = some info := by
  have small : i < 2 ^ 16 := inside.trans pool.constantPoolCount.isLt
  have admitted : ¬ (BitVec.ofNat 16 i < 1 ∨ pool.constantPoolCount ≤ BitVec.ofNat 16 i) := by
    simp only [BitVec.lt_def, BitVec.le_def, BitVec.toNat_ofNat, Nat.mod_eq_of_lt small]
    simp
    omega
  rw [entryAt, if_neg admitted, BitVec.toNat_ofNat, Nat.mod_eq_of_lt small, found]
  rfl

theorem getUtf8_of_textAt {index : BitVec 16} {value : Str} (found : TextAt pool index value) :
    pool.getUtf8 index = .ok value := by
  rw [ConstantPool.getUtf8, getConstantInfo_of_entryAt found]
  rfl

theorem getClassName_of_classNameAt {index : BitVec 16} {className : Str}
    (found : ClassNameAt pool index className) : pool.getClassName index = .ok className := by
  rcases found with ⟨nameIndex, entry, name⟩
  rw [ConstantPool.getClassName, getConstantInfo_of_entryAt entry]
  exact getUtf8_of_textAt name

theorem getNameAndType_of_nameAndTypeAt {index : BitVec 16} {name descriptor : Str}
    (found : NameAndTypeAt pool index name descriptor) :
    pool.getNameAndType index = .ok (name, descriptor) := by
  rcases found with ⟨nameIndex, descriptorIndex, entry, nameText, descriptorText⟩
  rw [ConstantPool.getNameAndType, getConstantInfo_of_entryAt entry]
  simp [getUtf8_of_textAt nameText, getUtf8_of_textAt descriptorText]

/-- Both hops of a member reference in a well-formed pool. -/
theorem WellFormedPool.memberRef (wellFormed : WellFormedPool pool)
    (build : Str → Str → Str → Constant)
    {classIndex nameAndTypeIndex nameIndex first second : BitVec 16}
    (owner : entryAt pool classIndex = some (.classInfo nameIndex))
    (member : entryAt pool nameAndTypeIndex = some (.nameAndType first second)) :
    ∃ className name descriptor, ClassNameAt pool classIndex className ∧
      NameAndTypeAt pool nameAndTypeIndex name descriptor ∧
      createMemberRef pool build classIndex nameAndTypeIndex =
        .ok (some (build className name descriptor)) := by
  rcases wellFormed.refers _ _ owner with ⟨className, classText⟩
  rcases wellFormed.refers _ _ member with ⟨⟨name, nameText⟩, descriptor, descriptorText⟩
  have owned : ClassNameAt pool classIndex className := ⟨nameIndex, owner, classText⟩
  have type : NameAndTypeAt pool nameAndTypeIndex name descriptor :=
    ⟨first, second, member, nameText, descriptorText⟩
  refine ⟨className, name, descriptor, owned, type, ?_⟩
  rw [createMemberRef, getClassName_of_classNameAt owned, Exec.bind_ok,
    getNameAndType_of_nameAndTypeAt type]
  rfl

/-- The object for an entry of a well-formed pool, wherever the entries that it
refers to are. -/
theorem createConstant_simulates (wellFormed : WellFormedPool pool) {info : ConstantInfo}
    (refers : RefersWell pool info) :
    ∃ created, createConstant pool info = .ok created ∧ Simulates pool (some info) created := by
  cases info with
  | integer value => exact ⟨_, rfl, .integer value⟩
  | float value => exact ⟨_, rfl, .float value⟩
  | long value => exact ⟨_, rfl, .long value⟩
  | double value => exact ⟨_, rfl, .double value⟩
  | string stringIndex =>
      rcases refers with ⟨value, found⟩
      exact ⟨_, by rw [createConstant, getUtf8_of_textAt found]; rfl, .string found⟩
  | classInfo nameIndex =>
      rcases refers with ⟨className, found⟩
      exact ⟨_, by rw [createConstant, getUtf8_of_textAt found]; rfl, .classRef found⟩
  | fieldRef classIndex nameAndTypeIndex =>
      rcases refers with ⟨⟨nameIndex, owner⟩, first, second, member⟩
      rcases wellFormed.memberRef .fieldRef owner member with
        ⟨className, name, descriptor, owned, type, created⟩
      exact ⟨_, created, .fieldRef owned type⟩
  | methodRef classIndex nameAndTypeIndex =>
      rcases refers with ⟨⟨nameIndex, owner⟩, first, second, member⟩
      rcases wellFormed.memberRef .methodRef owner member with
        ⟨className, name, descriptor, owned, type, created⟩
      exact ⟨_, created, .methodRef owned type⟩
  | interfaceMethodRef classIndex nameAndTypeIndex =>
      rcases refers with ⟨⟨nameIndex, owner⟩, first, second, member⟩
      rcases wellFormed.memberRef .interfaceMethodRef owner member with
        ⟨className, name, descriptor, owned, type, created⟩
      exact ⟨_, created, .interfaceMethodRef owned type⟩
  | utf8 | nameAndType | methodHandle | methodType | dynamic | invokeDynamic | moduleInfo
  | packageInfo => exact ⟨none, rfl, .other rfl⟩

end Entry

/-! ## What the parser produces -/

section Parsed

open JvmDemo.Classfile.Parser
open JvmDemo.Classfile.Format (slots poolEntries poolEntries_append)

variable [Target] {count : BitVec 16}

/-- Unless a wide entry sticks out of the pool, the loop of the parser stores at most as
many entries as the count. -/
theorem length_poolEntries_le_of_parsed {data : List Byte} {start after : Cursor}
    {entries : List ConstantInfo} (parsed : Parsed count data start entries after)
    (wide : ∀ j info, j < count.toNat → (poolEntries entries)[j]? = some (some info) →
      info.getConstantType.isWide = true → j + 1 < count.toNat) :
    (poolEntries entries).length ≤ max count.toNat 1 := by
  induction parsed with
  | start => exact Nat.le_max_right _ _
  | @turn entries info middle after _ below _ ih =>
      have stored : (poolEntries entries).length ≤ max count.toNat 1 := by
        apply ih
        intro j other inside found
        apply wide j other inside
        rw [poolEntries_append, List.getElem?_append_left (List.getElem?_eq_some_iff.mp found).1]
        exact found
      apply length_poolEntries_append_le below stored
      intro isWide last
      have placed : (poolEntries (entries ++ [info]))[(poolEntries entries).length]? =
          some (some info) := by
        rw [poolEntries_append, slots, if_pos isWide]
        simp
      have fits := wide _ info (by omega) placed isWide
      omega

/-- A pool that the parser has produced, when it is well formed. -/
theorem poolEntries_of_parseConstantPool {pool : ConstantPool} {data : List Byte}
    {cursor after : Cursor} (parsed : parseConstantPool data cursor = .ok (pool, after))
    (wellFormed : WellFormedPool pool) :
    ∃ constants, pool.constantInfos = poolEntries constants ∧
      (poolEntries constants).length = max 1 pool.constantPoolCount.toNat := by
  rcases Reader.bind_eq_ok parsed with ⟨count, start, counted, -⟩
  rcases (parseConstantPool_eq_ok_iff counted).mp parsed with ⟨entries, run, above, rfl⟩
  have wide : ∀ j info, j < count.toNat → (poolEntries entries)[j]? = some (some info) →
      info.getConstantType.isWide = true → j + 1 < count.toNat := by
    intro j info below found isWide
    have small : j < 2 ^ 16 := below.trans count.isLt
    have positive : j ≠ 0 := by
      rintro rfl
      cases found
    have entry : entryAt ⟨count, poolEntries entries⟩ (BitVec.ofNat 16 j) = some info :=
      entryAt_of_getElem (Nat.pos_of_ne_zero positive) below found
    have fits := wellFormed.wide_fits _ _ entry isWide
    rwa [BitVec.toNat_ofNat, Nat.mod_eq_of_lt small] at fits
  have length := length_poolEntries_eq_of_le (length_poolEntries_le_of_parsed run wide) above
  exact ⟨entries, rfl, length.trans (Nat.max_comm _ _)⟩

end Parsed

/-! ## The two loops side by side -/

section Loop

open JvmDemo.Classfile.Format (slots poolEntries poolEntries_append)

variable {pool : ConstantPool}

/-- The constructor has come to index `i`: what lies before simulates the
entries, what lies behind is null. -/
structure BuiltUpTo (pool : ConstantPool) (i : Nat) (constants : List (Option Constant)) :
    Prop where
  length_eq : constants.length = pool.constantPoolCount.toNat
  simulates : ∀ j entry, j < i → j < constants.length → pool.constantInfos[j]? = some entry →
    Simulates pool entry (constants.getD j none)
  untouched : ∀ j, i ≤ j → constants.getD j none = none

/-- One more entry, whether or not it has a counterpart. -/
theorem BuiltUpTo.put {i : Nat} {constants : List (Option Constant)} {entry : Option ConstantInfo}
    {created : Option Constant} (built : BuiltUpTo pool i constants)
    (here : pool.constantInfos[i]? = some entry) (simulated : Simulates pool entry created) :
    BuiltUpTo pool (i + 1) (constants.set i created) where
  length_eq := by rw [List.length_set, built.length_eq]
  simulates := by
    intro j other below inside found
    rw [List.length_set] at inside
    by_cases same : j = i
    · subst same
      rw [here] at found
      cases found
      simpa [List.getD_eq_getElem?_getD, inside] using simulated
    · have before := built.simulates j other (by omega) inside found
      simpa [List.getD_eq_getElem?_getD, Ne.symm same] using before
  untouched := by
    intro j above
    have differs : i ≠ j := by omega
    simpa [List.getD_eq_getElem?_getD, differs] using built.untouched j (by omega)

theorem set_none_of_null {i : Nat} {constants : List (Option Constant)}
    (null : constants.getD i none = none) : constants.set i none = constants := by
  apply List.ext_getElem?
  intro j
  by_cases same : i = j
  · subst same
    rw [List.getD_eq_getElem?_getD] at null
    cases found : constants[i]? with
    | none => simp [List.getElem?_eq_none_iff.mp found]
    | some value =>
        rw [found] at null
        simp only [Option.getD_some] at null
        rw [List.getElem?_set_self (List.getElem?_eq_some_iff.mp found).1, null]
  · rw [List.getElem?_set_ne same]

theorem BuiltUpTo.set_none {i : Nat} {constants : List (Option Constant)}
    (built : BuiltUpTo pool i constants) : constants.set i none = constants :=
  set_none_of_null (built.untouched i (Nat.le_refl i))

theorem length_slots_pos (info : ConstantInfo) : 0 < (slots info).length := by
  rw [slots]
  split <;> simp

/-- Where a constant begins, it stands. -/
theorem getElem_poolEntries (before : List ConstantInfo) (info : ConstantInfo)
    (rest : List ConstantInfo) :
    (poolEntries (before ++ [info] ++ rest))[(poolEntries before).length]? = some (some info) := by
  have split : poolEntries (before ++ [info] ++ rest) =
      poolEntries before ++ (slots info ++ rest.flatMap slots) := by
    simp [poolEntries]
  rw [split, slots]
  split <;> simp

/-- A constant that was created is stored, and a null pointer is not. -/
theorem BuiltUpTo.keepConstant {i : Nat} {constants : List (Option Constant)}
    (built : BuiltUpTo pool i constants) (inside : i < pool.constantPoolCount.toNat)
    (created : Option Constant) :
    keepConstant constants i created = .ok (constants.set i created) := by
  cases created with
  | none =>
      rw [built.set_none]
      rfl
  | some constant => simp [Runtime.keepConstant, putConstant, built.length_eq, inside]

/-- From the constants that are left, the loop completes the vector. -/
theorem createConstantsLoop_simulates (wellFormed : WellFormedPool pool)
    {before rest : List ConstantInfo} {fuel : Nat} {constants : List (Option Constant)}
    (entries : pool.constantInfos = poolEntries (before ++ rest))
    (length : (poolEntries (before ++ rest)).length = max 1 pool.constantPoolCount.toNat)
    (enough : rest.length < fuel)
    (built : BuiltUpTo pool (poolEntries before).length constants) :
    ∃ all, createConstantsLoop pool fuel (poolEntries before).length constants = .ok all ∧
      BuiltUpTo pool pool.constantInfos.length all := by
  induction rest generalizing before fuel constants with
  | nil =>
      rcases fuel with - | fuel
      · exact absurd enough (Nat.not_lt_zero _)
      · rw [List.append_nil] at entries length
        have atEnd : ¬ (poolEntries before).length < pool.constantPoolCount.toNat := by omega
        refine ⟨constants, ?_, ?_⟩
        · rw [createConstantsLoop, if_neg atEnd]
          rfl
        · rw [entries]
          exact built
  | cons info rest ih =>
      rcases fuel with - | fuel
      · exact absurd enough (Nat.not_lt_zero _)
      have regroup : before ++ info :: rest = (before ++ [info]) ++ rest := by simp
      rw [regroup] at entries length
      have positive : 0 < (poolEntries before).length := Nat.succ_pos _
      have split : poolEntries (before ++ [info] ++ rest) =
          poolEntries before ++ (slots info ++ rest.flatMap slots) := by
        simp [poolEntries]
      have here : pool.constantInfos[(poolEntries before).length]? = some (some info) := by
        rw [entries]
        exact getElem_poolEntries before info rest
      have inside : (poolEntries before).length < pool.constantPoolCount.toNat := by
        have bigger := length_slots_pos info
        rw [split, List.length_append, List.length_append] at length
        omega
      have entry := entryAt_of_getElem positive inside here
      rcases createConstant_simulates wellFormed (wellFormed.refers _ _ entry) with
        ⟨created, createdEq, simulated⟩
      have kept := built.keepConstant inside created
      have afterOne := built.put here simulated
      have grown := poolEntries_append before info
      rw [createConstantsLoop, if_pos inside, getConstantInfo_of_entryAt entry, Exec.bind_ok]
      simp only [createdEq, Exec.bind_ok, kept]
      by_cases isWide : info.getConstantType.isWide = true
      · have next : (poolEntries (before ++ [info])).length =
            (poolEntries before).length + 1 + 1 := by
          rw [grown, slots, if_pos isWide]
          simp
        have second : pool.constantInfos[(poolEntries before).length + 1]? = some none := by
          rw [entries, split, slots, if_pos isWide]
          simp
        have fits : (poolEntries before).length + 1 < pool.constantPoolCount.toNat := by
          rw [split, List.length_append, List.length_append, slots, if_pos isWide] at length
          simp only [List.length_cons, List.length_nil] at length
          omega
        have afterTwo := afterOne.put second .unused
        rw [afterOne.set_none, ← next] at afterTwo
        have nulled : putConstant (constants.set (poolEntries before).length created)
            ((poolEntries before).length + 1) none =
            .ok (constants.set (poolEntries before).length created) := by
          rw [putConstant, if_pos (by rwa [afterOne.length_eq]), afterOne.set_none]
        rw [if_pos isWide, nulled, Exec.bind_ok, ← next]
        exact ih entries length (by simpa using enough) afterTwo
      · have next : (poolEntries (before ++ [info])).length = (poolEntries before).length + 1 := by
          rw [grown, slots, if_neg isWide]
          simp
        rw [if_neg isWide]
        rw [← next] at afterOne ⊢
        exact ih entries length (by simpa using enough) afterOne

theorem length_lt_poolEntries (constants : List ConstantInfo) :
    constants.length < (poolEntries constants).length := by
  induction constants with
  | nil => exact Nat.zero_lt_one
  | cons info constants ih =>
      have positive := length_slots_pos info
      simp only [poolEntries, List.length_cons, List.flatMap_cons, List.length_append] at ih ⊢
      omega

theorem null_behind_wide {constants : List ConstantInfo} {i : Nat} {info : ConstantInfo}
    (found : (constants.flatMap slots)[i]? = some (some info))
    (isWide : info.getConstantType.isWide = true) :
    (constants.flatMap slots)[i + 1]? = some none := by
  induction constants generalizing i with
  | nil => simp at found
  | cons first constants ih =>
      rw [List.flatMap_cons] at found ⊢
      by_cases inFirst : i < (slots first).length
      · rw [List.getElem?_append_left inFirst] at found
        by_cases firstWide : first.getConstantType.isWide = true
        · rw [slots, if_pos firstWide] at found ⊢
          rcases i with - | - | i
          · rfl
          · simp at found
          · simp at found
        · rw [slots, if_neg firstWide] at found
          rcases i with - | i
          · simp only [List.getElem?_cons_zero, Option.some.injEq] at found
            exact absurd (found ▸ isWide) firstWide
          · simp at found
      · have behind : (slots first).length ≤ i := Nat.le_of_not_lt inFirst
        rw [List.getElem?_append_right behind] at found
        rw [List.getElem?_append_right (Nat.le_succ_of_le behind), Nat.succ_sub behind]
        exact ih found

theorem builtUpTo_start (nullFirst : pool.constantInfos[0]? = some none) :
    BuiltUpTo pool 1 (List.replicate pool.constantPoolCount.toNat none) where
  length_eq := List.length_replicate
  simulates := by
    intro j entry below inside found
    obtain rfl : j = 0 := by omega
    rw [nullFirst] at found
    cases found
    rw [List.length_replicate] at inside
    simpa [List.getD_eq_getElem?_getD, inside] using Simulates.unused
  untouched := by
    intro j above
    rw [List.getD_eq_getElem?_getD, List.getElem?_replicate]
    split <;> rfl

end Loop

/-- For every pool that the parser produces and that is well formed, the
constructor returns a vector of the same length, and every entry of it simulates
the entry of the class file; behind a `Long` or a `Double` there is a null. -/
theorem createConstants_simulates [Target] {data : List Byte} {cursor after : Cursor}
    {pool : ConstantPool} (parsed : Parser.parseConstantPool data cursor = .ok (pool, after))
    (wellFormed : WellFormedPool pool) :
    ∃ constants, createConstants pool = .ok constants ∧
      constants.length = pool.constantPoolCount.toNat ∧
      (∀ i < pool.constantPoolCount.toNat, ∃ entry, pool.constantInfos[i]? = some entry ∧
        Simulates pool entry (constants.getD i none)) ∧
      ∀ index info, entryAt pool index = some info → info.getConstantType.isWide = true →
        constants[index.toNat + 1]? = some none := by
  rcases poolEntries_of_parseConstantPool parsed wellFormed with ⟨entries, entriesEq, length⟩
  have nullFirst : pool.constantInfos[0]? = some none := by
    rw [entriesEq]
    rfl
  have enough : entries.length < pool.constantPoolCount.toNat + 1 := by
    have fewer := length_lt_poolEntries entries
    omega
  have run := @createConstantsLoop_simulates pool wellFormed [] entries
  rcases run entriesEq length enough (builtUpTo_start nullFirst) with ⟨constants, returned, built⟩
  have covers : ∀ i < pool.constantPoolCount.toNat, ∃ entry,
      pool.constantInfos[i]? = some entry ∧ Simulates pool entry (constants.getD i none) := by
    intro i below
    have inside : i < pool.constantInfos.length := by
      rw [entriesEq, length]
      omega
    refine ⟨pool.constantInfos[i], List.getElem?_eq_getElem inside, ?_⟩
    exact built.simulates i _ inside (by rwa [built.length_eq]) (List.getElem?_eq_getElem inside)
  refine ⟨constants, returned, built.length_eq, covers, ?_⟩
  intro index info found isWide
  have fits := wellFormed.wide_fits index info found isWide
  have positive : index.toNat ≠ 0 := by
    intro zero
    simp [entryAt, BitVec.lt_def, zero] at found
  have behind : pool.constantInfos[index.toNat + 1]? = some none := by
    have here := getElem_of_entryAt found
    rw [entriesEq] at here ⊢
    obtain ⟨i, at_⟩ := Nat.exists_eq_succ_of_ne_zero positive
    rw [at_] at here ⊢
    exact null_behind_wide here isWide
  rcases covers _ fits with ⟨entry, entryEq, simulated⟩
  rw [behind] at entryEq
  cases entryEq
  have inside : index.toNat + 1 < constants.length := by rwa [built.length_eq]
  rw [List.getD_eq_getElem _ _ inside] at simulated
  rw [List.getElem?_eq_getElem inside]
  cases same : constants[index.toNat + 1] with
  | none => rfl
  | some constant =>
      rw [same] at simulated
      cases simulated

/-! ## A pool -/

/-- A field reference to entries behind it, and a `Long` in between. -/
def samplePool : List ConstantInfo :=
  [.fieldRef 4 5, .long 7, .classInfo 6, .nameAndType 6 6, .utf8 (str "x")]

theorem wellFormed_samplePool : WellFormedPool (Format.toPool id samplePool) := by
  have shapes : ∀ index info, entryAt (Format.toPool id samplePool) index = some info →
      (index.toNat + 1 < 7 ∨ info.getConstantType.isWide = false) ∧
        RefersWell (Format.toPool id samplePool) info := by
    intro index info found
    have here := getElem_of_entryAt found
    generalize index.toNat = i at here ⊢
    have inside : i < 7 := (List.getElem?_eq_some_iff.mp here).1
    interval_cases i
    all_goals cases here
    · exact ⟨by decide, ⟨_, rfl⟩, _, _, rfl⟩
    · exact ⟨by decide, trivial⟩
    · exact ⟨by decide, _, rfl⟩
    · exact ⟨by decide, ⟨_, rfl⟩, _, rfl⟩
    · exact ⟨by decide, trivial⟩
  constructor
  · intro index info found isWide
    rcases (shapes index info found).1 with fits | narrow
    · exact fits
    · rw [narrow] at isWide
      cases isWide
  · intro index info found
    exact (shapes index info found).2

theorem createConstants_samplePool : ∃ constants,
    createConstants (Format.toPool id samplePool) = .ok constants ∧ constants.length = 7 ∧
      Simulates (Format.toPool id samplePool) (some (.fieldRef 4 5)) (constants.getD 1 none) := by
  have parsed : @Parser.parseConstantPool maskedShift
      (Format.encodePool samplePool) ⟨0, 0⟩ =
        .ok (Format.toPool id samplePool, ⟨28, 28⟩) := by decide +kernel
  rcases @createConstants_simulates maskedShift _ _ _ _ parsed wellFormed_samplePool with
    ⟨constants, returned, length, simulates, -⟩
  rcases simulates 1 (by decide) with ⟨entry, entryEq, simulated⟩
  cases entryEq
  exact ⟨constants, returned, length, simulated⟩

end JvmDemo.Runtime
