import JvmDemo.Runtime.ConstantPool
import JvmDemo.Runtime.Outcome

/-!
# Constant pools that cannot be made into run-time constant pools

An index outside the pool is an error.  An index inside it that leads to a null pointer, or
to an entry of another tag, is dereferenced all the same.
-/

namespace JvmDemo.Runtime

open JvmDemo.Lib
open JvmDemo.Classfile

/-! ## Entries of the pool -/

/-- The check of `GetConstantInfo` lets the index pass. -/
def Admits (pool : ConstantPool) (index : BitVec 16) : Prop :=
  ¬ (index < 1 ∨ pool.constantPoolCount ≤ index)

/-- There is no text at an index that passes the check. -/
def LacksText (pool : ConstantPool) (index : BitVec 16) : Prop :=
  Admits pool index ∧ ∀ value, ¬ TextAt pool index value

/-- The first of two texts is missing, or the second. -/
def LacksTexts (pool : ConstantPool) (first second : BitVec 16) : Prop :=
  LacksText pool first ∨ (∃ value, TextAt pool first value) ∧ LacksText pool second

/-- There is no `Class` entry, or its name is missing. -/
def LacksClassName (pool : ConstantPool) (index : BitVec 16) : Prop :=
  Admits pool index ∧
    ∀ nameIndex, entryAt pool index = some (.classInfo nameIndex) → LacksText pool nameIndex

/-- There is no `NameAndType` entry, or one of its texts is missing. -/
def LacksNameAndType (pool : ConstantPool) (index : BitVec 16) : Prop :=
  Admits pool index ∧ ∀ nameIndex descriptorIndex,
    entryAt pool index = some (.nameAndType nameIndex descriptorIndex) →
      LacksTexts pool nameIndex descriptorIndex

/-- What an entry refers to is missing. -/
def LacksReference (pool : ConstantPool) : ConstantInfo → Prop
  | .classInfo nameIndex => LacksText pool nameIndex
  | .string stringIndex => LacksText pool stringIndex
  | .fieldRef classIndex nameAndTypeIndex
  | .methodRef classIndex nameAndTypeIndex
  | .interfaceMethodRef classIndex nameAndTypeIndex =>
      LacksClassName pool classIndex ∨
        (∃ className, ClassNameAt pool classIndex className) ∧
          LacksNameAndType pool nameAndTypeIndex
  | _ => False

section Entries

variable {α : Type} {pool : ConstantPool} {index : BitVec 16}

/-- A lookup whose null pointer goes wrong. -/
theorem Outcome.getConstantInfo_bind {next : Option ConstantInfo → Exec α}
    {returns : ConstantInfo → α → Prop} {wrong : ConstantInfo → Prop}
    (null : Outcome (next none) (fun _ => False) True)
    (entry : ∀ info, Outcome (next (some info)) (returns info) (wrong info)) :
    Outcome (pool.getConstantInfo index >>= next)
      (fun value => ∃ info, entryAt pool index = some info ∧ returns info value)
      (Admits pool index ∧ ∀ info, entryAt pool index = some info → wrong info) := by
  cases found : entryAt pool index with
  | some info =>
      have admitted : Admits pool index := by
        intro refused
        rw [entryAt, if_pos refused] at found
        cases found
      rw [getConstantInfo_of_entryAt found, Exec.bind_ok]
      apply (entry info).congr
      · simp
      · simp [admitted]
  | none =>
      by_cases refused : index < 1 ∨ pool.constantPoolCount ≤ index
      · rw [ConstantPool.getConstantInfo, if_pos refused]
        apply (Outcome.fatal _).congr
        · simp
        · exact iff_of_false id fun missing => missing.1 refused
      · have missing : Admits pool index ∧
            ∀ info, (none : Option ConstantInfo) = some info → wrong info := by
          constructor
          · exact refused
          · intro info same
            cases same
        rw [ConstantPool.getConstantInfo, if_neg refused]
        rw [entryAt, if_neg refused] at found
        cases stored : pool.constantInfos[index.toNat]? with
        | none =>
            apply (Outcome.undefined _).congr
            · simp
            · exact iff_of_true trivial missing
        | some entry =>
            obtain rfl : entry = none := by
              rw [stored] at found
              exact found
            apply null.congr
            · simp
            · exact iff_of_true trivial missing

theorem outcome_getUtf8 :
    Outcome (pool.getUtf8 index) (TextAt pool index) (LacksText pool index) := by
  rw [ConstantPool.getUtf8]
  refine Outcome.congr (@Outcome.getConstantInfo_bind _ _ _ _ (fun info value => info = .utf8 value)
    (fun info => ∀ value, info ≠ .utf8 value) (Outcome.undefined _) fun info => ?_) ?_ ?_
  · cases info with
    | utf8 value =>
        apply (Outcome.pure value).congr
        · simp [eq_comm]
        · simp
    | _ =>
        apply (Outcome.undefined _).congr
        · simp
        · simp
  · simp [TextAt]
  · refine and_congr_right fun _ => ⟨fun other value found => other _ found value rfl, ?_⟩
    rintro missing info found value rfl
    exact missing value found

theorem outcome_getClassName :
    Outcome (pool.getClassName index) (ClassNameAt pool index) (LacksClassName pool index) := by
  rw [ConstantPool.getClassName]
  refine Outcome.congr (@Outcome.getConstantInfo_bind _ _ _ _
    (fun info value => ∃ nameIndex, info = .classInfo nameIndex ∧ TextAt pool nameIndex value)
    (fun info => ∀ nameIndex, info = .classInfo nameIndex → LacksText pool nameIndex)
    (Outcome.undefined _) fun info => ?_) ?_ ?_
  · cases info with
    | classInfo nameIndex =>
        apply outcome_getUtf8.congr
        · simp
        · simp
    | _ =>
        apply (Outcome.undefined _).congr
        · simp
        · simp
  · intro value
    constructor
    · rintro ⟨_, found, nameIndex, rfl, text⟩
      exact ⟨nameIndex, found, text⟩
    · rintro ⟨nameIndex, found, text⟩
      exact ⟨_, found, nameIndex, rfl, text⟩
  · refine and_congr_right fun _ => ⟨fun other nameIndex found => other _ found nameIndex rfl, ?_⟩
    rintro missing info found nameIndex rfl
    exact missing nameIndex found

/-- Two texts, one after the other. -/
theorem outcome_texts {second : BitVec 16} (build : Str → Str → α) :
    Outcome (do
        let first ← pool.getUtf8 index
        let other ← pool.getUtf8 second
        pure (build first other))
      (fun value => ∃ first, TextAt pool index first ∧
        ∃ other, TextAt pool second other ∧ value = build first other)
      (LacksTexts pool index second) := by
  apply (outcome_getUtf8.bind fun first _ => outcome_getUtf8.bind fun other _ =>
    Outcome.pure (build first other)).congr
  · exact fun value => Iff.rfl
  · simp [LacksTexts]

theorem outcome_getNameAndType :
    Outcome (pool.getNameAndType index) (fun texts => NameAndTypeAt pool index texts.1 texts.2)
      (LacksNameAndType pool index) := by
  rw [ConstantPool.getNameAndType]
  refine Outcome.congr (@Outcome.getConstantInfo_bind _ _ _ _
    (fun info texts => ∃ nameIndex descriptorIndex,
      info = .nameAndType nameIndex descriptorIndex ∧
        TextAt pool nameIndex texts.1 ∧ TextAt pool descriptorIndex texts.2)
    (fun info => ∀ nameIndex descriptorIndex,
      info = .nameAndType nameIndex descriptorIndex → LacksTexts pool nameIndex descriptorIndex)
    (Outcome.undefined _) fun info => ?_) ?_ ?_
  · cases info with
    | nameAndType nameIndex descriptorIndex =>
        apply (outcome_texts Prod.mk).congr
        · intro texts
          constructor
          · rintro ⟨name, nameText, type, typeText, rfl⟩
            exact ⟨_, _, rfl, nameText, typeText⟩
          · rintro ⟨_, _, ⟨⟩, nameText, typeText⟩
            exact ⟨_, nameText, _, typeText, rfl⟩
        · simp
    | _ =>
        apply (Outcome.undefined _).congr
        · simp
        · simp
  · intro texts
    constructor
    · rintro ⟨_, found, nameIndex, descriptorIndex, rfl, stand⟩
      exact ⟨nameIndex, descriptorIndex, found, stand⟩
    · rintro ⟨nameIndex, descriptorIndex, found, stand⟩
      exact ⟨_, found, nameIndex, descriptorIndex, rfl, stand⟩
  · refine and_congr_right fun _ => ⟨fun other first second found => other _ found _ _ rfl, ?_⟩
    rintro missing info found nameIndex descriptorIndex rfl
    exact missing nameIndex descriptorIndex found

theorem outcome_createMemberRef (build : Str → Str → Str → Constant)
    {nameAndTypeIndex : BitVec 16} :
    Outcome (createMemberRef pool build index nameAndTypeIndex)
      (fun created => ∃ className, ClassNameAt pool index className ∧ ∃ texts : Str × Str,
        NameAndTypeAt pool nameAndTypeIndex texts.1 texts.2 ∧
          created = some (build className texts.1 texts.2))
      (LacksClassName pool index ∨ (∃ className, ClassNameAt pool index className) ∧
        LacksNameAndType pool nameAndTypeIndex) := by
  apply (outcome_getClassName.bind fun className _ => outcome_getNameAndType.bind fun texts _ =>
    Outcome.pure (some (build className texts.1 texts.2))).congr
  · exact fun created => Iff.rfl
  · simp

/-- The object for an entry simulates it. -/
theorem outcome_createConstant (info : ConstantInfo) :
    Outcome (createConstant pool info) (Simulates pool (some info))
      (LacksReference pool info) := by
  cases info with
  | integer | float | long | double =>
      apply (Outcome.pure _).congr
      · intro created
        constructor
        · rintro rfl
          constructor
        · intro simulated
          cases simulated with
          | other dropped => cases dropped
          | _ => rfl
      · rfl
  | string stringIndex =>
      apply (outcome_getUtf8.bind fun value _ => Outcome.pure (some (Constant.string value))).congr
      · intro created
        constructor
        · rintro ⟨value, text, rfl⟩
          exact .string text
        · intro simulated
          cases simulated with
          | string text => exact ⟨_, text, rfl⟩
          | other dropped => cases dropped
      · simp [LacksReference]
  | classInfo nameIndex =>
      apply (outcome_getUtf8.bind fun name _ => Outcome.pure (some (Constant.classRef name))).congr
      · intro created
        constructor
        · rintro ⟨name, text, rfl⟩
          exact .classRef text
        · intro simulated
          cases simulated with
          | classRef text => exact ⟨_, text, rfl⟩
          | other dropped => cases dropped
      · simp [LacksReference]
  | fieldRef classIndex nameAndTypeIndex =>
      apply (outcome_createMemberRef .fieldRef).congr
      · intro created
        constructor
        · rintro ⟨className, owner, texts, member, rfl⟩
          exact .fieldRef owner member
        · intro simulated
          cases simulated with
          | fieldRef owner member => exact ⟨_, owner, ⟨_, _⟩, member, rfl⟩
          | other dropped => cases dropped
      · rfl
  | methodRef classIndex nameAndTypeIndex =>
      apply (outcome_createMemberRef .methodRef).congr
      · intro created
        constructor
        · rintro ⟨className, owner, texts, member, rfl⟩
          exact .methodRef owner member
        · intro simulated
          cases simulated with
          | methodRef owner member => exact ⟨_, owner, ⟨_, _⟩, member, rfl⟩
          | other dropped => cases dropped
      · rfl
  | interfaceMethodRef classIndex nameAndTypeIndex =>
      apply (outcome_createMemberRef .interfaceMethodRef).congr
      · intro created
        constructor
        · rintro ⟨className, owner, texts, member, rfl⟩
          exact .interfaceMethodRef owner member
        · intro simulated
          cases simulated with
          | interfaceMethodRef owner member => exact ⟨_, owner, ⟨_, _⟩, member, rfl⟩
          | other dropped => cases dropped
      · rfl
  | utf8 | nameAndType | methodHandle | methodType | dynamic | invokeDynamic | moduleInfo
  | packageInfo =>
      apply (Outcome.pure none).congr
      · intro created
        constructor
        · rintro rfl
          exact .other rfl
        · intro simulated
          cases simulated
          rfl
      · rfl

end Entries

/-! ## The pool -/

/-- The index behind an entry. -/
def behind (info : ConstantInfo) (i : Nat) : Nat :=
  if info.getConstantType.isWide then i + 1 + 1 else i + 1

/-- From the first index the constructor comes to the second; all entries on the way
have been made into objects. -/
inductive Visits (pool : ConstantPool) : Nat → Nat → Prop where
  | here (i : Nat) : Visits pool i i
  | later {i j : Nat} {info : ConstantInfo} {created : Option Constant} :
      i < pool.constantPoolCount.toNat → entryAt pool (BitVec.ofNat 16 i) = some info →
        Simulates pool (some info) created →
        (info.getConstantType.isWide = true → i + 1 < pool.constantPoolCount.toNat) →
        Visits pool (behind info i) j → Visits pool i j

/-- The entry is a null pointer, something that it refers to is missing, or it is wide and
the last. -/
def EntryWrong (pool : ConstantPool) (i : Nat) : Prop :=
  ∀ info, entryAt pool (BitVec.ofNat 16 i) = some info → LacksReference pool info ∨
    info.getConstantType.isWide = true ∧ i + 1 = pool.constantPoolCount.toNat

/-- The constructor comes to a bad entry. -/
def PoolWrong (pool : ConstantPool) : Prop :=
  ∃ i, Visits pool 1 i ∧ i < pool.constantPoolCount.toNat ∧ EntryWrong pool i

/-- The run-time entry at an index: null, unless the constructor comes there. -/
def RunTimeEntry (pool : ConstantPool) (i : Nat) (constant : Option Constant) : Prop :=
  (Visits pool 1 i ∧ ∃ info, entryAt pool (BitVec.ofNat 16 i) = some info ∧
    Simulates pool (some info) constant) ∨ (¬ Visits pool 1 i ∧ constant = none)

/-- The constructor comes to the end, and leaves these entries. -/
structure RunTimePool (pool : ConstantPool) (constants : List (Option Constant)) : Prop where
  ends : ∃ i, Visits pool 1 i ∧ pool.constantPoolCount.toNat ≤ i
  length_eq : constants.length = pool.constantPoolCount.toNat
  entry : ∀ i, i < pool.constantPoolCount.toNat → RunTimeEntry pool i (constants.getD i none)

/-- The constructor has come to index `i`: what lies behind is null. -/
structure NullFrom (pool : ConstantPool) (i : Nat) (constants : List (Option Constant)) :
    Prop where
  length_eq : constants.length = pool.constantPoolCount.toNat
  null : ∀ j, i ≤ j → constants.getD j none = none

section Pool

variable {pool : ConstantPool} {i j fuel : Nat} {constants : List (Option Constant)}
  {info : ConstantInfo} {created : Option Constant}

theorem lt_behind : i < behind info i := by
  rw [behind]
  split <;> omega

theorem Visits.le (visits : Visits pool i j) : i ≤ j := by
  induction visits with
  | here => exact Nat.le_refl _
  | later _ _ _ _ _ ih => exact (Nat.le_of_lt lt_behind).trans ih

/-- Another index is visited behind the entry. -/
theorem Visits.behind_of_ne (visits : Visits pool i j) (ne : j ≠ i)
    (found : entryAt pool (BitVec.ofNat 16 i) = some info) : Visits pool (behind info i) j := by
  cases visits with
  | here => exact absurd rfl ne
  | later _ other _ _ rest =>
      cases other.symm.trans found
      exact rest

theorem NullFrom.getElem? (null : NullFrom pool i constants) (le : i ≤ j)
    (inside : j < pool.constantPoolCount.toNat) : constants[j]? = some none := by
  have isNull := null.null j le
  rw [← null.length_eq] at inside
  rw [List.getD_eq_getElem _ _ inside] at isNull
  rw [List.getElem?_eq_getElem inside, isNull]

theorem NullFrom.set (null : NullFrom pool i constants) (lt : i < j) :
    NullFrom pool j (constants.set i created) where
  length_eq := by rw [List.length_set, null.length_eq]
  null := by
    intro k le
    have ne : i ≠ k := Nat.ne_of_lt (Nat.lt_of_lt_of_le lt le)
    have same := null.null k ((Nat.le_of_lt lt).trans le)
    simpa [List.getD_eq_getElem?_getD, ne] using same

theorem NullFrom.keepConstant (null : NullFrom pool i constants)
    (inside : i < pool.constantPoolCount.toNat) (created : Option Constant) :
    keepConstant constants i created = .ok (constants.set i created) := by
  cases created with
  | none =>
      rw [set_none_of_null (null.null i (Nat.le_refl i))]
      rfl
  | some constant => rw [Runtime.keepConstant, putConstant, null.length_eq, if_pos inside]

/-- A turn of the loop that makes an object for the entry. -/
theorem createConstantsLoop_turn (null : NullFrom pool i constants)
    (inside : i < pool.constantPoolCount.toNat)
    (found : entryAt pool (BitVec.ofNat 16 i) = some info)
    (made : Simulates pool (some info) created)
    (fits : info.getConstantType.isWide = true → i + 1 < pool.constantPoolCount.toNat) :
    createConstantsLoop pool (fuel + 1) i constants =
      createConstantsLoop pool fuel (behind info i) (constants.set i created) := by
  rw [createConstantsLoop, if_pos inside, getConstantInfo_of_entryAt found, Exec.bind_ok]
  simp only [((outcome_createConstant info).eq_ok_iff created).mpr made, Exec.bind_ok,
    null.keepConstant inside, behind]
  split
  · next isWide =>
      have next := (@NullFrom.set pool i (i + 1) constants created null (Nat.lt_succ_self i)).null
        (i + 1) (Nat.le_refl _)
      rw [putConstant, List.length_set, null.length_eq, if_pos (fits isWide), Exec.bind_ok,
        set_none_of_null next]
  · rfl

/-- A turn goes wrong on a null pointer, or if it does for the entry. -/
theorem goesWrong_createConstantsLoop_succ (positive : 0 < i)
    (inside : i < pool.constantPoolCount.toNat) :
    GoesWrong (createConstantsLoop pool (fuel + 1) i constants) ↔
      ∀ info, entryAt pool (BitVec.ofNat 16 i) = some info → GoesWrong (do
        let created ← createConstant pool info
        let constants ← keepConstant constants i created
        if info.getConstantType.isWide then do
          let constants ← putConstant constants (i + 1) none
          createConstantsLoop pool fuel (i + 1 + 1) constants
        else createConstantsLoop pool fuel (i + 1) constants) := by
  have small : i < 2 ^ 16 := inside.trans pool.constantPoolCount.isLt
  have admitted : Admits pool (BitVec.ofNat 16 i) := by
    simp only [Admits, BitVec.lt_def, BitVec.le_def, BitVec.toNat_ofNat, Nat.mod_eq_of_lt small]
    simp
    omega
  rw [createConstantsLoop, if_pos inside]
  apply (Outcome.getConstantInfo_bind (Outcome.undefined _) fun info =>
    outcome_self _).goesWrong_iff.trans
  exact and_iff_right admitted

theorem exists_simulates_of_isWide (isWide : info.getConstantType.isWide = true) :
    ∃ created, Simulates pool (some info) created := by
  cases info with
  | long value => exact ⟨_, .long value⟩
  | double value => exact ⟨_, .double value⟩
  | _ => cases isWide

/-- A bad entry stops the loop. -/
theorem goesWrong_of_entryWrong (null : NullFrom pool i constants) (positive : 0 < i)
    (inside : i < pool.constantPoolCount.toNat) (wrong : EntryWrong pool i) :
    GoesWrong (createConstantsLoop pool (fuel + 1) i constants) := by
  rw [goesWrong_createConstantsLoop_succ positive inside]
  intro info found
  rw [goesWrong_bind, (outcome_createConstant info).goesWrong_iff]
  rcases wrong info found with lacks | ⟨isWide, last⟩
  · exact .inl lacks
  · rcases @exists_simulates_of_isWide pool info isWide with ⟨created, made⟩
    refine .inr ⟨created, ((outcome_createConstant info).eq_ok_iff created).mpr made, ?_⟩
    have outside : ¬ i + 1 < pool.constantPoolCount.toNat := by omega
    rw [null.keepConstant inside, Exec.bind_ok, if_pos isWide, putConstant, List.length_set,
      null.length_eq, if_neg outside]
    exact goesWrong_undefined _

/-- An entry that is not made into an object stops the loop. -/
theorem eq_of_visits_of_error {fault : Fault}
    (found : entryAt pool (BitVec.ofNat 16 i) = some info)
    (failed : createConstant pool info = .error fault) (visits : Visits pool i j) : j = i := by
  cases visits with
  | here => rfl
  | later _ other made =>
      cases other.symm.trans found
      have returned := ((outcome_createConstant info).eq_ok_iff _).mpr made
      cases failed.symm.trans returned

/-- What a turn of the loop can do: run into a bad entry, stop with a message, or go on
behind the entry. -/
inductive LoopTurn (pool : ConstantPool) (fuel i : Nat) (constants : List (Option Constant)) :
    Prop where
  | wrong : EntryWrong pool i → GoesWrong (createConstantsLoop pool (fuel + 1) i constants) →
      LoopTurn pool fuel i constants
  | stops {fault : Fault} : (∀ j, Visits pool i j → j = i) → ¬ EntryWrong pool i →
      fault.Stops → createConstantsLoop pool (fuel + 1) i constants = .error fault →
        LoopTurn pool fuel i constants
  | goesOn {info : ConstantInfo} {created : Option Constant} :
      entryAt pool (BitVec.ofNat 16 i) = some info → Simulates pool (some info) created →
        (info.getConstantType.isWide = true → i + 1 < pool.constantPoolCount.toNat) →
        ¬ EntryWrong pool i →
        createConstantsLoop pool (fuel + 1) i constants =
          createConstantsLoop pool fuel (behind info i) (constants.set i created) →
        LoopTurn pool fuel i constants

theorem loopTurn (null : NullFrom pool i constants) (positive : 0 < i)
    (inside : i < pool.constantPoolCount.toNat) (fuel : Nat) : LoopTurn pool fuel i constants := by
  by_cases wrong : EntryWrong pool i
  · exact .wrong wrong (goesWrong_of_entryWrong null positive inside wrong)
  have sound := wrong
  simp only [EntryWrong, not_forall, not_or, not_and] at sound
  rcases sound with ⟨info, found, present, notLast⟩
  cases outcome : createConstant pool info with
  | error fault =>
      apply LoopTurn.stops (fun j visits => eq_of_visits_of_error found outcome visits) wrong
      · by_contra bad
        exact present ((outcome_createConstant info).goesWrong_iff.mp ⟨fault, outcome, bad⟩)
      · rw [createConstantsLoop, if_pos inside, getConstantInfo_of_entryAt found, Exec.bind_ok]
        simp only [outcome, Exec.bind_error]
  | ok created =>
      have made := ((outcome_createConstant info).eq_ok_iff created).mp outcome
      have fits : info.getConstantType.isWide = true → i + 1 < pool.constantPoolCount.toNat := by
        intro isWide
        have ne := notLast isWide
        omega
      exact .goesOn found made fits wrong (createConstantsLoop_turn null inside found made fits)

/-- Each turn moves the index on, so the loop goes wrong only at a bad entry. -/
theorem goesWrong_createConstantsLoop (null : NullFrom pool i constants) (positive : 0 < i)
    (enough : pool.constantPoolCount.toNat - i < fuel) :
    GoesWrong (createConstantsLoop pool fuel i constants) ↔
      ∃ j, Visits pool i j ∧ j < pool.constantPoolCount.toNat ∧ EntryWrong pool j := by
  induction fuel generalizing i constants with
  | zero => exact absurd enough (Nat.not_lt_zero _)
  | succ fuel ih =>
      by_cases inside : i < pool.constantPoolCount.toNat
      · cases loopTurn null positive inside fuel with
        | wrong bad goesWrong => exact iff_of_true goesWrong ⟨i, .here i, inside, bad⟩
        | stops stays sound isStop failed =>
            apply iff_of_false
            · rintro ⟨fault, other, bad⟩
              cases failed.symm.trans other
              exact bad isStop
            · rintro ⟨j, visits, -, bad⟩
              rw [stays j visits] at bad
              exact sound bad
        | goesOn found made fits sound turn =>
            rw [turn, ih (null.set lt_behind) (positive.trans lt_behind) (by grind [lt_behind])]
            constructor
            · rintro ⟨j, visits, rest⟩
              exact ⟨j, .later inside found made fits visits, rest⟩
            · rintro ⟨j, visits, below, bad⟩
              have ne : j ≠ i := by
                rintro rfl
                exact sound bad
              exact ⟨j, visits.behind_of_ne ne found, below, bad⟩
      · rw [createConstantsLoop, if_neg inside]
        apply iff_of_false (not_goesWrong_ok _)
        rintro ⟨j, visits, below, -⟩
        exact inside (Nat.lt_of_le_of_lt visits.le below)

/-- What the loop leaves when it starts at index `i`. -/
structure Completes (pool : ConstantPool) (i : Nat) (constants last : List (Option Constant)) :
    Prop where
  ends : ∃ j, Visits pool i j ∧ pool.constantPoolCount.toNat ≤ j
  length_eq : last.length = pool.constantPoolCount.toNat
  kept : ∀ j, j < i → last.getD j none = constants.getD j none
  made : ∀ j, Visits pool i j → j < pool.constantPoolCount.toNat →
    ∃ info, entryAt pool (BitVec.ofNat 16 j) = some info ∧
      Simulates pool (some info) (last.getD j none)
  null : ∀ j, i ≤ j → ¬ Visits pool i j → last.getD j none = none

theorem Completes.turn {last : List (Option Constant)}
    (null : NullFrom pool i constants) (inside : i < pool.constantPoolCount.toNat)
    (found : entryAt pool (BitVec.ofNat 16 i) = some info)
    (made : Simulates pool (some info) created)
    (fits : info.getConstantType.isWide = true → i + 1 < pool.constantPoolCount.toNat)
    (rest : Completes pool (behind info i) (constants.set i created) last) :
    Completes pool i constants last := by
  have here : last.getD i none = created := by
    rw [rest.kept i lt_behind]
    simp [List.getD_eq_getElem?_getD, null.length_eq, inside]
  constructor
  · rcases rest.ends with ⟨j, visits, above⟩
    exact ⟨j, .later inside found made fits visits, above⟩
  · exact rest.length_eq
  · intro j below
    rw [rest.kept j (below.trans lt_behind)]
    simp [List.getD_eq_getElem?_getD, Nat.ne_of_gt below]
  · intro j visits below
    by_cases same : j = i
    · subst same
      exact ⟨info, found, by rwa [here]⟩
    · exact rest.made j (visits.behind_of_ne same found) below
  · intro j le unvisited
    by_cases beyond : behind info i ≤ j
    · exact rest.null j beyond fun visits => unvisited (.later inside found made fits visits)
    · have ne : i ≠ j := by
        rintro rfl
        exact unvisited (.here i)
      rw [rest.kept j (Nat.not_le.mp beyond)]
      simpa [List.getD_eq_getElem?_getD, ne] using null.null j le

theorem createConstantsLoop_eq_ok {last : List (Option Constant)}
    (null : NullFrom pool i constants) (positive : 0 < i)
    (returned : createConstantsLoop pool fuel i constants = .ok last) :
    Completes pool i constants last := by
  induction fuel generalizing i constants with
  | zero => cases returned
  | succ fuel ih =>
      by_cases inside : i < pool.constantPoolCount.toNat
      · cases loopTurn null positive inside fuel with
        | wrong bad goesWrong =>
            rw [returned] at goesWrong
            exact absurd goesWrong (not_goesWrong_ok last)
        | stops _ _ _ failed => cases failed.symm.trans returned
        | goesOn found made fits sound turn =>
            rw [turn] at returned
            exact .turn null inside found made fits
              (ih (null.set lt_behind) (positive.trans lt_behind) returned)
      · rw [createConstantsLoop, if_neg inside] at returned
        cases returned
        have above := Nat.not_lt.mp inside
        constructor
        · exact ⟨i, .here i, above⟩
        · exact null.length_eq
        · exact fun _ _ => rfl
        · exact fun j visits below => absurd (Nat.lt_of_le_of_lt visits.le below) inside
        · exact fun j le _ => null.null j le

/-- If the constructor comes to the end, the loop returns. -/
theorem exists_createConstantsLoop (null : NullFrom pool i constants) (positive : 0 < i)
    (enough : pool.constantPoolCount.toNat - i < fuel) (visits : Visits pool i j)
    (above : pool.constantPoolCount.toNat ≤ j) :
    ∃ last, createConstantsLoop pool fuel i constants = .ok last := by
  induction visits generalizing fuel constants with
  | here i =>
      rcases fuel with - | fuel
      · exact absurd enough (Nat.not_lt_zero _)
      · exact ⟨constants, by rw [createConstantsLoop, if_neg (Nat.not_lt.mpr above)]; rfl⟩
  | later inside found made fits _ ih =>
      rcases fuel with - | fuel
      · exact absurd enough (Nat.not_lt_zero _)
      rw [createConstantsLoop_turn null inside found made fits]
      exact ih (null.set lt_behind) (positive.trans lt_behind) (by grind [lt_behind]) above

theorem nullFrom_replicate (pool : ConstantPool) (i : Nat) :
    NullFrom pool i (List.replicate pool.constantPoolCount.toNat none) where
  length_eq := List.length_replicate
  null := by
    intro j _
    rw [List.getD_eq_getElem?_getD]
    exact List.getElem?_getD_replicate_default_eq _ _ j

theorem RunTimeEntry.unique {first second : Option Constant} (left : RunTimeEntry pool i first)
    (right : RunTimeEntry pool i second) : first = second := by
  rcases left with ⟨visits, info, found, made⟩ | ⟨unvisited, rfl⟩
  · rcases right with ⟨-, other, otherFound, otherMade⟩ | ⟨unvisited, -⟩
    · cases found.symm.trans otherFound
      have returned := ((outcome_createConstant info).eq_ok_iff _).mpr made
      have again := ((outcome_createConstant info).eq_ok_iff _).mpr otherMade
      cases returned.symm.trans again
      rfl
    · exact absurd visits unvisited
  · rcases right with ⟨visits, -⟩ | ⟨-, rfl⟩
    · exact absurd visits unvisited
    · rfl

theorem RunTimePool.unique {others : List (Option Constant)} (left : RunTimePool pool constants)
    (right : RunTimePool pool others) : constants = others := by
  apply List.ext_getElem (left.length_eq.trans right.length_eq.symm)
  intro i inside otherInside
  have below := inside
  rw [left.length_eq] at below
  have same := (left.entry i below).unique (right.entry i below)
  rwa [List.getD_eq_getElem _ _ inside, List.getD_eq_getElem _ _ otherInside] at same

theorem runTimePool_of_createConstants (returned : createConstants pool = .ok constants) :
    RunTimePool pool constants := by
  have done := createConstantsLoop_eq_ok (nullFrom_replicate pool 1) Nat.one_pos returned
  refine ⟨done.ends, done.length_eq, fun i below => ?_⟩
  by_cases visits : Visits pool 1 i
  · exact .inl ⟨visits, done.made i visits below⟩
  · refine .inr ⟨visits, ?_⟩
    rcases Nat.eq_zero_or_pos i with rfl | positive
    · rw [done.kept 0 Nat.one_pos]
      exact (nullFrom_replicate pool 0).null 0 (Nat.le_refl 0)
    · exact done.null i positive visits

/-- What the constructor of the pool leaves, and when it goes wrong. -/
theorem outcome_createConstants (pool : ConstantPool) :
    Outcome (createConstants pool) (RunTimePool pool) (PoolWrong pool) := by
  have null := nullFrom_replicate pool 1
  have enough : pool.constantPoolCount.toNat - 1 < pool.constantPoolCount.toNat + 1 :=
    Nat.lt_succ_of_le (Nat.sub_le _ _)
  constructor
  · intro constants
    constructor
    · exact runTimePool_of_createConstants
    · intro described
      rcases described.ends with ⟨i, visits, above⟩
      rcases exists_createConstantsLoop null Nat.one_pos enough visits above with ⟨last, returned⟩
      rw [described.unique (runTimePool_of_createConstants returned)]
      exact returned
  · exact goesWrong_createConstantsLoop null Nat.one_pos enough

theorem RunTimePool.getElem?_eq_some_iff (described : RunTimePool pool constants)
    {entry : Option Constant} :
    constants[i]? = some entry ↔ i < pool.constantPoolCount.toNat ∧ RunTimeEntry pool i entry := by
  constructor
  · intro found
    rcases List.getElem?_eq_some_iff.mp found with ⟨inside, rfl⟩
    have below := inside
    rw [described.length_eq] at below
    have here := described.entry i below
    rw [List.getD_eq_getElem _ _ inside] at here
    exact ⟨below, here⟩
  · rintro ⟨below, here⟩
    have inside := below
    rw [← described.length_eq] at inside
    have same := (described.entry i below).unique here
    rw [List.getD_eq_getElem _ _ inside] at same
    rw [List.getElem?_eq_getElem inside, same]

end Pool

end JvmDemo.Runtime
