import JvmDemo.Lib.Substring
import JvmDemo.Classfile.Types

/-!
# Reading classes from the class path

A class reader reads one directory, one archive, or a number of other readers in
order; the reader for a path with a wildcard is of the last kind.  All of them
take the name of a file, not of a class: a name that does not end in `.class` is
refused before anything is looked up.
-/

namespace JvmDemo.Classpath

open JvmDemo.Lib
open JvmDemo.Runtime
open JvmDemo.Classfile

inductive ReadErrno where
  | kSucceed | kNotClassFile | kOpenClassFailed | kReadClassStreamFailed | kReadClassFailed
  | kUnknown
  deriving DecidableEq, Repr

/-- What is found under the name of a file. -/
inductive FileContent where
  | missing
  | unreadable
  | bytes (data : ClassData)

inductive ClassReader where
  /-- `DirClassReader`: the files by their names relative to `abs_dir_`. -/
  | dir (files : Str → FileContent)
  /-- `ZipClassReader`: the entries of the archive in order. -/
  | zip (entries : List (Str × FileContent))
  /-- `CompositeClassReader` and `WildcardClassReader`. -/
  | composite (readers : List ClassReader)

/-- What `ReadClass` returns: the error number, and the data unless the pointer is
null. -/
structure ReadResult where
  readErrno : ReadErrno
  data : Option ClassData

/-- The text behind the last occurrence of a byte, or all of it. -/
def afterLast (byte : Byte) (text : Str) : Str :=
  (text.reverse.takeWhile (· != byte)).reverse

/-- `CheckClassPathValid`. -/
def checkClassPathValid (classPath : Str) : Bool := afterLast (chr '.') classPath == str "class"

namespace ClassReader

/-- The result for a file that was looked up. -/
def resultOf (absent : ReadErrno) : FileContent → ReadResult
  | .missing => ⟨absent, none⟩
  | .unreadable => ⟨.kReadClassStreamFailed, none⟩
  | .bytes data => ⟨.kSucceed, some data⟩

mutual

/-- `ReadClass`. -/
def readClass (className : Str) : ClassReader → ReadResult
  | dir files =>
      if checkClassPathValid className then resultOf .kOpenClassFailed (files className)
      else ⟨.kNotClassFile, none⟩
  | zip entries =>
      if checkClassPathValid className then
        resultOf .kUnknown ((entries.lookup className).getD .missing)
      else ⟨.kNotClassFile, none⟩
  | composite readers =>
      if checkClassPathValid className then readFirst className readers
      else ⟨.kNotClassFile, none⟩

/-- The loop of `CompositeClassReader::ReadClass`. -/
def readFirst (className : Str) : List ClassReader → ReadResult
  | [] => ⟨.kReadClassFailed, none⟩
  | reader :: readers =>
      let classData := readClass className reader
      if classData.readErrno = .kSucceed then classData else readFirst className readers

end

end ClassReader

/-! ## Names -/

theorem bne_of_mem_reverse {byte : Byte} {text : Str} (absent : byte ∉ text) :
    ∀ other ∈ text.reverse, (other != byte) = true := by
  intro other mem
  rw [bne_iff_ne]
  rintro rfl
  exact absent (List.mem_reverse.mp mem)

theorem afterLast_of_not_mem {byte : Byte} {text : Str} (absent : byte ∉ text) :
    afterLast byte text = text := by
  have all : (text.reverse ++ []).takeWhile (· != byte) =
      text.reverse ++ [].takeWhile (· != byte) :=
    List.takeWhile_append_of_pos (bne_of_mem_reverse absent)
  rw [List.takeWhile_nil, List.append_nil] at all
  rw [afterLast, all, List.reverse_reverse]

theorem afterLast_append_cons {byte : Byte} {rest : Str} (absent : byte ∉ rest) (front : Str) :
    afterLast byte (front ++ byte :: rest) = rest := by
  rw [afterLast, List.reverse_append, List.reverse_cons, List.append_assoc,
    List.takeWhile_append_of_pos (bne_of_mem_reverse absent), List.singleton_append,
    List.takeWhile_cons_of_neg (by simp), List.append_nil, List.reverse_reverse]

/-- The text behind the last dot is `suffix` if the name ends in it, the dot included; a
name without a dot is compared as a whole. -/
theorem afterLast_eq_iff {byte : Byte} {suffix : Str} (absent : byte ∉ suffix) (name : Str) :
    afterLast byte name = suffix ↔ name = suffix ∨ byte :: suffix <:+ name := by
  constructor
  · intro same
    by_cases mem : byte ∈ name
    · rcases eq_append_cons_of_last mem with ⟨front, rest, rfl, notBehind⟩
      rw [afterLast_append_cons notBehind] at same
      rw [same]
      exact .inr (List.suffix_append _ _)
    · rw [afterLast_of_not_mem mem] at same
      exact .inl same
  · rintro (rfl | ⟨front, rfl⟩)
    · exact afterLast_of_not_mem absent
    · exact afterLast_append_cons absent front

/-- What passes for the name of a file. -/
theorem checkClassPathValid_iff (classPath : Str) :
    checkClassPathValid classPath = true ↔
      classPath = str "class" ∨ str ".class" <:+ classPath := by
  rw [checkClassPathValid, beq_iff_eq]
  exact afterLast_eq_iff (by decide) classPath

theorem checkClassPathValid_append (className : Str) :
    checkClassPathValid (className ++ str ".class") = true :=
  (checkClassPathValid_iff _).mpr (.inr (List.suffix_append _ _))

/-- The name of a class has no dot, so it passes for the name of a file only if
it is `class`. -/
theorem checkClassPathValid_eq_true_iff {className : Str} (noDot : chr '.' ∉ className) :
    checkClassPathValid className = true ↔ className = str "class" := by
  rw [checkClassPathValid_iff, or_iff_left]
  intro suffix
  exact noDot (suffix.subset (by decide))

/-- What does not pass for the name of a file is not read. -/
theorem ClassReader.readClass_of_invalid {className : Str} (reader : ClassReader)
    (invalid : checkClassPathValid className = false) :
    readClass className reader = ⟨.kNotClassFile, none⟩ := by
  cases reader with
  | dir files => rw [readClass, invalid]; rfl
  | zip entries => rw [readClass, invalid]; rfl
  | composite readers => rw [readClass, invalid]; rfl

/-! ## Success -/

/-- A property of all readers, from the readers in a composite one. -/
@[elab_as_elim]
theorem ClassReader.induction {motive : ClassReader → Prop} (dir : ∀ files, motive (.dir files))
    (zip : ∀ entries, motive (.zip entries))
    (composite : ∀ readers, (∀ reader ∈ readers, motive reader) → motive (.composite readers))
    (reader : ClassReader) : motive reader := by
  apply @ClassReader.rec motive (fun readers => ∀ reader ∈ readers, motive reader) dir zip composite
  case nil => exact fun reader mem => absurd mem List.not_mem_nil
  case cons =>
    intro first rest firstHolds restHold
    exact List.forall_mem_cons.mpr ⟨firstHolds, restHold⟩

namespace ClassReader

/-- The reader finds the file. -/
def Succeeds (className : Str) (reader : ClassReader) : Prop :=
  (readClass className reader).readErrno = .kSucceed

instance (className : Str) (reader : ClassReader) : Decidable (Succeeds className reader) :=
  inferInstanceAs (Decidable (_ = _))

/-- Data are returned with success and only then. -/
theorem readClass_outcome (className : Str) (reader : ClassReader) :
    (∃ data, readClass className reader = ⟨.kSucceed, some data⟩) ∨
      ¬ Succeeds className reader ∧ (readClass className reader).data = none := by
  by_cases valid : checkClassPathValid className = true
  case neg =>
    rw [Bool.not_eq_true] at valid
    rw [Succeeds, readClass_of_invalid reader valid]
    exact .inr ⟨ReadErrno.noConfusion, rfl⟩
  have looked {absent : ReadErrno} (failure : absent ≠ .kSucceed) (content : FileContent) :
      (∃ data, resultOf absent content = ⟨.kSucceed, some data⟩) ∨
        (resultOf absent content).readErrno ≠ .kSucceed ∧
          (resultOf absent content).data = none := by
    cases content with
    | missing => exact .inr ⟨failure, rfl⟩
    | unreadable => exact .inr ⟨ReadErrno.noConfusion, rfl⟩
    | bytes data => exact .inl ⟨data, rfl⟩
  induction reader using ClassReader.induction with
  | dir files =>
      rw [Succeeds, readClass, if_pos valid]
      exact looked (by decide) _
  | zip entries =>
      rw [Succeeds, readClass, if_pos valid]
      exact looked (by decide) _
  | composite readers ih =>
      rw [Succeeds, readClass, if_pos valid]
      induction readers with
      | nil => exact .inr ⟨ReadErrno.noConfusion, rfl⟩
      | cons first rest restIh =>
          rw [readFirst]
          split
          case isTrue succeeds =>
            rcases ih first List.mem_cons_self with found | failed
            · exact .inl found
            · exact absurd succeeds failed.1
          case isFalse =>
            exact restIh fun reader mem => ih reader (List.mem_cons_of_mem _ mem)

theorem succeeds_iff {className : Str} {reader : ClassReader} :
    Succeeds className reader ↔ (readClass className reader).data.isSome = true := by
  rcases readClass_outcome className reader with ⟨data, found⟩ | ⟨failed, none⟩
  · rw [Succeeds, found]
    exact iff_of_true rfl rfl
  · rw [none]
    exact iff_of_false failed Bool.false_ne_true

/-- Data are there only if the error number says so. -/
theorem readClass_of_data {className : Str} {reader : ClassReader} {data : ClassData}
    (found : (readClass className reader).data = some data) :
    readClass className reader = ⟨.kSucceed, some data⟩ := by
  rcases readClass_outcome className reader with ⟨other, same⟩ | ⟨_, none⟩
  · rw [same] at found ⊢
    cases found
    rfl
  · rw [none] at found
    cases found

end ClassReader

end JvmDemo.Classpath
