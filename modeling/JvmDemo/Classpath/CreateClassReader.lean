import JvmDemo.Classpath.PathStrings
import JvmDemo.Classpath.ClassReader

/-!
# The readers for a class path

`CreateClassReader` makes one reader for a path, and for a path with separators
one for every segment.  What it finds in directories comes from a `FileSystem`,
which stands for the calls of the operating system and the archive library.

The kind of a reader is read off positions of type `size_t`, where `npos` is the
largest value: it is what `find_last_of` gives for a character that does not
occur, and also what `length() - 1` is for the empty string.  So the empty
segment counts as one that ends in `*`, and a name without a dot is compared
with the suffixes as a whole.  `interpretation` reads a class path by how its
segments end, and these segments are the only ones that are read otherwise.
-/

namespace JvmDemo.Classpath

open JvmDemo.Lib
open JvmDemo.Runtime

/-- What the readers see of the file system and of archives. -/
structure FileSystem where
  /-- `lstat` succeeds and finds a directory. -/
  isDirectory : Str → Bool
  /-- The names that `readdir` gives one after the other, if `opendir` succeeds. -/
  directory : Str → Option (List Str)
  file : Str → FileContent
  /-- The entries of an archive. -/
  archive : Str → List (Str × FileContent)

/-- The classes of readers with their fields. -/
inductive PathReader where
  /-- `DirClassReader`. -/
  | dir (absDir : Str)
  /-- `ZipClassReader`. -/
  | zip (absPath : Str)
  /-- `CompositeClassReader`. -/
  | composite (compositePath : Str) (readers : List PathReader)
  /-- `WildcardClassReader`. -/
  | wildcard (compositePath : Str) (readers : List PathReader)

/-- `CLASS_PATH_SEPARATOR`. -/
def classPathSeparator : Str := str ":"

/-- `length() - 1` as a position: `npos`, here `none`, for the empty string. -/
def lastPosition (text : Str) : Option Nat :=
  if text.length = 0 then none else some (text.length - 1)

/-! ## Wildcards -/

/-- The loop of `GetFiles` over the names in a directory. -/
def getFilesLoop (path : Str) (exds : List Str) : List Str → List Str → List Str
  | [], files => files
  | fileName :: names, files =>
      if fileName = str "." ∨ fileName = str ".." then getFilesLoop path exds names files
      else
        let filePath := path ++ pathSeparator ++ fileName
        let fileSuffix := afterLast (chr '.') fileName
        if exds.contains fileSuffix then getFilesLoop path exds names (files ++ [filePath])
        else getFilesLoop path exds names files

/-- `GetFiles`; `files` is the vector before and after the call. -/
def getFiles (fs : FileSystem) (path : Str) (exds files : List Str) : List Str :=
  if fs.isDirectory path then
    match fs.directory path with
    | none => files
    | some names => getFilesLoop path exds names files
  else files

/-- The constructor of `WildcardClassReader`. -/
def wildcardClassReader (fs : FileSystem) (wildcardPath : Str) : PathReader :=
  let compositePath :=
    match findLast (chr '*') wildcardPath with
    | none => wildcardPath
    | some pos => wildcardPath.take pos
  let exds := [str "jar", str "zip", str "JAR"]
  let jarFiles := getFiles fs compositePath exds []
  .wildcard compositePath (.dir compositePath :: jarFiles.map .zip)

/-! ## Paths -/

/-- The loop over the segments, with the readers added so far. -/
def addClassReaders (create : Str → Exec PathReader) :
    List Str → List PathReader → Exec (List PathReader)
  | [], readers => pure readers
  | tmpPath :: paths, readers => do
      let tmpReader ← create tmpPath
      addClassReaders create paths (readers ++ [tmpReader])

/-- The recursion of `CreateClassReader`. -/
def createWithin (fs : FileSystem) : Nat → Str → Exec PathReader
  | 0, _ => .error .diverges
  | fuel + 1, path =>
      if findFrom path classPathSeparator 0 ≠ none then do
        let paths ← splitString path classPathSeparator []
        let readers ← addClassReaders (createWithin fs fuel) paths []
        pure (.composite path readers)
      else if findLast (chr '*') path = lastPosition path then pure (wildcardClassReader fs path)
      else
        let suffix := afterLast (chr '.') path
        if suffix = str "zip" ∨ suffix = str "jar" ∨ suffix = str "JAR" then pure (.zip path)
        else pure (.dir path)

/-- `CreateClassReader`.  A segment is shorter than the path it is a part of. -/
def createClassReader (fs : FileSystem) (path : Str) : Exec PathReader :=
  createWithin fs (path.length + 1) path

/-! ## What a class path means -/

/-- The suffixes of archives, without the dot. -/
def archiveSuffixes : List Str := [str "jar", str "zip", str "JAR"]

/-- The files that a wildcard takes from a directory.  They are compared without the dot
too. -/
def IsArchiveName (fileName : Str) : Prop :=
  ∃ suffix ∈ archiveSuffixes, fileName = suffix ∨ chr '.' :: suffix <:+ fileName

instance (fileName : Str) : Decidable (IsArchiveName fileName) :=
  inferInstanceAs (Decidable (∃ suffix ∈ archiveSuffixes, _))

/-- The archives in a directory. -/
def archivesIn (fs : FileSystem) (path : Str) : List Str :=
  if fs.isDirectory path then
    (((fs.directory path).getD []).filter (IsArchiveName ·)).map (path ++ pathSeparator ++ ·)
  else []

/-- A directory and the archives in it. -/
def wildcardOf (fs : FileSystem) (path : Str) : PathReader :=
  .wildcard path (.dir path :: (archivesIn fs path).map .zip)

/-- The reader for a path without separators, by how the path ends. -/
def prescribed (fs : FileSystem) (segment : Str) : PathReader :=
  if str "*" <:+ segment then wildcardOf fs segment.dropLast
  else if str ".zip" <:+ segment ∨ str ".jar" <:+ segment ∨ str ".JAR" <:+ segment then
    .zip segment
  else .dir segment

/-- The reader for a class path: one for each segment if there is a separator. -/
def interpretation (fs : FileSystem) (path : Str) : PathReader :=
  if chr ':' ∈ path then .composite path ((path.splitOn (chr ':')).map (prescribed fs))
  else prescribed fs path

/-- The segments that are taken for something else: the empty one, and a suffix without a
dot. -/
def misread : List Str := [] :: archiveSuffixes

/-- The reader that a path without separators gets. -/
def readerFor (fs : FileSystem) (segment : Str) : PathReader :=
  if segment = [] then wildcardOf fs []
  else if archiveSuffixes.contains segment then .zip segment
  else prescribed fs segment

/-! ## How the segments are classified -/

theorem findFrom_separator_iff {path : Str} :
    findFrom path classPathSeparator 0 = none ↔ chr ':' ∉ path := by
  rw [findFrom_zero]
  exact findSub_singleton_eq_none_iff

/-- The empty string counts as one that ends in the character. -/
theorem findLast_eq_lastPosition_iff (byte : Byte) (text : Str) :
    findLast byte text = lastPosition text ↔ text = [] ∨ [byte] <:+ text := by
  constructor
  · intro same
    by_cases mem : byte ∈ text
    · rcases eq_append_cons_of_last mem with ⟨front, rest, rfl, absent⟩
      rw [findLast_append_cons absent, lastPosition, if_neg (by simp), Option.some_inj,
        List.length_append, List.length_cons] at same
      have noneBehind : rest = [] := List.length_eq_zero_iff.mp (by omega)
      rw [noneBehind]
      exact .inr (List.suffix_append _ _)
    · rw [findLast_eq_none mem, lastPosition] at same
      split at same
      case isTrue empty => exact .inl (List.length_eq_zero_iff.mp empty)
      case isFalse => cases same
  · rintro (rfl | ⟨front, rfl⟩)
    · rfl
    · rw [findLast_append_cons List.not_mem_nil, lastPosition, if_neg (by simp),
        List.length_append]
      rfl

theorem contains_suffix_iff (fileName : Str) :
    archiveSuffixes.contains (afterLast (chr '.') fileName) = true ↔ IsArchiveName fileName := by
  have noDot : ∀ suffix ∈ archiveSuffixes, chr '.' ∉ suffix := by decide
  rw [List.contains_iff_mem]
  constructor
  · intro mem
    exact ⟨_, mem, (afterLast_eq_iff (noDot _ mem) fileName).mp rfl⟩
  · rintro ⟨suffix, mem, ends⟩
    rwa [(afterLast_eq_iff (noDot _ mem) fileName).mpr ends]

/-- `GetFiles` appends the archives; the names of the directory itself and of the one above
it have no suffix. -/
theorem getFilesLoop_eq (path : Str) (names files : List Str) :
    getFilesLoop path archiveSuffixes names files =
      files ++ (names.filter (IsArchiveName ·)).map (path ++ pathSeparator ++ ·) := by
  induction names generalizing files with
  | nil => exact (List.append_nil _).symm
  | cons fileName names ih =>
      rw [getFilesLoop]
      split
      case isTrue dots =>
        have noArchive : ¬ IsArchiveName fileName := by
          rcases dots with rfl | rfl
          · decide
          · decide
        rw [ih, List.filter_cons_of_neg (by simpa using noArchive)]
      case isFalse =>
        simp only [contains_suffix_iff]
        by_cases archive : IsArchiveName fileName
        · rw [if_pos archive, ih, List.filter_cons_of_pos (by simpa using archive), List.map_cons,
            List.append_assoc]
          rfl
        · rw [if_neg archive, ih, List.filter_cons_of_neg (by simpa using archive)]

theorem getFiles_eq (fs : FileSystem) (path : Str) (files : List Str) :
    getFiles fs path archiveSuffixes files = files ++ archivesIn fs path := by
  rw [getFiles, archivesIn]
  split
  case isTrue =>
    cases fs.directory path with
    | none => exact (List.append_nil _).symm
    | some names => exact getFilesLoop_eq path names files
  case isFalse => exact (List.append_nil _).symm

/-- The wildcard is cut off. -/
theorem wildcardClassReader_eq (fs : FileSystem) {path : Str}
    (wildcard : path = [] ∨ str "*" <:+ path) :
    wildcardClassReader fs path = wildcardOf fs path.dropLast := by
  have made (dir : Str) :
      PathReader.wildcard dir (.dir dir :: (getFiles fs dir archiveSuffixes []).map .zip) =
        wildcardOf fs dir := by
    rw [getFiles_eq]
    rfl
  rcases wildcard with rfl | ⟨front, rfl⟩
  · exact made []
  · have last : findLast (chr '*') (front ++ str "*") = some front.length :=
      findLast_append_cons List.not_mem_nil front
    have cut : (front ++ str "*").dropLast = front := List.dropLast_concat
    rw [wildcardClassReader, last, cut]
    simp only [List.take_left]
    exact made front

theorem readerFor_of_archiveSuffix (fs : FileSystem) {segment : Str}
    (bare : segment ∈ archiveSuffixes) : readerFor fs segment = .zip segment := by
  have nonempty : ∀ suffix ∈ archiveSuffixes, suffix ≠ [] := by decide
  rw [readerFor, if_neg (nonempty segment bare), if_pos (List.contains_iff_mem.mpr bare)]

theorem readerFor_of_regular (fs : FileSystem) {segment : Str} (regular : segment ∉ misread) :
    readerFor fs segment = prescribed fs segment := by
  rw [misread, List.mem_cons, not_or] at regular
  rw [readerFor, if_neg regular.1, if_neg (mt List.contains_iff_mem.mp regular.2)]

/-- A path without separators, by its kind. -/
theorem createWithin_segment (fs : FileSystem) (fuel : Nat) {segment : Str}
    (noSeparator : chr ':' ∉ segment) :
    createWithin fs (fuel + 1) segment = .ok (readerFor fs segment) := by
  have search : findFrom segment classPathSeparator 0 = none :=
    findFrom_separator_iff.mpr noSeparator
  -- what the tests on positions say about the end of the segment
  have ends : findLast (chr '*') segment = lastPosition segment ↔
      segment = [] ∨ str "*" <:+ segment := findLast_eq_lastPosition_iff (chr '*') segment
  have suffix (bare dotted : String) (noDot : chr '.' ∉ str bare)
      (same : str dotted = chr '.' :: str bare) :
      afterLast (chr '.') segment = str bare ↔ segment = str bare ∨ str dotted <:+ segment := by
    rw [same]
    exact afterLast_eq_iff noDot segment
  rw [createWithin, if_neg (not_not_intro search)]
  simp only [ends, suffix "zip" ".zip" (by decide) rfl, suffix "jar" ".jar" (by decide) rfl,
    suffix "JAR" ".JAR" (by decide) rfl]
  by_cases empty : segment = []
  · rw [if_pos (.inl empty), readerFor, if_pos empty, wildcardClassReader_eq fs (.inl empty), empty]
    rfl
  by_cases bare : segment ∈ archiveSuffixes
  · rw [readerFor_of_archiveSuffix fs bare]
    simp only [archiveSuffixes, List.mem_cons, List.not_mem_nil, or_false] at bare
    rcases bare with rfl | rfl | rfl
    · rfl
    · rfl
    · rfl
  · have regular : segment ∉ misread := by
      rw [misread, List.mem_cons, not_or]
      exact ⟨empty, bare⟩
    rw [readerFor_of_regular fs regular, prescribed]
    simp only [archiveSuffixes, List.mem_cons, List.not_mem_nil, or_false, not_or] at bare
    simp only [empty, bare, false_or]
    by_cases wildcard : str "*" <:+ segment
    · rw [if_pos wildcard, if_pos wildcard, wildcardClassReader_eq fs (.inr wildcard)]
      rfl
    · rw [if_neg wildcard, if_neg wildcard]
      split
      case isTrue archive => rfl
      case isFalse noArchive => rfl

/-- Every segment gets its reader, in the order of the segments. -/
theorem addClassReaders_eq {create : Str → Exec PathReader} {reader : Str → PathReader}
    {paths : List Str} (created : ∀ path ∈ paths, create path = .ok (reader path))
    (readers : List PathReader) :
    addClassReaders create paths readers = .ok (readers ++ paths.map reader) := by
  induction paths generalizing readers with
  | nil =>
      rw [List.map_nil, List.append_nil]
      rfl
  | cons path paths ih =>
      rw [addClassReaders, created path List.mem_cons_self, Exec.bind_ok,
        ih (fun later mem => created later (List.mem_cons_of_mem _ mem)), List.append_assoc]
      rfl

/-- `CreateClassReader` returns for every path. -/
theorem createClassReader_eq (fs : FileSystem) (path : Str) :
    createClassReader fs path = .ok (
      if chr ':' ∈ path then .composite path ((path.splitOn (chr ':')).map (readerFor fs))
      else readerFor fs path) := by
  by_cases separator : chr ':' ∈ path
  · have nonempty : path ≠ [] := List.ne_nil_of_mem separator
    have split := splitString_eq nonempty (chr ':') []
    have search : findFrom path classPathSeparator 0 ≠ none :=
      fun none => findFrom_separator_iff.mp none separator
    cases length : path.length with
    | zero => exact absurd (List.length_eq_zero_iff.mp length) nonempty
    | succ fuel =>
        have segments : ∀ segment ∈ path.splitOn (chr ':'),
            createWithin fs (fuel + 1) segment = .ok (readerFor fs segment) :=
          fun segment mem => createWithin_segment fs fuel (not_mem_of_mem_splitOn mem)
        rw [createClassReader, length, createWithin, if_pos search, if_pos separator]
        change (splitString path [chr ':'] [] >>= _) = _
        rw [split, Exec.bind_ok, List.nil_append, addClassReaders_eq segments, Exec.bind_ok]
        rfl
  · rw [createClassReader, createWithin_segment fs _ separator, if_neg separator]

theorem prescribed_of_misread (fs : FileSystem) {segment : Str} (odd : segment ∈ misread) :
    prescribed fs segment = .dir segment := by
  have noSuffix : ∀ segment ∈ misread, ¬ str "*" <:+ segment ∧
      ¬ (str ".zip" <:+ segment ∨ str ".jar" <:+ segment ∨ str ".JAR" <:+ segment) := by
    decide
  rw [prescribed, if_neg (noSuffix segment odd).1, if_neg (noSuffix segment odd).2]

/-- Only the segments that are misread get another reader. -/
theorem readerFor_eq_prescribed_iff (fs : FileSystem) (segment : Str) :
    readerFor fs segment = prescribed fs segment ↔ segment ∉ misread := by
  constructor
  · intro same odd
    rw [prescribed_of_misread fs odd] at same
    rcases List.mem_cons.mp odd with rfl | bare
    · cases same
    · rw [readerFor_of_archiveSuffix fs bare] at same
      cases same
  · exact readerFor_of_regular fs

/-- The readers for a class path are the prescribed ones exactly if no segment is misread:
none is empty, and none is the suffix of an archive without a dot. -/
theorem interpretation_iff (fs : FileSystem) (path : Str) :
    ∃ reader, createClassReader fs path = .ok reader ∧
      (reader = interpretation fs path ↔
        ∀ segment ∈ path.splitOn (chr ':'), segment ∉ misread) := by
  refine ⟨_, createClassReader_eq fs path, ?_⟩
  rw [interpretation]
  by_cases separator : chr ':' ∈ path
  · rw [if_pos separator, if_pos separator, PathReader.composite.injEq]
    simp only [true_and, List.map_inj_left, readerFor_eq_prescribed_iff]
  · rw [if_neg separator, if_neg separator, List.splitOn_eq_singleton separator,
      readerFor_eq_prescribed_iff]
    simp only [List.mem_singleton, forall_eq]

/-- A file system with nothing in it. -/
def emptyFileSystem : FileSystem where
  isDirectory := fun _ => false
  directory := fun _ => none
  file := fun _ => .missing
  archive := fun _ => []

/-- The empty segment becomes a wildcard, and a directory named `jar` an archive. -/
theorem createClassReader_misread :
    createClassReader emptyFileSystem (str "a::b") =
        .ok (.composite (str "a::b")
          [.dir (str "a"), .wildcard [] [.dir []], .dir (str "b")]) ∧
      interpretation emptyFileSystem (str "a::b") =
        .composite (str "a::b") [.dir (str "a"), .dir [], .dir (str "b")] ∧
      createClassReader emptyFileSystem (str "jar") = .ok (.zip (str "jar")) ∧
      interpretation emptyFileSystem (str "jar") = .dir (str "jar") ∧
      ¬ ∀ fs path, createClassReader fs path = .ok (interpretation fs path) := by
  refine ⟨rfl, rfl, rfl, rfl, ?_⟩
  intro always
  cases always emptyFileSystem (str "jar")

end JvmDemo.Classpath
