import JvmDemo.Classpath.CreateClassReader

/-!
# The order of the search

A tree of readers is searched from left to right, and its leaves are the
directories and archives in this order.  How the readers are nested does not
matter: a tree finds what the first of its leaves finds that finds anything.
`ClassPathParser` looks like a composite of three trees, the boot, the extension
and the application class path, except that it aborts where a composite reports
a failure.
-/

namespace JvmDemo.Classpath

open JvmDemo.Lib
open JvmDemo.Runtime

namespace ClassReader

mutual

/-- The directories and archives in a reader, from left to right. -/
def leaves : ClassReader → List ClassReader
  | dir files => [dir files]
  | zip entries => [zip entries]
  | composite readers => leavesOfAll readers

/-- The leaves of readers one after the other. -/
def leavesOfAll : List ClassReader → List ClassReader
  | [] => []
  | reader :: readers => leaves reader ++ leavesOfAll readers

end

theorem leavesOfAll_eq (readers : List ClassReader) :
    leavesOfAll readers = readers.flatMap leaves := by
  induction readers with
  | nil => rfl
  | cons reader readers ih => rw [leavesOfAll, ih, List.flatMap_cons]

/-- The first of the readers that finds the file. -/
def FirstSuccess (fileName : Str) (readers : List ClassReader) (reader : ClassReader) : Prop :=
  ∃ before after, readers = before ++ reader :: after ∧
    (∀ earlier ∈ before, ¬ Succeeds fileName earlier) ∧ Succeeds fileName reader

variable {fileName : Str}

theorem FirstSuccess.succeeds {readers : List ClassReader} {reader : ClassReader}
    (first : FirstSuccess fileName readers reader) : Succeeds fileName reader := by
  rcases first with ⟨_, _, _, _, succeeds⟩
  exact succeeds

theorem data_of_not_succeeds {reader : ClassReader} (failed : ¬ Succeeds fileName reader) :
    (readClass fileName reader).data = none := by
  rwa [succeeds_iff, Option.not_isSome_iff_eq_none] at failed

/-- The data are those of the first leaf that has any. -/
theorem readClass_data (valid : checkClassPathValid fileName = true) (reader : ClassReader) :
    (readClass fileName reader).data =
      reader.leaves.findSome? fun leaf => (readClass fileName leaf).data := by
  induction reader using ClassReader.induction with
  | dir files => rw [leaves, List.findSome?_singleton]
  | zip entries => rw [leaves, List.findSome?_singleton]
  | composite readers ih =>
      rw [readClass, if_pos valid, leaves]
      induction readers with
      | nil => rfl
      | cons first rest restIh =>
          have firstData := ih first List.mem_cons_self
          have restData := restIh fun reader mem => ih reader (List.mem_cons_of_mem _ mem)
          rw [readFirst, leavesOfAll, List.findSome?_append, ← firstData, ← restData]
          split
          case isTrue succeeds =>
            rcases Option.isSome_iff_exists.mp (succeeds_iff.mp succeeds) with ⟨data, found⟩
            rw [found, Option.some_or]
          case isFalse failed => rw [data_of_not_succeeds failed, Option.none_or]

/-- A composite returns what the first of its readers returns that succeeds. -/
theorem readFirst_of_firstSuccess {readers : List ClassReader} {reader : ClassReader}
    (first : FirstSuccess fileName readers reader) :
    readFirst fileName readers = readClass fileName reader := by
  rcases first with ⟨before, after, rfl, failed, succeeds⟩
  induction before with
  | nil =>
      rw [List.nil_append, readFirst]
      exact if_pos succeeds
  | cons earlier before ih =>
      have earlierFailed := failed earlier List.mem_cons_self
      have laterFailed := fun later mem => failed later (List.mem_cons_of_mem _ mem)
      rw [List.cons_append, readFirst, ← ih laterFailed]
      exact if_neg earlierFailed

/-- A tree succeeds if a leaf does. -/
theorem succeeds_iff_leaf (valid : checkClassPathValid fileName = true) (reader : ClassReader) :
    Succeeds fileName reader ↔ ∃ leaf ∈ reader.leaves, Succeeds fileName leaf := by
  rw [succeeds_iff, readClass_data valid, List.findSome?_isSome_iff]
  simp only [succeeds_iff]

/-- A tree returns what its first leaf returns that succeeds. -/
theorem readClass_of_firstSuccess (valid : checkClassPathValid fileName = true)
    {reader leaf : ClassReader} (first : FirstSuccess fileName reader.leaves leaf) :
    readClass fileName reader = readClass fileName leaf := by
  rcases first with ⟨before, after, split, failed, succeeds⟩
  rcases Option.isSome_iff_exists.mp (succeeds_iff.mp succeeds) with ⟨data, found⟩
  have treeFound : (readClass fileName reader).data = some data := by
    rw [readClass_data valid, List.findSome?_eq_some_iff]
    exact ⟨before, leaf, after, split, found,
      fun earlier mem => data_of_not_succeeds (failed earlier mem)⟩
  rw [readClass_of_data treeFound, readClass_of_data found]

end ClassReader

/-! ## The class path of the virtual machine -/

structure ClassPathParser where
  bootClassReader : ClassReader
  extClassReader : ClassReader
  appClassReader : ClassReader

namespace ClassPathParser

open ClassReader

/-- `ClassPathParser::ReadClass`. -/
def readClass (parser : ClassPathParser) (className : Str) : Exec ReadResult := do
  let classPath ← classNameToClassPath className
  let data := ClassReader.readClass classPath parser.bootClassReader
  if data.readErrno = .kSucceed then pure data
  else
    let data := ClassReader.readClass classPath parser.extClassReader
    if data.readErrno = .kSucceed then pure data
    else
      let data := ClassReader.readClass classPath parser.appClassReader
      if data.readErrno = .kSucceed then pure data
      else fatal ("ClassNotFoundException: " ++ text classPath)

/-- The three class paths as one reader. -/
def reader (parser : ClassPathParser) : ClassReader :=
  .composite [parser.bootClassReader, parser.extClassReader, parser.appClassReader]

theorem leaves_reader (parser : ClassPathParser) :
    parser.reader.leaves = parser.bootClassReader.leaves ++ parser.extClassReader.leaves ++
      parser.appClassReader.leaves := by
  rw [reader, leaves, leavesOfAll_eq, List.append_assoc]
  simp only [List.flatMap_cons, List.flatMap_nil, List.append_nil]

/-- The class path is searched like a composite, up to the message of the failure. -/
theorem readClass_eq (parser : ClassPathParser) {className fileName : Str}
    (converted : classNameToClassPath className = .ok fileName)
    (valid : checkClassPathValid fileName = true) :
    parser.readClass className =
      if Succeeds fileName parser.reader then .ok (ClassReader.readClass fileName parser.reader)
      else fatal ("ClassNotFoundException: " ++ text fileName) := by
  rw [readClass, converted, Exec.bind_ok]
  simp only [Succeeds, reader, ClassReader.readClass, if_pos valid, readFirst]
  by_cases boot : (ClassReader.readClass fileName parser.bootClassReader).readErrno = .kSucceed
  · rw [if_pos boot, if_pos boot, if_pos boot]
    rfl
  rw [if_neg boot, if_neg boot]
  by_cases ext : (ClassReader.readClass fileName parser.extClassReader).readErrno = .kSucceed
  · rw [if_pos ext, if_pos ext, if_pos ext]
    rfl
  rw [if_neg ext, if_neg ext]
  by_cases app : (ClassReader.readClass fileName parser.appClassReader).readErrno = .kSucceed
  · rw [if_pos app, if_pos app, if_pos app]
    rfl
  · rw [if_neg app, if_neg app, if_neg (by decide)]

theorem readClass_of_succeeds (parser : ClassPathParser) {className fileName : Str}
    (converted : classNameToClassPath className = .ok fileName)
    (valid : checkClassPathValid fileName = true) {found : ClassReader}
    (same : ClassReader.readClass fileName parser.reader = ClassReader.readClass fileName found)
    (succeeds : Succeeds fileName found) :
    parser.readClass className = .ok (ClassReader.readClass fileName found) := by
  have parserSucceeds : Succeeds fileName parser.reader := by rwa [Succeeds, same]
  rw [parser.readClass_eq converted valid, if_pos parserSucceeds, same]

end ClassPathParser

open ClassReader

/-- A tree of readers finds what the first of its leaves finds that succeeds, however the
readers are nested, and the class path is searched in the order boot, extension,
application. -/
theorem searchOrder :
    (∀ (reader : ClassReader) (fileName : Str), str ".class" <:+ fileName →
      (Succeeds fileName reader ↔ ∃ leaf ∈ reader.leaves, Succeeds fileName leaf) ∧
        (∀ leaf, FirstSuccess fileName reader.leaves leaf →
          readClass fileName reader = readClass fileName leaf) ∧
        ∀ other : ClassReader, other.leaves = reader.leaves →
          (readClass fileName other).data = (readClass fileName reader).data) ∧
      ∀ (parser : ClassPathParser) (className : Str),
        ∃ fileName, classNameToClassPath className = .ok fileName ∧
          (∀ reader, FirstSuccess fileName
              [parser.bootClassReader, parser.extClassReader, parser.appClassReader] reader →
            parser.readClass className = .ok (readClass fileName reader)) ∧
          (∀ leaf, FirstSuccess fileName (parser.bootClassReader.leaves ++
              parser.extClassReader.leaves ++ parser.appClassReader.leaves) leaf →
            parser.readClass className = .ok (readClass fileName leaf)) ∧
          ((∀ leaf ∈ parser.bootClassReader.leaves ++ parser.extClassReader.leaves ++
              parser.appClassReader.leaves, ¬ Succeeds fileName leaf) →
            parser.readClass className = fatal ("ClassNotFoundException: " ++ text fileName)) := by
  constructor
  · intro reader fileName isClassFile
    have valid := (checkClassPathValid_iff fileName).mpr (.inr isClassFile)
    refine ⟨succeeds_iff_leaf valid reader, fun leaf => readClass_of_firstSuccess valid, ?_⟩
    intro other same
    rw [readClass_data valid, readClass_data valid, same]
  · intro parser className
    have converted := classNameToClassPath_eq className
    have valid := checkClassPathValid_append (slashed className)
    refine ⟨_, converted, ?_, ?_, ?_⟩
    · intro reader first
      apply parser.readClass_of_succeeds converted valid
      case succeeds => exact first.succeeds
      case same =>
        rw [ClassPathParser.reader, ClassReader.readClass, if_pos valid]
        exact readFirst_of_firstSuccess first
    · intro leaf first
      rw [← parser.leaves_reader] at first
      apply parser.readClass_of_succeeds converted valid
      case succeeds => exact first.succeeds
      case same => exact readClass_of_firstSuccess valid first
    · intro allFail
      rw [← parser.leaves_reader] at allFail
      rw [parser.readClass_eq converted valid, if_neg]
      rw [succeeds_iff_leaf valid]
      rintro ⟨leaf, mem, succeeds⟩
      exact allFail leaf mem succeeds

/-- A directory that has one byte under every name. -/
def byteDirectory (byte : Byte) : ClassReader := .dir fun _ => .bytes ⟨[byte], by simp⟩

/-- An empty directory. -/
def emptyDirectory : ClassReader := .dir fun _ => .missing

/-- The first leaf has no such file, and the second one shadows the third. -/
theorem searchOrder_nested :
    readClass (str "A.class")
        (.composite [.composite [emptyDirectory, byteDirectory 1#8], byteDirectory 2#8]) =
      readClass (str "A.class") (byteDirectory 1#8) :=
  (searchOrder.1 _ (str "A.class") ⟨str "A", rfl⟩).2.1 _
    ⟨[emptyDirectory], [byteDirectory 2#8], rfl, List.forall_mem_singleton.mpr (by decide), rfl⟩

/-! ## From the options to the search -/

mutual

/-- A reader with what is in the file system. -/
def PathReader.opened (fs : FileSystem) : PathReader → ClassReader
  | .dir absDir => .dir fun className => fs.file (absDir ++ pathSeparator ++ className)
  | .zip absPath => .zip (fs.archive absPath)
  | .composite _ readers => .composite (openedAll fs readers)
  | .wildcard _ readers => .composite (openedAll fs readers)

def openedAll (fs : FileSystem) : List PathReader → List ClassReader
  | [] => []
  | reader :: readers => reader.opened fs :: openedAll fs readers

end

theorem openedAll_eq (fs : FileSystem) (readers : List PathReader) :
    openedAll fs readers = readers.map (PathReader.opened fs) := by
  induction readers with
  | nil => rfl
  | cons reader readers ih => rw [openedAll, ih, List.map_cons]

/-- `GetJreDir`; `javaHome` is the variable `JAVA_HOME` of the environment. -/
def getJreDir (fs : FileSystem) (javaHome : Option Str) (jreOption : Str) : Exec Str :=
  if jreOption ≠ [] ∧ fs.isDirectory jreOption = true then pure jreOption
  else
    let curJre := str "./jre"
    if fs.isDirectory curJre then pure curJre
    else
      match javaHome with
      | some javaHome => pure (javaHome ++ str "/jre")
      | none => fatal "Can not find jre folder!"

/-- `ClassPathParser::Parse`; `currentDir` is what `getcwd` gives. -/
def ClassPathParser.parse (fs : FileSystem) (javaHome : Option Str) (currentDir : Str)
    (jrePathOption appClassPathOption : Str) : Exec ClassPathParser := do
  let jreDir ← getJreDir fs javaHome jrePathOption
  let boot := wildcardClassReader fs (jreDir ++ str "/lib/*")
  let ext := wildcardClassReader fs (jreDir ++ str "/lib/ext/*")
  let classPath := if appClassPathOption = [] then currentDir else appClassPathOption
  let app ← createClassReader fs classPath
  pure ⟨boot.opened fs, ext.opened fs, app.opened fs⟩

/-- The leaves for a class path are those for its segments one after the other. -/
theorem leaves_opened_segments (fs : FileSystem) (reader : Str → PathReader) (path : Str) :
    ((if chr ':' ∈ path then PathReader.composite path ((path.splitOn (chr ':')).map reader)
      else reader path).opened fs).leaves =
      (path.splitOn (chr ':')).flatMap fun segment => ((reader segment).opened fs).leaves := by
  by_cases separator : chr ':' ∈ path
  · rw [if_pos separator, PathReader.opened, leaves, leavesOfAll_eq, openedAll_eq, List.map_map,
      List.flatMap_map]
    rfl
  · rw [if_neg separator, List.splitOn_eq_singleton separator, List.flatMap_singleton]

/-- The leaves of a segment that is not misread as an archive.  An empty segment becomes a
wildcard, but the wildcard has no archives as there is no directory without a name. -/
theorem leaves_opened_readerFor {fs : FileSystem} (named : fs.isDirectory [] = false)
    {segment : Str} (regular : segment ∉ archiveSuffixes) :
    ((readerFor fs segment).opened fs).leaves = ((prescribed fs segment).opened fs).leaves := by
  by_cases empty : segment = []
  · rw [readerFor, if_pos empty, empty, prescribed_of_misread fs List.mem_cons_self, wildcardOf,
      archivesIn, if_neg (by rw [named]; exact Bool.false_ne_true)]
    rfl
  · have notMisread : segment ∉ misread := by
      rw [misread, List.mem_cons, not_or]
      exact ⟨empty, regular⟩
    rw [readerFor_of_regular fs notMisread]

/-- The directories and archives of a class path, in the order of the segments. -/
theorem leaves_createClassReader {fs : FileSystem} (named : fs.isDirectory [] = false)
    {path : Str} (regular : ∀ segment ∈ path.splitOn (chr ':'), segment ∉ archiveSuffixes) :
    ∃ reader, createClassReader fs path = .ok reader ∧
      (reader.opened fs).leaves =
        (path.splitOn (chr ':')).flatMap
          fun segment => ((prescribed fs segment).opened fs).leaves := by
  refine ⟨_, createClassReader_eq fs path, ?_⟩
  rw [leaves_opened_segments]
  apply List.flatMap_congr
  exact fun segment mem => leaves_opened_readerFor named (regular segment mem)

/-- What is searched with the options of the command line: the library directory of the
run-time environment and the archives in it, the same of the extensions, and the segments of
the class path. -/
theorem leaves_parse {fs : FileSystem} (named : fs.isDirectory [] = false)
    {javaHome : Option Str} {currentDir jrePathOption jreDir appClassPathOption : Str}
    (found : getJreDir fs javaHome jrePathOption = .ok jreDir)
    (given : appClassPathOption ≠ [])
    (regular : ∀ segment ∈ appClassPathOption.splitOn (chr ':'), segment ∉ archiveSuffixes) :
    ∃ parser, ClassPathParser.parse fs javaHome currentDir jrePathOption appClassPathOption =
        .ok parser ∧
      parser.reader.leaves =
        ((wildcardOf fs (jreDir ++ str "/lib/")).opened fs).leaves ++
          ((wildcardOf fs (jreDir ++ str "/lib/ext/")).opened fs).leaves ++
          (appClassPathOption.splitOn (chr ':')).flatMap
            fun segment => ((prescribed fs segment).opened fs).leaves := by
  rcases leaves_createClassReader named regular with ⟨app, created, appLeaves⟩
  have cut (front : Str) : wildcardClassReader fs (front ++ str "*") = wildcardOf fs front := by
    rw [wildcardClassReader_eq fs (.inr (List.suffix_append _ _))]
    exact congrArg (wildcardOf fs) List.dropLast_concat
  have lib : jreDir ++ str "/lib/*" = (jreDir ++ str "/lib/") ++ str "*" := by
    rw [List.append_assoc]
    rfl
  have ext : jreDir ++ str "/lib/ext/*" = (jreDir ++ str "/lib/ext/") ++ str "*" := by
    rw [List.append_assoc]
    rfl
  refine ⟨⟨(wildcardOf fs (jreDir ++ str "/lib/")).opened fs,
    (wildcardOf fs (jreDir ++ str "/lib/ext/")).opened fs, app.opened fs⟩, ?_, ?_⟩
  · rw [ClassPathParser.parse, found, Exec.bind_ok, lib, ext, cut, cut, if_neg given]
    simp only [created, Exec.bind_ok]
    rfl
  · rw [ClassPathParser.leaves_reader, appLeaves]

end JvmDemo.Classpath
