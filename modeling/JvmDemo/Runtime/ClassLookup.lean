import JvmDemo.Classfile.RoundTrip
import JvmDemo.Classpath.ClassReader
import JvmDemo.Runtime.ClassLoader

/-!
# The loader and the class path

A loader asks its reader for the name of the class.  The readers want the name of
the file, which has the suffix `.class`, and refuse everything else.  The loader
does not look at the error number and parses the data, which then are a null
pointer.  A name of a class that the readers do not refuse is `class`.
-/

namespace JvmDemo.Runtime

open JvmDemo.Lib
open JvmDemo.Classfile
open JvmDemo.Classpath

/-- The loaders on a class path. -/
def LoaderEnv.ofReaders (readers : LoaderName → ClassReader) (newJString : Str → Exec DWord) :
    LoaderEnv where
  reader loader name := (ClassReader.readClass name (readers loader)).data
  newJString := newJString

/-- The name of a class in internal form: no array, and no dot. -/
structure Internal (name : Str) : Prop where
  notArray : firstByte name ≠ chr '['
  noDot : chr '.' ∉ name

/-- The data are a class file for the class, and its members can be made and
linked. -/
structure ClassFileFor [Target] (newJString : Str → Exec DWord) (data : ClassData) (name : Str)
    (depends : List Str) : Prop where
  content : ∃ file cursor superClassName interfaceNames,
    parse data = .ok (file, cursor) ∧ file.getClassName = .ok name ∧
    file.getSuperClassName = .ok superClassName ∧ file.getInterfaceNames = .ok interfaceNames ∧
    (∃ sourceFile, file.getSourceFile = .ok sourceFile) ∧
    depends = dependencies name superClassName interfaceNames ∧
    ∀ klass, ∃ fields constantPool methods,
      file.fields.mapM (createField file.constantPool klass) = .ok fields ∧
      createConstants file.constantPool = .ok constantPool ∧
      file.methods.mapM (createMethod file.constantPool constantPool klass) = .ok methods ∧
      ∀ info slotId, info.fields = fields → info.constantPool = constantPool →
        ∃ vars, allocAndInitStaticVars newJString
          (numberStaticFields (numberInstanceFields slotId info)) = .ok vars

variable [Target] {env : LoaderEnv} {loader : LoaderName} {name : Str} {state next : LoaderState}
  {fuel : Nat} {result : Option ClassId}

/-! ## Names that fail -/

/-- A class that is in no cache and cannot be read is not loaded. -/
theorem loadClass_of_unread (uncached : state.cached loader name = none)
    (notArray : firstByte name ≠ chr '[') (unread : env.reader loader name = none) :
    loadClass env fuel loader name state ≠ .ok (result, next) := by
  intro done
  cases fuel with
  | zero => cases done
  | succ fuel =>
      rw [loadClass, uncached] at done
      dsimp only at done
      rw [loadUncached, if_neg (by simpa using notArray), loadNonArrayClass, unread] at done
      cases done

omit [Target] in
theorem reader_ofReaders_of_ne {readers : LoaderName → ClassReader}
    {newJString : Str → Exec DWord} (internal : Internal name) (ne : name ≠ str "class") :
    (LoaderEnv.ofReaders readers newJString).reader loader name = none := by
  have invalid : checkClassPathValid name = false := by
    rw [Bool.eq_false_iff, Ne, checkClassPathValid_eq_true_iff internal.noDot]
    exact ne
  simp only [LoaderEnv.ofReaders, ClassReader.readClass_of_invalid _ invalid]

/-! ## Dependencies -/

omit [Target] in
@[simp]
theorem cached_record (other : LoaderName) (key : Str) :
    (state.record loader name result).cached other key = state.cached other key := rfl

/-- What a class depends on is in the cache of the boot loader, if it cannot be
read. -/
theorem cached_of_resolveInterfaces {names : List Str} {results : List (Option ClassId)}
    (internal : ∀ depend ∈ names, Internal depend)
    (unread : ∀ depend ∈ names, env.reader .boot depend = none)
    (done : resolveInterfaces (loadClass env fuel .boot) names state = .ok (results, next)) :
    ∀ depend ∈ names, state.cached .boot depend ≠ none := by
  induction names generalizing state results with
  | nil => exact fun _ mem => absurd mem List.not_mem_nil
  | cons first rest ih =>
      rcases Exec.bind_eq_ok.mp done with ⟨⟨result, middle⟩, loaded, restEq⟩
      rcases Exec.bind_eq_ok.mp restEq with ⟨⟨others, last⟩, restLoaded, same⟩
      cases same
      have firstCached : state.cached .boot first ≠ none := by
        intro uncached
        exact loadClass_of_unread uncached (internal first List.mem_cons_self).notArray
          (unread first List.mem_cons_self) loaded
      have unchanged : ∀ key, middle.cached .boot key = state.cached .boot key := by
        cases fuel with
        | zero => cases loaded
        | succ fuel =>
            rcases loadClass_eq_ok loaded with ⟨-, rfl⟩ | ⟨uncached, -⟩
            · exact fun _ => rfl
            · exact absurd uncached firstCached
      have restCached := ih (fun depend mem => internal depend (List.mem_cons_of_mem _ mem))
        (fun depend mem => unread depend (List.mem_cons_of_mem _ mem)) restLoaded
      intro depend mem
      rcases List.mem_cons.mp mem with rfl | mem
      · exact firstCached
      · rw [← unchanged]
        exact restCached depend mem

theorem resolveInterfaces_of_cached {names : List Str}
    (present : ∀ depend ∈ names, state.cached .boot depend ≠ none) :
    ∃ results middle, resolveInterfaces (loadClass env (fuel + 1) .boot) names state =
      .ok (results, middle) := by
  induction names generalizing state with
  | nil => exact ⟨[], state, rfl⟩
  | cons first rest ih =>
      rcases Option.ne_none_iff_exists'.mp (present first List.mem_cons_self) with ⟨entry, found⟩
      have hit : loadClass env (fuel + 1) .boot first state =
          .ok (entry, state.record .boot first entry) := by
        rw [loadClass, found]
        rfl
      rcases @ih (state.record .boot first entry)
        (fun depend mem => present depend (List.mem_cons_of_mem _ mem)) with
        ⟨results, middle, resolved⟩
      refine ⟨entry :: results, middle, ?_⟩
      rw [resolveInterfaces, hit, Exec.bind_ok]
      dsimp only
      rw [resolved]
      rfl

/-! ## The class named `class` -/

omit [Target] in
/-- What a list loads, its two parts load one after the other. -/
theorem resolveInterfaces_of_append {load : Loading} {first second : List Str}
    {results : List (Option ClassId)}
    (done : resolveInterfaces load (first ++ second) state = .ok (results, next)) :
    ∃ before after middle, resolveInterfaces load first state = .ok (before, middle) ∧
      resolveInterfaces load second middle = .ok (after, next) := by
  induction first generalizing state results with
  | nil => exact ⟨[], results, state, rfl, done⟩
  | cons name names ih =>
      rcases Exec.bind_eq_ok.mp done with ⟨⟨result, after⟩, loaded, restEq⟩
      rcases Exec.bind_eq_ok.mp restEq with ⟨⟨rest, last⟩, restLoaded, same⟩
      cases same
      rcases ih restLoaded with ⟨before, others, middle, beforeEq, othersEq⟩
      refine ⟨result :: before, others, middle, ?_, othersEq⟩
      rw [resolveInterfaces, loaded, Exec.bind_ok]
      dsimp only
      rw [beforeEq]
      rfl

/-- If its dependencies are loaded, the rest of a class is made. -/
theorem startLoad_of_resolved {load : Loading} {newJString : Str → Exec DWord} {data : ClassData}
    {depends : List Str} (described : ClassFileFor newJString data name depends)
    {results : List (Option ClassId)}
    (resolved : resolveInterfaces load depends state = .ok (results, next)) :
    ∃ file cursor info, parse data = .ok (file, cursor) ∧
      startLoad load file state = .ok (info, next) ∧ info.name = name ∧
      ∀ slotId, ∃ vars, allocAndInitStaticVars newJString
        (numberStaticFields (numberInstanceFields slotId info)) = .ok vars := by
  rcases described.content with ⟨file, cursor, superClassName, interfaceNames, parsed, named,
    superNamed, interfacesNamed, ⟨sourceFile, sourced⟩, rfl, members⟩
  rcases resolveInterfaces_of_append resolved with
    ⟨before, interfaces, middle, beforeEq, interfacesEq⟩
  have superPart : ∃ superClass, resolveSuperClass load name superClassName state =
      .ok (superClass, middle) := by
    unfold resolveSuperClass
    split
    · next isObject =>
        rw [if_pos isObject] at beforeEq
        cases beforeEq
        exact ⟨none, rfl⟩
    · next notObject =>
        rw [if_neg notObject] at beforeEq
        rcases Exec.bind_eq_ok.mp beforeEq with ⟨⟨superClass, after⟩, loaded, same⟩
        cases same
        exact ⟨superClass, loaded⟩
  rcases superPart with ⟨superClass, superEq⟩
  rcases members next.heap.length with
    ⟨fields, constantPool, methods, fieldsEq, poolEq, methodsEq, links⟩
  let info : ClassInfo :=
    { name, accessFlags := file.accessFlags, superClass, interfaces := interfaces.reduceOption,
      fields, methods, constantPool }
  refine ⟨file, cursor, info, parsed, ?_, rfl, fun slotId => links info slotId rfl rfl⟩
  rw [startLoad, named, Exec.bind_ok, superNamed, Exec.bind_ok, superEq, Exec.bind_ok]
  dsimp only
  rw [sourced, Exec.bind_ok, interfacesNamed, Exec.bind_ok, interfacesEq, Exec.bind_ok]
  dsimp only
  rw [fieldsEq, Exec.bind_ok, poolEq, Exec.bind_ok, methodsEq, Exec.bind_ok]
  rfl

/-- A class whose file is read is made from the file, if its dependencies are
loaded. -/
theorem loadClass_of_resolved {key : Str} {data : ClassData} {depends : List Str}
    {results : List (Option ClassId)} (uncached : state.cached loader name = none)
    (notArray : firstByte name ≠ chr '[') (read : env.reader loader name = some data)
    (described : ClassFileFor env.newJString data key depends)
    (resolved : resolveInterfaces (loadClass env fuel .boot) depends state = .ok (results, next)) :
    ∃ object, object.origin = (loader, key, some data) ∧
      loadClass env (fuel + 1) loader name state = .ok (some next.heap.length,
        (assignClass loader next.heap.length (next.enter object)).record loader name
          next.heap.length) := by
  rcases startLoad_of_resolved described resolved with
    ⟨file, cursor, info, parsed, started, named, links⟩
  let object : ClassObject := { info, definer := loader, source := some data }
  have defined : defineClass (loadClass env fuel .boot) loader (env.reader loader name) state =
      .ok (next.heap.length, next.enter object) := by
    rw [read, defineClass, parsed, Exec.bind_ok]
    dsimp only
    rw [started]
    rfl
  obtain ⟨linked, linkEq⟩ : ∃ linked, linkClass env next.heap.length (next.enter object) =
      .ok linked := by
    rcases links ((next.enter object).firstInstanceSlot object.info) with ⟨vars, varsEq⟩
    rw [linkClass, classAt_enter]
    dsimp only
    rw [varsEq]
    exact ⟨_, rfl⟩
  rcases linkClass_eq_ok linkEq with ⟨change, rfl, keeps⟩
  rcases keeps object (classAt_enter object) with ⟨sameName, sameDefiner, sameSource⟩
  refine ⟨change object, ?_, ?_⟩
  · simp [ClassObject.origin, sameName, sameDefiner, sameSource, object, named]
  · rw [← modify_enter sameName sameDefiner, loadClass, uncached]
    dsimp only
    rw [loadUncached, if_neg (by simpa using notArray), loadNonArrayClass, defined, Exec.bind_ok]
    dsimp only
    rw [linkEq]
    rfl

/-! ## The contract -/

/-- The reader of the loader has the file of the class, which depends on other
classes. -/
structure Offers (readers : LoaderName → ClassReader) (newJString : Str → Exec DWord)
    (loader : LoaderName) (name : Str) (data : ClassData) (depends : List Str) : Prop where
  internal : Internal name
  entry : ClassReader.readClass (name ++ str ".class") (readers loader) = ⟨.kSucceed, some data⟩
  described : ClassFileFor newJString data name depends
  others : ∀ depend ∈ depends, Internal depend ∧ depend ≠ name

/-- `LoadClass` makes a class of this name from these data. -/
def DefinesFrom (env : LoaderEnv) (loader : LoaderName) (name : Str) (data : ClassData)
    (state : LoaderState) : Prop :=
  ∃ fuel id next object, loadClass env fuel loader name state = .ok (some id, next) ∧
    next.classAt id = some object ∧ object.info.name = name ∧ object.source = some data

/-- The object that a call has made comes from the data that were read. -/
theorem DefinesFrom.read {data : ClassData} (defines : DefinesFrom env loader name data state)
    (uncached : state.cached loader name = none) (notArray : firstByte name ≠ chr '[') :
    env.reader loader name = some data ∧ ∃ fuel depends results next, Describes data name depends ∧
      resolveInterfaces (loadClass env fuel .boot) depends state = .ok (results, next) := by
  rcases defines with ⟨fuel, id, next, object, loaded, found, named, source⟩
  cases fuel with
  | zero => cases loaded
  | succ fuel =>
      rcases loadClass_eq_ok loaded with ⟨hit, -⟩ | ⟨-, depends, results, middle, made, madeOf, -,
        resolved, idEq, rfl⟩
      · rw [uncached] at hit
        cases hit
      · cases idEq
        have origin : object.origin = made.origin := by
          have here : (assignClass loader middle.heap.length (middle.enter made)).origins[
              middle.heap.length]? = some object.origin := by
            rw [LoaderState.origins, List.getElem?_map]
            exact congrArg (Option.map ClassObject.origin) found
          rw [origins_assignClass, origins_enter, ← length_origins] at here
          simpa using here.symm
        simp only [ClassObject.origin, Prod.mk.injEq] at origin
        rcases madeOf with ⟨isArray, -⟩ | ⟨-, other, read, described, otherSource⟩
        · exact absurd isArray notArray
        · rw [← origin.2.2, source] at otherSource
          cases otherSource
          rw [← origin.2.1, named] at described
          exact ⟨read, fuel, depends, results, middle, described, resolved⟩

theorem ClassFileFor.depends_eq {newJString : Str → Exec DWord} {data : ClassData}
    {depends others : List Str} (described : ClassFileFor newJString data name depends)
    (other : Describes data name others) : others = depends := by
  rcases described.content with ⟨file, cursor, superName, interfaceNames, parsed, -, superNamed,
    interfacesNamed, -, rfl, -⟩
  rcases other with ⟨file', cursor', superName', interfaceNames', parsed', -, superNamed',
    interfacesNamed', rfl⟩
  rw [parsed] at parsed'
  cases parsed'
  rw [superNamed] at superNamed'
  cases superNamed'
  rw [interfacesNamed] at interfacesNamed'
  cases interfacesNamed'
  rfl

/-- For every class that is not in the cache and whose file the reader has:
`LoadClass` makes the class from this file if and only if the class is called
`class`, the reader has the same file under the name `class` too, and everything
that the class depends on is in the cache of the boot loader. -/
theorem definesFrom_iff {readers : LoaderName → ClassReader} {newJString : Str → Exec DWord}
    {data : ClassData} {depends : List Str}
    (offers : Offers readers newJString loader name data depends)
    (uncached : state.cached loader name = none) :
    DefinesFrom (.ofReaders readers newJString) loader name data state ↔
      name = str "class" ∧
      ClassReader.readClass name (readers loader) = ⟨.kSucceed, some data⟩ ∧
      ∀ depend ∈ depends, state.cached .boot depend ≠ none := by
  constructor
  · intro defines
    rcases defines.read uncached offers.internal.notArray with
      ⟨read, fuel, depends', results, next, described, resolved⟩
    have isClass : name = str "class" := by
      by_contra other
      rw [reader_ofReaders_of_ne offers.internal other] at read
      cases read
    obtain rfl : depends' = depends := offers.described.depends_eq described
    refine ⟨isClass, ClassReader.readClass_of_data read, ?_⟩
    refine cached_of_resolveInterfaces (fun depend mem => (offers.others depend mem).1) ?_ resolved
    intro depend mem
    rcases offers.others depend mem with ⟨internal, ne⟩
    exact reader_ofReaders_of_ne internal (isClass ▸ ne)
  · rintro ⟨-, read, present⟩
    have found : (LoaderEnv.ofReaders readers newJString).reader loader name = some data :=
      congrArg ReadResult.data read
    rcases @resolveInterfaces_of_cached _ (.ofReaders readers newJString) state 0 depends present
      with ⟨results, middle, resolved⟩
    rcases loadClass_of_resolved uncached offers.internal.notArray found offers.described resolved
      with ⟨object, origin, loaded⟩
    have stored : (assignClass loader middle.heap.length (middle.enter object)).origins[
        middle.heap.length]? = some object.origin := by
      rw [origins_assignClass, origins_enter, ← length_origins]
      simp
    rw [LoaderState.origins, List.getElem?_map, Option.map_eq_some_iff, origin] at stored
    rcases stored with ⟨made, madeEq, same⟩
    simp only [ClassObject.origin, Prod.mk.injEq] at same
    exact ⟨_, _, _, made, loaded, madeEq, same.2.1, same.2.2⟩

/-! ## Classes without members -/

/-- A name that fits the length field of a text. -/
abbrev ShortName := { name : Str // name.length < 2 ^ 16 }

omit [Target] in
theorem nil_short : ([] : Str).length < 2 ^ 16 := by decide

omit [Target] in
theorem noMembers_lt : ([] : List Format.Member).length < 2 ^ 16 := by decide

omit [Target] in
theorem java8_supported : (52 : BitVec 16) = 45 ∨
    (46 ≤ (52 : BitVec 16) ∧ (52 : BitVec 16) ≤ 52 ∧ (0 : BitVec 16) = 0) := by
  decide

/-- The file of a class without members; the superclass is left out if its name is
empty. -/
def bareFile (name superName : ShortName) : Format where
  minorVersion := 0
  majorVersion := 52
  constants := [.utf8 name.1, .classInfo 1, .utf8 superName.1, .classInfo 3]
  accessFlags := 0x21
  thisClass := 2
  superClass := if superName.1 = [] then 0 else 4
  interfaces := []
  fields := []
  methods := []
  attributes := []
  supported := java8_supported
  constants_lt := (by decide : 5 < 2 ^ 16)
  constants_fit := by
    simp only [List.mem_cons, List.not_mem_nil, or_false, forall_eq_or_imp, forall_eq]
    exact ⟨name.2, trivial, superName.2, trivial⟩
  interfaces_lt := by decide
  fields_lt := noMembers_lt
  methods_lt := noMembers_lt
  attributes_lt := by decide
  fields_wf := by simp
  methods_wf := by simp
  attributes_wf := by simp

def bareData (name superName : ShortName) : ClassData where
  bytes := (bareFile name superName).encode
  size_lt := by
    have short := name.2
    have superShort := superName.2
    simp only [bareFile, Format.encode, Format.encodePool, Format.encodeConstant,
      Format.encodePayload, Format.encodeTable, List.flatMap_cons, List.flatMap_nil,
      List.cons_append, List.nil_append, List.append_nil, List.append_assoc, List.length_append,
      List.length_cons, List.length_nil, length_be32, length_be16]
    omega

theorem parse_bareData (name superName : ShortName) : ∃ wide touched,
    parse (bareData name superName) = .ok ((bareFile name superName).toClassFile wide,
      ⟨(bareFile name superName).encode.length, touched⟩) := by
  rcases Reader.Reads.runAt_append [] []
    (Parser.reads_parseClassFile (bareFile name superName) 0) with ⟨touched, parsed, -⟩
  rw [List.nil_append, List.append_nil, List.length_nil, Nat.zero_add] at parsed
  exact ⟨_, touched, parsed⟩

theorem classFileFor_bareData (newJString : Str → Exec DWord) (name superName : ShortName) :
    ClassFileFor newJString (bareData name superName) name.1
      (dependencies name.1 superName.1 []) := by
  rcases parse_bareData name superName with ⟨wide, touched, parsed⟩
  refine ⟨_, _, superName.1, [], parsed, rfl, ?_, rfl, ⟨_, rfl⟩, rfl, fun klass => ?_⟩
  · unfold ClassFile.getSuperClassName
    by_cases root : superName.1 = []
    · have named : (Format.toClassFile wide (bareFile name superName)).superClass = 0 := by
        simp [Format.toClassFile, bareFile, root]
      rw [named, root]
      rfl
    · have named : (Format.toClassFile wide (bareFile name superName)).superClass = 4 := by
        simp [Format.toClassFile, bareFile, root]
      rw [named]
      rfl
  · refine ⟨[], _, [], rfl, rfl, rfl, ?_⟩
    intro info slotId noFields _
    rw [allocAndInitStaticVars, numberStaticFields, numberInstanceFields, noFields]
    exact ⟨_, rfl⟩

/-- A directory in which one file is found, under the given names. -/
def singleReader (names : List Str) (data : ClassData) : ClassReader :=
  .dir fun file => if file ∈ names then .bytes data else .missing

omit [Target] in
theorem readClass_singleReader {names : List Str} {data : ClassData}
    (valid : checkClassPathValid name = true) (mem : name ∈ names) :
    ClassReader.readClass name (singleReader names data) = ⟨.kSucceed, some data⟩ := by
  rw [singleReader, ClassReader.readClass, if_pos valid, if_pos mem]
  rfl

def objectName : ShortName := ⟨str "java/lang/Object", by decide⟩

/-- A class path with nothing but `java/lang/Object.class`. -/
def objectReaders (_ : LoaderName) : ClassReader :=
  singleReader [str "java/lang/Object.class"] (bareData objectName ⟨[], by decide⟩)

/-- `NewJString` does not return. -/
def noString (_ : Str) : Exec DWord := undefined "GetField through a null klass_"

theorem offers_objectReaders : Offers objectReaders noString loader (str "java/lang/Object")
    (bareData objectName ⟨[], by decide⟩) [] where
  internal := ⟨by decide, by decide⟩
  entry := readClass_singleReader (checkClassPathValid_append _) (by decide)
  described := classFileFor_bareData noString objectName ⟨[], by decide⟩
  others := by simp

omit [Target] in
/-- `java/lang/Object` is on the class path, and cannot be loaded. -/
theorem object_not_defined :
    @Offers maskedShift objectReaders noString .boot (str "java/lang/Object")
      (bareData objectName ⟨[], by decide⟩) [] ∧
    LoaderState.initial.cached .boot (str "java/lang/Object") = none ∧
    ¬ @DefinesFrom maskedShift (.ofReaders objectReaders noString) .boot (str "java/lang/Object")
      (bareData objectName ⟨[], by decide⟩) .initial := by
  refine ⟨@offers_objectReaders maskedShift .boot, rfl, fun defines => ?_⟩
  have internal : Internal (str "java/lang/Object") := ⟨by decide, by decide⟩
  have read := (@DefinesFrom.read maskedShift _ _ _ _ _ defines rfl internal.notArray).1
  rw [reader_ofReaders_of_ne internal (by decide)] at read
  cases read

/-- The class `class`, which extends `java/lang/Object`. -/
def keywordName : ShortName := ⟨str "class", by decide⟩

def classReaders (_ : LoaderName) : ClassReader :=
  singleReader [str "class.class", str "class"] (bareData keywordName objectName)

theorem offers_classReaders : Offers classReaders noString loader (str "class")
    (bareData keywordName objectName) [str "java/lang/Object"] where
  internal := ⟨by decide, by decide⟩
  entry := readClass_singleReader (checkClassPathValid_append _) (by decide)
  described := classFileFor_bareData noString keywordName objectName
  others := by
    have internal : Internal (str "java/lang/Object") := ⟨by decide, by decide⟩
    simp only [List.mem_singleton, forall_eq]
    exact ⟨internal, by decide⟩

omit [Target] in
theorem definesFrom_class :
    @DefinesFrom maskedShift (.ofReaders classReaders noString) .base (str "class")
      (bareData keywordName objectName)
      (LoaderState.initial.put .boot (str "java/lang/Object") (some 0)) := by
  have offers := @offers_classReaders maskedShift .base
  refine (@definesFrom_iff maskedShift _ _ _ _ _ _ _ offers rfl).mpr ⟨rfl, ?_, ?_⟩
  · exact readClass_singleReader (by decide) (by decide)
  · simp only [List.mem_singleton, forall_eq]
    decide

end JvmDemo.Runtime
