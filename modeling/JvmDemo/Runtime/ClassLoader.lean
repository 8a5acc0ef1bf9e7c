import JvmDemo.Classfile.Parser
import JvmDemo.Runtime.ConstantPool
import JvmDemo.Runtime.Descriptor
import JvmDemo.Runtime.Layout

/-!
# The class loader

Each loader has a cache of classes by name, and a reader of class files.  Loading
a class that is not in the cache parses its file, loads the superclass and the
interfaces, and enters the class under the name that stands in the file.  The
superclass and the interfaces are always loaded by the boot loader.

`NewClassObject` is taken to return a fresh object.  An object joins the heap when
its superclass and its interfaces are loaded, as nothing points at it before.  Its
`definer` and its `source` have no counterpart in the program, nor has the list of
the results of `LoadClass`; nothing reads them.
-/

namespace JvmDemo.Runtime

open JvmDemo.Lib
open JvmDemo.Classfile

/-! ## Members -/

/-- The constructor of `ClassMember`. -/
def createMember (pool : ConstantPool) (klass : ClassId) (info : MemberInfo) :
    Exec ClassMember := do
  let name ← pool.getUtf8 info.nameIndex
  let descriptor ← pool.getUtf8 info.descriptorIndex
  pure { name, descriptor, accessFlags := info.accessFlags, klass }

/-- The constructor of `Field`. -/
def createField (pool : ConstantPool) (klass : ClassId) (info : MemberInfo) : Exec Field := do
  let member ← createMember pool klass info
  -- `GetConstantAttribute`
  let index := info.attributes.findSome? fun attr => match attr with
    | .constantValue index => some index
    | _ => none
  pure { toClassMember := member, constValueIndex := (index.getD 0).setWidth 32 }

/-- `GetCatchType`. -/
def getCatchType (constants : List (Option Constant)) (index : BitVec 16) : Option Str :=
  if index = 0 then none
  else match constants[index.toNat]? with
    | some (some (.classRef className)) => some className
    | _ => none

/-- `GetCodeAttribute`, and what the constructor of `Method` makes of it. -/
def codeInfo (constants : List (Option Constant)) (info : MemberInfo) : Option CodeInfo :=
  info.attributes.findSome? fun attr => match attr with
    | .code maxOperandStack maxLocals _ codes exceptionTables _ => some
        { maxStack := maxOperandStack
          maxLocals := maxLocals
          codes := codes
          exceptionTable := exceptionTables.map fun entry =>
            { startPc := entry.startPc.setWidth 32
              endPc := entry.endPc.setWidth 32
              handlerPc := entry.handlerPc.setWidth 32
              catchType := getCatchType constants entry.catchType } }
    | _ => none

/-- The constructor of `Method`. -/
def createMethod (pool : ConstantPool) (constants : List (Option Constant)) (klass : ClassId)
    (info : MemberInfo) : Exec Method := do
  let member ← createMember pool klass info
  Method.ofMember member (codeInfo constants info)

/-! ## The state of the loaders -/

inductive LoaderName where
  | boot | ext | base
  deriving DecidableEq, Repr

/-- A `Class` object.  The list of interfaces is without null pointers. -/
structure ClassObject where
  info : ClassInfo
  staticVars : Option Slots := none
  /-- The class of the object, which `SetClass` sets. -/
  klass : Option ClassId := none
  /-- The loader that has made it. -/
  definer : LoaderName
  /-- The data it was made from. -/
  source : Option ClassData := none

structure LoaderState where
  /-- `loaded_classes_` of each loader; a pointer may be null. -/
  caches : LoaderName → List (Str × Option ClassId)
  heap : List ClassObject
  /-- What `LoadClass` has returned for which name, latest first. -/
  results : List (LoaderName × Str × Option ClassId)

namespace LoaderState

def initial : LoaderState := ⟨fun _ => [], [], []⟩

variable (state : LoaderState)

/-- `loaded_classes_.find(name)`. -/
def cached (loader : LoaderName) (name : Str) : Option (Option ClassId) :=
  (state.caches loader).lookup name

/-- `loaded_classes_[name] = entry`. -/
def put (loader : LoaderName) (name : Str) (entry : Option ClassId) : LoaderState :=
  { state with
    caches := fun other =>
      if other = loader then (name, entry) :: (state.caches other).filter (·.1 != name)
      else state.caches other }

/-- `loaded_classes_[name]`, read: a name that is not there is entered with a null
pointer. -/
def touch (loader : LoaderName) (name : Str) : LoaderState :=
  match state.cached loader name with
  | some _ => state
  | none => state.put loader name none

/-- An object that is new. -/
def allocate (object : ClassObject) : LoaderState :=
  { state with heap := state.heap ++ [object] }

def modify (id : ClassId) (change : ClassObject → ClassObject) : LoaderState :=
  { state with heap := state.heap.modify id change }

/-- `SetClass`. -/
def setClass (id : ClassId) (klass : ClassId) : LoaderState :=
  state.modify id fun object => { object with klass := some klass }

def record (loader : LoaderName) (name : Str) (result : Option ClassId) : LoaderState :=
  { state with results := (loader, name, result) :: state.results }

/-- The class at a pointer. -/
def classAt (id : ClassId) : Option ClassObject := state.heap[id]?

end LoaderState

/-! ## Loading -/

/-- What the loaders use: the readers, where a null pointer is the data of a class
that could not be read, and `NewJString`. -/
structure LoaderEnv where
  reader : LoaderName → Str → Option ClassData
  newJString : Str → Exec DWord

/-- `kJlcClassString`. -/
def kJlcClassString : Str := str "java/lang/Class.class"

/-- How the boot loader is called. -/
abbrev Loading := Str → LoaderState → Exec (Option ClassId × LoaderState)

variable [Target] (env : LoaderEnv)

/-- `ResolveSuperClass`. -/
def resolveSuperClass (load : Loading) (name superClassName : Str) (state : LoaderState) :
    Exec (Option ClassId × LoaderState) :=
  if name = str "java/lang/Object" then pure (none, state) else load superClassName state

/-- `ResolveInterfaces`. -/
def resolveInterfaces (load : Loading) : List Str → LoaderState →
    Exec (List (Option ClassId) × LoaderState)
  | [], state => pure ([], state)
  | name :: names, state => do
      let (first, state) ← load name state
      let (rest, state) ← resolveInterfaces load names state
      pure (first :: rest, state)

/-- `StartLoad` of a class that will be at the end of the heap. -/
def startLoad (load : Loading) (file : ClassFile) (state : LoaderState) :
    Exec (ClassInfo × LoaderState) := do
  let name ← file.getClassName
  let superClassName ← file.getSuperClassName
  let (superClass, state) ← resolveSuperClass load name superClassName state
  let _ ← file.getSourceFile
  let interfaceNames ← file.getInterfaceNames
  let (interfaces, state) ← resolveInterfaces load interfaceNames state
  let klass := state.heap.length
  let fields ← file.fields.mapM (createField file.constantPool klass)
  let constantPool ← createConstants file.constantPool
  let methods ← file.methods.mapM (createMethod file.constantPool constantPool klass)
  pure ({ name, accessFlags := file.accessFlags, superClass, interfaces := interfaces.reduceOption,
          fields, methods, constantPool }, state)

/-- `DefineClass`.  The data of a class that could not be read are a null pointer. -/
def defineClass (load : Loading) (loader : LoaderName) (data : Option ClassData)
    (state : LoaderState) : Exec (ClassId × LoaderState) :=
  match data with
  | none => undefined "parse of null class data"
  | some data => do
      let (file, _) ← parse data
      let (info, state) ← startLoad load file state
      let object : ClassObject := { info, definer := loader, source := some data }
      pure (state.heap.length, (state.allocate object).put loader info.name state.heap.length)

/-- The slot count of the superclass, or zero. -/
def LoaderState.firstInstanceSlot (state : LoaderState) (info : ClassInfo) : BitVec 32 :=
  match info.superClass.bind state.classAt with
  | some super => super.info.instanceSlotCount
  | none => 0

/-- `LinkClass`. -/
def linkClass (id : ClassId) (state : LoaderState) : Exec LoaderState :=
  match state.classAt id with
  | none => undefined "LinkClass of a null class"
  | some object => do
      let info := numberStaticFields
        (numberInstanceFields (state.firstInstanceSlot object.info) object.info)
      let vars ← allocAndInitStaticVars env.newJString info
      pure (state.modify id fun object => { object with info := info, staticVars := some vars })

/-- `LoadNonArrayClass`. -/
def loadNonArrayClass (load : Loading) (loader : LoaderName) (name : Str) (state : LoaderState) :
    Exec (ClassId × LoaderState) := do
  let (id, state) ← defineClass load loader (env.reader loader name) state
  let state ← linkClass env id state
  pure (id, state)

/-- `LoadArrayClass` with `StartLoadArrayClass`. -/
def loadArrayClass (load : Loading) (loader : LoaderName) (name : Str) (state : LoaderState) :
    Exec (ClassId × LoaderState) := do
  let (superClass, state) ← load (str "java/lang/Object") state
  let (cloneable, state) ← load (str "java/lang/Cloneable") state
  let (serializable, state) ← load (str "java/io/Serializable") state
  let info : ClassInfo :=
    { name, accessFlags := 0x0001, superClass
      interfaces := [cloneable, serializable].reduceOption }
  pure (state.heap.length,
    (state.allocate { info, definer := loader }).put loader name state.heap.length)

/-- The end of `LoadClass`: the class of the new class is the one in the cache, if
there is one. -/
def assignClass (loader : LoaderName) (id : ClassId) (state : LoaderState) : LoaderState :=
  let state := state.touch loader kJlcClassString
  match state.cached loader kJlcClassString with
  | some (some jlc) => state.setClass id jlc
  | _ => state

/-- The two ways to load a class that is not in the cache. -/
def loadUncached (load : Loading) (loader : LoaderName) (name : Str) (state : LoaderState) :
    Exec (ClassId × LoaderState) :=
  if firstByte name == chr '[' then loadArrayClass load loader name state
  else loadNonArrayClass env load loader name state

/-- `LoadClass`; the fuel bounds the depth of the calls. -/
def loadClass : Nat → LoaderName → Str → LoaderState → Exec (Option ClassId × LoaderState)
  | 0, _, _, _ => .error .diverges
  | fuel + 1, loader, name, state =>
      match state.cached loader name with
      | some entry => pure (entry, state.record loader name entry)
      | none => do
          let (id, state) ← loadUncached env (loadClass fuel .boot) loader name state
          pure (some id, (assignClass loader id state).record loader name id)

/-- The loop of `LoadBasicClass` over the cache. -/
def setClasses (jlc : Option ClassId) : List (Str × Option ClassId) → LoaderState →
    Exec LoaderState
  | [], state => pure state
  | (_, none) :: _, _ => undefined "SetClass of a null class"
  | (_, some id) :: entries, state =>
      setClasses jlc entries (state.modify id fun object => { object with klass := jlc })

/-- `LoadBasicClass`. -/
def loadBasicClass (fuel : Nat) (loader : LoaderName) (state : LoaderState) : Exec LoaderState := do
  let (jlc, state) ← loadClass env fuel loader kJlcClassString state
  let state := state.put loader kJlcClassString jlc
  setClasses jlc (state.caches loader) state

/-- The loop of `LoadPrimitiveClasses`. -/
def loadPrimitives (loader : LoaderName) : List (Str × Str) → LoaderState → LoaderState
  | [], state => state
  | (name, _) :: types, state =>
      let object : ClassObject :=
        { info := { name, accessFlags := 0x0001 }, definer := loader
          klass := (state.cached loader kJlcClassString).join }
      loadPrimitives loader types
        ((state.allocate object).put loader name state.heap.length)

/-- `LoadPrimitiveClasses`. -/
def loadPrimitiveClasses (loader : LoaderName) (state : LoaderState) : LoaderState :=
  loadPrimitives loader ClassTable.primitiveTypes state

/-! ## What loading a class does -/

/-- The classes that a class with this name, superclass and interfaces depends
on, in the order in which they are loaded. -/
def dependencies (name superClassName : Str) (interfaceNames : List Str) : List Str :=
  (if name = str "java/lang/Object" then [] else [superClassName]) ++ interfaceNames

/-- The classes that arrays depend on. -/
def arrayDependencies : List Str :=
  [str "java/lang/Object", str "java/lang/Cloneable", str "java/io/Serializable"]

/-- The class file for the class says that it is called `key` and depends on
`depends`. -/
def Describes (data : ClassData) (key : Str) (depends : List Str) : Prop :=
  ∃ file cursor superClassName interfaceNames,
    parse data = .ok (file, cursor) ∧ file.getClassName = .ok key ∧
    file.getSuperClassName = .ok superClassName ∧ file.getInterfaceNames = .ok interfaceNames ∧
    depends = dependencies key superClassName interfaceNames

/-- What a loader makes of a name: an array, or the class in the file that is read
for it. -/
def MadeOf (loader : LoaderName) (name key : Str) (depends : List Str)
    (source : Option ClassData) : Prop :=
  (firstByte name = chr '[' ∧ key = name ∧ depends = arrayDependencies ∧ source = none) ∨
  (firstByte name ≠ chr '[' ∧ ∃ data, env.reader loader name = some data ∧
    Describes data key depends ∧ source = some data)

variable {env} {load : Loading} {loader : LoaderName} {state next : LoaderState}

omit [Target] in
theorem resolveInterfaces_append {first second : List Str} {results others : List (Option ClassId)}
    {middle : LoaderState} (firstEq : resolveInterfaces load first state = .ok (results, middle))
    (secondEq : resolveInterfaces load second middle = .ok (others, next)) :
    resolveInterfaces load (first ++ second) state = .ok (results ++ others, next) := by
  induction first generalizing state results with
  | nil =>
      cases firstEq
      exact secondEq
  | cons name names ih =>
      rcases Exec.bind_eq_ok.mp firstEq with ⟨⟨result, after⟩, loaded, restEq⟩
      rcases Exec.bind_eq_ok.mp restEq with ⟨⟨rest, last⟩, restLoaded, same⟩
      cases same
      rw [List.cons_append, resolveInterfaces, loaded, Exec.bind_ok]
      dsimp only
      rw [ih restLoaded]
      rfl

omit [Target] in
theorem startLoad_eq_ok {file : ClassFile} {info : ClassInfo}
    (done : startLoad load file state = .ok (info, next)) :
    ∃ superClassName interfaceNames results, file.getClassName = .ok info.name ∧
      file.getSuperClassName = .ok superClassName ∧
      file.getInterfaceNames = .ok interfaceNames ∧
      resolveInterfaces load (dependencies info.name superClassName interfaceNames) state =
        .ok (results, next) := by
  rcases Exec.bind_eq_ok.mp done with ⟨name, nameEq, rest⟩
  rcases Exec.bind_eq_ok.mp rest with ⟨superClassName, superEq, rest⟩
  rcases Exec.bind_eq_ok.mp rest with ⟨⟨superClass, middle⟩, superLoaded, rest⟩
  rcases Exec.bind_eq_ok.mp rest with ⟨_, -, rest⟩
  rcases Exec.bind_eq_ok.mp rest with ⟨interfaceNames, namesEq, rest⟩
  rcases Exec.bind_eq_ok.mp rest with ⟨⟨interfaces, last⟩, interfacesLoaded, rest⟩
  rcases Exec.bind_eq_ok.mp rest with ⟨fields, -, rest⟩
  rcases Exec.bind_eq_ok.mp rest with ⟨constantPool, -, rest⟩
  rcases Exec.bind_eq_ok.mp rest with ⟨methods, -, same⟩
  cases same
  have superPart : ∃ results, resolveInterfaces load
      (if name = str "java/lang/Object" then [] else [superClassName]) state =
        .ok (results, middle) := by
    unfold resolveSuperClass at superLoaded
    split
    · next isObject =>
        rw [if_pos isObject] at superLoaded
        cases superLoaded
        exact ⟨_, rfl⟩
    · next notObject =>
        rw [if_neg notObject] at superLoaded
        refine ⟨[superClass], ?_⟩
        rw [resolveInterfaces, superLoaded]
        rfl
  rcases superPart with ⟨results, superPart⟩
  exact ⟨superClassName, interfaceNames, _, nameEq, superEq, namesEq,
    resolveInterfaces_append superPart interfacesLoaded⟩

omit [Target] in
/-- Linking a class changes neither its name nor where it comes from. -/
theorem linkClass_eq_ok {id : ClassId} (done : linkClass env id state = .ok next) :
    ∃ change : ClassObject → ClassObject, next = state.modify id change ∧
      ∀ object, state.classAt id = some object →
        (change object).info.name = object.info.name ∧
        (change object).definer = object.definer ∧ (change object).source = object.source := by
  unfold linkClass at done
  split at done
  · cases done
  · next object found =>
      rcases Exec.bind_eq_ok.mp done with ⟨vars, -, same⟩
      cases same
      refine ⟨_, rfl, ?_⟩
      intro other found'
      rw [found] at found'
      cases found'
      exact ⟨rfl, rfl, rfl⟩

/-- The state in which a class has been entered under its name. -/
def LoaderState.enter (state : LoaderState) (object : ClassObject) : LoaderState :=
  (state.allocate object).put object.definer object.info.name state.heap.length

omit [Target] in
theorem classAt_enter (object : ClassObject) :
    (state.enter object).classAt state.heap.length = some object := by
  simp [LoaderState.enter, LoaderState.classAt, LoaderState.allocate, LoaderState.put]

omit [Target] in
/-- Linking a class that has just been entered. -/
theorem modify_enter {object : ClassObject} {change : ClassObject → ClassObject}
    (name : (change object).info.name = object.info.name)
    (definer : (change object).definer = object.definer) :
    (state.enter object).modify state.heap.length change = state.enter (change object) := by
  have changed : (state.heap ++ [object]).modify state.heap.length change =
      state.heap ++ [change object] := by
    rw [List.modify_eq_take_cons_drop (by simp)]
    simp
  simp only [LoaderState.enter, LoaderState.modify, LoaderState.allocate, LoaderState.put, name,
    definer, changed]

theorem loadNonArrayClass_eq_ok {name : Str} {id : ClassId}
    (done : loadNonArrayClass env load loader name state = .ok (id, next)) :
    ∃ data depends results middle object, env.reader loader name = some data ∧
      Describes data object.info.name depends ∧
      resolveInterfaces load depends state = .ok (results, middle) ∧
      object.definer = loader ∧ object.source = some data ∧ id = middle.heap.length ∧
      next = middle.enter object := by
  rcases Exec.bind_eq_ok.mp done with ⟨⟨id, defined⟩, define, link⟩
  rcases Exec.bind_eq_ok.mp link with ⟨linked, linkEq, same⟩
  cases same
  unfold defineClass at define
  split at define
  · cases define
  · next data read =>
      rcases Exec.bind_eq_ok.mp define with ⟨⟨file, cursor⟩, parsed, started⟩
      rcases Exec.bind_eq_ok.mp started with ⟨⟨info, middle⟩, startEq, same⟩
      cases same
      rcases startLoad_eq_ok startEq with ⟨superName, interfaceNames, results, nameEq, superEq,
        interfacesEq, resolved⟩
      let object : ClassObject := { info, definer := loader, source := some data }
      have entered : (middle.allocate object).put loader info.name middle.heap.length =
          middle.enter object := rfl
      rw [entered] at linkEq
      rcases linkClass_eq_ok linkEq with ⟨change, rfl, keeps⟩
      rcases keeps object (classAt_enter object) with ⟨name, definer, source⟩
      refine ⟨data, _, results, middle, change object, read, ?_, resolved, definer, source, rfl, ?_⟩
      · rw [name]
        exact ⟨file, cursor, superName, interfaceNames, parsed, nameEq, superEq, interfacesEq, rfl⟩
      · exact modify_enter name definer

omit [Target] in
theorem loadArrayClass_eq_ok {name : Str} {id : ClassId}
    (done : loadArrayClass load loader name state = .ok (id, next)) :
    ∃ results middle object,
      resolveInterfaces load arrayDependencies state = .ok (results, middle) ∧
      object.info.name = name ∧ object.definer = loader ∧ object.source = none ∧
      id = middle.heap.length ∧ next = middle.enter object := by
  rcases Exec.bind_eq_ok.mp done with ⟨⟨superClass, first⟩, superEq, rest⟩
  rcases Exec.bind_eq_ok.mp rest with ⟨⟨cloneable, second⟩, cloneableEq, rest⟩
  rcases Exec.bind_eq_ok.mp rest with ⟨⟨serializable, third⟩, serializableEq, same⟩
  cases same
  refine ⟨[superClass, cloneable, serializable], third, _, ?_, rfl, rfl, rfl, rfl, rfl⟩
  rw [arrayDependencies, resolveInterfaces, superEq, Exec.bind_ok]
  dsimp only
  rw [resolveInterfaces, cloneableEq, Exec.bind_ok]
  dsimp only
  rw [resolveInterfaces, serializableEq, Exec.bind_ok]
  rfl

/-- What stays of an object: the loader that has made it, its name, and the data it
was made from. -/
def ClassObject.origin (object : ClassObject) : LoaderName × Str × Option ClassData :=
  (object.definer, object.info.name, object.source)

/-- The origins of all objects. -/
def LoaderState.origins (state : LoaderState) : List (LoaderName × Str × Option ClassData) :=
  state.heap.map ClassObject.origin

omit [Target] in
theorem origins_enter (object : ClassObject) :
    (state.enter object).origins = state.origins ++ [object.origin] := by
  simp [LoaderState.origins, LoaderState.enter, LoaderState.allocate, LoaderState.put]

omit [Target] in
theorem length_origins : state.origins.length = state.heap.length := List.length_map _

omit [Target] in
theorem origins_modify {id : ClassId} {change : ClassObject → ClassObject}
    (keeps : ∀ object, (change object).origin = object.origin) :
    (state.modify id change).origins = state.origins := by
  apply List.ext_getElem?
  intro i
  simp only [LoaderState.origins, LoaderState.modify, List.getElem?_map, List.getElem?_modify]
  cases state.heap[i]? with
  | none => rfl
  | some object =>
      by_cases same : id = i
      · simp [same, keeps]
      · simp [same]

omit [Target] in
theorem origins_setClass (id jlc : ClassId) : (state.setClass id jlc).origins = state.origins := by
  apply origins_modify
  intro object
  rfl

omit [Target] in
theorem origins_touch (name : Str) : (state.touch loader name).origins = state.origins := by
  unfold LoaderState.touch
  split
  · rfl
  · rfl

omit [Target] in
theorem origins_assignClass (id : ClassId) :
    (assignClass loader id state).origins = state.origins := by
  unfold assignClass
  dsimp only
  split
  · rw [origins_setClass, origins_touch]
  · rw [origins_touch]

omit [Target] in
theorem caches_assignClass (id : ClassId) :
    (assignClass loader id state).caches = (state.touch loader kJlcClassString).caches := by
  unfold assignClass
  dsimp only
  split
  · rfl
  · rfl

/-- `LoadClass` returns what is in the cache.  Otherwise the class that the name
stands for is made: what it depends on is loaded, and then it is entered under its
own name. -/
theorem loadClass_eq_ok {fuel : Nat} {name : Str} {result : Option ClassId}
    (done : loadClass env (fuel + 1) loader name state = .ok (result, next)) :
    (state.cached loader name = some result ∧ next = state.record loader name result) ∨
    (state.cached loader name = none ∧ ∃ depends results middle object,
      MadeOf env loader name object.info.name depends object.source ∧ object.definer = loader ∧
      resolveInterfaces (loadClass env fuel .boot) depends state = .ok (results, middle) ∧
      result = some middle.heap.length ∧
      next = (assignClass loader middle.heap.length (middle.enter object)).record loader name
        result) := by
  rw [loadClass] at done
  split at done
  · next entry hit =>
      cases done
      exact .inl ⟨hit, rfl⟩
  · next miss =>
      rcases Exec.bind_eq_ok.mp done with ⟨⟨id, loaded⟩, made, same⟩
      cases same
      refine .inr ⟨miss, ?_⟩
      unfold loadUncached at made
      split at made
      · next isArray =>
          rcases loadArrayClass_eq_ok made with ⟨results, middle, object, resolved, named, definer,
            source, rfl, rfl⟩
          exact ⟨_, results, middle, object,
            .inl ⟨eq_of_beq isArray, named, rfl, source⟩, definer, resolved, rfl, rfl⟩
      · next notArray =>
          rcases loadNonArrayClass_eq_ok made with ⟨data, depends, results, middle, object, read,
            described, resolved, definer, source, rfl, rfl⟩
          exact ⟨depends, results, middle, object,
            .inr ⟨by simpa using notArray, data, read, described, source⟩, definer, resolved, rfl,
            rfl⟩

end JvmDemo.Runtime
