import JvmDemo.Lib.Memo
import JvmDemo.Runtime.LoadedTable

/-!
# Resolution caches

A symbolic reference of a constant pool keeps the class, field or method that it
was resolved to.  The checks are not all made again when a kept result is
returned: the access to a class is checked each time that the class is asked for,
the access to a field each time that the field is, the access to a method only
once.

Resolving from scratch asks the boot loader for the class, which has made all
classes with constants; it may have to load the class and others with it.  A kept
class is the one that the loader would return, as long as the loader does not
replace its entries: `java/lang/Class.class` has been loaded, and the files that
are still to be read define the classes that they are read for.
-/

namespace JvmDemo.Runtime

open JvmDemo.Lib
open JvmDemo.Classfile

/-! ## The constants with their caches -/

/-- `class_ptr_`, `field_`, `method_` and `interface_method_` of a constant. -/
structure ResolvedRef where
  classPtr : Option ClassId := none
  field : Option Field := none
  method : Option Method := none
  interfaceMethod : Option Method := none
  deriving DecidableEq, Repr

/-- What the constants of all pools keep, by class and index. -/
abbrev ResolutionCache := ClassId → Nat → ResolvedRef

namespace ResolutionCache

/-- No constant has been resolved. -/
def empty : ResolutionCache := fun _ _ => {}

/-- Change what one constant keeps. -/
def update (owner : ClassId) (index : Nat) (change : ResolvedRef → ResolvedRef)
    (cache : ResolutionCache) : ResolutionCache := fun klass i =>
  if klass = owner ∧ i = index then change (cache klass i) else cache klass i

end ResolutionCache

/-- The class name of a symbolic reference. -/
def Constant.className? : Constant → Option Str
  | .classRef className => some className
  | .fieldRef className _ _ => some className
  | .methodRef className _ _ => some className
  | .interfaceMethodRef className _ _ => some className
  | _ => none

namespace ClassTable

variable (table : ClassTable) (owner : ClassId)

/-- The check at the end of `ResolveClass`. -/
def checkClassAccess (id : ClassId) : Exec ClassId :=
  if table.isAccessibleTo id owner then pure id else fatal "java.lang.IllegalAccessError"

/-- The check at the end of `ResolveField`. -/
def checkFieldAccess (field : Field) : Exec Field :=
  if table.isMemberAccessibleTo field.toClassMember owner then pure field
  else fatal "java.lang.IllegalAccessError"

/-- The search of `ResolveField`. -/
def findField (d : ClassId) (name descriptor : Str) : Exec Field :=
  match table.lookupField d name descriptor with
  | none => fatal "java.lang.NoSuchFieldError"
  | some field => pure field

/-- The search of `ResolveMethod` and `ResolveInterfaceMethod`, for a class that is an
interface or not. -/
def findMethod (isInterface : Bool) (d : ClassId) (name descriptor : Str) : Exec Method :=
  if (table.info d).isInterface != isInterface then
    fatal "java.lang.IncompatibleClassChangeError"
  else table.resolveMethodIn owner d name descriptor

end ClassTable

/-! ## Resolving -/

/-- The classes that the loaders have made. -/
def LoaderState.table (state : LoaderState) : Exec ClassTable :=
  if linked : ClassTable.linked (state.objects.map ClassObject.info) = true then
    pure (.ofClasses _ linked)
  else undefined "a class that points at a younger one"

namespace Resolution

/-- The state of the loaders, and what the constants keep. -/
abbrev Kept := LoaderState × ResolutionCache

/-- Something is looked up in the classes that have been loaded. -/
def look {α : Type} (find : ClassTable → Exec α) : StateT LoaderState Exec α := fun state => do
  let table ← state.table
  let value ← find table
  pure (value, state)

/-- Leave the constants alone. -/
def onLoader {α : Type} (action : StateT LoaderState Exec α) : StateT Kept Exec α := fun kept => do
  let (value, next) ← action.run kept.1
  pure (value, next, kept.2)

variable [Target] (env : LoaderEnv) (fuel : Nat)

/-- `LoadClass` of the boot loader; the class is used at once.  Nothing reads the list
of results, which is left as it is. -/
def load (className : Str) : StateT LoaderState Exec ClassId := fun state => do
  let (result, next) ← loadClass env (fuel + 1) .boot className state
  match result with
  | some id => pure (id, { next with results := state.results })
  | none => undefined "IsAccessibleTo of a null class"

variable (owner : ClassId) (index : Nat) (className name descriptor : Str)

/-- `SymRefConstant::ResolveClass` of a constant that keeps nothing. -/
def resolveClass : StateT LoaderState Exec ClassId := do
  let id ← load env fuel className
  look fun table => table.checkClassAccess owner id

/-- What `ResolveField` does when nothing is kept. -/
def findField : StateT LoaderState Exec Field := do
  let d ← resolveClass env fuel owner className
  look fun table => table.findField d name descriptor

/-- `FieldRefConstant::ResolveField` of a constant that keeps nothing. -/
def resolveField : StateT LoaderState Exec Field := do
  let field ← findField env fuel owner className name descriptor
  look fun table => table.checkFieldAccess owner field

/-- `ResolveMethod` and `ResolveInterfaceMethod` of a constant that keeps nothing. -/
def resolveMethod (isInterface : Bool) : StateT LoaderState Exec Method := do
  let d ← resolveClass env fuel owner className
  look fun table => table.findMethod owner isInterface d name descriptor

/-- `SymRefConstant::ResolveClass` of the constant at an index. -/
def resolveClassCached : StateT Kept Exec ClassId := do
  let id ← memo (fun kept => (kept.2 owner index).classPtr)
    (fun id kept => (kept.1, kept.2.update owner index fun ref => { ref with classPtr := some id }))
    (onLoader (load env fuel className))
  onLoader (look fun table => table.checkClassAccess owner id)

def findFieldCached : StateT Kept Exec Field := do
  let d ← resolveClassCached env fuel owner index className
  onLoader (look fun table => table.findField d name descriptor)

/-- `FieldRefConstant::ResolveField`. -/
def resolveFieldCached : StateT Kept Exec Field := do
  let field ← memo (fun kept => (kept.2 owner index).field)
    (fun field kept =>
      (kept.1, kept.2.update owner index fun ref => { ref with field := some field }))
    (findFieldCached env fuel owner index className name descriptor)
  onLoader (look fun table => table.checkFieldAccess owner field)

/-- What `ResolveMethod` and `ResolveInterfaceMethod` do when nothing is kept. -/
def findMethodCached (isInterface : Bool) : StateT Kept Exec Method := do
  let d ← resolveClassCached env fuel owner index className
  onLoader (look fun table => table.findMethod owner isInterface d name descriptor)

/-- `MethodRefConstant::ResolveMethod`. -/
def resolveMethodCached : StateT Kept Exec Method :=
  memo (fun kept => (kept.2 owner index).method)
    (fun method kept =>
      (kept.1, kept.2.update owner index fun ref => { ref with method := some method }))
    (findMethodCached env fuel owner index className name descriptor false)

/-- `InterfaceMethodRefConstant::ResolveInterfaceMethod`. -/
def resolveInterfaceMethodCached : StateT Kept Exec Method :=
  memo (fun kept => (kept.2 owner index).interfaceMethod)
    (fun method kept =>
      (kept.1, kept.2.update owner index fun ref => { ref with interfaceMethod := some method }))
    (findMethodCached env fuel owner index className name descriptor true)

end Resolution

/-! ## Requests -/

/-- What an instruction asks the constant at an index of a class for, or the loader. -/
inductive ResolutionRequest where
  | klass (owner : ClassId) (index : Nat)
  | field (owner : ClassId) (index : Nat)
  | method (owner : ClassId) (index : Nat)
  | interfaceMethod (owner : ClassId) (index : Nat)
  | load (className : Str)
  deriving DecidableEq, Repr

inductive Resolved where
  | klass (id : ClassId)
  | field (field : Field)
  | method (method : Method)
  deriving DecidableEq, Repr

namespace Resolution

variable [Target] (env : LoaderEnv) (fuel : Nat)

/-- The constant at an index of a class. -/
def constantAt (owner : ClassId) (index : Nat) : StateT LoaderState Exec (Option Constant) :=
  look fun table => pure ((table.info owner).getConstant index)

/-- Resolve from scratch. -/
def answer : ResolutionRequest → StateT LoaderState Exec Resolved
  | .klass owner index => do
      match (← constantAt owner index).bind Constant.className? with
      | some className => Resolved.klass <$> resolveClass env fuel owner className
      | none => liftM (undefined "ResolveClass of a null constant" : Exec Resolved)
  | .field owner index => do
      match ← constantAt owner index with
      | some (.fieldRef className name descriptor) =>
          Resolved.field <$> resolveField env fuel owner className name descriptor
      | _ => liftM (undefined "ResolveField of a null constant" : Exec Resolved)
  | .method owner index => do
      match ← constantAt owner index with
      | some (.methodRef className name descriptor) =>
          Resolved.method <$> resolveMethod env fuel owner className name descriptor false
      | _ => liftM (undefined "ResolveMethod of a null constant" : Exec Resolved)
  | .interfaceMethod owner index => do
      match ← constantAt owner index with
      | some (.interfaceMethodRef className name descriptor) =>
          Resolved.method <$> resolveMethod env fuel owner className name descriptor true
      | _ => liftM (undefined "ResolveInterfaceMethod of a null constant" : Exec Resolved)
  | .load className => Resolved.klass <$> load env fuel className

/-- Resolve with the caches. -/
def answerCached : ResolutionRequest → StateT Kept Exec Resolved
  | .klass owner index => do
      match (← onLoader (constantAt owner index)).bind Constant.className? with
      | some className => Resolved.klass <$> resolveClassCached env fuel owner index className
      | none => liftM (undefined "ResolveClass of a null constant" : Exec Resolved)
  | .field owner index => do
      match ← onLoader (constantAt owner index) with
      | some (.fieldRef className name descriptor) =>
          Resolved.field <$> resolveFieldCached env fuel owner index className name descriptor
      | _ => liftM (undefined "ResolveField of a null constant" : Exec Resolved)
  | .method owner index => do
      match ← onLoader (constantAt owner index) with
      | some (.methodRef className name descriptor) =>
          Resolved.method <$> resolveMethodCached env fuel owner index className name descriptor
      | _ => liftM (undefined "ResolveMethod of a null constant" : Exec Resolved)
  | .interfaceMethod owner index => do
      match ← onLoader (constantAt owner index) with
      | some (.interfaceMethodRef className name descriptor) =>
          Resolved.method <$>
            resolveInterfaceMethodCached env fuel owner index className name descriptor
      | _ => liftM (undefined "ResolveInterfaceMethod of a null constant" : Exec Resolved)
  | .load className => Resolved.klass <$> onLoader (load env fuel className)

end Resolution

/-! ## The table of a state -/

/-- Every table passes the check. -/
theorem ClassTable.linked_classes (table : ClassTable) :
    ClassTable.linked table.classes = true := by
  rw [ClassTable.linked, List.all_eq_true]
  intro id _
  simp only [Bool.and_eq_true, List.all_eq_true, decide_eq_true_eq, beq_iff_eq]
  refine ⟨⟨⟨?_, table.interface_lt id⟩, table.field_klass id⟩, table.method_klass id⟩
  cases superEq : (table.classes.getD id {}).superClass with
  | none => rfl
  | some super => simpa using table.superClass_lt id super superEq

theorem Yields.table_eq [Target] {state : LoaderState} {table : ClassTable}
    (yields : Yields state table) : state.table = .ok table := by
  have linked : ClassTable.linked (state.objects.map ClassObject.info) = true := by
    rw [← yields.classes]
    exact table.linked_classes
  rw [LoaderState.table, dif_pos linked]
  exact congrArg Except.ok (ClassTable.eq_of_classes yields.classes.symm)

theorem Yields.unique [Target] {state : LoaderState} {table other : ClassTable}
    (yields : Yields state table) (yieldsOther : Yields state other) : table = other :=
  ClassTable.eq_of_classes (yields.classes.trans yieldsOther.classes.symm)

/-- What the caches point at is in the table. -/
theorem Yields.lt_length [Target] {state : LoaderState} {table : ClassTable} {loader : LoaderName}
    {name : Str} {id : ClassId} (yields : Yields state table)
    (found : state.cached loader name = some (some id)) : id < table.classes.length := by
  rw [yields.length]
  exact (yields.entries found).lt

/-! ## Sound caches -/

namespace Resolution

/-- What a constant keeps is what it is resolved to: the loader has the class in its
cache, and the searches in the table find the member. -/
structure KeepsSound (state : LoaderState) (table : ClassTable) (owner : ClassId)
    (constant : Option Constant) (ref : ResolvedRef) : Prop where
  classPtr : ∀ {id}, ref.classPtr = some id → ∃ className,
    constant.bind Constant.className? = some className ∧
    state.cached .boot className = some (some id)
  field : ∀ {field}, ref.field = some field → ∃ className name descriptor d,
    constant = some (.fieldRef className name descriptor) ∧
    state.cached .boot className = some (some d) ∧
    table.checkClassAccess owner d = .ok d ∧ table.findField d name descriptor = .ok field
  method : ∀ {method}, ref.method = some method → ∃ className name descriptor d,
    constant = some (.methodRef className name descriptor) ∧
    state.cached .boot className = some (some d) ∧
    table.checkClassAccess owner d = .ok d ∧
    table.findMethod owner false d name descriptor = .ok method
  interfaceMethod : ∀ {method}, ref.interfaceMethod = some method →
    ∃ className name descriptor d,
      constant = some (.interfaceMethodRef className name descriptor) ∧
      state.cached .boot className = some (some d) ∧
      table.checkClassAccess owner d = .ok d ∧
      table.findMethod owner true d name descriptor = .ok method

/-- The caches of all constants are sound. -/
def CachesSound (state : LoaderState) (table : ClassTable) (cache : ResolutionCache) : Prop :=
  ∀ owner index,
    KeepsSound state table owner ((table.info owner).getConstant index) (cache owner index)

theorem cachesSound_empty (state : LoaderState) (table : ClassTable) :
    CachesSound state table ResolutionCache.empty := by
  intro owner index
  constructor
  · rintro id ⟨⟩
  · rintro field ⟨⟩
  · rintro method ⟨⟩
  · rintro method ⟨⟩

/-- A sound change of one constant. -/
theorem CachesSound.update {state : LoaderState} {table : ClassTable} {cache : ResolutionCache}
    (sound : CachesSound state table cache) {owner : ClassId} {index : Nat}
    {change : ResolvedRef → ResolvedRef}
    (changed : KeepsSound state table owner ((table.info owner).getConstant index)
      (change (cache owner index))) :
    CachesSound state table (cache.update owner index change) := by
  intro klass i
  unfold ResolutionCache.update
  split
  · next here =>
      obtain ⟨rfl, rfl⟩ := here
      exact changed
  · exact sound klass i

variable [Target] {env : LoaderEnv} {fuel : Nat} {state next : LoaderState} {kept : Kept}
  {table later : ClassTable} {owner : ClassId} {index : Nat} {className name descriptor : Str}
  {id : ClassId} {constant : Option Constant} {ref : ResolvedRef}

/-! ## Loading more -/

/-- The loaders have gone on from a state with the table to one with the later table. -/
structure GoesOn (state : LoaderState) (table : ClassTable) (next : LoaderState)
    (later : ClassTable) : Prop where
  yields : Yields state table
  yieldsLater : Yields next later
  grown : table.Grown later
  kept : ∀ {key id}, state.cached .boot key = some (some id) →
    next.cached .boot key = some (some id)

/-- A constant of a class that has been loaded stays what it is. -/
theorem GoesOn.constant_eq (goesOn : GoesOn state table next later) {found : Constant}
    (constant : (table.info owner).getConstant index = some found) :
    (later.info owner).getConstant index = some found := by
  rw [goesOn.grown.info_eq (ClassTable.lt_length_of_constant constant)]
  exact constant

theorem GoesOn.checkClassAccess_eq (goesOn : GoesOn state table next later)
    (inside : id < table.classes.length) (ownerInside : owner < table.classes.length) :
    later.checkClassAccess owner id = table.checkClassAccess owner id := by
  rw [ClassTable.checkClassAccess, ClassTable.checkClassAccess,
    goesOn.grown.isAccessibleTo_eq inside ownerInside]

theorem GoesOn.findField_eq (goesOn : GoesOn state table next later)
    (inside : id < table.classes.length) :
    later.findField id name descriptor = table.findField id name descriptor := by
  rw [ClassTable.findField, ClassTable.findField, goesOn.grown.lookupField_eq inside]

theorem GoesOn.findMethod_eq (goesOn : GoesOn state table next later)
    (inside : id < table.classes.length) (isInterface : Bool) :
    later.findMethod owner isInterface id name descriptor =
      table.findMethod owner isInterface id name descriptor := by
  rw [ClassTable.findMethod, ClassTable.findMethod, goesOn.grown.info_eq inside,
    goesOn.grown.resolveMethodIn_eq inside]

/-- What is kept stays what it would be resolved to. -/
theorem GoesOn.keepsSound (goesOn : GoesOn state table next later)
    (sound : KeepsSound state table owner ((table.info owner).getConstant index) ref) :
    KeepsSound next later owner ((later.info owner).getConstant index) ref := by
  constructor
  case classPtr =>
    intro id found
    rcases sound.classPtr found with ⟨className, named, cached⟩
    rcases Option.bind_eq_some_iff.mp named with ⟨constant, constantEq, isName⟩
    rw [goesOn.constant_eq constantEq]
    exact ⟨className, isName, goesOn.kept cached⟩
  case field =>
    intro field found
    rcases sound.field found with
      ⟨className, name, descriptor, d, constant, cached, accessible, declared⟩
    have inside := goesOn.yields.lt_length cached
    have ownerInside := ClassTable.lt_length_of_constant constant
    refine ⟨className, name, descriptor, d, goesOn.constant_eq constant, goesOn.kept cached, ?_, ?_⟩
    · rw [goesOn.checkClassAccess_eq inside ownerInside]
      exact accessible
    · rw [goesOn.findField_eq inside]
      exact declared
  case method =>
    intro method found
    rcases sound.method found with
      ⟨className, name, descriptor, d, constant, cached, accessible, declared⟩
    have inside := goesOn.yields.lt_length cached
    have ownerInside := ClassTable.lt_length_of_constant constant
    refine ⟨className, name, descriptor, d, goesOn.constant_eq constant, goesOn.kept cached, ?_, ?_⟩
    · rw [goesOn.checkClassAccess_eq inside ownerInside]
      exact accessible
    · rw [goesOn.findMethod_eq inside]
      exact declared
  case interfaceMethod =>
    intro method found
    rcases sound.interfaceMethod found with
      ⟨className, name, descriptor, d, constant, cached, accessible, declared⟩
    have inside := goesOn.yields.lt_length cached
    have ownerInside := ClassTable.lt_length_of_constant constant
    refine ⟨className, name, descriptor, d, goesOn.constant_eq constant, goesOn.kept cached, ?_, ?_⟩
    · rw [goesOn.checkClassAccess_eq inside ownerInside]
      exact accessible
    · rw [goesOn.findMethod_eq inside]
      exact declared

/-- The loader is ready to load any class: its entries are those that it will keep. -/
def Loadable (env : LoaderEnv) (state : LoaderState) : Prop := Ready env (fun _ => True) state

/-- A class that has been loaded is in the cache from then on. -/
theorem load_eq_ok (ready : Loadable env state) (yields : Yields state table)
    (done : (load env fuel className).run state = .ok (id, next)) :
    Loadable env next ∧ next.cached .boot className = some (some id) ∧
      ∃ later, GoesOn state table next later := by
  rcases Exec.bind_eq_ok.mp done with ⟨⟨result, loaded⟩, loadedEq, rest⟩
  cases result with
  | none => cases rest
  | some found =>
      cases rest
      have supplied := Ready.loadClass ready trivial loadedEq
      have readyLoaded := Ready.of_supplied ready supplied
      have advances := (loads_loadClass (fuel + 1) .boot yields loadedEq).1
      have cached : loaded.cached .boot className = some (some id) := by
        apply (supplied.consistent.returned _).2
        rcases loadClass_eq_ok loadedEq with
          ⟨-, rfl⟩ | ⟨-, depends, results, middle, object, -, -, -, same, rfl⟩
        · exact List.mem_cons_self
        · exact List.mem_cons_self
      refine ⟨⟨⟨supplied.consistent.null, supplied.consistent.made, ?_⟩, readyLoaded.named,
        readyLoaded.depends, readyLoaded.jlc⟩, cached, ?_⟩
      · intro loader key result mem
        rcases ready.consistent.returned mem with ⟨notNull, present⟩
        refine ⟨notNull, ?_⟩
        rcases Option.ne_none_iff_exists'.mp notNull with ⟨other, rfl⟩
        exact supplied.grows.kept present
      · rcases advances.yields with ⟨later, laterYields⟩
        refine ⟨later, yields, laterYields.of_objects rfl laterYields.entries, ?_,
          supplied.grows.kept⟩
        rw [ClassTable.Grown, yields.classes, laterYields.classes]
        exact advances.kept.map ClassObject.info

/-- A class that is in the cache is loaded again without any effect. -/
theorem load_of_cached (cached : state.cached .boot className = some (some id)) :
    (load env fuel className).run state = .ok (id, state) := by
  have hit : loadClass env (fuel + 1) .boot className state =
      .ok (some id, state.record .boot className (some id)) := by
    rw [loadClass, cached]
    rfl
  rw [StateT.run, load, hit]
  rfl

/-! ## The relation -/

/-- The loaders are in the same state, from which any class may be loaded, and what the
constants keep is sound. -/
structure Related (env : LoaderEnv) (state : LoaderState) (kept : Kept) : Prop where
  same : kept.1 = state
  ready : Loadable env state
  sound : ∃ table, Yields state table ∧ CachesSound state table kept.2

/-- What is known of the state and its table. -/
def Knows (facts : LoaderState → ClassTable → Prop) (env : LoaderEnv) (state : LoaderState)
    (kept : Kept) : Prop :=
  Related env state kept ∧ ∀ table, Yields state table → facts state table

/-- Loading more does not change it. -/
def Stable (facts : LoaderState → ClassTable → Prop) : Prop :=
  ∀ ⦃state table next later⦄, GoesOn state table next later → facts state table → facts next later

theorem mirrors_load {facts : LoaderState → ClassTable → Prop} (stable : Stable facts) :
    Mirrors (Knows facts env) (load env fuel className) (onLoader (load env fuel className))
      fun id => Knows (fun state table =>
        facts state table ∧ state.cached .boot className = some (some id)) env where
  ok := by
    rintro state ⟨loaders, cache⟩ id next ⟨⟨rfl, ready, table, yields, sound⟩, known⟩ done
    rcases load_eq_ok ready yields done with ⟨readyNext, cached, later, goesOn⟩
    refine ⟨(next, cache), ?_, ⟨rfl, readyNext, later, goesOn.yieldsLater, ?_⟩, ?_⟩
    · rw [StateT.run, onLoader, done]
      rfl
    · exact fun owner index => goesOn.keepsSound (sound owner index)
    · intro other yieldsOther
      rw [yieldsOther.unique goesOn.yieldsLater]
      exact ⟨stable goesOn (known table yields), cached⟩
  error := by
    rintro state ⟨loaders, cache⟩ failure ⟨⟨rfl, -⟩, -⟩ failed
    rw [StateT.run, onLoader, failed]
    rfl

theorem run_look {α : Type} {find : ClassTable → Exec α} (yields : Yields state table) :
    (look find).run state = find table >>= fun value => pure (value, state) := by
  rw [StateT.run, look, yields.table_eq]
  rfl

theorem mirrors_look {α : Type} {facts : LoaderState → ClassTable → Prop}
    (find : ClassTable → Exec α) :
    Mirrors (Knows facts env) (look find) (onLoader (look find))
      fun value => Knows (fun state table => facts state table ∧ find table = .ok value) env where
  ok := by
    rintro state ⟨loaders, cache⟩ value next ⟨⟨rfl, ready, table, yields, sound⟩, known⟩ done
    have found := (run_look yields).symm.trans done
    rcases Exec.bind_eq_ok.mp found with ⟨result, foundEq, same⟩
    cases same
    refine ⟨(loaders, cache), ?_, ⟨rfl, ready, table, yields, sound⟩, ?_⟩
    · rw [StateT.run, onLoader, done]
      rfl
    · intro other yieldsOther
      rw [yieldsOther.unique yields]
      exact ⟨known table yields, foundEq⟩
  error := by
    rintro state ⟨loaders, cache⟩ failure ⟨⟨rfl, -⟩, -⟩ failed
    rw [StateT.run, onLoader, failed]
    rfl

/-! ## Resolving with and without the caches -/

/-- The constant is the one at the index of the class. -/
def Holds (owner : ClassId) (index : Nat) (constant : Constant) (_ : LoaderState)
    (table : ClassTable) : Prop :=
  (table.info owner).getConstant index = some constant

theorem stable_holds (owner : ClassId) (index : Nat) (constant : Constant) :
    Stable (Holds owner index constant) :=
  fun _ _ _ _ goesOn holds => goesOn.constant_eq holds

/-- The class has been loaded, and may be used by the owner. -/
structure Resolves (owner : ClassId) (className : Str) (id : ClassId) (state : LoaderState)
    (table : ClassTable) : Prop where
  cached : state.cached .boot className = some (some id)
  accessible : table.checkClassAccess owner id = .ok id

omit [Target] in
theorem checkClassAccess_eq_ok {found : ClassId}
    (checked : table.checkClassAccess owner id = .ok found) : found = id := by
  unfold ClassTable.checkClassAccess at checked
  split at checked
  · cases checked
    rfl
  · cases checked

/-- A class that has been resolved is resolved again without any effect. -/
theorem resolveClass_of_resolves (yields : Yields state table)
    (resolves : Resolves owner className id state table) :
    (resolveClass env fuel owner className).run state = .ok (id, state) := by
  rw [resolveClass, StateT.run_bind, load_of_cached resolves.cached, Exec.bind_ok]
  dsimp only
  rw [run_look yields, resolves.accessible]
  rfl

theorem resolve_of_resolves {α : Type} {find : ClassId → ClassTable → Exec α} {value : α}
    (yields : Yields state table) (resolves : Resolves owner className id state table)
    (found : find id table = .ok value) :
    (resolveClass env fuel owner className >>= fun d => look (find d)).run state =
      .ok (value, state) := by
  rw [StateT.run_bind, resolveClass_of_resolves yields resolves, Exec.bind_ok]
  dsimp only
  rw [run_look yields, found]
  rfl

section Requests

variable {found : Constant}

theorem mirrors_resolveClass (named : found.className? = some className) :
    Mirrors (Knows (Holds owner index found) env) (resolveClass env fuel owner className)
      (resolveClassCached env fuel owner index className)
      fun id => Knows (fun state table =>
        Holds owner index found state table ∧ Resolves owner className id state table) env := by
  have loads : Mirrors (Knows (Holds owner index found) env) (load env fuel className)
      (memo (fun kept => (kept.2 owner index).classPtr)
        (fun id kept =>
          (kept.1, kept.2.update owner index fun ref => { ref with classPtr := some id }))
        (onLoader (load env fuel className)))
      fun id => Knows (fun state table =>
        Holds owner index found state table ∧
          state.cached .boot className = some (some id)) env := by
    apply (mirrors_load (stable_holds owner index found)).memo
    · rintro state kept id ⟨related, known⟩ hit
      rcases related.sound with ⟨table, yields, sound⟩
      rcases (sound owner index).classPtr hit with ⟨other, otherNamed, cached⟩
      have constant : (table.info owner).getConstant index = some found := known table yields
      rw [constant, Option.bind_some, named] at otherNamed
      cases otherNamed
      refine ⟨load_of_cached cached, related, ?_⟩
      intro again yieldsAgain
      exact ⟨known again yieldsAgain, cached⟩
    · rintro id state kept ⟨related, known⟩
      rcases related.sound with ⟨table, yields, sound⟩
      have constant : (table.info owner).getConstant index = some found := (known table yields).1
      refine ⟨⟨related.same, related.ready, table, yields, ?_⟩, known⟩
      dsimp only
      apply CachesSound.update sound
      refine ⟨?_, (sound owner index).field, (sound owner index).method,
        (sound owner index).interfaceMethod⟩
      rintro _ ⟨⟩
      rw [constant]
      exact ⟨className, named, (known table yields).2⟩
  apply loads.bind
  intro id
  refine (mirrors_look fun table => table.checkClassAccess owner id).weaken (fun known => known) ?_
  rintro checked state kept ⟨related, known⟩
  refine ⟨related, ?_⟩
  intro table yields
  rcases known table yields with ⟨⟨holds, cached⟩, accessible⟩
  obtain rfl := checkClassAccess_eq_ok accessible
  exact ⟨holds, cached, accessible⟩

/-- Something is looked up in the class that the constant names. -/
theorem mirrors_find {α : Type} (named : found.className? = some className)
    (find : ClassId → ClassTable → Exec α) :
    Mirrors (Knows (Holds owner index found) env)
      (resolveClass env fuel owner className >>= fun d => look (find d))
      (resolveClassCached env fuel owner index className >>= fun d => onLoader (look (find d)))
      fun value => Knows (fun state table => Holds owner index found state table ∧
        ∃ d, Resolves owner className d state table ∧ find d table = .ok value) env := by
  apply (mirrors_resolveClass named).bind
  intro d
  refine (mirrors_look (find d)).weaken (fun known => known) ?_
  rintro value state kept ⟨related, known⟩
  refine ⟨related, ?_⟩
  intro table yields
  rcases known table yields with ⟨⟨holds, resolves⟩, looked⟩
  exact ⟨holds, d, resolves, looked⟩

/-- A result of such a search that is kept, and may be kept. -/
theorem mirrors_memo_find {α : Type} (named : found.className? = some className)
    (find : ClassId → ClassTable → Exec α) {get : ResolvedRef → Option α}
    {put : α → ResolvedRef → ResolvedRef}
    (hit : ∀ {state table ref value},
      KeepsSound state table owner (some found) ref → get ref = some value →
        ∃ d, Resolves owner className d state table ∧ find d table = .ok value)
    (keeps : ∀ {state table ref value d},
      KeepsSound state table owner (some found) ref → Resolves owner className d state table →
        find d table = .ok value → KeepsSound state table owner (some found) (put value ref)) :
    Mirrors (Knows (Holds owner index found) env)
      (resolveClass env fuel owner className >>= fun d => look (find d))
      (memo (fun kept => get (kept.2 owner index))
        (fun value kept => (kept.1, kept.2.update owner index (put value)))
        (resolveClassCached env fuel owner index className >>= fun d => onLoader (look (find d))))
      fun _ => Related env := by
  apply (mirrors_find named find).memo
  · rintro state kept value ⟨related, known⟩ present
    rcases related.sound with ⟨table, yields, sound⟩
    have holds : (table.info owner).getConstant index = some found := known table yields
    have here := sound owner index
    rw [holds] at here
    rcases hit here present with ⟨d, resolves, looked⟩
    exact ⟨resolve_of_resolves yields resolves looked, related⟩
  · rintro value state kept ⟨related, known⟩
    rcases related.sound with ⟨table, yields, sound⟩
    rcases known table yields with ⟨holds, d, resolves, looked⟩
    have constant : (table.info owner).getConstant index = some found := holds
    refine ⟨related.same, related.ready, table, yields, ?_⟩
    dsimp only
    apply CachesSound.update sound
    have here := sound owner index
    rw [constant] at here ⊢
    exact keeps here resolves looked

theorem mirrors_resolveField :
    Mirrors (Knows (Holds owner index (.fieldRef className name descriptor)) env)
      (resolveField env fuel owner className name descriptor)
      (resolveFieldCached env fuel owner index className name descriptor)
      fun _ => Related env := by
  have finds := @mirrors_memo_find _ env fuel owner index className
    (.fieldRef className name descriptor) _ rfl
    (fun d table => table.findField d name descriptor) (·.field) (fun field ref => { ref with field := some field })
    (by
      intro state table ref field sound kept
      rcases sound.field kept with ⟨_, _, _, d, ⟨⟩, cached, accessible, declared⟩
      exact ⟨d, ⟨cached, accessible⟩, declared⟩)
    (by
      intro state table ref field d sound resolves declared
      refine ⟨sound.classPtr, ?_, sound.method, sound.interfaceMethod⟩
      rintro _ ⟨⟩
      exact ⟨className, name, descriptor, d, rfl, resolves.cached, resolves.accessible, declared⟩)
  unfold resolveField resolveFieldCached
  apply finds.bind
  intro field
  refine (@mirrors_look _ env _ (fun _ _ => True)
    fun table => table.checkFieldAccess owner field).weaken ?_ ?_
  · exact fun related => ⟨related, fun _ _ => trivial⟩
  · exact fun known => known.1

theorem mirrors_resolveMethod :
    Mirrors (Knows (Holds owner index (.methodRef className name descriptor)) env)
      (resolveMethod env fuel owner className name descriptor false)
      (resolveMethodCached env fuel owner index className name descriptor)
      fun _ => Related env := by
  apply @mirrors_memo_find _ env fuel owner index className _ _ rfl
    (fun d table => table.findMethod owner false d name descriptor) (·.method)
    (fun method ref => { ref with method := some method })
  · intro state table ref method sound kept
    rcases sound.method kept with ⟨_, _, _, d, ⟨⟩, cached, accessible, declared⟩
    exact ⟨d, ⟨cached, accessible⟩, declared⟩
  · intro state table ref method d sound resolves declared
    refine ⟨sound.classPtr, sound.field, ?_, sound.interfaceMethod⟩
    rintro _ ⟨⟩
    exact ⟨className, name, descriptor, d, rfl, resolves.cached, resolves.accessible, declared⟩

theorem mirrors_resolveInterfaceMethod :
    Mirrors (Knows (Holds owner index (.interfaceMethodRef className name descriptor)) env)
      (resolveMethod env fuel owner className name descriptor true)
      (resolveInterfaceMethodCached env fuel owner index className name descriptor)
      fun _ => Related env := by
  apply @mirrors_memo_find _ env fuel owner index className _ _ rfl
    (fun d table => table.findMethod owner true d name descriptor) (·.interfaceMethod)
    (fun method ref => { ref with interfaceMethod := some method })
  · intro state table ref method sound kept
    rcases sound.interfaceMethod kept with ⟨_, _, _, d, ⟨⟩, cached, accessible, declared⟩
    exact ⟨d, ⟨cached, accessible⟩, declared⟩
  · intro state table ref method d sound resolves declared
    refine ⟨sound.classPtr, sound.field, sound.method, ?_⟩
    rintro _ ⟨⟩
    exact ⟨className, name, descriptor, d, rfl, resolves.cached, resolves.accessible, declared⟩

end Requests

/-- The constant that a request asks for. -/
theorem mirrors_constantAt :
    Mirrors (Related env) (constantAt owner index) (onLoader (constantAt owner index))
      fun constant => Knows (fun _ table => (table.info owner).getConstant index = constant) env := by
  refine (@mirrors_look _ env _ (fun _ _ => True)
    fun table => pure ((table.info owner).getConstant index)).weaken ?_ ?_
  · exact fun related => ⟨related, fun _ _ => trivial⟩
  · rintro constant state kept ⟨related, known⟩
    refine ⟨related, ?_⟩
    intro table yields
    exact Except.ok.inj (known table yields).2

/-- A request is answered in the same way with the caches. -/
theorem mirrors_answer (request : ResolutionRequest) :
    Mirrors (Related env) (answer env fuel request) (answerCached env fuel request)
      fun _ => Related env := by
  cases request with
  | klass owner index =>
      apply mirrors_constantAt.bind
      intro constant
      cases constant with
      | none => exact mirrors_throw _
      | some found =>
          cases named : found.className? with
          | none =>
              simp only [Option.bind_some, named]
              exact mirrors_throw _
          | some className =>
              simp only [Option.bind_some, named]
              exact (mirrors_resolveClass named).map Resolved.klass And.left
  | field owner index =>
      apply mirrors_constantAt.bind
      intro constant
      split
      · exact mirrors_resolveField.map Resolved.field fun related => related
      · exact mirrors_throw _
  | method owner index =>
      apply mirrors_constantAt.bind
      intro constant
      split
      · exact mirrors_resolveMethod.map Resolved.method fun related => related
      · exact mirrors_throw _
  | interfaceMethod owner index =>
      apply mirrors_constantAt.bind
      intro constant
      split
      · exact mirrors_resolveInterfaceMethod.map Resolved.method fun related => related
      · exact mirrors_throw _
  | load className =>
      have stable : Stable fun _ _ => True := fun _ _ _ _ _ known => known
      refine ((mirrors_load stable).weaken ?_ fun known => known).map Resolved.klass And.left
      exact fun related => ⟨related, fun _ _ => trivial⟩

/-- For every client, which may let its requests depend on the answers so far, and
every number of requests: with the caches, empty at the beginning, the answers are
those of resolving each reference from scratch, and so are the classes that are loaded
on the way, and the failure, if there is one.  The loaders have come into their state
by calls in order, `java/lang/Class.class` has been loaded, and the files that are not
read yet define the classes that they are read for. -/
theorem answerCached_eq_answer (reachable : OrderlyReachable env state)
    (jlc : state.cached .boot kJlcClassString ≠ none)
    (named : ∀ name, state.cached .boot name = none → keyOf env .boot name = name)
    (strategy : List Resolved → ResolutionRequest) (count : Nat) :
    (fun result : List Resolved × Kept => (result.1, result.2.1)) <$>
        (ask (answerCached env fuel) strategy count []).run (state, ResolutionCache.empty) =
      (ask (answer env fuel) strategy count []).run state := by
  have settled := Sound.of_orderlyReachable reachable
  rcases (yields_initial.calls reachable.cacheReachable).yields with ⟨table, yields⟩
  rcases Option.ne_none_iff_exists'.mp jlc with ⟨entry, found⟩
  rcases settled.pointer_of_cached found with ⟨id, rfl⟩
  have ready : Loadable env state :=
    ⟨settled.consistent, fun _ absent => named _ absent, fun _ _ _ _ => trivial, .inl ⟨id, found⟩⟩
  have related : Related env state (state, ResolutionCache.empty) :=
    ⟨rfl, ready, table, yields, cachesSound_empty state table⟩
  exact (Mirrors.ask mirrors_answer strategy count []).run_eq related fun related => related.same

end Resolution

/-! ## A class that is loaded when it is resolved -/

namespace Resolution

/-- A class whose constants name a class that is not loaded with it. -/
def namingData : ClassData where
  bytes := be32 0xCAFEBABE ++ be16 0 ++ be16 52 ++ Format.encodePool
      [.utf8 (str "A"), .classInfo 1, .utf8 (str "java/lang/Object"), .classInfo 3,
        .utf8 (str "java/lang/String"), .classInfo 5] ++
    be16 0x21 ++ be16 2 ++ be16 4 ++ be16 0 ++ be16 0 ++ be16 0 ++ be16 0
  size_lt := by decide +kernel

theorem stringName_short : (str "java/lang/String").length < 2 ^ 16 := by decide

def namingEnv : LoaderEnv where
  reader loader name :=
    if name = str "A" then some namingData
    else if name = str "java/lang/String" then
      some (bareData ⟨str "java/lang/String", stringName_short⟩ objectName)
    else basicEnv.reader loader name
  newJString := noString

/-- The state after `LoadBasicClass`. -/
def namingState : LoaderState :=
  (@loadBasicClass maskedShift namingEnv 3 .boot .initial).toOption.getD .initial

/-- Load the class, and resolve one of its constants again and again. -/
def namingClient (answers : List Resolved) : ResolutionRequest :=
  if answers = [] then .load (str "A") else .klass 2 6

theorem made_namingState :
    (@loadBasicClass maskedShift namingEnv 3 .boot .initial).toOption.isSome = true ∧
      namingState.cached .boot kJlcClassString = some (some 1) ∧
      @keyOf maskedShift namingEnv .boot (str "A") = str "A" ∧
      @keyOf maskedShift namingEnv .boot (str "java/lang/String") = str "java/lang/String" ∧
      ((ask (@answer maskedShift namingEnv 3) namingClient 3 []).run namingState).toOption.map
        Prod.fst = some [.klass 3, .klass 3, .klass 2] := by
  decide +kernel

theorem orderlyReachable_namingState : @OrderlyReachable maskedShift namingEnv namingState := by
  have done := made_namingState.1
  have basic : ReadsBasic namingEnv := ⟨rfl, rfl⟩
  cases result : @loadBasicClass maskedShift namingEnv 3 .boot .initial with
  | error failure =>
      rw [result] at done
      cases done
  | ok last =>
      have here : namingState = last := by
        rw [namingState, result]
        rfl
      rw [here]
      exact .single ⟨_, @ReadsBasic.orderly_loadBasicClass maskedShift _ basic, 3, result⟩

/-- The files that have not been read define the classes that they are read for. -/
theorem keyOf_namingEnv {name : Str} (absent : namingState.cached .boot name = none) :
    @keyOf maskedShift namingEnv .boot name = name := by
  rcases made_namingState with ⟨-, jlc, keyA, keyString, -⟩
  by_cases isA : name = str "A"
  · rw [isA, keyA]
  · by_cases isString : name = str "java/lang/String"
    · rw [isString, keyString]
    · by_cases isObject : name = str "java/lang/Object"
      · rw [isObject]
        exact @keyOf_eq maskedShift _ _ _ _ _
          (@ReadsBasic.describe_object maskedShift namingEnv ⟨rfl, rfl⟩)
      · by_cases isJlc : name = kJlcClassString
        · rw [isJlc, jlc] at absent
          cases absent
        · -- there is no such file
          have unread : namingEnv.reader .boot name = none := by
            simp [namingEnv, basicEnv, isA, isString, isObject, isJlc]
          cases array : firstByte name == chr '[' with
          | true => simp [keyOf, describe, array, pure, Except.pure]
          | false => simp [keyOf, describe, array, unread, undefined]

/-- The class is loaded by the first request for it, and kept for the second. -/
theorem answerCached_eq_answer_naming : ∃ kept : Kept,
    (ask (@answerCached maskedShift namingEnv 3) namingClient 3 []).run
        (namingState, ResolutionCache.empty) =
      .ok ([.klass 3, .klass 3, .klass 2], kept) ∧
    (ask (@answer maskedShift namingEnv 3) namingClient 3 []).run namingState =
      .ok ([.klass 3, .klass 3, .klass 2], kept.1) := by
  have same := @answerCached_eq_answer maskedShift namingEnv 3 namingState
    orderlyReachable_namingState (by rw [made_namingState.2.1]; simp) (fun _ => keyOf_namingEnv)
    namingClient 3
  have answers := made_namingState.2.2.2.2
  cases plain : (ask (@answer maskedShift namingEnv 3) namingClient 3 []).run namingState with
  | error failure =>
      rw [plain] at answers
      cases answers
  | ok result =>
      rcases result with ⟨found, last⟩
      rw [plain] at answers same
      cases answers
      cases cached : (ask (@answerCached maskedShift namingEnv 3) namingClient 3 []).run
          (namingState, ResolutionCache.empty) with
      | error failure =>
          rw [cached] at same
          cases same
      | ok result =>
          rcases result with ⟨others, kept⟩
          rw [cached] at same
          cases same
          exact ⟨kept, rfl, rfl⟩

end Resolution

end JvmDemo.Runtime
