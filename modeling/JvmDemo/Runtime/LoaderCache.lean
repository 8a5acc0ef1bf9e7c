import JvmDemo.Lib.Demand
import JvmDemo.Runtime.ClassLookup

/-!
# The caches of the loaders

A loader enters a class under the name that stands in its file, and looks it up
under the name that was asked for.  At the end of every load it reads the entry of
`java/lang/Class.class`, which enters a null pointer if there is none.  Both do no
harm while the files have the right names and `java/lang/Class` is loaded first.
-/

namespace JvmDemo.Runtime

open JvmDemo.Lib
open JvmDemo.Classfile

/-! ## What the class path says -/

section Descriptions

variable [Target] (env : LoaderEnv) (loader : LoaderName) (name : Str)

/-- The name and the dependencies of the class that a loader makes of a name. -/
def describe : Exec (Str × List Str) :=
  if firstByte name == chr '[' then pure (name, arrayDependencies)
  else match env.reader loader name with
    | none => undefined "parse of null class data"
    | some data => do
        let (file, _) ← parse data
        let key ← file.getClassName
        let superClassName ← file.getSuperClassName
        let interfaceNames ← file.getInterfaceNames
        pure (key, dependencies key superClassName interfaceNames)

/-- The name that stands in the file. -/
def keyOf : Str :=
  match describe env loader name with
  | .ok (key, _) => key
  | .error _ => name

/-- The superclass and the interfaces. -/
def dependsOn : List Str :=
  match describe env loader name with
  | .ok (_, depends) => depends
  | .error _ => []

variable {env loader name} {key : Str} {depends : List Str}

theorem describe_of_describes {data : ClassData} (notArray : firstByte name ≠ chr '[')
    (read : env.reader loader name = some data) (described : Describes data key depends) :
    describe env loader name = .ok (key, depends) := by
  rcases described with ⟨file, cursor, superClassName, interfaceNames, parsed, named, superNamed,
    interfacesNamed, rfl⟩
  rw [describe, if_neg (by simpa using notArray), read]
  dsimp only
  rw [parsed, Exec.bind_ok]
  dsimp only
  rw [named, Exec.bind_ok, superNamed, Exec.bind_ok, interfacesNamed]
  rfl

theorem describe_of_madeOf {source : Option ClassData}
    (made : MadeOf env loader name key depends source) :
    describe env loader name = .ok (key, depends) := by
  rcases made with ⟨isArray, rfl, rfl, -⟩ | ⟨notArray, data, read, described, -⟩
  · rw [describe, isArray]
    rfl
  · exact describe_of_describes notArray read described

theorem keyOf_eq (described : describe env loader name = .ok (key, depends)) :
    keyOf env loader name = key := by
  rw [keyOf, described]

theorem dependsOn_eq (described : describe env loader name = .ok (key, depends)) :
    dependsOn env loader name = depends := by
  rw [dependsOn, described]

end Descriptions

/-! ## Entries -/

section Entries

variable {state next : LoaderState} {loader other : LoaderName} {name key : Str}
  {entry : Option ClassId}

theorem cached_congr (same : next.caches = state.caches) (loader : LoaderName) (key : Str) :
    next.cached loader key = state.cached loader key := by
  rw [LoaderState.cached, same]
  rfl

theorem cached_put_self : (state.put loader name entry).cached loader name = some entry := by
  simp [LoaderState.cached, LoaderState.put]

theorem cached_put_of_ne (ne : (other, key) ≠ (loader, name)) :
    (state.put loader name entry).cached other key = state.cached other key := by
  unfold LoaderState.cached LoaderState.put
  dsimp only
  split
  · next same =>
      have keyNe : key ≠ name := fun keyEq => ne (by rw [same, keyEq])
      rw [List.lookup_cons, beq_eq_false_iff_ne.mpr keyNe]
      dsimp only
      induction state.caches other with
      | nil => rfl
      | cons first rest ih =>
          rcases first with ⟨firstKey, value⟩
          by_cases here : firstKey = name
          · rw [List.filter_cons_of_neg (by simp [here]), ih, List.lookup_cons, here,
              beq_eq_false_iff_ne.mpr keyNe]
          · rw [List.filter_cons_of_pos (by simpa using here), List.lookup_cons, List.lookup_cons,
              ih]
  · rfl

theorem cached_touch_of_some {found : Option ClassId}
    (present : state.cached loader name = some found) : state.touch loader name = state := by
  rw [LoaderState.touch, present]

theorem caches_touch_congr (same : next.caches = state.caches) :
    (next.touch loader name).caches = (state.touch loader name).caches := by
  unfold LoaderState.touch
  rw [cached_congr same]
  cases state.cached loader name with
  | some entry => exact same
  | none =>
      dsimp only [LoaderState.put]
      rw [same]

theorem cached_touch_of_ne (ne : (other, key) ≠ (loader, name)) :
    (state.touch loader name).cached other key = state.cached other key := by
  unfold LoaderState.touch
  split
  · rfl
  · exact cached_put_of_ne ne

theorem cached_touch_of_none (absent : state.cached loader name = none) :
    state.touch loader name = state.put loader name none := by
  rw [LoaderState.touch, absent]

end Entries

/-! ## The invariant -/

section Invariant

/-- Only the entry of `java/lang/Class.class` may be null, every object is in the
cache of the loader that has made it, and what `LoadClass` has returned is still in
the cache. -/
structure Consistent (state : LoaderState) : Prop where
  null : ∀ {loader key}, state.cached loader key = some none → key = kJlcClassString
  made : ∀ {id loader name source}, state.origins[id]? = some (loader, name, source) →
    state.cached loader name = some (some id)
  returned : ∀ {loader name result}, (loader, name, result) ∈ state.results →
    result ≠ none ∧ state.cached loader name = some result

variable {state next : LoaderState} {loader : LoaderName} {name : Str} {id : ClassId}

theorem consistent_initial : Consistent .initial where
  null found := by cases found
  made found := by cases found
  returned mem := absurd mem List.not_mem_nil

theorem Consistent.congr (consistent : Consistent state) (caches : next.caches = state.caches)
    (origins : next.origins = state.origins) (results : next.results = state.results) :
    Consistent next := by
  have cached := cached_congr caches
  constructor
  · intro loader key found
    rw [cached] at found
    exact consistent.null found
  · intro id loader name source found
    rw [origins] at found
    rw [cached]
    exact consistent.made found
  · intro loader name result mem
    rw [results] at mem
    rw [cached]
    exact consistent.returned mem

/-- A pointer may be entered where there is no other one. -/
theorem Consistent.put (consistent : Consistent state)
    (same : ∀ other, state.cached loader name = some (some other) → other = id) :
    Consistent (state.put loader name (some id)) := by
  constructor
  · intro other key found
    by_cases here : (other, key) = (loader, name)
    · cases here
      rw [cached_put_self] at found
      cases found
    · rw [cached_put_of_ne here] at found
      exact consistent.null found
  · intro other definer key source found
    have before := consistent.made found
    by_cases here : (definer, key) = (loader, name)
    · cases here
      rw [cached_put_self, same other before]
    · rw [cached_put_of_ne here]
      exact before
  · intro other key result mem
    rcases consistent.returned mem with ⟨nonNull, before⟩
    refine ⟨nonNull, ?_⟩
    by_cases here : (other, key) = (loader, name)
    · cases here
      rcases Option.ne_none_iff_exists'.mp nonNull with ⟨pointer, rfl⟩
      rw [cached_put_self, same pointer before]
    · rw [cached_put_of_ne here]
      exact before

theorem Consistent.allocate {object : ClassObject} (consistent : Consistent state)
    (entered : state.cached object.definer object.info.name = some (some state.heap.length)) :
    Consistent (state.allocate object) where
  null := consistent.null
  made := by
    intro id loader name source found
    have origins : (state.allocate object).origins = state.origins ++ [object.origin] := by
      simp [LoaderState.origins, LoaderState.allocate]
    rw [origins] at found
    by_cases before : id < state.origins.length
    · rw [List.getElem?_append_left before] at found
      exact consistent.made found
    · rw [List.getElem?_append_right (not_lt.mp before), List.getElem?_singleton] at found
      split at found
      · next last =>
          have atEnd : id = state.heap.length := by
            rw [← length_origins]
            exact le_antisymm (Nat.sub_eq_zero_iff_le.mp last) (not_lt.mp before)
          cases found
          rw [atEnd]
          exact entered
      · cases found
  returned := consistent.returned

/-- A class may be entered under a name under which there is none. -/
theorem Consistent.enter {object : ClassObject} (consistent : Consistent state)
    (absent : ∀ id, state.cached object.definer object.info.name ≠ some (some id)) :
    Consistent (state.enter object) := by
  have entered : Consistent (state.put object.definer object.info.name state.heap.length) :=
    consistent.put fun other found => absurd found (absent other)
  exact entered.allocate cached_put_self

theorem Consistent.touch (consistent : Consistent state) :
    Consistent (state.touch loader kJlcClassString) := by
  cases found : state.cached loader kJlcClassString with
  | some entry =>
      rw [cached_touch_of_some found]
      exact consistent
  | none =>
      rw [cached_touch_of_none found]
      have unchanged : ∀ {other key pointer}, state.cached other key = some pointer →
          (state.put loader kJlcClassString none).cached other key = some pointer := by
        intro other key pointer before
        rw [cached_put_of_ne, before]
        intro here
        cases here
        rw [found] at before
        cases before
      constructor
      · intro other key null
        by_cases here : (other, key) = (loader, kJlcClassString)
        · cases here
          rfl
        · rw [cached_put_of_ne here] at null
          exact consistent.null null
      · intro id definer name source origin
        exact unchanged (consistent.made origin)
      · intro other name result mem
        rcases consistent.returned mem with ⟨nonNull, before⟩
        exact ⟨nonNull, unchanged before⟩

theorem Consistent.assignClass (consistent : Consistent state) :
    Consistent (assignClass loader id state) := by
  have results : (Runtime.assignClass loader id state).results =
      (state.touch loader kJlcClassString).results := by
    unfold Runtime.assignClass
    dsimp only
    split
    · rfl
    · rfl
  refine consistent.touch.congr (caches_assignClass id) ?_ results
  rw [origins_assignClass, origins_touch]

theorem Consistent.record (consistent : Consistent state)
    (found : state.cached loader name = some (some id)) :
    Consistent (state.record loader name (some id)) where
  null := consistent.null
  made := consistent.made
  returned := by
    intro other key result mem
    rcases List.mem_cons.mp mem with here | before
    · cases here
      exact ⟨by simp, found⟩
    · exact consistent.returned before

end Invariant

/-! ## Loading what a class depends on -/

section Recursion

/-- Loading by the boot loader keeps the entries, and the caches of the other
loaders. -/
structure Grows (state next : LoaderState) : Prop where
  kept : ∀ {loader key id}, state.cached loader key = some (some id) →
    next.cached loader key = some (some id)
  present : ∀ {loader key}, next.cached loader key = none → state.cached loader key = none
  others : ∀ {loader}, loader ≠ .boot → next.caches loader = state.caches loader

/-- The names under which the boot loader has a class. -/
def bootLog (state : LoaderState) : List Str :=
  (state.caches .boot).filterMap fun entry => entry.2.map fun _ => entry.1

variable {state middle next : LoaderState} {loader : LoaderName} {name : Str}

theorem Grows.of_caches (same : next.caches = state.caches) : Grows state next := by
  have cached := cached_congr same
  exact ⟨fun found => (cached _ _).trans found, fun absent => (cached _ _).symm.trans absent,
    fun _ => by rw [same]⟩

theorem Grows.trans (first : Grows state middle) (second : Grows middle next) :
    Grows state next where
  kept found := second.kept (first.kept found)
  present absent := first.present (second.present absent)
  others ne := (second.others ne).trans (first.others ne)

theorem grows_put {entry : Option ClassId} (absent : state.cached .boot name = none) :
    Grows state (state.put .boot name entry) where
  kept := by
    intro loader key id found
    rw [cached_put_of_ne, found]
    intro here
    cases here
    rw [absent] at found
    cases found
  present := by
    intro loader key missing
    by_cases here : (loader, key) = (.boot, name)
    · cases here
      exact absent
    · rwa [cached_put_of_ne here] at missing
  others ne := if_neg ne

theorem grows_touch : Grows state (state.touch .boot name) := by
  cases found : state.cached .boot name with
  | some entry =>
      rw [cached_touch_of_some found]
      exact .of_caches rfl
  | none =>
      rw [cached_touch_of_none found]
      exact grows_put found

theorem mem_bootLog {id : ClassId} (found : state.cached .boot name = some (some id)) :
    name ∈ bootLog state := by
  rcases List.lookup_eq_some_iff.mp found with ⟨before, after, split, -⟩
  rw [bootLog, split]
  simp

theorem not_mem_bootLog (absent : state.cached .boot name = none) : name ∉ bootLog state := by
  intro mem
  rcases List.mem_filterMap.mp mem with ⟨⟨key, entry⟩, found, pointer⟩
  rcases Option.map_eq_some_iff.mp pointer with ⟨id, -, rfl⟩
  simpa using List.lookup_eq_none_iff.mp absent (key, entry) found

theorem bootLog_put {entry : Option ClassId} (absent : state.cached .boot name = none) :
    bootLog (state.put .boot name entry) = (entry.map fun _ => name).toList ++ bootLog state := by
  have all : (state.caches .boot).filter (·.1 != name) = state.caches .boot := by
    rw [List.filter_eq_self]
    intro found mem
    exact (bne_comm).trans (List.lookup_eq_none_iff.mp absent found mem)
  rw [bootLog, LoaderState.put]
  dsimp only
  rw [if_pos rfl, all]
  cases entry with
  | none => rfl
  | some id => rfl

theorem bootLog_touch : bootLog (state.touch .boot name) = bootLog state := by
  cases found : state.cached .boot name with
  | some entry => rw [cached_touch_of_some found]
  | none =>
      rw [cached_touch_of_none found, bootLog_put found]
      rfl

variable [Target] {env : LoaderEnv} {allowed : Str → Prop}

/-- The files of the allowed names are the right ones, and `java/lang/Class.class` is
not allowed unless it has a class. -/
structure Ready (env : LoaderEnv) (allowed : Str → Prop) (state : LoaderState) : Prop where
  consistent : Consistent state
  named : ∀ {name}, allowed name → state.cached .boot name = none → keyOf env .boot name = name
  depends : ∀ {name}, allowed name → state.cached .boot name = none →
    ∀ depend ∈ dependsOn env .boot name, allowed depend
  jlc : (∃ id, state.cached .boot kJlcClassString = some (some id)) ∨ ¬ allowed kJlcClassString

/-- What loading the names has done. -/
structure Supplied (env : LoaderEnv) (names : List Str) (state next : LoaderState) : Prop where
  consistent : Consistent next
  grows : Grows state next
  demand : Demand (dependsOn env .boot) names (bootLog state) (bootLog next)

theorem Ready.of_supplied {names : List Str} (ready : Ready env allowed state)
    (loaded : Supplied env names state next) : Ready env allowed next where
  consistent := loaded.consistent
  named allow absent := ready.named allow (loaded.grows.present absent)
  depends allow absent := ready.depends allow (loaded.grows.present absent)
  jlc := ready.jlc.imp_left fun ⟨id, found⟩ => ⟨id, loaded.grows.kept found⟩

/-- An allowed name has no null pointer. -/
theorem Ready.nonNull (ready : Ready env allowed state) (allow : allowed name) :
    state.cached .boot name ≠ some none := by
  intro null
  obtain rfl := ready.consistent.null null
  rcases ready.jlc with ⟨id, found⟩ | missing
  · rw [null] at found
    cases found
  · exact missing allow

theorem Supplied.nil (consistent : Consistent state) : Supplied env [] state state :=
  ⟨consistent, .of_caches rfl, .nil⟩

theorem Supplied.append {names more : List Str} (first : Supplied env names state middle)
    (second : Supplied env more middle next) : Supplied env (names ++ more) state next :=
  ⟨second.consistent, first.grows.trans second.grows, first.demand.append second.demand⟩

theorem Ready.resolveInterfaces {load : Loading}
    (each : ∀ {name state result next}, Ready env allowed state → allowed name →
      load name state = .ok (result, next) → Supplied env [name] state next)
    (ready : Ready env allowed state) {names : List Str} (allow : ∀ name ∈ names, allowed name)
    {results : List (Option ClassId)}
    (done : resolveInterfaces load names state = .ok (results, next)) :
    Supplied env names state next := by
  induction names generalizing state results with
  | nil =>
      cases done
      exact .nil ready.consistent
  | cons name names ih =>
      rcases Exec.bind_eq_ok.mp done with ⟨⟨result, middle⟩, loaded, restEq⟩
      rcases Exec.bind_eq_ok.mp restEq with ⟨⟨others, last⟩, restLoaded, same⟩
      cases same
      have first := each ready (allow name List.mem_cons_self) loaded
      exact first.append (ih (ready.of_supplied first)
        (fun other mem => allow other (List.mem_cons_of_mem _ mem)) restLoaded)

/-- A class that is not there is entered under its name, after what it depends on. -/
theorem Supplied.enter {object : ClassObject}
    (below : Supplied env (dependsOn env .boot name) state middle)
    (missed : state.cached .boot name = none) (missing : middle.cached .boot name = none)
    (named : object.info.name = name) (definer : object.definer = .boot) :
    Supplied env [name] state ((assignClass .boot middle.heap.length (middle.enter object)).record
      .boot name middle.heap.length) := by
  let entered := middle.put .boot name middle.heap.length
  have caches : (assignClass .boot middle.heap.length (middle.enter object)).caches =
      (entered.touch .boot kJlcClassString).caches := by
    rw [caches_assignClass, LoaderState.enter, definer, named]
    exact caches_touch_congr rfl
  have grows : Grows middle entered := grows_put missing
  have found : (assignClass .boot middle.heap.length (middle.enter object)).cached .boot name =
      some (some middle.heap.length) := by
    rw [LoaderState.cached, caches]
    exact grows_touch.kept cached_put_self
  have absent : ∀ id, middle.cached object.definer object.info.name ≠ some (some id) := by
    intro id present
    rw [definer, named, missing] at present
    cases present
  have log : bootLog (assignClass .boot middle.heap.length (middle.enter object)) =
      name :: bootLog middle := by
    have same := congrArg (fun caches => bootLog ⟨caches, [], []⟩) caches
    refine same.trans ?_
    exact bootLog_touch.trans (bootLog_put missing)
  refine ⟨(below.consistent.enter absent).assignClass.record found, ?_, ?_⟩
  · exact below.grows.trans (grows.trans (grows_touch.trans (.of_caches caches)))
  · refine .miss (not_mem_bootLog missed) below.demand ?_
    exact log ▸ .nil

theorem Ready.loadClass {fuel : Nat} {result : Option ClassId} (ready : Ready env allowed state)
    (allow : allowed name) (done : loadClass env fuel .boot name state = .ok (result, next)) :
    Supplied env [name] state next := by
  induction fuel generalizing name state result next with
  | zero => cases done
  | succ fuel ih =>
      rcases loadClass_eq_ok done with ⟨hit, rfl⟩ | ⟨missed, depends, results, middle, object, made,
        definer, resolved, rfl, rfl⟩
      · have nonNull : result ≠ none := by
          rintro rfl
          exact ready.nonNull allow hit
        rcases Option.ne_none_iff_exists'.mp nonNull with ⟨id, rfl⟩
        exact ⟨ready.consistent.record hit, .of_caches rfl, .hit (mem_bootLog hit) .nil⟩
      · have described := describe_of_madeOf made
        have named : object.info.name = name :=
          (keyOf_eq described).symm.trans (ready.named allow missed)
        rw [← dependsOn_eq described] at resolved
        have below := ready.resolveInterfaces (fun ready allow done => ih ready allow done)
          (ready.depends allow missed) resolved
        have missing : middle.cached .boot name = none := by
          have unlogged := below.demand.not_mem_of_deps (not_mem_bootLog missed)
          cases found : middle.cached .boot name with
          | none => rfl
          | some entry =>
              cases entry with
              | none => exact absurd found ((ready.of_supplied below).nonNull allow)
              | some id => exact absurd (mem_bootLog found) unlogged
        exact below.enter missed missing named definer

end Recursion

/-! ## The calls -/

/-- The calls of a loader. -/
inductive LoaderCall where
  | loadClass (loader : LoaderName) (name : Str)
  | loadBasicClass (loader : LoaderName)
  | loadPrimitiveClasses (loader : LoaderName)

variable [Target] {env : LoaderEnv} {state middle next : LoaderState} {loader : LoaderName}
  {name : Str} {fuel : Nat}

/-- What a call does to the state. -/
def LoaderCall.execute (env : LoaderEnv) (fuel : Nat) : LoaderCall → LoaderState → Exec LoaderState
  | loadClass loader name, state => do
      let (_, state) ← Runtime.loadClass env fuel loader name state
      pure state
  | loadBasicClass loader, state => Runtime.loadBasicClass env fuel loader state
  | loadPrimitiveClasses loader, state => pure (Runtime.loadPrimitiveClasses loader state)

/-- A class that the boot loader has to load for another one. -/
def Needs (env : LoaderEnv) (state : LoaderState) (name other : Str) : Prop :=
  name ∈ dependsOn env .boot other ∧ state.cached .boot name = none

/-- The boot loader has to load the class before all these are loaded. -/
def Pending (env : LoaderEnv) (state : LoaderState) (names : List Str) (name : Str) : Prop :=
  ∃ first ∈ names, state.cached .boot first = none ∧
    Relation.ReflTransGen (Needs env state) name first

/-- A class that is not in the cache can be loaded: it and everything that is loaded
for it is called what it was asked for, and `java/lang/Class.class` has been loaded by
the loaders that make classes. -/
structure OrderlyLoad (env : LoaderEnv) (loader : LoaderName) (name : Str)
    (state : LoaderState) : Prop where
  named : keyOf env loader name = name
  others : ∀ other, Pending env state (dependsOn env loader name) other →
    keyOf env .boot other = other
  jlc : name = kJlcClassString ∨ state.cached loader kJlcClassString ≠ none
  bootJlc : state.cached .boot kJlcClassString ≠ none ∨
    ∀ depend ∈ dependsOn env loader name, state.cached .boot depend ≠ none

/-- `java/lang/Class.class` can be loaded: the class in its file is not there yet, and
is not loaded for itself. -/
structure OrderlyBasic (env : LoaderEnv) (loader : LoaderName) (state : LoaderState) : Prop where
  absent : state.cached loader (keyOf env loader kJlcClassString) = none
  others : ∀ other, Pending env state (dependsOn env loader kJlcClassString) other →
    keyOf env .boot other = other
  bootJlc : state.cached .boot kJlcClassString ≠ none ∨
    (∀ depend ∈ dependsOn env loader kJlcClassString, state.cached .boot depend ≠ none) ∨
    (loader = .boot ∧
      ¬ Pending env state (dependsOn env loader kJlcClassString) kJlcClassString ∧
      ¬ Pending env state (dependsOn env loader kJlcClassString) (keyOf env loader kJlcClassString))

/-- The condition on a call and on the state before it. -/
def Orderly (env : LoaderEnv) (state : LoaderState) : LoaderCall → Prop
  | .loadClass loader name => state.cached loader name = none → OrderlyLoad env loader name state
  | .loadBasicClass loader =>
      state.cached loader kJlcClassString = none → OrderlyBasic env loader state
  | .loadPrimitiveClasses loader =>
      ∀ type ∈ ClassTable.primitiveTypes, state.cached loader type.1 = none

/-! ## One call -/

/-- No loader has a null pointer for `java/lang/Class.class`. -/
def Settled (state : LoaderState) : Prop :=
  ∀ loader, state.cached loader kJlcClassString ≠ some none

structure Sound (state : LoaderState) : Prop where
  consistent : Consistent state
  settled : Settled state

omit [Target] in
theorem Sound.nonNull (sound : Sound state) {key : Str} : state.cached loader key ≠ some none := by
  intro null
  obtain rfl := sound.consistent.null null
  exact sound.settled loader null

omit [Target] in
theorem Sound.pointer_of_cached (sound : Sound state) {key : Str} {entry : Option ClassId}
    (found : state.cached loader key = some entry) : ∃ id, entry = some id := by
  cases entry with
  | none => exact absurd found sound.nonNull
  | some id => exact ⟨id, rfl⟩

/-- What a class depends on is loaded in order. -/
theorem Sound.supplied (sound : Sound state) {depends : List Str}
    {results : List (Option ClassId)}
    (named : ∀ other, Pending env state depends other → keyOf env .boot other = other)
    (jlc : state.cached .boot kJlcClassString ≠ none ∨ ¬ Pending env state depends kJlcClassString)
    (done : resolveInterfaces (loadClass env fuel .boot) depends state = .ok (results, middle)) :
    Supplied env depends state middle := by
  let allowed (other : Str) : Prop :=
    state.cached .boot other ≠ none ∨ Pending env state depends other
  have ready : Ready env allowed state := by
    refine ⟨sound.consistent, ?_, ?_, ?_⟩
    · intro other allow absent
      exact named other (allow.resolve_left (not_not.mpr absent))
    · intro other allow absent depend mem
      rcases allow.resolve_left (not_not.mpr absent) with ⟨first, firstMem, missing, path⟩
      by_cases found : state.cached .boot depend = none
      · exact .inr ⟨first, firstMem, missing, .head ⟨mem, found⟩ path⟩
      · exact .inl found
    · by_cases found : state.cached .boot kJlcClassString = none
      · right
        rintro (present | pending)
        · exact present found
        · exact jlc.resolve_left (not_not.mpr found) pending
      · left
        rcases Option.ne_none_iff_exists'.mp found with ⟨entry, present⟩
        cases entry with
        | none => exact absurd present (sound.settled .boot)
        | some id => exact ⟨id, present⟩
  refine ready.resolveInterfaces (fun ready allow done => ready.loadClass allow done) ?_ done
  intro depend mem
  by_cases found : state.cached .boot depend = none
  · exact .inr ⟨depend, mem, found, .refl⟩
  · exact .inl found

/-- If everything is in the cache, nothing is loaded. -/
theorem caches_resolveInterfaces {depends : List Str} {results : List (Option ClassId)}
    (present : ∀ depend ∈ depends, state.cached .boot depend ≠ none)
    (done : resolveInterfaces (loadClass env fuel .boot) depends state = .ok (results, middle)) :
    middle.caches = state.caches := by
  induction depends generalizing state results with
  | nil =>
      cases done
      rfl
  | cons first rest ih =>
      rcases Exec.bind_eq_ok.mp done with ⟨⟨result, after⟩, loaded, restEq⟩
      rcases Exec.bind_eq_ok.mp restEq with ⟨⟨others, last⟩, restLoaded, same⟩
      cases same
      cases fuel with
      | zero => cases loaded
      | succ fuel =>
          rcases loadClass_eq_ok loaded with ⟨-, rfl⟩ | ⟨absent, -⟩
          · exact @ih (state.record .boot first result) _
              (fun depend mem => present depend (List.mem_cons_of_mem _ mem)) restLoaded
          · exact absurd absent (present first List.mem_cons_self)

/-- The boot loader does not lose `java/lang/Class.class` while it loads the
dependencies of a class. -/
theorem Sound.settled_of_supplied (sound : Sound state) {depends : List Str}
    {results : List (Option ClassId)} (supplied : Supplied env depends state middle)
    (jlc : state.cached .boot kJlcClassString ≠ none ∨
      ∀ depend ∈ depends, state.cached .boot depend ≠ none)
    (done : resolveInterfaces (loadClass env fuel .boot) depends state = .ok (results, middle)) :
    Settled middle := by
  intro loader
  by_cases isBoot : loader = .boot
  · subst isBoot
    rcases jlc with found | present
    · rcases Option.ne_none_iff_exists'.mp found with ⟨entry, present⟩
      cases entry with
      | none => exact absurd present (sound.settled .boot)
      | some id => simp [supplied.grows.kept present]
    · rw [LoaderState.cached, caches_resolveInterfaces present done]
      exact sound.settled .boot
  · rw [LoaderState.cached, supplied.grows.others isBoot]
    exact sound.settled loader

omit [Target] in
theorem cached_enter_self {object : ClassObject} :
    (state.enter object).cached object.definer object.info.name = some (some state.heap.length) :=
  cached_put_self

omit [Target] in
theorem cached_enter_of_ne {object : ClassObject} {other : LoaderName} {key : Str}
    (ne : (other, key) ≠ (object.definer, object.info.name)) :
    (state.enter object).cached other key = state.cached other key :=
  cached_put_of_ne ne

omit [Target] in
theorem cached_enter_of_name_ne {object : ClassObject} {other : LoaderName} {key : Str}
    (ne : key ≠ object.info.name) :
    (state.enter object).cached other key = state.cached other key :=
  cached_enter_of_ne fun same => ne (congrArg Prod.snd same)

omit [Target] in
theorem Settled.put {id : ClassId} (settled : Settled state) :
    Settled (state.put loader name (some id)) := by
  intro other
  by_cases here : (other, kJlcClassString) = (loader, name)
  · rcases Prod.mk.inj here with ⟨otherEq, keyEq⟩
    rw [otherEq, keyEq, cached_put_self]
    simp
  · rw [cached_put_of_ne here]
    exact settled other

omit [Target] in
theorem Settled.enter {object : ClassObject} (settled : Settled state) :
    Settled (state.enter object) := by
  have put : Settled (state.put object.definer object.info.name state.heap.length) := settled.put
  exact put

omit [Target] in
/-- Reading an entry makes no pointer. -/
theorem cached_of_touch {other : LoaderName} {key : Str} {id : ClassId}
    (found : (state.touch loader name).cached other key = some (some id)) :
    state.cached other key = some (some id) := by
  cases entry : state.cached loader name with
  | some pointer => rwa [cached_touch_of_some entry] at found
  | none =>
      rw [cached_touch_of_none entry] at found
      by_cases here : (other, key) = (loader, name)
      · cases here
        rw [cached_put_self] at found
        cases found
      · rwa [cached_put_of_ne here] at found

/-- A class of a loader is not there while its dependencies are loaded. -/
theorem not_cached_of_supplied {depends : List Str} {key : Str}
    (supplied : Supplied env depends state middle) (absent : state.cached loader key = none)
    (unlogged : loader = .boot → key ∉ bootLog middle) (id : ClassId) :
    middle.cached loader key ≠ some (some id) := by
  intro found
  by_cases isBoot : loader = .boot
  · subst isBoot
    exact unlogged rfl (mem_bootLog found)
  · rw [LoaderState.cached, supplied.grows.others isBoot] at found
    rw [LoaderState.cached, found] at absent
    cases absent

/-- The boot loader has made only what was pending. -/
theorem Sound.not_mem_bootLog_of_supplied (sound : Sound state) {depends : List Str} {key : Str}
    (supplied : Supplied env depends state middle) (absent : state.cached .boot key = none)
    (notPending : ¬ Pending env state depends key) : key ∉ bootLog middle := by
  have uncached : ∀ {other}, other ∉ bootLog state → state.cached .boot other = none := by
    intro other unlogged
    cases found : state.cached .boot other with
    | none => rfl
    | some entry =>
        cases entry with
        | none => exact absurd found sound.nonNull
        | some id => exact absurd (mem_bootLog found) unlogged
  intro mem
  rcases supplied.demand.reachable key mem (not_mem_bootLog absent) with
    ⟨first, firstMem, missing, path⟩
  refine notPending ⟨first, firstMem, uncached missing, Relation.ReflTransGen.mono ?_ _ _ path⟩
  rintro other above ⟨depend, unlogged⟩
  exact ⟨depend, uncached unlogged⟩

theorem not_pending_of_present {depends : List Str} {key : Str}
    (present : ∀ depend ∈ depends, state.cached .boot depend ≠ none) :
    ¬ Pending env state depends key := by
  rintro ⟨first, mem, absent, -⟩
  exact present first mem absent

omit [Target] in
/-- A class is made by a loader that has `java/lang/Class.class`, or is it. -/
theorem Sound.enterClass {object : ClassObject} (sound : Sound middle)
    (fresh : ∀ id, middle.cached object.definer object.info.name ≠ some (some id))
    (jlc : object.info.name = kJlcClassString ∨
      middle.cached object.definer kJlcClassString ≠ none) :
    Sound ((assignClass object.definer middle.heap.length (middle.enter object)).record
      object.definer object.info.name middle.heap.length) := by
  have found : (middle.enter object).cached object.definer kJlcClassString ≠ none := by
    by_cases here : object.info.name = kJlcClassString
    · rw [← here, cached_enter_self]
      simp
    · rw [cached_enter_of_name_ne (Ne.symm here)]
      exact jlc.resolve_left here
  have cached : ∀ other key,
      (assignClass object.definer middle.heap.length (middle.enter object)).cached other key =
        (middle.enter object).cached other key := by
    intro other key
    rcases Option.ne_none_iff_exists'.mp found with ⟨entry, present⟩
    rw [LoaderState.cached, caches_assignClass, cached_touch_of_some present]
    rfl
  constructor
  · exact (sound.consistent.enter fresh).assignClass.record ((cached _ _).trans cached_enter_self)
  · intro other
    rw [cached_record, cached]
    exact sound.settled.enter other

/-- `LoadClass` keeps the invariant. -/
theorem Sound.loadClass {result : Option ClassId} (sound : Sound state)
    (orderly : state.cached loader name = none → OrderlyLoad env loader name state)
    (done : loadClass env fuel loader name state = .ok (result, next)) : Sound next := by
  cases fuel with
  | zero => cases done
  | succ fuel =>
      rcases loadClass_eq_ok done with ⟨hit, rfl⟩ | ⟨missed, depends, results, middle, object, made,
        rfl, resolved, rfl, rfl⟩
      · rcases sound.pointer_of_cached hit with ⟨id, rfl⟩
        exact ⟨sound.consistent.record hit, sound.settled⟩
      · rcases orderly missed with ⟨named, others, jlc, bootJlc⟩
        have described := describe_of_madeOf made
        rw [dependsOn_eq described] at others bootJlc
        rw [keyOf_eq described] at named
        have supplied := sound.supplied others (bootJlc.imp_right not_pending_of_present) resolved
        have settled := sound.settled_of_supplied supplied bootJlc resolved
        rw [← named] at missed jlc ⊢
        have fresh : ∀ id, middle.cached object.definer object.info.name ≠ some (some id) := by
          refine not_cached_of_supplied supplied missed ?_
          intro isBoot
          rw [isBoot] at missed described
          rw [named] at missed ⊢
          rw [← dependsOn_eq described] at supplied
          exact supplied.demand.not_mem_of_deps (not_mem_bootLog missed)
        refine Sound.enterClass ⟨supplied.consistent, settled⟩ fresh ?_
        exact jlc.imp_right fun found absent => found (supplied.grows.present absent)

omit [Target] in
theorem setClasses_eq_ok {jlc : Option ClassId} {entries : List (Str × Option ClassId)}
    (done : setClasses jlc entries state = .ok next) :
    next.caches = state.caches ∧ next.origins = state.origins ∧ next.results = state.results := by
  induction entries generalizing state with
  | nil =>
      cases done
      exact ⟨rfl, rfl, rfl⟩
  | cons entry entries ih =>
      rcases entry with ⟨key, pointer⟩
      cases pointer with
      | none => cases done
      | some id =>
          rcases ih done with ⟨caches, origins, results⟩
          exact ⟨caches, origins.trans (origins_modify fun _ => rfl), results⟩

omit [Target] in
/-- `java/lang/Class.class` is entered under its name and as itself, and then no null
pointer remains in the cache of the loader. -/
theorem Sound.of_enterJlc {object : ClassObject} (consistent : Consistent middle)
    (fresh : ∀ id, middle.cached object.definer object.info.name ≠ some (some id))
    (freshJlc : ∀ id, middle.cached object.definer kJlcClassString ≠ some (some id))
    (settled : ∀ other, other ≠ object.definer →
      middle.cached other kJlcClassString ≠ some none) :
    Sound (((assignClass object.definer middle.heap.length (middle.enter object)).put object.definer
      kJlcClassString middle.heap.length).record object.definer kJlcClassString
        middle.heap.length) := by
  have same : ∀ other,
      (assignClass object.definer middle.heap.length (middle.enter object)).cached object.definer
        kJlcClassString = some (some other) → other = middle.heap.length := by
    intro other found
    rw [LoaderState.cached, caches_assignClass] at found
    have before := cached_of_touch found
    by_cases here : object.info.name = kJlcClassString
    · rw [← here, cached_enter_self] at before
      cases before
      rfl
    · rw [cached_enter_of_name_ne (Ne.symm here)] at before
      exact absurd before (freshJlc other)
  refine ⟨((consistent.enter fresh).assignClass.put same).record cached_put_self, ?_⟩
  intro other
  rw [cached_record]
  by_cases here : other = object.definer
  · rw [here, cached_put_self]
    simp
  · have ne : ∀ {key key' : Str}, (other, key) ≠ (object.definer, key') :=
      fun same => here (congrArg Prod.fst same)
    have before : (assignClass object.definer middle.heap.length (middle.enter object)).cached other
        kJlcClassString = middle.cached other kJlcClassString := by
      rw [LoaderState.cached, caches_assignClass]
      exact (cached_touch_of_ne ne).trans (cached_enter_of_ne ne)
    rw [cached_put_of_ne ne, before]
    exact settled other here

theorem OrderlyBasic.jlc_or_not_pending (orderly : OrderlyBasic env loader state) :
    state.cached .boot kJlcClassString ≠ none ∨
      ¬ Pending env state (dependsOn env loader kJlcClassString) kJlcClassString := by
  rcases orderly.bootJlc with found | present | ⟨-, notPending, -⟩
  · exact .inl found
  · exact .inr (not_pending_of_present present)
  · exact .inr notPending

theorem OrderlyBasic.not_pending (orderly : OrderlyBasic env loader state)
    (missed : state.cached loader kJlcClassString = none) (isBoot : loader = .boot) :
    ¬ Pending env state (dependsOn env loader kJlcClassString) kJlcClassString ∧
    ¬ Pending env state (dependsOn env loader kJlcClassString)
      (keyOf env loader kJlcClassString) := by
  rcases orderly.bootJlc with found | present | ⟨-, notPending⟩
  · rw [isBoot] at missed
    exact absurd missed found
  · exact ⟨not_pending_of_present present, not_pending_of_present present⟩
  · exact notPending

theorem OrderlyBasic.jlc_or_present (orderly : OrderlyBasic env loader state)
    (notBoot : loader ≠ .boot) :
    state.cached .boot kJlcClassString ≠ none ∨
      ∀ depend ∈ dependsOn env loader kJlcClassString, state.cached .boot depend ≠ none := by
  rcases orderly.bootJlc with found | present | ⟨isBoot, -⟩
  · exact .inl found
  · exact .inr present
  · exact absurd isBoot notBoot

/-- `LoadBasicClass` keeps the invariant. -/
theorem Sound.loadBasicClass (sound : Sound state)
    (orderly : state.cached loader kJlcClassString = none → OrderlyBasic env loader state)
    (done : loadBasicClass env fuel loader state = .ok next) : Sound next := by
  rcases Exec.bind_eq_ok.mp done with ⟨⟨jlc, after⟩, loaded, set⟩
  rcases setClasses_eq_ok set with ⟨caches, origins, results⟩
  suffices put : Sound (after.put loader kJlcClassString jlc) by
    refine ⟨put.consistent.congr caches origins results, fun other => ?_⟩
    rw [cached_congr caches]
    exact put.settled other
  cases fuel with
  | zero => cases loaded
  | succ fuel =>
      rcases loadClass_eq_ok loaded with ⟨hit, rfl⟩ | ⟨missed, depends, results, middle, object,
        made, rfl, resolved, rfl, rfl⟩
      · rcases sound.pointer_of_cached hit with ⟨id, rfl⟩
        have same : ∀ other, state.cached loader kJlcClassString = some (some other) →
            other = id := by
          intro other found
          rw [hit] at found
          cases found
          rfl
        exact ⟨(sound.consistent.put same).record cached_put_self, sound.settled.put⟩
      · have orderly := orderly missed
        have described := describe_of_madeOf made
        have absent := orderly.absent
        have others := orderly.others
        rw [dependsOn_eq described] at others
        rw [keyOf_eq described] at absent
        have notPending := orderly.jlc_or_not_pending
        rw [dependsOn_eq described] at notPending
        have supplied := sound.supplied others notPending resolved
        have fresh : ∀ key, state.cached object.definer key = none →
            (object.definer = .boot → ¬ Pending env state depends key) →
            ∀ id, middle.cached object.definer key ≠ some (some id) := by
          intro key absent unpending
          refine not_cached_of_supplied supplied absent ?_
          intro isBoot
          rw [isBoot] at absent
          exact sound.not_mem_bootLog_of_supplied supplied absent (unpending isBoot)
        have unpending := orderly.not_pending missed
        rw [dependsOn_eq described, keyOf_eq described] at unpending
        refine Sound.of_enterJlc supplied.consistent
          (fresh _ absent fun isBoot => (unpending isBoot).2)
          (fresh _ missed fun isBoot => (unpending isBoot).1) ?_
        intro other ne
        by_cases isBoot : object.definer = .boot
        · rw [LoaderState.cached, supplied.grows.others (isBoot ▸ ne)]
          exact sound.settled other
        · have bootJlc := orderly.jlc_or_present isBoot
          rw [dependsOn_eq described] at bootJlc
          exact sound.settled_of_supplied supplied bootJlc resolved other

omit [Target] in
theorem Sound.loadPrimitives {types : List (Str × Str)} (sound : Sound state)
    (absent : ∀ type ∈ types, state.cached loader type.1 = none)
    (nodup : (types.map Prod.fst).Nodup) : Sound (loadPrimitives loader types state) := by
  induction types generalizing state with
  | nil => exact sound
  | cons type types ih =>
      rcases type with ⟨key, descriptor⟩
      rcases List.nodup_cons.mp nodup with ⟨fresh, nodup⟩
      let object : ClassObject :=
        { info := { name := key, accessFlags := 0x0001 }, definer := loader
          klass := (state.cached loader kJlcClassString).join }
      have missing : ∀ id, state.cached loader key ≠ some (some id) := by
        simp [absent (key, descriptor) List.mem_cons_self]
      have entered : Sound (state.enter object) :=
        ⟨sound.consistent.enter missing, sound.settled.enter⟩
      refine ih entered ?_ nodup
      intro other mem
      have ne : (loader, other.1) ≠ (object.definer, object.info.name) := by
        intro same
        have keyEq : other.1 = key := congrArg Prod.snd same
        exact fresh (List.mem_map.mpr ⟨other, mem, keyEq⟩)
      exact (cached_enter_of_ne ne).trans (absent other (List.mem_cons_of_mem _ mem))

/-! ## Runs -/

/-- The call does not abort. -/
def LoaderCall.Returns (env : LoaderEnv) (call : LoaderCall) (state next : LoaderState) : Prop :=
  ∃ fuel, call.execute env fuel state = .ok next

/-- The states after any calls. -/
def CacheReachable (env : LoaderEnv) : LoaderState → Prop :=
  Relation.ReflTransGen (fun state next => ∃ call, LoaderCall.Returns env call state next) .initial

/-- The states after calls that all meet the condition. -/
def OrderlyReachable (env : LoaderEnv) : LoaderState → Prop :=
  Relation.ReflTransGen
    (fun state next => ∃ call, Orderly env state call ∧ LoaderCall.Returns env call state next)
    .initial

/-- No entry of a cache is null, no two objects of one name were made by one loader,
and `LoadClass` returns again what it has returned for a name. -/
structure CacheSound (env : LoaderEnv) (state : LoaderState) : Prop where
  nonNull : ∀ loader key, state.cached loader key ≠ some none
  unique : ∀ id other object twin, state.classAt id = some object →
    state.classAt other = some twin → object.definer = twin.definer →
    object.info.name = twin.info.name → id = other
  again : ∀ loader name result, (loader, name, result) ∈ state.results → ∀ fuel,
    loadClass env (fuel + 1) loader name state = .ok (result, state.record loader name result)

/-- One call that meets the condition keeps the invariant. -/
theorem Sound.execute {call : LoaderCall} (sound : Sound state) (orderly : Orderly env state call)
    (returns : call.Returns env state next) : Sound next := by
  rcases returns with ⟨fuel, done⟩
  cases call with
  | loadClass loader name =>
      rcases Exec.bind_eq_ok.mp done with ⟨⟨result, after⟩, loaded, same⟩
      cases same
      exact sound.loadClass orderly loaded
  | loadBasicClass loader => exact sound.loadBasicClass orderly done
  | loadPrimitiveClasses loader =>
      cases done
      exact sound.loadPrimitives orderly (by decide)

theorem OrderlyReachable.cacheReachable (reachable : OrderlyReachable env state) :
    CacheReachable env state := by
  induction reachable with
  | refl => exact .refl
  | tail _ step before =>
      rcases step with ⟨call, -, returns⟩
      exact before.tail ⟨call, returns⟩

theorem Sound.of_orderlyReachable (reachable : OrderlyReachable env state) : Sound state := by
  induction reachable with
  | refl => exact ⟨consistent_initial, fun _ found => by cases found⟩
  | tail _ step sound =>
      rcases step with ⟨call, orderly, returns⟩
      exact sound.execute orderly returns

omit [Target] in
theorem Consistent.made_of_classAt (consistent : Consistent state) {id : ClassId}
    {object : ClassObject} (found : state.classAt id = some object) :
    state.cached object.definer object.info.name = some (some id) := by
  have origin : state.origins[id]? = some object.origin := by
    rw [LoaderState.origins, List.getElem?_map]
    exact congrArg (Option.map ClassObject.origin) found
  exact consistent.made origin

/-- In every state after calls that meet the condition, the caches are as they should
be. -/
theorem cacheSound_of_orderlyReachable (reachable : OrderlyReachable env state) :
    CacheSound env state := by
  have sound := Sound.of_orderlyReachable reachable
  refine ⟨fun loader key => sound.nonNull, ?_, ?_⟩
  · intro id other object twin found twinFound definer named
    have first := sound.consistent.made_of_classAt found
    have second := sound.consistent.made_of_classAt twinFound
    rw [definer, named, second] at first
    cases first
    rfl
  · intro loader name result mem fuel
    rw [loadClass, (sound.consistent.returned mem).2]
    rfl

/-! ## Two first calls -/

/-- A class path with `java/lang/Object` and `java/lang/Class`. -/
def basicEnv : LoaderEnv where
  reader _ name :=
    if name = str "java/lang/Object" then some (bareData objectName ⟨[], nil_short⟩)
    else if name = kJlcClassString then
      some (bareData ⟨str "java/lang/Class", by decide⟩ objectName)
    else none
  newJString := noString

theorem object_loaded : ∃ object, object.origin =
      (.boot, str "java/lang/Object", some (bareData objectName ⟨[], by decide⟩)) ∧
    loadClass basicEnv (fuel + 1) .boot (str "java/lang/Object") .initial = .ok (some 0,
      (assignClass .boot 0 (LoaderState.initial.enter object)).record .boot
        (str "java/lang/Object") (some 0)) := by
  have resolved : resolveInterfaces (loadClass basicEnv fuel .boot)
      (dependencies (str "java/lang/Object") [] []) .initial = .ok ([], .initial) := rfl
  exact loadClass_of_resolved rfl (by decide) rfl
    (classFileFor_bareData noString objectName ⟨[], by decide⟩) resolved

omit [Target] in
/-- The cache after the first class. -/
theorem caches_object {object : ClassObject} (named : object.info.name = str "java/lang/Object")
    (definer : object.definer = .boot) :
    (assignClass .boot 0 (LoaderState.initial.enter object)).caches .boot =
      [(kJlcClassString, none), (str "java/lang/Object", some 0)] := by
  have absent : (LoaderState.initial.enter object).cached .boot kJlcClassString = none := by
    rw [cached_enter_of_name_ne (by rw [named]; decide)]
    rfl
  rw [caches_assignClass, cached_touch_of_none absent, LoaderState.enter, named, definer]
  rfl

theorem object_reaches_null :
    ∃ state, CacheReachable basicEnv state ∧ state.cached .boot kJlcClassString = some none := by
  rcases @object_loaded _ 0 with ⟨object, origin, loaded⟩
  have executed :
      (LoaderCall.loadClass .boot (str "java/lang/Object")).execute basicEnv 1 .initial =
        .ok ((assignClass .boot 0 (LoaderState.initial.enter object)).record .boot
        (str "java/lang/Object") (some 0)) := by
    rw [LoaderCall.execute, loaded]
    rfl
  refine ⟨_, .single ⟨_, 1, executed⟩, ?_⟩
  rw [cached_record, LoaderState.cached,
    caches_object (congrArg (·.2.1) origin) (congrArg (·.1) origin)]
  rfl

omit [Target] in
/-- The first class of a loader leaves a null pointer in its cache. -/
theorem object_leaves_null : ∃ state, @CacheReachable maskedShift basicEnv state ∧
    state.cached .boot kJlcClassString = some none ∧ ¬ @CacheSound maskedShift basicEnv state := by
  rcases @object_reaches_null maskedShift with ⟨state, reachable, null⟩
  refine ⟨state, reachable, null, fun sound => ?_⟩
  exact @CacheSound.nonNull maskedShift _ _ sound .boot kJlcClassString null

theorem describe_of_classFileFor {data : ClassData} {key : Str} {depends : List Str}
    {newJString : Str → Exec DWord} (notArray : firstByte name ≠ chr '[')
    (read : env.reader loader name = some data)
    (described : ClassFileFor newJString data key depends) :
    describe env loader name = .ok (key, depends) := by
  rcases described.content with ⟨file, cursor, superName, interfaceNames, parsed, named, superNamed,
    interfacesNamed, -, rfl, -⟩
  exact describe_of_describes notArray read ⟨file, cursor, superName, interfaceNames, parsed, named,
    superNamed, interfacesNamed, rfl⟩

/-- The boot loader finds these two classes. -/
structure ReadsBasic (env : LoaderEnv) : Prop where
  object : env.reader .boot (str "java/lang/Object") = some (bareData objectName ⟨[], nil_short⟩)
  jlc : env.reader .boot kJlcClassString =
    some (bareData ⟨str "java/lang/Class", by decide⟩ objectName)

omit [Target] in
theorem readsBasic_basicEnv : ReadsBasic basicEnv := ⟨rfl, rfl⟩

theorem ReadsBasic.describe_object (basic : ReadsBasic env) :
    describe env .boot (str "java/lang/Object") = .ok (str "java/lang/Object", []) :=
  describe_of_classFileFor (by decide) basic.object
    (classFileFor_bareData noString objectName ⟨[], by decide⟩)

theorem ReadsBasic.describe_jlc (basic : ReadsBasic env) : describe env .boot kJlcClassString =
    .ok (str "java/lang/Class", [str "java/lang/Object"]) :=
  describe_of_classFileFor (by decide) basic.jlc
    (classFileFor_bareData noString ⟨str "java/lang/Class", by decide⟩ objectName)

theorem ReadsBasic.orderly_loadBasicClass (basic : ReadsBasic env) :
    Orderly env .initial (.loadBasicClass .boot) := by
  intro _
  have pending : ∀ {other}, Pending env .initial (dependsOn env .boot kJlcClassString) other →
      other = str "java/lang/Object" := by
    rintro other ⟨first, mem, -, path⟩
    rw [dependsOn_eq basic.describe_jlc, List.mem_singleton] at mem
    subst mem
    rcases Relation.ReflTransGen.cases_tail path with same | ⟨below, -, needs⟩
    · exact same.symm
    · have mem := needs.1
      rw [dependsOn_eq basic.describe_object] at mem
      exact absurd mem List.not_mem_nil
  refine ⟨rfl, ?_, .inr (.inr ⟨rfl, ?_, ?_⟩)⟩
  · intro other isPending
    obtain rfl := pending isPending
    exact keyOf_eq basic.describe_object
  · intro isPending
    exact absurd (pending isPending) (by decide)
  · rw [keyOf_eq basic.describe_jlc]
    intro isPending
    exact absurd (pending isPending) (by decide)

omit [Target] in
/-- The cache when `java/lang/Class` has been entered twice. -/
theorem caches_jlc {jlc : ClassObject} (named : jlc.info.name = str "java/lang/Class")
    (definer : jlc.definer = .boot) {id : ClassId}
    (before : state.caches .boot = [(kJlcClassString, none), (str "java/lang/Object", some 0)]) :
    ((assignClass .boot id (state.enter jlc)).put .boot kJlcClassString id).caches .boot =
      [(kJlcClassString, some id), (str "java/lang/Class", some state.heap.length),
        (str "java/lang/Object", some 0)] := by
  have entered : (state.enter jlc).caches .boot =
      [(str "java/lang/Class", some state.heap.length), (kJlcClassString, none),
        (str "java/lang/Object", some 0)] := by
    rw [LoaderState.enter, named, definer, LoaderState.put]
    dsimp only [LoaderState.allocate]
    rw [before]
    rfl
  have present : (state.enter jlc).cached .boot kJlcClassString = some none := by
    rw [LoaderState.cached, entered]
    rfl
  rw [LoaderState.put]
  dsimp only
  rw [caches_assignClass, cached_touch_of_some present, entered]
  rfl

theorem basicClass_loaded : ∃ state id,
    LoaderCall.Returns basicEnv (.loadBasicClass .boot) .initial state ∧
    state.caches .boot = [(kJlcClassString, some id), (str "java/lang/Class", some id),
      (str "java/lang/Object", some 0)] := by
  rcases @object_loaded _ 0 with ⟨object, origin, loaded⟩
  let first := (assignClass .boot 0 (LoaderState.initial.enter object)).record .boot
    (str "java/lang/Object") (some 0)
  have firstCaches : first.caches .boot =
      [(kJlcClassString, none), (str "java/lang/Object", some 0)] :=
    caches_object (congrArg (·.2.1) origin) (congrArg (·.1) origin)
  have resolved : resolveInterfaces (loadClass basicEnv 1 .boot)
      (dependencies (str "java/lang/Class") (str "java/lang/Object") []) .initial =
        .ok ([some 0], first) := by
    have one : dependencies (str "java/lang/Class") (str "java/lang/Object") [] =
      [str "java/lang/Object"] := rfl
    rw [one, resolveInterfaces, loaded]
    rfl
  have described := classFileFor_bareData noString ⟨str "java/lang/Class", by decide⟩ objectName
  obtain ⟨jlc, jlcOrigin, jlcLoaded⟩ : ∃ jlc, _ ∧ _ :=
    @loadClass_of_resolved _ basicEnv .boot kJlcClassString .initial first 1 _ _ _ _ rfl (by decide)
      rfl described resolved
  let second := ((assignClass .boot first.heap.length (first.enter jlc)).record .boot
    kJlcClassString first.heap.length).put .boot kJlcClassString first.heap.length
  have secondCaches : second.caches .boot = [(kJlcClassString, some first.heap.length),
      (str "java/lang/Class", some first.heap.length), (str "java/lang/Object", some 0)] :=
    caches_jlc (congrArg (·.2.1) jlcOrigin) (congrArg (·.1) jlcOrigin) firstCaches
  obtain ⟨state, set⟩ : ∃ state,
      setClasses (some first.heap.length) (second.caches .boot) second = .ok state := by
    rw [secondCaches]
    exact ⟨_, rfl⟩
  refine ⟨state, first.heap.length, ⟨2, ?_⟩, ?_⟩
  · rw [LoaderCall.execute, loadBasicClass, jlcLoaded]
    exact set
  · rw [(setClasses_eq_ok set).1, secondCaches]

omit [Target] in
/-- `LoadBasicClass` and then `LoadPrimitiveClasses`, as when the machine starts. -/
theorem cacheSound_basicEnv : ∃ state id,
    state.cached .boot (str "java/lang/Class") = some (some id) ∧
    state.cached .boot kJlcClassString = some (some id) ∧
    @CacheSound maskedShift basicEnv state ∧
    @CacheSound maskedShift basicEnv (loadPrimitiveClasses .boot state) := by
  rcases @basicClass_loaded maskedShift with ⟨state, id, returns, caches⟩
  have reachable : @OrderlyReachable maskedShift basicEnv state :=
    .single ⟨_, @ReadsBasic.orderly_loadBasicClass maskedShift _ readsBasic_basicEnv, returns⟩
  have absent : @Orderly maskedShift basicEnv state (.loadPrimitiveClasses .boot) := by
    intro type mem
    have keys : ∀ type ∈ ClassTable.primitiveTypes,
        type.1 ∉ [kJlcClassString, str "java/lang/Class", str "java/lang/Object"] := by decide
    rw [LoaderState.cached, caches, List.lookup_eq_none_iff]
    simpa using keys type mem
  refine ⟨state, id, ?_, ?_, ?_, ?_⟩
  · rw [LoaderState.cached, caches]
    rfl
  · rw [LoaderState.cached, caches]
    rfl
  · exact @cacheSound_of_orderlyReachable maskedShift _ _ reachable
  · exact @cacheSound_of_orderlyReachable maskedShift _ _ (.tail reachable ⟨_, absent, 0, rfl⟩)

end JvmDemo.Runtime
