import JvmDemo.Lib.Descent
import JvmDemo.Runtime.BrokenFiles
import JvmDemo.Runtime.LoaderCache
import Mathlib.Data.Finite.Prod
import Mathlib.Data.Set.Finite.Powerset

/-!
# When loading a class ends

`LoadClass` records a class only when its superclass and its interfaces have been
loaded.  A class that is asked for while it is being loaded is loaded again; unless
something else has been recorded in the meantime, this never ends.

A request is a loader, a name, and the names that are recorded in the caches when it is
made.  The relations on requests below follow the files of the class path; they do not
run the loaders.
-/

namespace JvmDemo.Runtime

open JvmDemo.Lib
open JvmDemo.Classfile

/-! ## Requests -/

/-- The names in the cache of each loader. -/
abbrev Recorded := LoaderName → Set Str

/-- A class is entered under a name.  `LoadClass` also reads the entry of
`java/lang/Class.class`, and thereby makes one. -/
def Recorded.add (recorded : Recorded) (loader : LoaderName) (key : Str) : Recorded :=
  fun other =>
    if other = loader then insert kJlcClassString (insert key (recorded other))
    else recorded other

structure Request where
  loader : LoaderName
  name : Str
  recorded : Recorded

/-- The class has to be loaded. -/
def Request.Missing (request : Request) : Prop := request.name ∉ request.recorded request.loader

section Walks

variable [Target] (env : LoaderEnv)

/-- The boot loader can load the names in this order, and this is recorded then. -/
inductive Walks : List Str → Recorded → Recorded → Prop where
  | nil (recorded : Recorded) : Walks [] recorded recorded
  | hit {name : Str} {names : List Str} {recorded next : Recorded} :
      name ∈ recorded .boot → Walks names recorded next → Walks (name :: names) recorded next
  | load {name key : Str} {names : List Str} {recorded middle next : Recorded} :
      name ∉ recorded .boot → (loadPlan env .boot name).2 = .ok key →
        Walks (loadPlan env .boot name).1 recorded middle →
        Walks names (middle.add .boot key) next → Walks (name :: names) recorded next

/-- While the class of the first request is loaded, the second request is made. -/
structure Asks (request other : Request) : Prop where
  missing : request.Missing
  boot : other.loader = .boot
  asked : ∃ before after,
    (loadPlan env request.loader request.name).1 = before ++ other.name :: after ∧
      Walks env before request.recorded other.recorded

/-- The classes that the file needs can be loaded, but the class itself is bad. -/
structure Faulty (request : Request) : Prop where
  missing : request.Missing
  supplied : ∃ next, Walks env (loadPlan env request.loader request.name).1 request.recorded next
  wrong : ClassWrong env request.loader request.name

end Walks

/-! ## Recorded names -/

section Recorded

variable {state next : LoaderState} {loader : LoaderName} {name : Str}

def LoaderState.recorded (state : LoaderState) : Recorded :=
  fun loader => {name | state.cached loader name ≠ none}

theorem mem_recorded : name ∈ state.recorded loader ↔ state.cached loader name ≠ none := Iff.rfl

theorem recorded_congr (same : next.caches = state.caches) : next.recorded = state.recorded := by
  funext loader
  ext name
  rw [mem_recorded, mem_recorded, cached_congr same]

theorem recorded_put {entry : Option ClassId} :
    (state.put loader name entry).recorded = fun other =>
      if other = loader then insert name (state.recorded other) else state.recorded other := by
  funext other
  ext key
  rw [mem_recorded]
  by_cases same : (other, key) = (loader, name)
  · cases same
    rw [cached_put_self, if_pos rfl]
    simp
  · rw [cached_put_of_ne same]
    split
    · next sameLoader =>
        subst sameLoader
        have keyNe : key ≠ name := fun keyEq => same (by rw [keyEq])
        rw [Set.mem_insert_iff, mem_recorded]
        simp [keyNe]
    · rfl

theorem recorded_touch :
    (state.touch loader name).recorded = fun other =>
      if other = loader then insert name (state.recorded other) else state.recorded other := by
  unfold LoaderState.touch
  split
  · next entry present =>
      funext other
      split
      · next same =>
          subst same
          have mem : name ∈ state.recorded other := by
            rw [mem_recorded, present]
            simp
          exact (Set.insert_eq_of_mem mem).symm
      · rfl
  · exact recorded_put

/-- What is recorded when a class has been loaded. -/
theorem recorded_loaded {object : ClassObject} {id : ClassId} {result : Option ClassId}
    (definer : object.definer = loader) :
    ((assignClass loader id (state.enter object)).record loader name result).recorded =
      state.recorded.add loader object.info.name := by
  have touched : ((assignClass loader id (state.enter object)).record loader name result).recorded =
      ((state.enter object).touch loader kJlcClassString).recorded :=
    recorded_congr (caches_assignClass id)
  have entered : (state.enter object).recorded = fun other =>
      if other = loader then insert object.info.name (state.recorded other)
      else state.recorded other := by
    rw [LoaderState.enter, recorded_put, definer]
    rfl
  rw [touched, recorded_touch, entered]
  funext other
  by_cases same : other = loader
  · simp only [Recorded.add, same, if_true]
  · simp only [Recorded.add, same, if_false]

end Recorded

/-! ## Loads and requests -/

section Simulation

variable [Target] {env : LoaderEnv} {state next : LoaderState} {loader : LoaderName}
  {name : Str} {names : List Str} {fuel : Nat}

theorem loadClass_of_recorded (present : name ∈ state.recorded loader) :
    ∃ entry, state.cached loader name = some entry ∧
      loadClass env (fuel + 1) loader name state = .ok (entry, state.record loader name entry) := by
  rcases Option.ne_none_iff_exists'.mp present with ⟨entry, found⟩
  refine ⟨entry, found, ?_⟩
  rw [loadClass, found]
  rfl

/-- How a load goes on when the classes it asks for have been answered, with what is
recorded at its end. -/
inductive Ends (env : LoaderEnv) (loader : LoaderName) (name : Str) :
    Exec (List (Option ClassId) × LoaderState) → Exec (Option ClassId × LoaderState) → Prop where
  | refused {fault : Fault} : Ends env loader name (.error fault) (.error fault)
  | fails {fault : Fault} {results : List (Option ClassId)} {middle : LoaderState} :
      (loadPlan env loader name).2 = .error fault →
        Ends env loader name (.ok (results, middle)) (.error fault)
  | loads {key : Str} {results : List (Option ClassId)} {middle next : LoaderState} {id : ClassId} :
      (loadPlan env loader name).2 = .ok key → next.recorded = middle.recorded.add loader key →
        Ends env loader name (.ok (results, middle)) (.ok (some id, next))

theorem ends_loadClass (missing : name ∉ state.recorded loader) :
    Ends env loader name
      (resolveInterfaces (loadClass env fuel .boot) (loadPlan env loader name).1 state)
      (loadClass env (fuel + 1) loader name state) := by
  have uncached : state.cached loader name = none := by
    simpa [mem_recorded] using missing
  have followed := @follows_loadUncached (loadClass env fuel .boot) loader state _ env name
  rw [loadClass, uncached]
  dsimp only
  generalize resolveInterfaces (loadClass env fuel .boot) (loadPlan env loader name).1 state =
    resolved at followed ⊢
  generalize loadUncached env (loadClass env fuel .boot) loader name state = result at followed ⊢
  cases followed with
  | refused => exact .refused
  | fails outcome => exact .fails outcome
  | enters outcome definer => exact .loads outcome (recorded_loaded definer)

/-- Loads that return can be followed in the files. -/
theorem walks_of_resolveInterfaces {results : List (Option ClassId)}
    (done : resolveInterfaces (loadClass env fuel .boot) names state = .ok (results, next)) :
    Walks env names state.recorded next.recorded := by
  induction fuel generalizing names state results next with
  | zero =>
      cases names with
      | nil =>
          cases done
          exact .nil _
      | cons name names => cases done
  | succ fuel ih =>
      induction names generalizing state results with
      | nil =>
          cases done
          exact .nil _
      | cons name names others =>
          rcases Exec.bind_eq_ok.mp done with ⟨⟨result, middle⟩, loaded, rest⟩
          rcases Exec.bind_eq_ok.mp rest with ⟨⟨more, last⟩, restLoaded, same⟩
          cases same
          have after := others restLoaded
          by_cases present : name ∈ state.recorded .boot
          · rcases @loadClass_of_recorded _ env state .boot name fuel present with ⟨entry, -, hit⟩
            rw [loaded] at hit
            cases hit
            exact .hit present after
          · have ends := @ends_loadClass _ env state .boot name fuel present
            rw [loaded] at ends
            cases resolved : resolveInterfaces (loadClass env fuel .boot)
                (loadPlan env .boot name).1 state with
            | error fault =>
                rw [resolved] at ends
                cases ends
            | ok answer =>
                rw [resolved] at ends
                cases ends with
                | loads outcome recorded =>
                    rw [recorded] at after
                    exact .load present outcome (ih resolved) after

/-- What can be followed in the files is loaded, unless the fuel is used up. -/
theorem resolveInterfaces_of_walks {recorded later : Recorded}
    (walks : Walks env names recorded later) (start : state.recorded = recorded) (fuel : Nat) :
    resolveInterfaces (loadClass env fuel .boot) names state = .error .diverges ∨
      ∃ results next, resolveInterfaces (loadClass env fuel .boot) names state =
        .ok (results, next) ∧ next.recorded = later := by
  induction walks generalizing state fuel with
  | nil recorded => exact .inr ⟨[], state, rfl, start⟩
  | @hit name names recorded later present _ others =>
      rcases fuel with - | fuel
      · exact .inl rfl
      rw [← start] at present
      rcases @loadClass_of_recorded _ env state .boot name fuel present with ⟨entry, -, hit⟩
      rw [resolveInterfaces, hit, Exec.bind_ok]
      dsimp only
      rcases @others (state.record .boot name entry) start (fuel + 1) with
        diverges | ⟨results, next, resolved, recorded⟩
      · exact .inl (by rw [diverges]; rfl)
      · exact .inr ⟨entry :: results, next, by rw [resolved]; rfl, recorded⟩
  | @load name key names recorded middle later missing outcome _ _ inner others =>
      rcases fuel with - | fuel
      · exact .inl rfl
      rw [← start] at missing
      have ends := @ends_loadClass _ env state .boot name fuel missing
      rw [resolveInterfaces]
      rcases inner start fuel with diverges | ⟨results, after, resolved, recorded⟩
      · rw [diverges] at ends
        generalize loadClass env (fuel + 1) .boot name state = loaded at ends ⊢
        cases ends
        exact .inl rfl
      · rw [resolved] at ends
        generalize loadClass env (fuel + 1) .boot name state = loaded at ends ⊢
        cases ends with
        | fails failed =>
            rw [outcome] at failed
            cases failed
        | @loads otherKey _ _ next id otherOutcome recordedNext =>
            obtain rfl : otherKey = key := by
              rw [outcome] at otherOutcome
              exact (Except.ok.inj otherOutcome).symm
            rw [recorded] at recordedNext
            rw [Exec.bind_ok]
            dsimp only
            rcases @others next recordedNext (fuel + 1) with
              diverges | ⟨more, last, restResolved, recordedLast⟩
            · exact .inl (by rw [diverges]; rfl)
            · exact .inr ⟨some id :: more, last, by rw [restResolved]; rfl, recordedLast⟩

end Simulation

/-! ## Loads that do not end -/

section Endless

variable [Target] {env : LoaderEnv} {request other : Request}

/-- With any fuel the load ends in undefined behaviour or uses the fuel up. -/
def NeverEnds (env : LoaderEnv) (fuel : Nat) (request : Request) : Prop :=
  ∀ state : LoaderState, state.recorded = request.recorded → ∃ fault,
    loadClass env fuel request.loader request.name state = .error fault ∧ ¬ fault.Stops

theorem neverEnds_zero : NeverEnds env 0 request := fun _ _ => ⟨.diverges, rfl, id⟩

theorem Faulty.neverEnds (faulty : Faulty env request) (fuel : Nat) :
    NeverEnds env fuel request := by
  cases fuel with
  | zero => exact neverEnds_zero
  | succ fuel =>
      intro state start
      rcases faulty.supplied with ⟨later, walks⟩
      rcases goesWrong_loadPlan.mpr faulty.wrong with ⟨fault, outcome, bad⟩
      have missing : request.name ∉ state.recorded request.loader := by
        rw [start]
        exact faulty.missing
      have ends := @ends_loadClass _ env state request.loader request.name fuel missing
      rcases resolveInterfaces_of_walks walks start fuel with
        diverges | ⟨results, next, resolved, -⟩
      · rw [diverges] at ends
        generalize loadClass env (fuel + 1) request.loader request.name state = loaded at ends ⊢
        cases ends
        exact ⟨.diverges, rfl, id⟩
      · rw [resolved] at ends
        generalize loadClass env (fuel + 1) request.loader request.name state = loaded at ends ⊢
        cases ends with
        | fails otherOutcome =>
            rw [outcome] at otherOutcome
            cases otherOutcome
            exact ⟨fault, rfl, bad⟩
        | loads otherOutcome =>
            rw [outcome] at otherOutcome
            cases otherOutcome

/-- A load does not end if one that it asks for does not. -/
theorem Asks.neverEnds (asks : Asks env request other) {fuel : Nat}
    (inner : NeverEnds env fuel other) : NeverEnds env (fuel + 1) request := by
  intro state start
  rcases asks.asked with ⟨before, after, plan, walks⟩
  have missing : request.name ∉ state.recorded request.loader := by
    rw [start]
    exact asks.missing
  have stuck : ∃ fault, resolveInterfaces (loadClass env fuel .boot)
      (loadPlan env request.loader request.name).1 state = .error fault ∧ ¬ fault.Stops := by
    rw [plan, resolveInterfaces_append_eq]
    rcases resolveInterfaces_of_walks walks start fuel with
      diverges | ⟨results, middle, resolved, recorded⟩
    · rw [diverges]
      exact ⟨.diverges, rfl, id⟩
    · rcases inner middle recorded with ⟨fault, failed, bad⟩
      rw [asks.boot] at failed
      rw [resolved, Exec.bind_ok]
      dsimp only
      rw [resolveInterfaces, failed]
      exact ⟨fault, rfl, bad⟩
  rcases stuck with ⟨fault, resolved, bad⟩
  have ends := @ends_loadClass _ env state request.loader request.name fuel missing
  rw [resolved] at ends
  generalize loadClass env (fuel + 1) request.loader request.name state = loaded at ends ⊢
  cases ends
  exact ⟨fault, rfl, bad⟩

/-- A request that leads to itself. -/
theorem neverEnds_of_circle (circle : Relation.TransGen (Asks env) request request) (fuel : Nat) :
    NeverEnds env fuel request := by
  induction fuel generalizing request with
  | zero => exact neverEnds_zero
  | succ fuel ih =>
      -- the request after it leads to itself as well
      rcases Relation.TransGen.head'_iff.mp circle with ⟨next, asks, path⟩
      exact asks.neverEnds (ih (Relation.TransGen.tail' path asks))

theorem neverEnds_of_reached (reached : Relation.ReflTransGen (Asks env) request other)
    (stuck : ∀ fuel, NeverEnds env fuel other) (fuel : Nat) : NeverEnds env fuel request := by
  induction reached using Relation.ReflTransGen.head_induction_on generalizing fuel with
  | refl => exact stuck fuel
  | head asks _ ih =>
      cases fuel with
      | zero => exact neverEnds_zero
      | succ fuel => exact asks.neverEnds (ih fuel)

end Endless

/-! ## Loads that end -/

section Ending

variable [Target] {env : LoaderEnv} {request other : Request}

/-- The load returns, or the process stops. -/
def Finishes {α : Type} (result : Exec α) : Prop :=
  (∃ value, result = .ok value) ∨ ∃ fault, result = .error fault ∧ fault.Stops

/-- With enough fuel the load finishes. -/
def AlwaysEnds (env : LoaderEnv) (request : Request) : Prop :=
  ∃ bound, ∀ fuel, bound ≤ fuel → ∀ state : LoaderState, state.recorded = request.recorded →
    Finishes (loadClass env fuel request.loader request.name state)

omit [Target] in
theorem Finishes.bind {α β : Type} {first : Exec α} {next : α → Exec β} (finishes : Finishes first)
    (rest : ∀ value, first = .ok value → Finishes (next value)) : Finishes (first >>= next) := by
  rcases finishes with ⟨value, rfl⟩ | ⟨fault, rfl, stops⟩
  · exact rest value rfl
  · exact .inr ⟨fault, rfl, stops⟩

theorem Walks.append {names more : List Str} {recorded middle later : Recorded}
    (first : Walks env names recorded middle) (second : Walks env more middle later) :
    Walks env (names ++ more) recorded later := by
  induction first with
  | nil => exact second
  | hit present _ ih => exact .hit present (ih second)
  | load missing outcome inner _ _ ih => exact .load missing outcome inner (ih second)

/-- The files determine what is recorded. -/
theorem Walks.unique {names : List Str} {recorded first second : Recorded}
    (left : Walks env names recorded first) (right : Walks env names recorded second) :
    first = second := by
  induction left generalizing second with
  | nil =>
      cases right
      rfl
  | hit present _ ih =>
      cases right with
      | hit _ rest => exact ih rest
      | load missing => exact absurd present missing
  | load missing outcome _ _ innerUnique ih =>
      cases right with
      | hit present => exact absurd present missing
      | load _ otherOutcome inner rest =>
          rw [outcome] at otherOutcome
          cases otherOutcome
          rw [← innerUnique inner] at rest
          exact ih rest

/-- If the loads end that a load asks for, it gets its answers. -/
theorem finishes_resolveInterfaces (missing : request.Missing)
    (asked : ∀ other, Asks env request other → AlwaysEnds env other) {before after : List Str}
    (plan : (loadPlan env request.loader request.name).1 = before ++ after) {recorded : Recorded}
    (walks : Walks env before request.recorded recorded) :
    ∃ bound, ∀ fuel, bound ≤ fuel → ∀ state : LoaderState, state.recorded = recorded →
      Finishes (resolveInterfaces (loadClass env fuel .boot) after state) := by
  induction after generalizing before recorded with
  | nil => exact ⟨0, fun _ _ state _ => .inl ⟨([], state), rfl⟩⟩
  | cons name after ih =>
      have walked {fuel : Nat} {state : LoaderState} {answer : Option ClassId × LoaderState}
          (loaded : loadClass env fuel .boot name state = .ok answer) :
          Walks env [name] state.recorded answer.2.recorded := by
        have resolved : resolveInterfaces (loadClass env fuel .boot) [name] state =
            .ok ([answer.1], answer.2) := by
          rw [resolveInterfaces, loaded]
          rfl
        exact walks_of_resolveInterfaces resolved
      have asks : Asks env request ⟨.boot, name, recorded⟩ :=
        ⟨missing, rfl, before, after, plan, walks⟩
      rcases asked _ asks with ⟨bound, ends⟩
      -- what is recorded behind the first name does not depend on the fuel
      by_cases reachable : ∃ later, Walks env [name] recorded later
      · rcases reachable with ⟨later, step⟩
        have plan' : (loadPlan env request.loader request.name).1 =
            (before ++ [name]) ++ after := by
          rw [plan, List.append_assoc]
          rfl
        rcases ih plan' (walks.append step) with ⟨boundRest, endsRest⟩
        refine ⟨max bound boundRest, fun fuel enough state start => ?_⟩
        apply (ends fuel (Nat.le_trans (Nat.le_max_left _ _) enough) state start).bind
        intro answer loaded
        have same : answer.2.recorded = later := by
          have here := walked loaded
          rw [start] at here
          exact here.unique step
        apply (endsRest fuel (Nat.le_trans (Nat.le_max_right _ _) enough) answer.2 same).bind
        intro rest _
        exact .inl ⟨_, rfl⟩
      · refine ⟨bound, fun fuel enough state start => ?_⟩
        apply (ends fuel enough state start).bind
        intro answer loaded
        have here := walked loaded
        rw [start] at here
        exact absurd ⟨_, here⟩ reachable

/-- The load of a class ends if those end that it asks for, unless it is faulty
itself.  A class that was missing is there then. -/
theorem finishes_of_asked (missing : request.Missing) (notFaulty : ¬ Faulty env request)
    (asked : ∀ other, Asks env request other → AlwaysEnds env other) :
    ∃ bound, ∀ fuel, bound ≤ fuel → ∀ state : LoaderState, state.recorded = request.recorded →
      (∃ id next, loadClass env fuel request.loader request.name state = .ok (some id, next)) ∨
      ∃ fault, loadClass env fuel request.loader request.name state = .error fault ∧
        fault.Stops := by
  rcases finishes_resolveInterfaces missing asked (List.nil_append _).symm (.nil _) with
    ⟨bound, finishes⟩
  refine ⟨bound + 1, fun fuel enough state start => ?_⟩
  rcases fuel with - | fuel
  · exact absurd enough (Nat.not_succ_le_zero bound)
  have missing' : request.name ∉ state.recorded request.loader := by
    rw [start]
    exact missing
  have ends := @ends_loadClass _ env state request.loader request.name fuel missing'
  rcases finishes fuel (Nat.le_of_succ_le_succ enough) state start with
    ⟨⟨results, middle⟩, resolved⟩ | ⟨fault, resolved, stops⟩
  · rw [resolved] at ends
    generalize loadClass env (fuel + 1) request.loader request.name state = loaded at ends ⊢
    cases ends with
    | @fails fault _ _ outcome =>
        have supplied := walks_of_resolveInterfaces resolved
        rw [start] at supplied
        refine .inr ⟨fault, rfl, ?_⟩
        by_contra bad
        exact notFaulty ⟨missing, ⟨_, supplied⟩, goesWrong_loadPlan.mp ⟨fault, outcome, bad⟩⟩
    | loads => exact .inl ⟨_, _, rfl⟩
  · rw [resolved] at ends
    generalize loadClass env (fuel + 1) request.loader request.name state = loaded at ends ⊢
    cases ends
    exact .inr ⟨fault, rfl, stops⟩

/-- From a request no endless sequence of requests starts, and none of those it leads to
is faulty. -/
theorem alwaysEnds_of_acc {start : Request}
    (acc : Acc (fun other request => Relation.ReflTransGen (Asks env) start request ∧
      Asks env request other) request)
    (reached : Relation.ReflTransGen (Asks env) start request)
    (sound : ∀ other, Relation.ReflTransGen (Asks env) start other → ¬ Faulty env other) :
    AlwaysEnds env request := by
  induction acc with
  | intro request _ ih =>
      by_cases missing : request.Missing
      · have asked : ∀ other, Asks env request other → AlwaysEnds env other :=
          fun other asks => ih other ⟨reached, asks⟩ (reached.tail asks)
        rcases finishes_of_asked missing (sound request reached) asked with ⟨bound, ends⟩
        refine ⟨bound, fun fuel enough state start => ?_⟩
        rcases ends fuel enough state start with ⟨id, next, loaded⟩ | stopped
        · exact .inl ⟨_, loaded⟩
        · exact .inr stopped
      · refine ⟨1, fun fuel enough state start => ?_⟩
        rcases fuel with - | fuel
        · exact absurd enough (Nat.not_succ_le_zero 0)
        have present : request.name ∈ state.recorded request.loader := by
          rw [start]
          exact not_not.mp missing
        rcases @loadClass_of_recorded _ env state _ _ fuel present with ⟨entry, -, hit⟩
        exact .inl ⟨_, hit⟩

end Ending

/-! ## Finite class paths -/

section FiniteClassPath

variable [Target] {env : LoaderEnv} {start request : Request} {names : List Str}
  {requested : List Str} {keys : Set Str}

def FiniteClassPath (env : LoaderEnv) : Prop :=
  ∀ loader, {name | env.reader loader name ≠ none}.Finite

/-- The boot loader has recorded more names. -/
def Recorded.grown (recorded : Recorded) (more : Set Str) : Recorded :=
  fun other => if other = .boot then recorded other ∪ more else recorded other

omit [Target] in
theorem Recorded.grown_empty (recorded : Recorded) : recorded.grown ∅ = recorded := by
  funext other
  simp [Recorded.grown]

omit [Target] in
theorem Recorded.add_grown (recorded : Recorded) (more : Set Str) (key : Str) :
    (recorded.grown more).add .boot key =
      recorded.grown (insert kJlcClassString (insert key more)) := by
  funext other
  by_cases boot : other = .boot
  · simp [Recorded.add, Recorded.grown, boot, Set.union_insert]
  · simp [Recorded.add, Recorded.grown, boot]

/-- A walk through names of a list records the keys of such names. -/
theorem Walks.exists_grown {recorded later : Recorded} (walks : Walks env names recorded later)
    (closed : ∀ name, ∀ needed ∈ (loadPlan env .boot name).1, needed ∈ requested)
    (keyed : ∀ name ∈ requested, ∀ key, (loadPlan env .boot name).2 = .ok key → key ∈ keys)
    (jlc : kJlcClassString ∈ keys) (inside : ∀ name ∈ names, name ∈ requested) {base : Recorded}
    (before : ∃ more ⊆ keys, recorded = base.grown more) :
    ∃ more ⊆ keys, later = base.grown more := by
  induction walks with
  | nil => exact before
  | hit _ _ ih => exact ih (fun name mem => inside name (List.mem_cons_of_mem _ mem)) before
  | @load name key _ _ _ _ _ outcome _ _ inner ih =>
      rcases inner (closed name) before with ⟨more, subset, rfl⟩
      apply ih fun name mem => inside name (List.mem_cons_of_mem _ mem)
      refine ⟨_, ?_, base.add_grown more key⟩
      have keyMem := keyed name (inside name List.mem_cons_self) key outcome
      exact Set.insert_subset jlc (Set.insert_subset keyMem subset)

/-- The names that loads can ask for. -/
def requestedNames (env : LoaderEnv) (start : Request) (names : List Str) : List Str :=
  arrayDependencies ++ (loadPlan env start.loader start.name).1 ++
    names.flatMap fun name => (loadPlan env .boot name).1

theorem mem_requestedNames (complete : ∀ name, env.reader .boot name ≠ none → name ∈ names)
    (name : Str) :
    ∀ needed ∈ (loadPlan env .boot name).1, needed ∈ requestedNames env start names := by
  intro needed mem
  simp only [requestedNames, List.mem_append, List.mem_flatMap]
  by_cases isArray : (firstByte name == chr '[') = true
  · rw [loadPlan, if_pos isArray] at mem
    exact .inl (.inl mem)
  · by_cases read : env.reader .boot name = none
    · rw [loadPlan, if_neg isArray, read] at mem
      cases mem
    · exact .inr ⟨name, complete name read, mem⟩

/-- On a finite class path a request leads to finitely many others. -/
theorem finite_reached (finite : FiniteClassPath env) (start : Request) :
    {request | Relation.ReflTransGen (Asks env) start request}.Finite := by
  let names := (finite .boot).toFinset.toList
  have complete : ∀ name, env.reader .boot name ≠ none → name ∈ names := by
    intro name read
    simpa [names] using read
  let requested := requestedNames env start names
  let keyOf (name : Str) : Str := match (loadPlan env .boot name).2 with
    | .ok key => key
    | .error _ => kJlcClassString
  let keys : Set Str := insert kJlcClassString {key | key ∈ requested.map keyOf}
  have finiteKeys : keys.Finite := (List.finite_toSet _).insert _
  have keyed : ∀ name ∈ requested, ∀ key, (loadPlan env .boot name).2 = .ok key → key ∈ keys := by
    intro name mem key outcome
    have keyEq : keyOf name = key := by
      simp only [keyOf, outcome]
    exact .inr (List.mem_map.mpr ⟨name, mem, keyEq⟩)
  let place (point : Str × Set Str) : Request :=
    ⟨.boot, point.1, start.recorded.grown point.2⟩
  have places :
      (insert start (place '' ({name | name ∈ requested} ×ˢ {more | more ⊆ keys}))).Finite :=
    (((List.finite_toSet _).prod finiteKeys.finite_subsets).image place).insert start
  refine places.subset fun request reached => ?_
  induction reached with
  | refl => exact .inl rfl
  | @tail middle next _ asks ih =>
      rcases asks.asked with ⟨before, after, plan, walks⟩
      have shape : (∃ more ⊆ keys, middle.recorded = start.recorded.grown more) ∧
          ∀ needed ∈ (loadPlan env middle.loader middle.name).1, needed ∈ requested := by
        rcases ih with rfl | ⟨⟨name, more⟩, ⟨-, subset⟩, rfl⟩
        · refine ⟨⟨∅, Set.empty_subset _, (Recorded.grown_empty _).symm⟩, fun needed mem => ?_⟩
          exact List.mem_append_left _ (List.mem_append_right _ mem)
        · exact ⟨⟨more, subset, rfl⟩, mem_requestedNames complete name⟩
      rw [plan] at shape
      rcases walks.exists_grown (mem_requestedNames complete) keyed (.inl rfl)
          (fun name mem => shape.2 name (List.mem_append_left _ mem)) shape.1 with
        ⟨more, subset, recorded⟩
      refine .inr ⟨(next.name, more), ⟨?_, subset⟩, ?_⟩
      · exact shape.2 next.name (List.mem_append_right _ List.mem_cons_self)
      · rcases next with ⟨loader, name, recordedNext⟩
        have boot : loader = .boot := asks.boot
        dsimp only at recorded
        rw [boot, recorded]

end FiniteClassPath

/-! ## Termination -/

section Termination

variable [Target]

/-- `LoadClass` ends with a class, or the process stops. -/
def Terminates (env : LoaderEnv) (loader : LoaderName) (name : Str) (state : LoaderState) : Prop :=
  ∃ bound, ∀ fuel, bound ≤ fuel →
    (∃ id next, loadClass env fuel loader name state = .ok (some id, next)) ∨
    ∃ fault, loadClass env fuel loader name state = .error fault ∧ fault.Stops

/-- The first request of a call. -/
def LoaderState.request (state : LoaderState) (loader : LoaderName) (name : Str) : Request :=
  ⟨loader, name, state.recorded⟩

structure LoadsSafely (env : LoaderEnv) (loader : LoaderName) (name : Str) (state : LoaderState) :
    Prop where
  /-- The class is not recorded as a null pointer. -/
  not_null : state.cached loader name ≠ some none
  /-- No class is asked for while it is being loaded, with nothing recorded in between. -/
  no_circle : ∀ request, Relation.ReflTransGen (Asks env) (state.request loader name) request →
    ¬ Relation.TransGen (Asks env) request request
  /-- No class that is asked for is bad although those that it needs can be loaded. -/
  not_faulty : ∀ request, Relation.ReflTransGen (Asks env) (state.request loader name) request →
    ¬ Faulty env request

/-- For every finite class path, every state of the caches and every name: `LoadClass` ends
exactly when the files say so. -/
theorem terminates_iff {env : LoaderEnv} (finite : FiniteClassPath env) (loader : LoaderName)
    (name : Str) (state : LoaderState) :
    Terminates env loader name state ↔ LoadsSafely env loader name state := by
  constructor
  · rintro ⟨bound, ends⟩
    have stuck : ¬ NeverEnds env bound (state.request loader name) := by
      intro never
      rcases never state rfl with ⟨fault, failed, bad⟩
      rcases ends bound (Nat.le_refl bound) with ⟨id, next, loaded⟩ | ⟨other, stopped, stops⟩
      · cases failed.symm.trans loaded
      · cases failed.symm.trans stopped
        exact bad stops
    constructor
    · intro null
      have loaded : loadClass env (bound + 1) loader name state =
          .ok (none, state.record loader name none) := by
        rw [loadClass, null]
        rfl
      rcases ends (bound + 1) (Nat.le_succ bound) with ⟨id, next, other⟩ | ⟨fault, other, -⟩
      · cases loaded.symm.trans other
      · cases loaded.symm.trans other
    · intro request reached circle
      exact stuck (neverEnds_of_reached reached (neverEnds_of_circle circle) bound)
    · intro request reached faulty
      exact stuck (neverEnds_of_reached reached faulty.neverEnds bound)
  · intro safe
    let edge (request other : Request) : Prop :=
      Relation.ReflTransGen (Asks env) (state.request loader name) request ∧ Asks env request other
    have acyclic : Acyclic edge := by
      intro request circle
      rcases Relation.TransGen.head'_iff.mp circle with ⟨_, first, -⟩
      exact safe.no_circle request first.1
        (Relation.TransGen.mono (fun _ _ => And.right) _ _ circle)
    have acc (request : Request) : Acc (fun other request => edge request other) request :=
      acyclic.acc (finite_reached finite (state.request loader name)) And.left request
    by_cases missing : (state.request loader name).Missing
    · have asked : ∀ other, Asks env (state.request loader name) other → AlwaysEnds env other :=
        fun other asks => alwaysEnds_of_acc (acc other) (.single asks) safe.not_faulty
      rcases finishes_of_asked missing (safe.not_faulty _ .refl) asked with ⟨bound, ends⟩
      exact ⟨bound, fun fuel enough => ends fuel enough state rfl⟩
    · refine ⟨1, fun fuel enough => ?_⟩
      rcases fuel with - | fuel
      · exact absurd enough (Nat.not_succ_le_zero 0)
      have present : name ∈ state.recorded loader := not_not.mp missing
      rcases @loadClass_of_recorded _ env state _ _ fuel present with ⟨entry, found, hit⟩
      cases entry with
      | none => exact absurd found safe.not_null
      | some id => exact .inl ⟨id, _, hit⟩

theorem loadPlan_of_classFileFor {env : LoaderEnv} {loader : LoaderName} {name key : Str}
    {data : ClassData} {depends : List Str} (notArray : firstByte name ≠ chr '[')
    (read : env.reader loader name = some data)
    (described : ClassFileFor env.newJString data key depends) :
    loadPlan env loader name = (depends, .ok key) := by
  rcases described.content with ⟨file, cursor, superClassName, interfaceNames, parsed, named,
    superNamed, interfacesNamed, ⟨sourceFile, sourced⟩, rfl, members⟩
  rcases members 0 with ⟨fields, constantPool, methods, fieldsEq, poolEq, methodsEq, links⟩
  rcases links { fields, constantPool } 0 rfl rfl with ⟨vars, linked⟩
  rw [allocAndInitStaticVars_congr 0 rfl rfl] at linked
  have made : makeMembers env.newJString file = .ok () := by
    rw [makeMembers, fieldsEq, Exec.bind_ok, poolEq, Exec.bind_ok, methodsEq, Exec.bind_ok, linked]
    rfl
  rw [loadPlan, if_neg (by simpa using notArray), read]
  simp only [parsed, filePlan, named, superNamed, sourced, interfacesNamed, made]
  rfl

/-- Names whose files can be made into classes, and ask for such names of a lower rank. -/
theorem LoadsSafely.of_rank {env : LoaderEnv} {names : List Str} (rank : Str → Nat)
    (plans : ∀ name ∈ names, (∃ key, (loadPlan env .boot name).2 = .ok key) ∧
      ∀ needed ∈ (loadPlan env .boot name).1, needed ∈ names ∧ rank needed < rank name)
    {name : Str} {state : LoaderState} (mem : name ∈ names)
    (not_null : state.cached .boot name ≠ some none) : LoadsSafely env .boot name state := by
  have descends {request other : Request} (boot : request.loader = .boot)
      (mem : request.name ∈ names) (asks : Asks env request other) :
      other.name ∈ names ∧ rank other.name < rank request.name := by
    rcases asks.asked with ⟨before, after, plan, -⟩
    rw [boot] at plan
    apply (plans request.name mem).2
    rw [plan]
    exact List.mem_append_right _ List.mem_cons_self
  have inside {request : Request}
      (reached : Relation.ReflTransGen (Asks env) (state.request .boot name) request) :
      request.loader = .boot ∧ request.name ∈ names := by
    induction reached with
    | refl => exact ⟨rfl, mem⟩
    | tail _ asks ih => exact ⟨asks.boot, (descends ih.1 ih.2 asks).1⟩
  have lower {request other : Request} (boot : request.loader = .boot)
      (mem : request.name ∈ names) (path : Relation.TransGen (Asks env) request other) :
      other.loader = .boot ∧ other.name ∈ names ∧ rank other.name < rank request.name := by
    induction path with
    | single asks => exact ⟨asks.boot, descends boot mem asks⟩
    | tail _ asks ih =>
        have last := descends ih.1 ih.2.1 asks
        exact ⟨asks.boot, last.1, last.2.trans ih.2.2⟩
  refine ⟨not_null, ?_, ?_⟩
  · intro request reached circle
    exact Nat.lt_irrefl _ (lower (inside reached).1 (inside reached).2 circle).2.2
  · intro request reached faulty
    rcases goesWrong_loadPlan.mpr faulty.wrong with ⟨fault, failed, -⟩
    rcases plans request.name (inside reached).2 with ⟨⟨key, made⟩, -⟩
    rw [(inside reached).1, made] at failed
    cases failed

/-- `class A extends java/lang/Object implements I`. -/
def implementingData : ClassData where
  bytes := be32 0xCAFEBABE ++ be16 0 ++ be16 52 ++ Format.encodePool
      [.utf8 (str "A"), .classInfo 1, .utf8 (str "java/lang/Object"), .classInfo 3,
        .utf8 (str "I"), .classInfo 5] ++
    be16 0x21 ++ be16 2 ++ be16 4 ++ be16 1 ++ be16 6 ++ be16 0 ++ be16 0 ++ be16 0
  size_lt := by decide +kernel

def interfaceName : ShortName := ⟨str "I", by decide⟩

def implementingEnv : LoaderEnv where
  reader _ name :=
    if name = str "A" then some implementingData
    else if name = str "I" then some (bareData interfaceName objectName)
    else if name = str "java/lang/Object" then some (bareData objectName ⟨[], nil_short⟩)
    else none
  newJString := noString

/-- The classes that are asked for before this one. -/
def implementingRank (name : Str) : Nat :=
  if name = str "A" then 2 else if name = str "I" then 1 else 0

omit [Target] in
theorem finiteClassPath_implementingEnv : FiniteClassPath implementingEnv := by
  intro loader
  apply (Set.toFinite {str "A", str "I", str "java/lang/Object"}).subset
  intro name read
  simp only [implementingEnv, Set.mem_ofPred_eq] at read
  by_contra other
  simp only [Set.mem_insert_iff, Set.mem_singleton_iff, not_or] at other
  rw [if_neg other.1, if_neg other.2.1, if_neg other.2.2] at read
  exact read rfl

omit [Target] in
theorem plans_implementingEnv : ∀ name ∈ [str "A", str "I", str "java/lang/Object"],
    ((@loadPlan maskedShift implementingEnv .boot name).2.toOption.isSome = true) ∧
      ∀ needed ∈ (@loadPlan maskedShift implementingEnv .boot name).1,
        needed ∈ [str "A", str "I", str "java/lang/Object"] ∧
          implementingRank needed < implementingRank name := by
  decide +kernel

omit [Target] in
/-- A class is loaded with its superclass and its interface. -/
theorem terminates_implementing :
    @Terminates maskedShift implementingEnv .boot (str "A") .initial := by
  apply (@terminates_iff maskedShift _ finiteClassPath_implementingEnv _ _ _).mpr
  apply @LoadsSafely.of_rank maskedShift _ [str "A", str "I", str "java/lang/Object"]
    implementingRank
  · intro name mem
    rcases plans_implementingEnv name mem with ⟨made, needs⟩
    refine ⟨?_, needs⟩
    cases outcome : (@loadPlan maskedShift implementingEnv .boot name).2 with
    | error fault =>
        rw [outcome] at made
        cases made
    | ok key => exact ⟨key, rfl⟩
  · exact List.mem_cons_self
  · intro null
    cases null

/-! ## Loads whose classes are there -/

/-- What a load does that gets the classes it asks for: it goes wrong exactly if its own
class is bad.  Otherwise it returns a class, or the process stops. -/
theorem goesWrong_loadClass_iff {env : LoaderEnv} {loader : LoaderName} {name : Str} {fuel : Nat}
    {state middle : LoaderState} {results : List (Option ClassId)}
    (missing : name ∉ state.recorded loader)
    (answered : resolveInterfaces (loadClass env fuel .boot) (loadPlan env loader name).1 state =
      .ok (results, middle)) :
    (GoesWrong (loadClass env (fuel + 1) loader name state) ↔ ClassWrong env loader name) ∧
    (¬ ClassWrong env loader name →
      (∃ id next, loadClass env (fuel + 1) loader name state = .ok (some id, next)) ∨
      ∃ fault, loadClass env (fuel + 1) loader name state = .error fault ∧ fault.Stops) := by
  have ends := @ends_loadClass _ env state loader name fuel missing
  rw [answered] at ends
  rw [← goesWrong_loadPlan]
  generalize loadClass env (fuel + 1) loader name state = loaded at ends ⊢
  cases ends with
  | @fails fault _ _ outcome =>
      rw [outcome]
      refine ⟨goesWrong_error_iff.trans goesWrong_error_iff.symm, fun sound => ?_⟩
      refine .inr ⟨fault, rfl, ?_⟩
      exact not_not.mp fun bad => sound (goesWrong_error_iff.mpr bad)
  | @loads key _ _ next id outcome =>
      rw [outcome]
      have never := iff_of_false (not_goesWrong_ok (some id, next)) (not_goesWrong_ok key)
      exact ⟨never, fun _ => .inl ⟨id, next, rfl⟩⟩

/-- `class A extends java/lang/Object implements I`, with a method whose descriptor lacks a
semicolon. -/
def unfinishedData : ClassData where
  bytes := be32 0xCAFEBABE ++ be16 0 ++ be16 52 ++ Format.encodePool
      [.utf8 (str "A"), .classInfo 1, .utf8 (str "java/lang/Object"), .classInfo 3,
        .utf8 (str "I"), .classInfo 5, .utf8 (str "m"), .utf8 (str "(Ljava/lang/Object)V")] ++
    be16 0x421 ++ be16 2 ++ be16 4 ++ be16 1 ++ be16 6 ++ be16 0 ++
    (be16 1 ++ be16 0x401 ++ be16 7 ++ be16 8 ++ be16 0) ++ be16 0
  size_lt := by decide +kernel

def unfinishedEnv : LoaderEnv where
  reader loader name :=
    if name = str "A" then some unfinishedData else implementingEnv.reader loader name
  newJString := noString

omit [Target] in
/-- The superclass and the interface are loaded, and then the loop over the descriptor does
not end. -/
theorem goesWrong_loadClass_unfinished :
    @GoesWrong _ (@loadClass maskedShift unfinishedEnv 3 .boot (str "A") .initial) ∧
      @ClassWrong maskedShift unfinishedEnv .boot (str "A") := by
  have evaluated : (@resolveInterfaces (@loadClass maskedShift unfinishedEnv 2 .boot)
        (@loadPlan maskedShift unfinishedEnv .boot (str "A")).1 .initial).toOption.isSome = true ∧
      @GoesWrong _ (@loadClass maskedShift unfinishedEnv 3 .boot (str "A") .initial) := by
    decide +kernel
  have missing : str "A" ∉ LoaderState.initial.recorded .boot := by
    rw [mem_recorded]
    simp [LoaderState.cached, LoaderState.initial]
  cases answered : @resolveInterfaces (@loadClass maskedShift unfinishedEnv 2 .boot)
      (@loadPlan maskedShift unfinishedEnv .boot (str "A")).1 .initial with
  | error fault =>
      rw [answered] at evaluated
      cases evaluated.1
  | ok answer =>
      have exact := (@goesWrong_loadClass_iff maskedShift _ _ _ _ _ _ _ missing answered).1
      exact ⟨evaluated.2, exact.mp evaluated.2⟩

def circularName : ShortName := ⟨str "A", by decide⟩

/-- A class path with `class A extends A`. -/
def circularEnv : LoaderEnv where
  reader _ name := if name = str "A" then some (bareData circularName circularName) else none
  newJString := noString

/-- The load of `A` never ends. -/
theorem circular_diverges (fuel : Nat) :
    loadClass circularEnv fuel .boot (str "A") .initial = .error .diverges := by
  induction fuel with
  | zero => rfl
  | succ fuel ih =>
      have plan : loadPlan circularEnv .boot (str "A") = ([str "A"], .ok (str "A")) :=
        loadPlan_of_classFileFor (by decide) rfl
          (classFileFor_bareData noString circularName circularName)
      have missing : str "A" ∉ LoaderState.initial.recorded .boot := by
        rw [mem_recorded]
        simp [LoaderState.cached, LoaderState.initial]
      have ends := @ends_loadClass _ circularEnv .initial .boot (str "A") fuel missing
      have resolved : resolveInterfaces (loadClass circularEnv fuel .boot)
          (loadPlan circularEnv .boot (str "A")).1 .initial = .error .diverges := by
        rw [plan, resolveInterfaces, ih]
        rfl
      rw [resolved] at ends
      generalize loadClass circularEnv (fuel + 1) .boot (str "A") .initial = loaded at ends ⊢
      cases ends
      rfl

omit [Target] in
theorem circular_not_terminates : FiniteClassPath circularEnv ∧
    ¬ @Terminates maskedShift circularEnv .boot (str "A") .initial := by
  constructor
  · intro loader
    apply (Set.finite_singleton (str "A")).subset
    intro name read
    by_contra other
    exact read (if_neg other)
  · rintro ⟨bound, ends⟩
    have never := @circular_diverges maskedShift bound
    rcases ends bound (Nat.le_refl bound) with ⟨id, next, loaded⟩ | ⟨fault, stopped, stops⟩
    · cases never.symm.trans loaded
    · cases never.symm.trans stopped
      exact stops

end Termination

end JvmDemo.Runtime
