import Mathlib.Logic.Function.Basic

/-!
# Memoised computations

Two fallible computations with states of their own, of which the second keeps the
results of parts of it in a cache.  The second follows the first when, from related
states, it has the same result and leaves related states, or fails in the same way.
What is known of the states is a precondition and a postcondition, as the state of
the first may change, too, while the cache is in use.

The triples are closed under sequencing and under the lookup of a kept result, so
that a client may let later requests depend on earlier answers.
-/

namespace JvmDemo.Lib

universe u v

variable {σ τ ε α β : Type u}

/-- From states that are related by `pre`, `cached` has the results of `plain`, and
leaves states that are related by `post`, or it fails as `plain` does. -/
structure Mirrors (pre : σ → τ → Prop) (plain : StateT σ (Except ε) α)
    (cached : StateT τ (Except ε) α) (post : α → σ → τ → Prop) : Prop where
  ok : ∀ {state kept value next}, pre state kept → plain.run state = .ok (value, next) →
    ∃ after, cached.run kept = .ok (value, after) ∧ post value next after
  error : ∀ {state kept failure}, pre state kept → plain.run state = .error failure →
    cached.run kept = .error failure

/-- Look for a kept result, and keep the computed one if there is none. -/
def memo (get : τ → Option α) (put : α → τ → τ) (compute : StateT τ (Except ε) α) :
    StateT τ (Except ε) α := fun kept =>
  match get kept with
  | some value => pure (value, kept)
  | none => do
      let (value, after) ← compute.run kept
      pure (value, put value after)

variable {pre : σ → τ → Prop} {plain : StateT σ (Except ε) α} {cached : StateT τ (Except ε) α}
  {post : α → σ → τ → Prop}

theorem mirrors_pure (value : α) :
    Mirrors pre (pure value) (pure value : StateT τ (Except ε) α)
      (fun result state kept => result = value ∧ pre state kept) where
  ok := by
    rintro state kept _ _ related ⟨⟩
    exact ⟨kept, rfl, rfl, related⟩
  error := by
    rintro state kept failure related ⟨⟩

/-- A failure that uses no state. -/
theorem mirrors_throw (failure : ε) :
    Mirrors pre (liftM (.error failure : Except ε α) : StateT σ (Except ε) α)
      (liftM (.error failure : Except ε α)) post where
  ok := by
    rintro state kept value next related ⟨⟩
  error := by
    rintro state kept _ related ⟨⟩
    rfl

theorem Mirrors.weaken {stronger : σ → τ → Prop} {weaker : α → σ → τ → Prop}
    (mirrors : Mirrors pre plain cached post)
    (before : ∀ {state kept}, stronger state kept → pre state kept)
    (after : ∀ {value state kept}, post value state kept → weaker value state kept) :
    Mirrors stronger plain cached weaker where
  ok := by
    intro state kept value next related done
    rcases mirrors.ok (before related) done with ⟨last, computed, relatedAfter⟩
    exact ⟨last, computed, after relatedAfter⟩
  error related failed := mirrors.error (before related) failed

theorem Mirrors.bind {plainNext : α → StateT σ (Except ε) β}
    {cachedNext : α → StateT τ (Except ε) β} {last : β → σ → τ → Prop}
    (first : Mirrors pre plain cached post)
    (second : ∀ value, Mirrors (post value) (plainNext value) (cachedNext value) last) :
    Mirrors pre (plain >>= plainNext) (cached >>= cachedNext) last where
  ok := by
    intro state kept value next related done
    rw [StateT.run_bind] at done
    cases firstEq : plain.run state with
    | error failure =>
        rw [firstEq] at done
        cases done
    | ok middle =>
        rcases middle with ⟨result, middle⟩
        rw [firstEq] at done
        rcases first.ok related firstEq with ⟨keptMiddle, computed, relatedMiddle⟩
        rcases (second result).ok relatedMiddle done with ⟨after, rest, relatedAfter⟩
        refine ⟨after, ?_, relatedAfter⟩
        rw [StateT.run_bind, computed]
        exact rest
  error := by
    intro state kept failure related failed
    rw [StateT.run_bind] at failed
    rw [StateT.run_bind]
    cases firstEq : plain.run state with
    | error other =>
        rw [firstEq] at failed
        cases failed
        rw [first.error related firstEq]
        rfl
    | ok middle =>
        rcases middle with ⟨result, middle⟩
        rw [firstEq] at failed
        rcases first.ok related firstEq with ⟨keptMiddle, computed, relatedMiddle⟩
        rw [computed]
        exact (second result).error relatedMiddle failed

theorem Mirrors.map {last : β → σ → τ → Prop} (mirrors : Mirrors pre plain cached post)
    (change : α → β)
    (after : ∀ {value state kept}, post value state kept → last (change value) state kept) :
    Mirrors pre (change <$> plain) (change <$> cached) last := by
  rw [← bind_pure_comp, ← bind_pure_comp]
  apply mirrors.bind
  intro value
  refine (mirrors_pure (change value)).weaken (fun related => related) ?_
  rintro _ state kept ⟨rfl, related⟩
  exact after related

/-- A kept result is what would be computed now, without a change of the state, and a
result may be kept when it has been computed. -/
theorem Mirrors.memo {get : τ → Option α} {put : α → τ → τ} {compute : StateT τ (Except ε) α}
    {middle : α → σ → τ → Prop} (computes : Mirrors pre plain compute middle)
    (hit : ∀ {state kept value}, pre state kept → get kept = some value →
      plain.run state = .ok (value, state) ∧ post value state kept)
    (keeps : ∀ {value state kept}, middle value state kept → post value state (put value kept)) :
    Mirrors pre plain (Lib.memo get put compute) post where
  ok := by
    intro state kept value next related done
    rw [StateT.run, Lib.memo]
    cases found : get kept with
    | some old =>
        rcases hit related found with ⟨recomputed, relatedAfter⟩
        cases recomputed.symm.trans done
        exact ⟨kept, rfl, relatedAfter⟩
    | none =>
        rcases computes.ok related done with ⟨after, computed, relatedAfter⟩
        refine ⟨put value after, ?_, keeps relatedAfter⟩
        rw [computed]
        rfl
  error := by
    intro state kept failure related failed
    rw [StateT.run, Lib.memo]
    cases found : get kept with
    | some old => cases (hit related found).1.symm.trans failed
    | none =>
        dsimp only
        rw [computes.error related failed]
        rfl

/-- A client that issues `count` requests; each one may depend on the answers so
far, newest first. -/
def ask {m : Type u → Type v} [Monad m] {Request : Type u} {Answer : Type u}
    (answer : Request → m Answer) (strategy : List Answer → Request) :
    Nat → List Answer → m (List Answer)
  | 0, answers => pure answers
  | count + 1, answers => do
      let next ← answer (strategy answers)
      ask answer strategy count (next :: answers)

/-- If every request is answered as without the cache, so is every client. -/
theorem Mirrors.ask {Request Answer : Type u} {plain : Request → StateT σ (Except ε) Answer}
    {cached : Request → StateT τ (Except ε) Answer}
    (requests : ∀ request, Mirrors pre (plain request) (cached request) fun _ => pre)
    (strategy : List Answer → Request) (count : Nat) (answers : List Answer) :
    Mirrors pre (Lib.ask plain strategy count answers) (Lib.ask cached strategy count answers)
      fun _ => pre := by
  induction count generalizing answers with
  | zero => exact (mirrors_pure answers).weaken (fun related => related) And.right
  | succ count ih =>
      exact (requests (strategy answers)).bind fun next => ih (next :: answers)

/-- The results and the states that the relation determines. -/
theorem Mirrors.run_eq {state : σ} {kept : τ} {view : τ → σ}
    (mirrors : Mirrors pre plain cached post) (related : pre state kept)
    (same : ∀ {value next after}, post value next after → view after = next) :
    (fun result : α × τ => (result.1, view result.2)) <$> cached.run kept = plain.run state := by
  cases plainEq : plain.run state with
  | ok result =>
      rcases result with ⟨value, next⟩
      rcases mirrors.ok related plainEq with ⟨after, computed, relatedAfter⟩
      rw [computed]
      exact congrArg (fun next => Except.ok (value, next)) (same relatedAfter)
  | error failure =>
      rw [mirrors.error related plainEq]
      rfl

end JvmDemo.Lib
