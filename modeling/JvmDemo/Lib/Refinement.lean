import Mathlib.Algebra.Order.Ring.Nat
import Mathlib.Logic.Relation

/-!
# Refinement of an abstract component by a fallible implementation

An abstract component either refuses an operation or returns an output and a
new state.  An implementation either fails or returns.  `Refines` asks for
agreement operation by operation on related states, for the operations that a
client may legally issue; `Refines.run` lifts it to sequences of operations,
with the outputs and the point of the first refusal.

The second part is about transition systems without inputs: a simulation between
a relation on abstract states and a fallible step function, lifted to a loop
that repeats the step until a test on the state says that it is done.
-/

namespace JvmDemo.Lib.Refinement

universe u v w x y

section Operations

variable {σ : Type u} {τ : Type v} {Op : Type w} {Out : Type x} {ε : Type y}

/-- The outputs up to the first refused operation, and the final state when
none was refused. -/
def specRun (step : Op → σ → Option (Out × σ)) : List Op → σ → List Out × Option σ
  | [], state => ([], some state)
  | op :: ops, state =>
      match step op state with
      | none => ([], none)
      | some (out, next) =>
          (out :: (specRun step ops next).1, (specRun step ops next).2)

/-- The outputs up to the first failure, and the final state or the failure. -/
def implRun (step : Op → τ → Except ε (Out × τ)) : List Op → τ → List Out × Except ε τ
  | [], state => ([], .ok state)
  | op :: ops, state =>
      match step op state with
      | .error failure => ([], .error failure)
      | .ok (out, next) =>
          (out :: (implRun step ops next).1, (implRun step ops next).2)

/-- Every operation is legal in the abstract state in which it is issued. -/
def Legal (step : Op → σ → Option (Out × σ)) (legal : Op → σ → Prop) : List Op → σ → Prop
  | [], _ => True
  | op :: ops, state =>
      legal op state ∧ ∀ out next, step op state = some (out, next) → Legal step legal ops next

/-- Agreement on every legal operation in related states. -/
structure Refines (related : σ → τ → Prop) (refusal : ε → Prop) (legal : Op → σ → Prop)
    (spec : Op → σ → Option (Out × σ)) (impl : Op → τ → Except ε (Out × τ)) : Prop where
  refuse : ∀ {op state concrete}, related state concrete → legal op state →
    spec op state = none → ∃ failure, impl op concrete = .error failure ∧ refusal failure
  accept : ∀ {op state concrete out next}, related state concrete → legal op state →
    spec op state = some (out, next) →
      ∃ concreteNext, impl op concrete = .ok (out, concreteNext) ∧ related next concreteNext

/-- How the end of an implementation run agrees with the end of the abstract
one. -/
def Agrees (related : σ → τ → Prop) (refusal : ε → Prop) : Option σ → Except ε τ → Prop
  | none, result => ∃ failure, result = .error failure ∧ refusal failure
  | some state, result => ∃ concrete, result = .ok concrete ∧ related state concrete

/-- Refinement of single operations is refinement of sequences. -/
theorem Refines.run {related : σ → τ → Prop} {refusal : ε → Prop} {legal : Op → σ → Prop}
    {spec : Op → σ → Option (Out × σ)} {impl : Op → τ → Except ε (Out × τ)}
    (refines : Refines related refusal legal spec impl) (ops : List Op) {state : σ} {concrete : τ}
    (start : related state concrete) (allowed : Legal spec legal ops state) :
    (implRun impl ops concrete).1 = (specRun spec ops state).1 ∧
      Agrees related refusal (specRun spec ops state).2 (implRun impl ops concrete).2 := by
  induction ops generalizing state concrete with
  | nil => exact ⟨rfl, concrete, rfl, start⟩
  | cons op ops ih =>
      obtain ⟨legalOp, legalRest⟩ := allowed
      cases stepEq : spec op state with
      | none =>
          obtain ⟨failure, implEq, refused⟩ := refines.refuse start legalOp stepEq
          simp only [implRun, specRun, stepEq, implEq, true_and]
          exact ⟨failure, rfl, refused⟩
      | some result =>
          obtain ⟨out, next⟩ := result
          obtain ⟨concreteNext, implEq, relatedNext⟩ := refines.accept start legalOp stepEq
          obtain ⟨outputs, final⟩ := ih relatedNext (legalRest out next stepEq)
          simp only [implRun, specRun, stepEq, implEq, outputs, true_and]
          exact final

/-- A sequence runs up to a point, and goes on from the state there. -/
theorem implRun_append (step : Op → τ → Except ε (Out × τ)) (first second : List Op) (state : τ) :
    (implRun step (first ++ second) state).2 =
      (implRun step first state).2 >>= fun middle => (implRun step second middle).2 := by
  induction first generalizing state with
  | nil => rfl
  | cons op ops ih =>
      rw [List.cons_append, implRun, implRun]
      cases step op state with
      | error failure => rfl
      | ok result => exact ih result.2

/-- Running one operation is a step. -/
theorem implRun_singleton {step : Op → τ → Except ε (Out × τ)} {op : Op} {state next : τ} :
    (implRun step [op] state).2 = .ok next ↔ ∃ out, step op state = .ok (out, next) := by
  rw [implRun]
  cases step op state with
  | error failure => simp
  | ok result =>
      rcases result with ⟨out, after⟩
      simp [implRun]

/-- What every operation preserves, a sequence preserves. -/
theorem implRun_invariant {step : Op → τ → Except ε (Out × τ)} {invariant : τ → Prop}
    (preserved : ∀ {op state out next}, invariant state → step op state = .ok (out, next) →
      invariant next)
    {ops : List Op} {state last : τ} (start : invariant state)
    (run : (implRun step ops state).2 = .ok last) : invariant last := by
  induction ops generalizing state with
  | nil =>
      cases run
      exact start
  | cons op ops ih =>
      rw [implRun] at run
      cases stepEq : step op state with
      | error failure =>
          rw [stepEq] at run
          cases run
      | ok result =>
          rw [stepEq] at run
          exact ih (preserved start stepEq) run

end Operations

section Transitions

variable {σ : Type u} {τ : Type v} {ε : Type w}

/-- Exactly `count` steps of a relation. -/
inductive RunsIn (step : σ → σ → Prop) : Nat → σ → σ → Prop where
  | zero (state : σ) : RunsIn step 0 state state
  | succ {count : Nat} {first second last : σ} :
      step first second → RunsIn step count second last → RunsIn step (count + 1) first last

/-- One run after another. -/
theorem RunsIn.trans {step : σ → σ → Prop} {first second : Nat} {state middle last : σ}
    (before : RunsIn step first state middle) (after : RunsIn step second middle last) :
    RunsIn step (second + first) state last := by
  induction before with
  | zero state => exact after
  | succ stepped rest ih => exact .succ stepped (ih after)

/-- A loop that tests after each step whether it is done, cut off after `count`
steps. -/
def loop (step : τ → Except ε τ) (done : τ → Bool) : Nat → τ → Except ε τ
  | 0, state => .ok state
  | count + 1, state => do
      let next ← step state
      if done next then .ok next else loop step done count next

/-- What every step preserves, the loop preserves. -/
theorem loop_invariant {step : τ → Except ε τ} {done : τ → Bool} {invariant : τ → Prop}
    (preserved : ∀ {state next}, invariant state → step state = .ok next → invariant next)
    {count : Nat} {state last : τ} (start : invariant state)
    (run : loop step done count state = .ok last) : invariant last := by
  induction count generalizing state with
  | zero =>
      cases run
      exact start
  | succ count ih =>
      cases stepEq : step state with
      | error failure => simp [loop, stepEq, bind, Except.bind] at run
      | ok next =>
          have after := preserved start stepEq
          by_cases finished : done next
          · have stopped : (.ok next : Except ε τ) = .ok last := by
              simpa [loop, stepEq, finished, bind, Except.bind] using run
            cases stopped
            exact after
          · exact ih after (by simpa [loop, stepEq, finished, bind, Except.bind] using run)

/-- If every step from a good state that is not done leads to a good state or fails in
an allowed way, so does the loop. -/
theorem loop_progress {step : τ → Except ε τ} {done : τ → Bool} {good : τ → Prop}
    {allowed : ε → Prop}
    (progress : ∀ {state}, good state → done state = false →
      (∃ next, step state = .ok next ∧ good next) ∨
        ∃ failure, step state = .error failure ∧ allowed failure)
    {state : τ} (start : good state) (running : done state = false) (count : Nat) :
    (∃ last, loop step done count state = .ok last ∧ good last) ∨
      ∃ failure, loop step done count state = .error failure ∧ allowed failure := by
  induction count generalizing state with
  | zero => exact .inl ⟨state, rfl, start⟩
  | succ count ih =>
      rcases progress start running with ⟨next, stepEq, after⟩ | ⟨failure, stepEq, fine⟩
      · by_cases finished : done next = true
        · left
          refine ⟨next, ?_, after⟩
          simp [loop, stepEq, finished, bind, Except.bind]
        · have unfinished : done next = false := by simpa using finished
          simpa [loop, stepEq, unfinished, bind, Except.bind] using ih after unfinished
      · right
        refine ⟨failure, ?_, fine⟩
        simp [loop, stepEq, bind, Except.bind]

/-- A loop stays inside, or there is a first turn that leads outside. -/
theorem loop_until {step : τ → Except ε τ} {done : τ → Bool} {inside : τ → Prop}
    {leaves : τ → τ → Prop}
    (turn : ∀ {state next}, inside state → step state = .ok next →
      inside next ∨ leaves state next)
    (running : ∀ {state}, inside state → done state = false) {count : Nat} {state last : τ}
    (start : inside state) (run : loop step done count state = .ok last) :
    inside last ∨ ∃ turns < count, ∃ before after, loop step done turns state = .ok before ∧
      loop step done (turns + 1) state = .ok after ∧ leaves before after ∧
      ∀ fewer ≤ turns, ∃ middle, loop step done fewer state = .ok middle ∧ inside middle := by
  induction count generalizing state with
  | zero =>
      cases run
      exact .inl start
  | succ count ih =>
      cases stepEq : step state with
      | error failure => simp [loop, stepEq, bind, Except.bind] at run
      | ok next =>
          rcases turn start stepEq with stays | leaves
          · have unfold_succ : ∀ more, loop step done (more + 1) state =
                loop step done more next := by
              intro more
              simp [loop, stepEq, running stays, bind, Except.bind]
            rw [unfold_succ] at run
            rcases ih stays run with
              whole | ⟨turns, short, before, after, beforeEq, afterEq, leaves, stayed⟩
            · exact .inl whole
            · right
              refine ⟨turns + 1, Nat.succ_lt_succ short, before, after, ?_, ?_, leaves, ?_⟩
              · rw [unfold_succ]
                exact beforeEq
              · rw [unfold_succ]
                exact afterEq
              · intro fewer less
                cases fewer with
                | zero => exact ⟨state, rfl, start⟩
                | succ fewer =>
                    rw [unfold_succ]
                    exact stayed fewer (Nat.le_of_succ_le_succ less)
          · right
            refine ⟨0, Nat.succ_pos _, state, next, rfl, ?_, leaves, ?_⟩
            · simp [loop, stepEq, bind, Except.bind]
            · intro fewer less
              cases Nat.le_zero.mp less
              exact ⟨state, rfl, start⟩

/-- A loop whose state is extended by something that its steps only record runs
as before. -/
theorem loop_lift {step : τ → Except ε τ} {done : τ → Bool} {wide : σ → Except ε σ}
    {wideDone : σ → Bool} (project : σ → τ)
    (lifts : ∀ {state next}, step (project state) = .ok next →
      ∃ wideNext, wide state = .ok wideNext ∧ project wideNext = next)
    (done_eq : ∀ state, wideDone state = done (project state)) {count : Nat} {state : σ} {last : τ}
    (run : loop step done count (project state) = .ok last) :
    ∃ wideLast, loop wide wideDone count state = .ok wideLast ∧ project wideLast = last := by
  induction count generalizing state with
  | zero =>
      cases run
      exact ⟨state, rfl, rfl⟩
  | succ count ih =>
      cases stepEq : step (project state) with
      | error failure => simp [loop, stepEq, bind, Except.bind] at run
      | ok next =>
          rcases lifts stepEq with ⟨wideNext, wideEq, rfl⟩
          simp only [loop, stepEq, wideEq, bind, Except.bind, done_eq] at run ⊢
          by_cases finished : done (project wideNext)
          · rw [if_pos finished] at run ⊢
            cases run
            exact ⟨wideNext, rfl, rfl⟩
          · rw [if_neg finished] at run ⊢
            exact ih run

/-- Every step of the abstract system is matched by a step that returns. -/
structure Simulates (related : σ → τ → Prop) (spec : σ → σ → Prop) (impl : τ → Except ε τ) :
    Prop where
  step : ∀ {state next concrete}, related state concrete → spec state next →
    ∃ concreteNext, impl concrete = .ok concreteNext ∧ related next concreteNext

/-- A simulation of steps is a simulation of the loop, when being done means
that the abstract state is final and final states have no step. -/
theorem Simulates.loop {related : σ → τ → Prop} {spec : σ → σ → Prop} {impl : τ → Except ε τ}
    {done : τ → Bool} {final : σ → Prop} (simulates : Simulates related spec impl)
    (done_iff : ∀ {state concrete}, related state concrete → (done concrete = true ↔ final state))
    (not_final : ∀ {state next}, spec state next → ¬ final state)
    {count : Nat} {state last : σ} {concrete : τ} (run : RunsIn spec count state last)
    (start : related state concrete) :
    ∃ concreteLast, Refinement.loop impl done count concrete = .ok concreteLast ∧
      related last concreteLast ∧ (done concreteLast = true ↔ final last) ∧
      (0 < count → final last →
        ∀ more, Refinement.loop impl done (count + more) concrete = .ok concreteLast) := by
  induction run generalizing concrete with
  | zero state => exact ⟨concrete, rfl, start, done_iff start, fun positive => by omega⟩
  | @succ count first second last stepped run ih =>
      rcases simulates.step start stepped with ⟨concreteNext, implEq, relatedNext⟩
      rcases ih relatedNext with ⟨concreteLast, loopEq, relatedLast, doneIff, stays⟩
      cases run with
      | zero =>
          cases loopEq
          refine ⟨concreteNext, ?_, relatedLast, doneIff, ?_⟩
          · simp [Refinement.loop, implEq, bind, Except.bind]
          · intro _ finished more
            have isDone : done concreteNext = true := doneIff.mpr finished
            rw [Nat.add_right_comm]
            simp [Refinement.loop, implEq, isDone, bind, Except.bind]
      | succ again rest =>
          have going : done concreteNext = false := by
            rw [← Bool.not_eq_true, done_iff relatedNext]
            exact not_final again
          refine ⟨concreteLast, ?_, relatedLast, doneIff, ?_⟩
          · simpa [Refinement.loop, implEq, going, bind, Except.bind] using loopEq
          · intro _ finished more
            have later := stays (Nat.succ_pos _) finished more
            rw [Nat.add_right_comm]
            simpa [Refinement.loop, implEq, going, bind, Except.bind] using later

end Transitions

/-! ## Embeddings -/

section Embeddings

variable {α σ σ' τ τ' : Type v} {ε : Type w} {embed : σ → τ} {embed' : σ' → τ'} {allowed : ε → Prop}

/-- What the first computation returns, the second one returns, embedded, unless it fails
in an allowed way. -/
def Embeds (embed : σ → τ) (allowed : ε → Prop) (first : Except ε σ) (second : Except ε τ) :
    Prop :=
  ∀ state, first = .ok state →
    second = .ok (embed state) ∨ ∃ failure, second = .error failure ∧ allowed failure

theorem Embeds.ok (state : σ) : Embeds embed allowed (.ok state) (.ok (embed state)) := by
  intro other same
  cases same
  exact .inl rfl

theorem Embeds.error (failure : ε) (second : Except ε τ) :
    Embeds embed allowed (.error failure) second := by
  intro state done
  cases done

/-- Both computations begin alike. -/
theorem Embeds.bind {first : Except ε α} {next : α → Except ε σ} {other : α → Except ε τ}
    (each : ∀ value, Embeds embed allowed (next value) (other value)) :
    Embeds embed allowed (first >>= next) (first >>= other) := by
  cases first with
  | error failure => exact .error failure _
  | ok value => exact each value

/-- One embedded computation after the other. -/
theorem Embeds.andThen {first : Except ε σ'} {second : Except ε τ'} {next : σ' → Except ε σ}
    {other : τ' → Except ε τ} (before : Embeds embed' allowed first second)
    (after : ∀ state, Embeds embed allowed (next state) (other (embed' state))) :
    Embeds embed allowed (first >>= next) (second >>= other) := by
  cases first with
  | error failure => exact .error failure _
  | ok state =>
      rcases before state rfl with same | ⟨failure, failed, fine⟩
      · rw [same]
        exact after state
      · intro last done
        right
        rw [failed]
        exact ⟨failure, rfl, fine⟩

theorem Embeds.ite {condition : Prop} [Decidable condition] {first first' : Except ε σ}
    {second second' : Except ε τ} (yes : Embeds embed allowed first second)
    (no : Embeds embed allowed first' second') :
    Embeds embed allowed (if condition then first else first')
      (if condition then second else second') := by
  split
  · exact yes
  · exact no

/-- A loop on embedded states goes the same way, as long as the loop below the embedding
is not done. -/
theorem loop_embeds {step : σ → Except ε σ} {step' : τ → Except ε τ} {done : σ → Bool}
    {done' : τ → Bool}
    (steps : ∀ {state next}, step state = .ok next → done next = false →
      step' (embed state) = .ok (embed next) ∨
        ∃ failure, step' (embed state) = .error failure ∧ allowed failure)
    (running : ∀ {state}, done state = false → done' (embed state) = false) {count : Nat}
    {state last : σ} (run : loop step done count state = .ok last) (busy : done last = false) :
    loop step' done' count (embed state) = .ok (embed last) ∨
      ∃ failure, loop step' done' count (embed state) = .error failure ∧ allowed failure := by
  induction count generalizing state with
  | zero =>
      cases run
      exact .inl rfl
  | succ count ih =>
      cases stepEq : step state with
      | error failure => simp [loop, stepEq, bind, Except.bind] at run
      | ok next =>
          cases finished : done next with
          | true =>
              simp only [loop, stepEq, bind, Except.bind, finished, if_true] at run
              cases run
              cases finished.symm.trans busy
          | false =>
              have rest : loop step done count next = .ok last := by
                simpa [loop, stepEq, bind, Except.bind, finished] using run
              rcases steps stepEq finished with same | ⟨failure, failed, fine⟩
              · simpa [loop, same, bind, Except.bind, running finished] using ih rest
              · right
                refine ⟨failure, ?_, fine⟩
                simp [loop, failed, bind, Except.bind]

end Embeddings

end JvmDemo.Lib.Refinement
