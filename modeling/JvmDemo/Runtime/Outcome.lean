import JvmDemo.Runtime.Fault
import Mathlib.Data.List.Forall2

/-!
# What an operation returns, and when it goes wrong

An operation stops the process with a message, or it runs into undefined behaviour or a
loop without end, or it returns.  Operations that are done one after the other go wrong at
the first that does.
-/

namespace JvmDemo.Runtime

/-! ## Faults -/

/-- The process stops. -/
def Fault.Stops : Fault → Prop
  | .fatal _ => True
  | .thrown _ => True
  | .undefined _ => False
  | .diverges => False

instance : DecidablePred Fault.Stops
  | .fatal _ => .isTrue trivial
  | .thrown _ => .isTrue trivial
  | .undefined _ => .isFalse id
  | .diverges => .isFalse id

/-- The result is undefined behaviour, or an infinite loop. -/
def GoesWrong {α : Type} (result : Exec α) : Prop :=
  ∃ fault, result = .error fault ∧ ¬ fault.Stops

/-- What an operation returns, and when it goes wrong. -/
structure Outcome {α : Type} (result : Exec α) (returns : α → Prop) (wrong : Prop) : Prop where
  eq_ok_iff : ∀ value, result = .ok value ↔ returns value
  goesWrong_iff : GoesWrong result ↔ wrong

/-- The first bad entry of a list, with good ones before it. -/
inductive FirstBad {α : Type} (good bad : α → Prop) : List α → Prop where
  | here {entry : α} {entries : List α} : bad entry → FirstBad good bad (entry :: entries)
  | later {entry : α} {entries : List α} : good entry → FirstBad good bad entries →
      FirstBad good bad (entry :: entries)

section Outcomes

variable {α β : Type}

theorem not_goesWrong_ok (value : α) : ¬ GoesWrong (.ok value : Exec α) := by
  rintro ⟨fault, failed, -⟩
  cases failed

theorem goesWrong_error_iff {fault : Fault} :
    GoesWrong (.error fault : Exec α) ↔ ¬ fault.Stops := by
  constructor
  · rintro ⟨other, same, bad⟩
    cases same
    exact bad
  · exact fun bad => ⟨fault, rfl, bad⟩

instance : DecidablePred (@GoesWrong α)
  | .ok value => .isFalse (not_goesWrong_ok value)
  | .error _ => decidable_of_iff' _ goesWrong_error_iff

theorem not_goesWrong_fatal (message : String) : ¬ GoesWrong (fatal message : Exec α) :=
  fun wrong => goesWrong_error_iff.mp wrong trivial

theorem outcome_self (result : Exec α) :
    Outcome result (fun value => result = .ok value) (GoesWrong result) :=
  ⟨fun _ => Iff.rfl, Iff.rfl⟩

theorem goesWrong_undefined (why : String) : GoesWrong (undefined why : Exec α) :=
  ⟨_, rfl, id⟩

theorem goesWrong_bind {first : Exec α} {next : α → Exec β} :
    GoesWrong (first >>= next) ↔
      GoesWrong first ∨ ∃ value, first = .ok value ∧ GoesWrong (next value) := by
  cases first with
  | error fault =>
      simp only [Exec.bind_error, GoesWrong, reduceCtorEq, false_and, exists_false, or_false,
        Except.error.injEq]
  | ok value =>
      simp only [Exec.bind_ok, Except.ok.injEq, exists_eq_left']
      exact (or_iff_right (not_goesWrong_ok value)).symm

namespace Outcome

theorem pure (value : α) : Outcome (pure value : Exec α) (· = value) False where
  eq_ok_iff other := by
    constructor
    · intro same
      cases same
      rfl
    · rintro rfl
      rfl
  goesWrong_iff := iff_false_intro (not_goesWrong_ok value)

theorem fatal (message : String) :
    Outcome (Runtime.fatal message : Exec α) (fun _ => False) False where
  eq_ok_iff value := by
    constructor
    · intro same
      cases same
    · exact False.elim
  goesWrong_iff := iff_false_intro (not_goesWrong_fatal message)

theorem undefined (why : String) :
    Outcome (Runtime.undefined why : Exec α) (fun _ => False) True where
  eq_ok_iff value := by
    constructor
    · intro same
      cases same
    · exact False.elim
  goesWrong_iff := iff_true_intro (goesWrong_undefined why)

variable {first : Exec α} {next : α → Exec β} {returns : α → Prop} {wrong : Prop}

theorem congr {other : α → Prop} {otherWrong : Prop} (outcome : Outcome first returns wrong)
    (same : ∀ value, returns value ↔ other value) (sameWrong : wrong ↔ otherWrong) :
    Outcome first other otherWrong :=
  ⟨fun value => (outcome.eq_ok_iff value).trans (same value),
    outcome.goesWrong_iff.trans sameWrong⟩

theorem bind {later : α → β → Prop} {wrongLater : α → Prop} (outcome : Outcome first returns wrong)
    (rest : ∀ value, returns value → Outcome (next value) (later value) (wrongLater value)) :
    Outcome (first >>= next) (fun result => ∃ value, returns value ∧ later value result)
      (wrong ∨ ∃ value, returns value ∧ wrongLater value) where
  eq_ok_iff result := by
    rw [Exec.bind_eq_ok]
    refine exists_congr fun value => ?_
    rw [outcome.eq_ok_iff]
    exact and_congr_right fun returned => (rest value returned).eq_ok_iff result
  goesWrong_iff := by
    rw [goesWrong_bind, outcome.goesWrong_iff]
    refine or_congr_right (exists_congr fun value => ?_)
    rw [outcome.eq_ok_iff]
    exact and_congr_right fun returned => (rest value returned).goesWrong_iff

theorem mapM {make : α → Exec β} {makes : α → β → Prop} {good bad : α → Prop}
    (each : ∀ entry, Outcome (make entry) (makes entry) (bad entry))
    (goodIff : ∀ entry, good entry ↔ ∃ value, makes entry value) (entries : List α) :
    Outcome (entries.mapM make) (List.Forall₂ makes entries) (FirstBad good bad entries) := by
  induction entries with
  | nil =>
      rw [List.mapM_nil]
      apply (Outcome.pure _).congr
      · intro values
        exact List.forall₂_nil_left_iff.symm
      · constructor
        · exact False.elim
        · intro first
          cases first
  | cons entry entries ih =>
      rw [List.mapM_cons]
      apply ((each entry).bind fun value _ => ih.bind fun values _ => Outcome.pure _).congr
      · intro all
        rw [List.forall₂_cons_left_iff]
        constructor
        · rintro ⟨value, made, values, rest, rfl⟩
          exact ⟨value, values, made, rest, rfl⟩
        · rintro ⟨value, values, made, rest, rfl⟩
          exact ⟨value, made, values, rest, rfl⟩
      · constructor
        · rintro (isBad | ⟨value, made, first | ⟨_, _, never⟩⟩)
          · exact .here isBad
          · exact .later ((goodIff entry).mpr ⟨value, made⟩) first
          · exact never.elim
        · intro first
          cases first with
          | here isBad => exact .inl isBad
          | later isGood first =>
              rcases (goodIff entry).mp isGood with ⟨value, made⟩
              exact .inr ⟨value, made, .inl first⟩

end Outcome

end Outcomes

end JvmDemo.Runtime
