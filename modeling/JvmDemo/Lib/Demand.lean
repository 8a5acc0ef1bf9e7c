import Mathlib.Logic.Relation

/-!
# Loading on demand

Items have items they depend on.  A request for an item that is not in the log
first requests what it depends on, and then enters it into the log; a request for
one that is there does nothing.  The item itself is not in the log while its
dependencies are requested, so that nothing prevents a second entry but the fact
that the run ends: an item that is met again below itself would be requested
again below itself without end.
-/

namespace JvmDemo.Lib

/-- The requests, and the log before and after them, the latest entry first. -/
inductive Demand {α : Type} (deps : α → List α) : List α → List α → List α → Prop
  | nil {log : List α} : Demand deps [] log log
  | hit {item : α} {rest log after : List α} (present : item ∈ log)
      (others : Demand deps rest log after) : Demand deps (item :: rest) log after
  | miss {item : α} {rest log between after : List α} (absent : item ∉ log)
      (first : Demand deps (deps item) log between)
      (others : Demand deps rest (item :: between) after) : Demand deps (item :: rest) log after

namespace Demand

variable {α : Type} {deps : α → List α} {requests more log log' log'' : List α}

/-- An item that is not in the log, below one that depends on it. -/
def Below (deps : α → List α) (log : List α) (item other : α) : Prop :=
  item ∈ deps other ∧ item ∉ log

theorem append (first : Demand deps requests log log') (second : Demand deps more log' log'') :
    Demand deps (requests ++ more) log log'' := by
  induction first with
  | nil => exact second
  | hit present _ ih => exact .hit present (ih second)
  | miss absent first _ _ ih => exact .miss absent first (ih second)

theorem log_subset (demand : Demand deps requests log log') : log ⊆ log' := by
  induction demand with
  | nil => exact List.Subset.refl _
  | hit _ _ ih => exact ih
  | miss _ _ _ below others =>
      exact List.Subset.trans (List.subset_cons_of_subset _ below) others

theorem requests_subset (demand : Demand deps requests log log') : requests ⊆ log' := by
  induction demand with
  | nil => exact List.nil_subset _
  | hit present others ih => exact List.cons_subset.mpr ⟨others.log_subset present, ih⟩
  | miss _ _ others _ ih =>
      exact List.cons_subset.mpr ⟨others.log_subset List.mem_cons_self, ih⟩

/-- Accessibility does not get lost when the log was smaller, if what has been
entered since is accessible. -/
theorem acc_of_acc {item : α} (acc : Acc (Below deps log') item)
    (between : ∀ other ∈ log', other ∉ log → Acc (Below deps log) other) :
    Acc (Below deps log) item := by
  induction acc with
  | intro item _ ih =>
      constructor
      rintro other ⟨dep, absent⟩
      by_cases present : other ∈ log'
      · exact between other present absent
      · exact ih other ⟨dep, present⟩

/-- What is entered into the log has no infinite chain of dependencies. -/
theorem acc (demand : Demand deps requests log log') :
    ∀ item ∈ log', item ∉ log → Acc (Below deps log) item := by
  induction demand with
  | nil => exact fun _ present absent => absurd present absent
  | hit _ _ ih => exact ih
  | @miss item _ log between _ absent first _ below others =>
      have self : Acc (Below deps log) item := by
        constructor
        rintro other ⟨dep, missing⟩
        exact below other (first.requests_subset dep) missing
      have entered : ∀ other ∈ item :: between, other ∉ log → Acc (Below deps log) other := by
        intro other mem missing
        rcases List.mem_cons.mp mem with rfl | mem
        · exact self
        · exact below other mem missing
      intro other present missing
      by_cases earlier : other ∈ item :: between
      · exact entered other earlier missing
      · exact acc_of_acc (others other present earlier) entered

/-- What is entered into the log was requested, or is below something that was. -/
theorem reachable (demand : Demand deps requests log log') :
    ∀ item ∈ log', item ∉ log →
      ∃ request ∈ requests, request ∉ log ∧
        Relation.ReflTransGen (Below deps log) item request := by
  induction demand with
  | nil => exact fun _ present absent => absurd present absent
  | hit _ _ ih =>
      intro item present absent
      rcases ih item present absent with ⟨request, mem, missing, path⟩
      exact ⟨request, List.mem_cons_of_mem _ mem, missing, path⟩
  | @miss request rest log between after absent first _ below others =>
      intro item present missing
      by_cases self : item = request
      · exact ⟨request, List.mem_cons_self, absent, self ▸ .refl⟩
      · by_cases earlier : item ∈ between
        · rcases below item earlier missing with ⟨dep, mem, depMissing, path⟩
          exact ⟨request, List.mem_cons_self, absent, path.tail ⟨mem, depMissing⟩⟩
        · have later : item ∉ request :: between := by
            simp [self, earlier]
          rcases others item present later with ⟨other, mem, otherMissing, path⟩
          have subset := first.log_subset
          refine ⟨other, List.mem_cons_of_mem _ mem, ?_, ?_⟩
          · exact fun mem => otherMissing (List.mem_cons_of_mem _ (subset mem))
          · refine Relation.ReflTransGen.mono ?_ _ _ path
            rintro x y ⟨dep, absentX⟩
            exact ⟨dep, fun mem => absentX (List.mem_cons_of_mem _ (subset mem))⟩

theorem not_transGen_self {r : α → α → Prop} {item : α} (acc : Acc r item) :
    ¬ Relation.TransGen r item item := by
  induction acc with
  | intro item _ ih =>
      intro cycle
      rcases Relation.TransGen.tail'_iff.mp cycle with ⟨before, path, last⟩
      exact ih before last (.head' last path)

/-- An item is not entered while its dependencies are requested. -/
theorem not_mem_of_deps {item : α} (absent : item ∉ log)
    (demand : Demand deps (deps item) log log') : item ∉ log' := by
  intro present
  rcases demand.reachable item present absent with ⟨dep, mem, missing, path⟩
  exact not_transGen_self (demand.acc item present absent) (.tail' path ⟨mem, missing⟩)

end Demand

end JvmDemo.Lib
