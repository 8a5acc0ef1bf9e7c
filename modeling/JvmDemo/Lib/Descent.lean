import Mathlib.Order.WellFoundedSet

/-!
# Recursion along the edges of a graph

A loop or a recursion of a program that follows pointers has no measure of its
own, and is run with fuel.  It ends with a value when every large enough fuel
gives this value.  On a finite graph without cycles such recursions end, and what
they find is determined by the order in which they come to the nodes.
-/

namespace JvmDemo.Lib

/-! ## Fuel -/

section Fuel

variable {ε α β : Type}

/-- The recursion comes to an end with this value. -/
def Returns (run : Nat → Except ε α) (value : α) : Prop :=
  ∃ bound, ∀ fuel, bound ≤ fuel → run fuel = .ok value

namespace Returns

variable {run body : Nat → Except ε α} {value other : α}

theorem unique (first : Returns run value) (second : Returns run other) : value = other := by
  rcases first with ⟨bound, firstEq⟩
  rcases second with ⟨bound', secondEq⟩
  have same := (firstEq (max bound bound') (Nat.le_max_left _ _)).symm.trans
    (secondEq (max bound bound') (Nat.le_max_right _ _))
  exact Except.ok.inj same

theorem const (value : α) : Returns (fun _ => (.ok value : Except ε α)) value :=
  ⟨0, fun _ _ => rfl⟩

/-- One call of the recursion takes one unit of fuel. -/
theorem step (returns : Returns body value) (unfolds : ∀ fuel, run (fuel + 1) = body fuel) :
    Returns run value := by
  rcases returns with ⟨bound, bodyEq⟩
  refine ⟨bound + 1, fun fuel enough => ?_⟩
  rcases fuel with - | fuel
  · exact absurd enough (Nat.not_succ_le_zero bound)
  · rw [unfolds]
    exact bodyEq fuel (Nat.le_of_succ_le_succ enough)

theorem bind {next : Nat → α → Except ε β} {result : β} (first : Returns run value)
    (second : Returns (fun fuel => next fuel value) result) :
    Returns (fun fuel => run fuel >>= next fuel) result := by
  rcases first with ⟨bound, firstEq⟩
  rcases second with ⟨bound', secondEq⟩
  refine ⟨max bound bound', fun fuel enough => ?_⟩
  dsimp only
  rw [firstEq fuel (Nat.le_trans (Nat.le_max_left _ _) enough)]
  exact secondEq fuel (Nat.le_trans (Nat.le_max_right _ _) enough)

end Returns

end Fuel

/-! ## Depth-first order -/

section Order

variable {α : Type} {next : α → List α} {roots order : List α}

/-- The nodes in the order in which a search without memory comes to them: each
root, then what is below it, then the other roots. -/
inductive DepthFirst (next : α → List α) : List α → List α → Prop
  | nil : DepthFirst next [] []
  | cons {node : α} {rest below after : List α} (inner : DepthFirst next (next node) below)
      (others : DepthFirst next rest after) :
      DepthFirst next (node :: rest) (node :: (below ++ after))

namespace DepthFirst

theorem append {more order' : List α} (first : DepthFirst next roots order)
    (second : DepthFirst next more order') : DepthFirst next (roots ++ more) (order ++ order') := by
  induction first with
  | nil => exact second
  | cons inner _ _ ih =>
      rw [List.cons_append, List.cons_append, List.append_assoc]
      exact .cons inner ih

theorem exists_of_append {more : List α} (visited : DepthFirst next (roots ++ more) order) :
    ∃ before after, order = before ++ after ∧ DepthFirst next roots before ∧
      DepthFirst next more after := by
  induction roots generalizing order with
  | nil => exact ⟨[], order, rfl, .nil, visited⟩
  | cons root rest ih =>
      cases visited with
      | cons inner others =>
          rcases ih others with ⟨before, after, rfl, first, second⟩
          exact ⟨_, after, by rw [List.cons_append, List.append_assoc], .cons inner first, second⟩

theorem unique {order' : List α} (first : DepthFirst next roots order)
    (second : DepthFirst next roots order') : order = order' := by
  induction first generalizing order' with
  | nil =>
      cases second
      rfl
  | cons _ _ below others =>
      cases second with
      | cons inner rest => rw [below inner, others rest]

theorem mem_iff (visited : DepthFirst next roots order) {node : α} :
    node ∈ order ↔ ∃ root ∈ roots, Relation.ReflTransGen (fun lower upper => upper ∈ next lower)
      root node := by
  induction visited with
  | nil => simp
  | @cons first rest below after _ _ inner others =>
      rw [List.mem_cons, List.mem_append, inner, others]
      simp only [List.mem_cons, exists_eq_or_imp, ← or_assoc]
      refine or_congr_left ?_
      rw [Relation.ReflTransGen.cases_head_iff, eq_comm]

/-- What is below a node is at the end of a path from it. -/
theorem mem_below_iff {node lower : α} (visited : DepthFirst next (next lower) order) :
    node ∈ order ↔ Relation.TransGen (fun lower upper => upper ∈ next lower) lower node := by
  rw [visited.mem_iff, Relation.TransGen.head'_iff]

/-- A node without an infinite path has an order. -/
theorem exists_of_acc {node : α} (acc : Acc (fun upper lower => upper ∈ next lower) node) :
    ∃ order, DepthFirst next [node] order := by
  induction acc with
  | intro node _ ih =>
      have below : ∀ roots ⊆ next node, ∃ order, DepthFirst next roots order := by
        intro roots inside
        induction roots with
        | nil => exact ⟨[], .nil⟩
        | cons root rest others =>
            rcases List.cons_subset.mp inside with ⟨here, there⟩
            rcases ih root here with ⟨first, firstVisited⟩
            rcases others there with ⟨second, secondVisited⟩
            exact ⟨first ++ second, firstVisited.append secondVisited⟩
      rcases below (next node) (List.Subset.refl _) with ⟨order, visited⟩
      exact ⟨_, .cons visited .nil⟩

end DepthFirst

end Order

/-! ## Searches -/

section Search

variable {ε α β : Type} {next : α → List α} {roots order : List α}

theorem findSome?_cons_or (found : α → Option β) (node : α) (rest : List α) :
    (node :: rest).findSome? found = (found node).or (rest.findSome? found) := by
  rw [List.findSome?_cons]
  cases found node <;> rfl

theorem findSome?_singleton (found : α → Option β) (node : α) :
    [node].findSome? found = found node := by
  rw [findSome?_cons_or, List.findSome?_nil, Option.or_none]

theorem anyM_singleton (hit : α → Except ε Bool) (node : α) : [node].anyM hit = hit node := by
  rw [List.anyM_cons, List.anyM_nil]
  cases hit node with
  | error failure => rfl
  | ok found => cases found <;> rfl

theorem findSomeM?_singleton (found : α → Except ε (Option β)) (node : α) :
    [node].findSomeM? found = found node := by
  rw [List.findSomeM?_cons, List.findSomeM?_nil]
  cases found node with
  | error failure => rfl
  | ok result => cases result <;> rfl

theorem findSomeM?_append (found : α → Except ε (Option β)) (first second : List α) :
    (first ++ second).findSomeM? found = first.findSomeM? found >>= fun result =>
      match result with
      | some value => pure (some value)
      | none => second.findSomeM? found := by
  induction first with
  | nil => rfl
  | cons node rest ih =>
      rw [List.cons_append, List.findSomeM?_cons, List.findSomeM?_cons, ih]
      cases found node with
      | error failure => rfl
      | ok result => cases result <;> rfl

/-- A search that looks at a node first and then, in order, at what is below it
finds the first hit in depth-first order. -/
theorem returns_findSome {run : Nat → α → Except ε (Option β)} {found : α → Option β}
    (hits : ∀ {node result} fuel, found node = some result → run (fuel + 1) node = .ok (some result))
    (misses : ∀ {node} fuel, found node = none →
      run (fuel + 1) node = (next node).findSomeM? (run fuel))
    (visited : DepthFirst next roots order) :
    Returns (fun fuel => roots.findSomeM? (run fuel)) (order.findSome? found) := by
  induction visited with
  | nil => exact .const none
  | @cons node rest below after _ _ inner others =>
      have here : Returns (fun fuel => run fuel node) ((found node).or (below.findSome? found)) := by
        cases hit : found node with
        | some result => exact (Returns.const (some result)).step fun fuel => hits fuel hit
        | none => exact inner.step fun fuel => misses fuel hit
      have split : (node :: (below ++ after)).findSome? found =
          ((found node).or (below.findSome? found)).or (after.findSome? found) := by
        rw [findSome?_cons_or, List.findSome?_append, Option.or_assoc]
      rw [split]
      refine here.bind ?_
      cases (found node).or (below.findSome? found) with
      | some result => exact .const (some result)
      | none => exact others

/-- A search for a hit below a node. -/
theorem returns_any {run : Nat → α → Except ε Bool} {hit : α → Bool}
    (unfolds : ∀ fuel node, run (fuel + 1) node =
      (next node).anyM fun inner => if hit inner then .ok true else run fuel inner)
    (visited : DepthFirst next roots order) :
    Returns (fun fuel => roots.anyM fun inner => if hit inner then .ok true else run fuel inner)
      (order.any hit) := by
  induction visited with
  | nil => exact .const false
  | @cons node rest below after _ _ inner others =>
      have here : Returns (fun fuel => if hit node then .ok true else run fuel node)
          (hit node || below.any hit) := by
        cases hit node with
        | true => exact .const true
        | false => exact inner.step fun fuel => unfolds fuel node
      rw [List.any_cons, List.any_append, ← Bool.or_assoc]
      refine here.bind ?_
      cases hit node || below.any hit with
      | true => exact .const true
      | false => exact others

/-- A loop whose turns return. -/
theorem returns_foldlM {run : Nat → β → α → Except ε β} {turn : β → α → β} {nodes : List α}
    (each : ∀ result, ∀ node ∈ nodes, Returns (fun fuel => run fuel result node) (turn result node))
    (start : β) :
    Returns (fun fuel => nodes.foldlM (run fuel) start) (nodes.foldl turn start) := by
  induction nodes generalizing start with
  | nil => exact .const start
  | cons node rest ih =>
      simp only [List.foldlM_cons, List.foldl_cons]
      exact (each start node List.mem_cons_self).bind
        (ih (fun result other mem => each result other (List.mem_cons_of_mem _ mem)) _)

end Search

/-! ## Finite graphs without cycles -/

section Acyclic

variable {α : Type} {edge : α → α → Prop}

/-- No path leads from a node to itself. -/
def Acyclic (edge : α → α → Prop) : Prop := ∀ node, ¬ Relation.TransGen edge node node

/-- Edges that lead down in some measure make no cycle. -/
theorem acyclic_of_measure (rank : α → Nat)
    (down : ∀ {lower upper}, edge lower upper → rank upper < rank lower) : Acyclic edge := by
  intro node cycle
  have descends : ∀ other, Relation.TransGen edge node other → rank other < rank node := by
    intro other path
    induction path with
    | single here => exact down here
    | tail _ here ih => exact Nat.lt_trans (down here) ih
  exact Nat.lt_irrefl (rank node) (descends node cycle)

/-- If only finitely many nodes have an edge and there is no cycle, there is no
infinite path. -/
theorem Acyclic.acc (acyclic : Acyclic edge) {nodes : Set α} (finite : nodes.Finite)
    (sources : ∀ {lower upper}, edge lower upper → lower ∈ nodes) (node : α) :
    Acc (fun upper lower => edge lower upper) node := by
  have order : IsStrictOrder α fun upper lower => Relation.TransGen edge lower upper :=
    { irrefl := acyclic
      trans := fun _ _ _ first second => second.trans first }
  have inside : ∀ lower ∈ nodes, Acc (fun upper lower => edge lower upper) lower := by
    intro lower mem
    refine finite.wellFoundedOn.induction (r := fun upper lower => Relation.TransGen edge lower upper)
      mem fun lower _ ih => ⟨lower, fun upper here => ?_⟩
    by_cases source : upper ∈ nodes
    · exact ih upper source (.single here)
    · exact ⟨upper, fun _ there => absurd (sources there) source⟩
  by_cases source : node ∈ nodes
  · exact inside node source
  · exact ⟨node, fun _ here => absurd (sources here) source⟩

end Acyclic

end JvmDemo.Lib
