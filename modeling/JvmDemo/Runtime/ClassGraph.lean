import JvmDemo.Lib.Descent
import JvmDemo.Runtime.Class

/-!
# Walks over the classes on the heap

The functions of `Class` that walk along superclasses and interfaces, on classes
that may point anywhere.  A walk that comes back to a class it has been at does
not end.  `ClassTable` has classes that are linked in loading order; there the
walks end, with the results that its functions give.
-/

namespace JvmDemo.Runtime

open JvmDemo.Lib

/-- The classes on the heap.  Nothing is known of where their pointers lead. -/
structure ClassGraph where
  classes : List ClassInfo

namespace ClassGraph

variable (graph : ClassGraph)

/-- The class that a pointer points at. -/
def info (id : ClassId) : ClassInfo := graph.classes.getD id {}

/-! ## The functions of `Class` -/

/-- The loop of `IsSubClassOf` and `IsSuperClassOf`, which compares the classes
from `c` on with `sought`. -/
def superLoop (sought : ClassId) : Nat → Option ClassId → Exec Bool
  | 0, _ => .error .diverges
  | _ + 1, none => .ok false
  | fuel + 1, some c =>
      if c = sought then .ok true else superLoop sought fuel (graph.info c).superClass

/-- `IsSubClassOf(s, t)`. -/
def isSubClassOf (fuel : Nat) (s t : ClassId) : Exec Bool :=
  graph.superLoop t fuel (graph.info s).superClass

/-- `IsSuperClassOf(s, t)`. -/
def isSuperClassOf (fuel : Nat) (s t : ClassId) : Exec Bool :=
  graph.superLoop s fuel (graph.info t).superClass

/-- `IsSubInterfaceOf(s, t)`. -/
def isSubInterfaceOf : Nat → ClassId → ClassId → Exec Bool
  | 0, _, _ => .error .diverges
  | fuel + 1, s, t => (graph.info s).interfaces.anyM fun interface =>
      if interface = t then .ok true else isSubInterfaceOf fuel interface t

/-- `IsImplements(s, t)`. -/
def isImplements (fuel : Nat) (s t : ClassId) : Exec Bool :=
  (graph.info s).interfaces.anyM fun interface =>
    if interface = t then .ok true else graph.isSubInterfaceOf fuel interface t

/-- The loop over `methods_` in `LookupMethodInClass`. -/
def declaredMethod (name descriptor : Str) (id : ClassId) : Option Method :=
  (graph.info id).methods.find? fun method => method.name == name && method.descriptor == descriptor

/-- `LookupMethodInClass`. -/
def lookupMethodInClass (name descriptor : Str) : Nat → ClassId → Exec (Option Method)
  | 0, _ => .error .diverges
  | fuel + 1, id =>
      match graph.declaredMethod name descriptor id with
      | some method => .ok (some method)
      | none =>
          match (graph.info id).superClass with
          | some super => lookupMethodInClass name descriptor fuel super
          | none => .ok none

/-- `LookupMethodInInterfaces`: each interface overwrites the result of the one
before it. -/
def lookupMethodInInterfaces (name descriptor : Str) (fuel : Nat) (id : ClassId) :
    Exec (Option Method) :=
  (graph.info id).interfaces.foldlM
    (fun _ interface => graph.lookupMethodInClass name descriptor fuel interface) none

/-- `LookupMethod`. -/
def lookupMethod (name descriptor : Str) (fuel : Nat) (id : ClassId) : Exec (Option Method) := do
  match ← graph.lookupMethodInClass name descriptor fuel id with
  | some method => pure (some method)
  | none => graph.lookupMethodInInterfaces name descriptor fuel id

/-- The loop over `fields_` in `LookupField`. -/
def declaredField (name descriptor : Str) (id : ClassId) : Option Field :=
  (graph.info id).fields.find? fun field => field.name == name && field.descriptor == descriptor

/-- `LookupField`. -/
def lookupField (name descriptor : Str) : Nat → ClassId → Exec (Option Field)
  | 0, _ => .error .diverges
  | fuel + 1, id =>
      match graph.declaredField name descriptor id with
      | some field => .ok (some field)
      | none => do
          match ← (graph.info id).interfaces.findSomeM? (lookupField name descriptor fuel) with
          | some field => pure (some field)
          | none =>
              match (graph.info id).superClass with
              | some super => lookupField name descriptor fuel super
              | none => pure none

/-! ## The edges -/

/-- The superclass, as a list. -/
def supers (id : ClassId) : List ClassId := (graph.info id).superClass.toList

/-- The interfaces and then the superclass. -/
def parents (id : ClassId) : List ClassId := (graph.info id).interfaces ++ graph.supers id

def Extends (lower upper : ClassId) : Prop := upper ∈ graph.supers lower

def Lists (lower upper : ClassId) : Prop := upper ∈ (graph.info lower).interfaces

def Inherits (lower upper : ClassId) : Prop := upper ∈ graph.parents lower

instance (lower upper : ClassId) : Decidable (graph.Extends lower upper) :=
  inferInstanceAs (Decidable (upper ∈ graph.supers lower))

instance (lower upper : ClassId) : Decidable (graph.Lists lower upper) :=
  inferInstanceAs (Decidable (upper ∈ (graph.info lower).interfaces))

variable {graph} {id s t : ClassId} {name descriptor : Str} {order : List ClassId}

theorem extends_iff {lower upper : ClassId} :
    graph.Extends lower upper ↔ (graph.info lower).superClass = some upper := by
  rw [Extends, supers, Option.mem_toList]

theorem inherits_iff {lower upper : ClassId} :
    graph.Inherits lower upper ↔ graph.Lists lower upper ∨ graph.Extends lower upper := by
  rw [Inherits, parents, List.mem_append]
  rfl

/-- Only the classes on the heap have parents. -/
theorem lt_of_inherits {lower upper : ClassId} (above : graph.Inherits lower upper) :
    lower < graph.classes.length := by
  by_contra outside
  have missing : graph.info lower = {} := by
    rw [info, List.getD_eq_getElem?_getD, List.getElem?_eq_none (Nat.le_of_not_lt outside)]
    rfl
  rw [Inherits, parents, supers, missing] at above
  cases above

theorem finite_classes : {id : ClassId | id < graph.classes.length}.Finite :=
  Set.finite_lt_nat graph.classes.length

theorem exists_superOrder (acyclic : Acyclic graph.Extends) (id : ClassId) :
    ∃ above, DepthFirst graph.supers (graph.supers id) above := by
  have acc : Acc (fun upper lower => upper ∈ graph.supers lower) id :=
    acyclic.acc finite_classes (fun above => lt_of_inherits (inherits_iff.mpr (.inr above))) id
  obtain ⟨order, visited⟩ := DepthFirst.exists_of_acc acc
  cases visited with
  | cons inner _ => exact ⟨_, inner⟩

/-! ## The relations -/

/-- The loop compares the classes above in turn. -/
theorem returns_superLoop {above : List ClassId}
    (visited : DepthFirst graph.supers (graph.supers s) above) (sought : ClassId) :
    Returns (fun fuel => graph.superLoop sought fuel (graph.info s).superClass)
      (above.any (· = sought)) := by
  have unrolled (fuel : Nat) (klass : ClassId) :
      graph.superLoop sought (fuel + 1) (graph.info klass).superClass =
        (graph.supers klass).anyM fun super => if decide (super = sought) then .ok true
          else graph.superLoop sought fuel (graph.info super).superClass := by
    rw [supers]
    cases (graph.info klass).superClass with
    | none => rfl
    | some super =>
        rw [Option.toList_some, anyM_singleton]
        simp only [superLoop, decide_eq_true_eq]
  exact (returns_any unrolled visited).step fun fuel => unrolled fuel s


/-- `IsSubClassOf(s, t)` ends, and says whether `t` is a proper ancestor of `s`. -/
theorem returns_isSubClassOf (acyclic : Acyclic graph.Extends) (s t : ClassId) :
    ∃ answer, Returns (fun fuel => graph.isSubClassOf fuel s t) answer ∧
      (answer = true ↔ Relation.TransGen graph.Extends s t) := by
  obtain ⟨above, visited⟩ := exists_superOrder acyclic s
  refine ⟨_, returns_superLoop visited t, ?_⟩
  rw [List.any_eq_true]
  simp only [decide_eq_true_eq, exists_eq_right]
  exact visited.mem_below_iff

theorem exists_interfaceOrder (acyclic : Acyclic graph.Lists) (id : ClassId) :
    ∃ below, DepthFirst (fun id => (graph.info id).interfaces) (graph.info id).interfaces below := by
  have acc : Acc (fun upper lower => upper ∈ (graph.info lower).interfaces) id :=
    acyclic.acc finite_classes (fun above => lt_of_inherits (inherits_iff.mpr (.inl above))) id
  obtain ⟨order, visited⟩ := DepthFirst.exists_of_acc acc
  cases visited with
  | cons inner _ => exact ⟨_, inner⟩

/-- One level of `IsImplements` is one level of `IsSubInterfaceOf`. -/
theorem isSubInterfaceOf_succ (fuel : Nat) (s t : ClassId) :
    graph.isSubInterfaceOf (fuel + 1) s t = graph.isImplements fuel s t := rfl

theorem returns_isImplements_any {below : List ClassId}
    (visited : DepthFirst (fun id => (graph.info id).interfaces) (graph.info s).interfaces below)
    (t : ClassId) : Returns (fun fuel => graph.isImplements fuel s t) (below.any (· = t)) := by
  let run (fuel : Nat) (klass : ClassId) := graph.isSubInterfaceOf fuel klass t
  have unrolled (fuel : Nat) (klass : ClassId) : run (fuel + 1) klass =
      (graph.info klass).interfaces.anyM fun interface =>
        if decide (interface = t) then .ok true else run fuel interface := by
    simp only [run, isSubInterfaceOf, decide_eq_true_eq]
  have searched := returns_any unrolled visited
  simp only [decide_eq_true_eq] at searched
  exact searched

/-- `IsImplements(s, t)` ends, and says whether `t` is reached from `s` by interface
edges alone. -/
theorem returns_isImplements (acyclic : Acyclic graph.Lists) (s t : ClassId) :
    ∃ answer, Returns (fun fuel => graph.isImplements fuel s t) answer ∧
      (answer = true ↔ Relation.TransGen graph.Lists s t) := by
  obtain ⟨below, visited⟩ := exists_interfaceOrder acyclic s
  refine ⟨_, returns_isImplements_any visited t, ?_⟩
  rw [List.any_eq_true]
  simp only [decide_eq_true_eq, exists_eq_right]
  exact visited.mem_below_iff

theorem returns_isSubInterfaceOf (acyclic : Acyclic graph.Lists) (s t : ClassId) :
    ∃ answer, Returns (fun fuel => graph.isSubInterfaceOf fuel s t) answer ∧
      (answer = true ↔ Relation.TransGen graph.Lists s t) := by
  obtain ⟨answer, returns, meaning⟩ := returns_isImplements acyclic s t
  exact ⟨answer, returns.step fun fuel => isSubInterfaceOf_succ fuel s t, meaning⟩

/-- `IsSubClassOf(s, t)` ends with the answer yes. -/
def SubClass (graph : ClassGraph) (s t : ClassId) : Prop :=
  Returns (fun fuel => graph.isSubClassOf fuel s t) true

/-- `IsSubInterfaceOf(s, t)` ends with the answer yes. -/
def SubInterface (graph : ClassGraph) (s t : ClassId) : Prop :=
  Returns (fun fuel => graph.isSubInterfaceOf fuel s t) true

/-- A walk that ends with an answer ends with yes if and only if the answer is yes. -/
theorem returns_true_iff {run : Nat → Exec Bool} {answer : Bool} {meaning : Prop}
    (returns : Returns run answer) (answers : answer = true ↔ meaning) :
    Returns run true ↔ meaning := by
  rw [← answers]
  constructor
  · exact fun affirmed => returns.unique affirmed
  · rintro rfl
    exact returns

theorem subClass_iff (acyclic : Acyclic graph.Extends) :
    graph.SubClass s t ↔ Relation.TransGen graph.Extends s t := by
  obtain ⟨answer, returns, meaning⟩ := returns_isSubClassOf acyclic s t
  exact returns_true_iff returns meaning

theorem subInterface_iff (acyclic : Acyclic graph.Lists) :
    graph.SubInterface s t ↔ Relation.TransGen graph.Lists s t := by
  obtain ⟨answer, returns, meaning⟩ := returns_isSubInterfaceOf acyclic s t
  exact returns_true_iff returns meaning

/-- What the relations between classes are for. -/
structure RelationsHold (graph : ClassGraph) : Prop where
  subClass : ∀ s t, ∃ answer, Returns (fun fuel => graph.isSubClassOf fuel s t) answer ∧
    (answer = true ↔ Relation.TransGen graph.Extends s t)
  /-- `IsSuperClassOf` is the converse of `IsSubClassOf`. -/
  superClass : ∀ s t, ∃ answer, Returns (fun fuel => graph.isSuperClassOf fuel s t) answer ∧
    Returns (fun fuel => graph.isSubClassOf fuel t s) answer
  strictOrder : IsStrictOrder ClassId graph.SubClass
  /-- The ancestors of a class form a chain. -/
  total : ∀ klass s t, graph.SubClass klass s → graph.SubClass klass t →
    s = t ∨ graph.SubClass s t ∨ graph.SubClass t s
  subInterface : ∀ s t, ∃ answer, Returns (fun fuel => graph.isSubInterfaceOf fuel s t) answer ∧
    (answer = true ↔ Relation.TransGen graph.Lists s t)
  trans : ∀ s t u, graph.SubInterface s t → graph.SubInterface t u → graph.SubInterface s u

theorem extends_rightUnique : Relator.RightUnique graph.Extends := by
  intro lower first second firstAbove secondAbove
  rw [extends_iff] at firstAbove secondAbove
  exact Option.some.inj (firstAbove.symm.trans secondAbove)

/-- Two ancestors of a class are one above the other. -/
theorem ancestors_total {klass : ClassId} (first : Relation.TransGen graph.Extends klass s)
    (second : Relation.TransGen graph.Extends klass t) :
    s = t ∨ Relation.TransGen graph.Extends s t ∨ Relation.TransGen graph.Extends t s := by
  rcases Relation.ReflTransGen.total_of_right_unique extends_rightUnique first.to_reflTransGen
    second.to_reflTransGen with path | path
  · rcases Relation.reflTransGen_iff_eq_or_transGen.mp path with same | above
    · exact .inl same.symm
    · exact .inr (.inl above)
  · rcases Relation.reflTransGen_iff_eq_or_transGen.mp path with same | above
    · exact .inl same
    · exact .inr (.inr above)

/-- For every finite hierarchy whose superclass chains and whose interface edges
have no cycles. -/
theorem relationsHold (supers : Acyclic graph.Extends) (interfaces : Acyclic graph.Lists) :
    RelationsHold graph where
  subClass := returns_isSubClassOf supers
  superClass s t := by
    obtain ⟨answer, returns, -⟩ := returns_isSubClassOf supers t s
    exact ⟨answer, returns, returns⟩
  strictOrder :=
    { irrefl := fun klass below => supers klass ((subClass_iff supers).mp below)
      trans := fun _ _ _ first second => (subClass_iff supers).mpr
        (((subClass_iff supers).mp first).trans ((subClass_iff supers).mp second)) }
  total klass s t first second := by
    rw [subClass_iff supers] at first second
    rw [subClass_iff supers, subClass_iff supers]
    exact ancestors_total first second
  subInterface := returns_isSubInterfaceOf interfaces
  trans s t u first second := by
    rw [subInterface_iff interfaces] at first second ⊢
    exact first.trans second

/-! ## The check of a receiver -/

/-- The class or one of its superclasses lists the interface, or one that extends
it. -/
def Implemented (graph : ClassGraph) (receiver interface : ClassId) : Prop :=
  ∃ klass, Relation.ReflTransGen graph.Extends receiver klass ∧
    Relation.TransGen graph.Lists klass interface

/-- The check ends, and lets exactly those receivers pass that implement the
interface. -/
def ChecksReceiver (graph : ClassGraph) (receiver interface : ClassId) : Prop :=
  ∃ answer, Returns (fun fuel => graph.isImplements fuel receiver interface) answer ∧
    (answer = true ↔ graph.Implemented receiver interface)

/-- The check is right unless the receiver has the interface from a superclass
only. -/
theorem checksReceiver_iff (acyclic : Acyclic graph.Lists) (receiver interface : ClassId) :
    graph.ChecksReceiver receiver interface ↔
      ((∃ super, Relation.TransGen graph.Extends receiver super ∧
        Relation.TransGen graph.Lists super interface) →
          Relation.TransGen graph.Lists receiver interface) := by
  obtain ⟨answer, returns, meaning⟩ := returns_isImplements acyclic receiver interface
  have own : Relation.TransGen graph.Lists receiver interface →
      graph.Implemented receiver interface := fun listed => ⟨receiver, .refl, listed⟩
  constructor
  · rintro ⟨other, otherReturns, otherMeaning⟩ ⟨super, above, listed⟩
    obtain rfl := returns.unique otherReturns
    rw [← meaning, otherMeaning]
    exact ⟨super, above.to_reflTransGen, listed⟩
  · intro repeated
    refine ⟨answer, returns, meaning.trans ⟨own, ?_⟩⟩
    rintro ⟨klass, above, listed⟩
    rcases Relation.reflTransGen_iff_eq_or_transGen.mp above with rfl | higher
    · exact listed
    · exact repeated ⟨klass, higher, listed⟩

end ClassGraph

/-! ## Tables -/

namespace ClassTable

variable (table : ClassTable)

/-- The classes of a table, without what is known of their order. -/
def graph : ClassGraph := ⟨table.classes⟩

theorem lt_of_inherits {lower upper : ClassId} (above : table.graph.Inherits lower upper) :
    upper < lower := by
  rcases ClassGraph.inherits_iff.mp above with listed | extended
  · exact table.interface_lt lower upper listed
  · exact table.superClass_lt lower upper (ClassGraph.extends_iff.mp extended)

theorem acyclic_inherits : Acyclic table.graph.Inherits :=
  acyclic_of_measure id table.lt_of_inherits

theorem acyclic_extends : Acyclic table.graph.Extends :=
  acyclic_of_measure id fun above => table.lt_of_inherits (ClassGraph.inherits_iff.mpr (.inr above))

theorem acyclic_lists : Acyclic table.graph.Lists :=
  acyclic_of_measure id fun above => table.lt_of_inherits (ClassGraph.inherits_iff.mpr (.inl above))

/-- The rest of the chain of a table is what a walk along the superclasses comes
to. -/
theorem depthFirst_above (id : ClassId) :
    DepthFirst table.graph.supers (table.graph.supers id) (table.superChain id).tail := by
  induction id using Nat.strongRecOn with
  | ind id ih =>
      have same : table.graph.supers id = (table.info id).superClass.toList := rfl
      rw [same, superChain_eq, List.tail_cons]
      cases superEq : (table.info id).superClass with
      | none => exact .nil
      | some super =>
          have visited := DepthFirst.cons (ih super (table.superClass_lt id super superEq)) .nil
          dsimp only
          rw [Option.toList_some, superChain_eq]
          rwa [superChain_eq, List.tail_cons, List.append_nil] at visited

theorem depthFirst_superChain (id : ClassId) :
    DepthFirst table.graph.supers [id] (table.superChain id) := by
  have visited := DepthFirst.cons (table.depthFirst_above id) .nil
  rw [List.append_nil] at visited
  rwa [superChain_eq] at visited ⊢

/-- On a table `IsSubClassOf` ends with the answer that the table gives. -/
theorem returns_isSubClassOf (s t : ClassId) :
    Returns (fun fuel => table.graph.isSubClassOf fuel s t) (table.isSubClassOf s t) := by
  have answer : table.isSubClassOf s t = (table.superChain s).tail.any (· = t) := by
    rw [isSubClassOf, List.contains_eq_any_beq]
    simp only [beq_eq_decide, eq_comm]
  rw [answer]
  exact ClassGraph.returns_superLoop (table.depthFirst_above s) t

theorem returns_isSuperClassOf (s t : ClassId) :
    Returns (fun fuel => table.graph.isSuperClassOf fuel s t) (table.isSuperClassOf s t) :=
  table.returns_isSubClassOf t s

end ClassTable

/-- `Object`, an interface `I`, `Base implements I`, `Derived extends Base`. -/
def sampleHierarchy : ClassTable :=
  .ofClasses
    [{ name := str "java/lang/Object" },
      { name := str "I", accessFlags := 0x0600, superClass := some 0 },
      { name := str "Base", superClass := some 0, interfaces := [1] },
      { name := str "Derived", superClass := some 2 }] (by decide)

theorem relationsHold_sampleHierarchy : sampleHierarchy.graph.RelationsHold :=
  ClassGraph.relationsHold sampleHierarchy.acyclic_extends sampleHierarchy.acyclic_lists

theorem checksReceiver_base : sampleHierarchy.graph.ChecksReceiver 2 1 := by
  apply (ClassGraph.checksReceiver_iff sampleHierarchy.acyclic_lists 2 1).mpr
  intro _
  exact .single (by decide)

/-- `Derived` has the interface from its superclass. -/
theorem derived_not_checked : ¬ sampleHierarchy.graph.ChecksReceiver 3 1 := by
  rintro ⟨answer, ⟨bound, returns⟩, meaning⟩
  have implemented : sampleHierarchy.graph.Implemented 3 1 :=
    ⟨2, .single (by decide), .single (by decide)⟩
  have refused : sampleHierarchy.graph.isImplements bound 3 1 = .ok false := rfl
  have same := (returns bound (Nat.le_refl bound)).symm.trans refused
  rw [Except.ok.injEq] at same
  rw [same] at meaning
  exact Bool.false_ne_true (meaning.mpr implemented)

end JvmDemo.Runtime
