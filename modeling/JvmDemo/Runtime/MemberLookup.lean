import JvmDemo.Runtime.ClassGraph

/-!
# Lookup of fields and methods

`LookupField` goes through the class, its interfaces and its superclass in
depth-first order and finds the first declaration.  `LookupMethod` goes along the
superclasses, and then only to the interfaces of the class itself; of these the
last one decides, with what its own superclasses declare.
-/

namespace JvmDemo.Runtime

open JvmDemo.Lib

namespace ClassGraph

variable {graph : ClassGraph} {name descriptor : Str} {klass : ClassId}

/-! ## Fields -/

/-- The class declares a field of this name and type. -/
def DeclaresField (graph : ClassGraph) (name descriptor : Str) (id : ClassId) : Prop :=
  ∃ field ∈ (graph.info id).fields, field.name = name ∧ field.descriptor = descriptor

theorem isSome_declaredField {id : ClassId} :
    (graph.declaredField name descriptor id).isSome ↔ graph.DeclaresField name descriptor id := by
  rw [declaredField, List.find?_isSome, DeclaresField]
  simp only [Bool.and_eq_true, beq_iff_eq]

theorem lookupField_of_declared {id : ClassId} {field : Field} (fuel : Nat)
    (declared : graph.declaredField name descriptor id = some field) :
    graph.lookupField name descriptor (fuel + 1) id = .ok (some field) := by
  rw [lookupField, declared]

/-- The interfaces and the superclass are searched one after the other. -/
theorem lookupField_of_undeclared {id : ClassId} (fuel : Nat)
    (undeclared : graph.declaredField name descriptor id = none) :
    graph.lookupField name descriptor (fuel + 1) id =
      (graph.parents id).findSomeM? (graph.lookupField name descriptor fuel) := by
  rw [lookupField, undeclared, parents, supers, findSomeM?_append]
  dsimp only
  cases (graph.info id).interfaces.findSomeM? (graph.lookupField name descriptor fuel) with
  | error fault => rfl
  | ok result =>
      cases result with
      | some field => rfl
      | none =>
          cases (graph.info id).superClass with
          | none => rfl
          | some super =>
              rw [Option.toList_some, findSomeM?_singleton]
              rfl

theorem returns_lookupField {order : List ClassId}
    (visited : DepthFirst graph.parents [klass] order) :
    Returns (fun fuel => graph.lookupField name descriptor fuel klass)
      (order.findSome? (graph.declaredField name descriptor)) := by
  have searched : Returns
      (fun fuel => [klass].findSomeM? (graph.lookupField name descriptor fuel)) _ :=
    returns_findSome lookupField_of_declared lookupField_of_undeclared visited
  simpa only [findSomeM?_singleton] using searched

/-- What the result of a lookup is to be. -/
structure FieldFound (graph : ClassGraph) (name descriptor : Str) (klass : ClassId)
    (result : Option Field) : Prop where
  /-- There is a result if the class or something above it has such a field. -/
  found_iff : result.isSome ↔ ∃ id, Relation.ReflTransGen graph.Inherits klass id ∧
    graph.DeclaresField name descriptor id
  /-- It is the first one in depth-first order. -/
  first : ∃ order, DepthFirst graph.parents [klass] order ∧
    result = order.findSome? (graph.declaredField name descriptor)
  own : ∀ field, graph.declaredField name descriptor klass = some field → result = some field
  /-- If the class has no such field itself, the interfaces come before the
  superclass. -/
  interfaces : graph.declaredField name descriptor klass = none →
    (∃ interface, graph.Lists klass interface ∧ ∃ id,
      Relation.ReflTransGen graph.Inherits interface id ∧
        graph.DeclaresField name descriptor id) →
    ∃ interface, graph.Lists klass interface ∧ ∃ id field,
      Relation.ReflTransGen graph.Inherits interface id ∧
        graph.declaredField name descriptor id = some field ∧ result = some field

theorem findSome_isSome_iff {roots order : List ClassId}
    (visited : DepthFirst graph.parents roots order) :
    (order.findSome? (graph.declaredField name descriptor)).isSome ↔
      ∃ root ∈ roots, ∃ id, Relation.ReflTransGen graph.Inherits root id ∧
        graph.DeclaresField name descriptor id := by
  rw [List.findSome?_isSome_iff]
  simp only [isSome_declaredField, visited.mem_iff]
  constructor
  · rintro ⟨id, ⟨root, mem, path⟩, declares⟩
    exact ⟨root, mem, id, path, declares⟩
  · rintro ⟨root, mem, id, path, declares⟩
    exact ⟨id, ⟨root, mem, path⟩, declares⟩

/-- For every finite hierarchy without cycles `LookupField` ends with the result
that it is to have. -/
theorem lookupField_found (acyclic : Acyclic graph.Inherits) (name descriptor : Str)
    (klass : ClassId) :
    ∃ result, Returns (fun fuel => graph.lookupField name descriptor fuel klass) result ∧
      graph.FieldFound name descriptor klass result := by
  have acc : Acc (fun upper lower => upper ∈ graph.parents lower) klass :=
    acyclic.acc finite_classes lt_of_inherits klass
  obtain ⟨order, visited⟩ := DepthFirst.exists_of_acc acc
  refine ⟨_, returns_lookupField visited, ?_, ⟨order, visited, rfl⟩, ?_, ?_⟩
  · rw [findSome_isSome_iff visited]
    simp only [List.mem_singleton, exists_eq_left]
  · intro field declared
    cases visited with
    | cons _ _ => rw [List.findSome?_cons, declared]
  · rintro undeclared ⟨interface, listed, id, path, declares⟩
    cases visited with
    | cons inner others =>
        cases others
        rw [parents] at inner
        rcases inner.exists_of_append with ⟨before, after, rfl, first, -⟩
        have some : (before.findSome? (graph.declaredField name descriptor)).isSome :=
          (findSome_isSome_iff first).mpr ⟨interface, listed, id, path, declares⟩
        rcases Option.isSome_iff_exists.mp some with ⟨field, found⟩
        rcases List.exists_of_findSome?_eq_some found with ⟨declarer, mem, declared⟩
        rcases first.mem_iff.mp mem with ⟨root, rootMem, rootPath⟩
        refine ⟨root, rootMem, declarer, field, rootPath, declared, ?_⟩
        rw [List.findSome?_cons, undeclared, List.append_nil, List.findSome?_append, found]
        rfl

/-! ## Methods -/

/-- The class declares a method of this name and type. -/
def DeclaresMethod (graph : ClassGraph) (name descriptor : Str) (id : ClassId) : Prop :=
  ∃ method ∈ (graph.info id).methods, method.name = name ∧ method.descriptor = descriptor

/-- The class or one of its superclasses declares it. -/
def ChainDeclares (graph : ClassGraph) (name descriptor : Str) (klass : ClassId) : Prop :=
  ∃ id, Relation.ReflTransGen graph.Extends klass id ∧ graph.DeclaresMethod name descriptor id

/-- An interface of the class or of one of its superclasses declares it, or one that
it extends. -/
def InterfaceDeclares (graph : ClassGraph) (name descriptor : Str) (klass : ClassId) : Prop :=
  ∃ ancestor id, Relation.ReflTransGen graph.Extends klass ancestor ∧
    Relation.TransGen graph.Lists ancestor id ∧ graph.DeclaresMethod name descriptor id

instance (id : ClassId) : Decidable (graph.DeclaresMethod name descriptor id) :=
  inferInstanceAs (Decidable (∃ method ∈ (graph.info id).methods,
    method.name = name ∧ method.descriptor = descriptor))

theorem isSome_declaredMethod {id : ClassId} :
    (graph.declaredMethod name descriptor id).isSome ↔
      graph.DeclaresMethod name descriptor id := by
  rw [declaredMethod, List.find?_isSome, DeclaresMethod]
  simp only [Bool.and_eq_true, beq_iff_eq]

theorem lookupMethodInClass_of_declared {id : ClassId} {method : Method} (fuel : Nat)
    (declared : graph.declaredMethod name descriptor id = some method) :
    graph.lookupMethodInClass name descriptor (fuel + 1) id = .ok (some method) := by
  rw [lookupMethodInClass, declared]

theorem lookupMethodInClass_of_undeclared {id : ClassId} (fuel : Nat)
    (undeclared : graph.declaredMethod name descriptor id = none) :
    graph.lookupMethodInClass name descriptor (fuel + 1) id =
      (graph.supers id).findSomeM? (graph.lookupMethodInClass name descriptor fuel) := by
  rw [lookupMethodInClass, undeclared, supers]
  dsimp only
  cases (graph.info id).superClass with
  | none => rfl
  | some super => rw [Option.toList_some, findSomeM?_singleton]

theorem returns_lookupMethodInClass {chain : List ClassId}
    (visited : DepthFirst graph.supers [klass] chain) :
    Returns (fun fuel => graph.lookupMethodInClass name descriptor fuel klass)
      (chain.findSome? (graph.declaredMethod name descriptor)) := by
  have searched : Returns
      (fun fuel => [klass].findSomeM? (graph.lookupMethodInClass name descriptor fuel)) _ :=
    returns_findSome lookupMethodInClass_of_declared lookupMethodInClass_of_undeclared visited
  simpa only [findSomeM?_singleton] using searched

theorem isSome_chain_iff {chain : List ClassId} (visited : DepthFirst graph.supers [klass] chain) :
    (chain.findSome? (graph.declaredMethod name descriptor)).isSome ↔
      graph.ChainDeclares name descriptor klass := by
  rw [List.findSome?_isSome_iff, ChainDeclares]
  simp only [isSome_declaredMethod, visited.mem_iff, List.mem_singleton, exists_eq_left]
  rfl

theorem named_of_chain {chain : List ClassId} {method : Method}
    (found : chain.findSome? (graph.declaredMethod name descriptor) = some method) :
    method.name = name ∧ method.descriptor = descriptor := by
  rcases List.exists_of_findSome?_eq_some found with ⟨id, -, declared⟩
  have named := List.find?_some declared
  rwa [Bool.and_eq_true, beq_iff_eq, beq_iff_eq] at named

/-- Of a list in which each entry overwrites the result, the last one counts. -/
theorem foldl_overwrite {α β : Type} (value : α → β) (entries : List α) (start : β) :
    entries.foldl (fun _ entry => value entry) start =
      (entries.getLast?.map value).getD start := by
  induction entries using List.reverseRecOn with
  | nil => rfl
  | append_singleton entries last _ => simp

theorem exists_chain (acyclic : Acyclic graph.Extends) (klass : ClassId) :
    ∃ chain, DepthFirst graph.supers [klass] chain := by
  rcases exists_superOrder acyclic klass with ⟨above, visited⟩
  exact ⟨_, .cons visited .nil⟩

/-- `LookupMethod` ends with the nearest declaration on the superclass chain, or
else with what the last interface finds on its own. -/
theorem returns_lookupMethod (acyclic : Acyclic graph.Extends) {chain : List ClassId}
    (visited : DepthFirst graph.supers [klass] chain) :
    ∃ inherited : Option Method,
      Returns (fun fuel => graph.lookupMethod name descriptor fuel klass)
        ((chain.findSome? (graph.declaredMethod name descriptor)).or inherited) ∧
      (inherited.isSome ↔ ∃ last, (graph.info klass).interfaces.getLast? = some last ∧
        graph.ChainDeclares name descriptor last) ∧
      ∀ method, inherited = some method → method.name = name ∧ method.descriptor = descriptor := by
  choose chainOf visitedBy using exists_chain acyclic
  let found (id : ClassId) := (chainOf id).findSome? (graph.declaredMethod name descriptor)
  have overwritten : Returns (fun fuel => graph.lookupMethodInInterfaces name descriptor fuel klass)
      (((graph.info klass).interfaces.getLast?.map found).getD none) := by
    rw [← foldl_overwrite]
    exact returns_foldlM (fun _ id _ => returns_lookupMethodInClass (visitedBy id)) none
  refine ⟨((graph.info klass).interfaces.getLast?.map found).getD none,
    (returns_lookupMethodInClass visited).bind ?_, ?_, ?_⟩
  · cases chain.findSome? (graph.declaredMethod name descriptor) with
    | some method => exact .const (some method)
    | none => exact overwritten
  · cases (graph.info klass).interfaces.getLast? with
    | none => simp
    | some last =>
        simp only [Option.map_some, Option.getD_some, Option.some.injEq, exists_eq_left']
        exact isSome_chain_iff (visitedBy last)
  · intro method
    cases (graph.info klass).interfaces.getLast? with
    | none => exact nofun
    | some last => exact named_of_chain

/-- What the result of a lookup is to be. -/
structure MethodFound (graph : ClassGraph) (name descriptor : Str) (klass : ClassId)
    (result : Option Method) : Prop where
  found_iff : result.isSome ↔ graph.ChainDeclares name descriptor klass ∨
    graph.InterfaceDeclares name descriptor klass
  named : ∀ method, result = some method → method.name = name ∧ method.descriptor = descriptor
  /-- The nearest class comes before every interface. -/
  nearest : ∀ chain, DepthFirst graph.supers [klass] chain → ∀ method,
    chain.findSome? (graph.declaredMethod name descriptor) = some method → result = some method

/-- `LookupMethod` ends with the result that it is to have. -/
def ResolvesMethod (graph : ClassGraph) (name descriptor : Str) (klass : ClassId) : Prop :=
  ∃ result, Returns (fun fuel => graph.lookupMethod name descriptor fuel klass) result ∧
    graph.MethodFound name descriptor klass result

/-- For every finite hierarchy without cycles: `LookupMethod` is right exactly when
the class or a superclass declares the method, or when the last interface of the
class, with its own superclasses, declares it if any interface does. -/
theorem resolvesMethod_iff (acyclic : Acyclic graph.Extends) (name descriptor : Str)
    (klass : ClassId) :
    graph.ResolvesMethod name descriptor klass ↔
      graph.ChainDeclares name descriptor klass ∨
        (graph.InterfaceDeclares name descriptor klass ↔
          ∃ last, (graph.info klass).interfaces.getLast? = some last ∧
            graph.ChainDeclares name descriptor last) := by
  rcases exists_chain acyclic klass with ⟨chain, visited⟩
  rcases @returns_lookupMethod graph name descriptor klass acyclic chain visited with
    ⟨inherited, returns, inherited_iff, inherited_named⟩
  have chain_iff := @isSome_chain_iff graph name descriptor klass chain visited
  constructor
  · rintro ⟨result, returned, found⟩
    obtain rfl := returns.unique returned
    by_cases declared : graph.ChainDeclares name descriptor klass
    · exact .inl declared
    · rw [← chain_iff, Option.not_isSome_iff_eq_none] at declared
      have found_iff := found.found_iff
      rw [← chain_iff, declared, Option.none_or, inherited_iff] at found_iff
      simp only [Option.isSome_none, Bool.false_eq_true, false_or] at found_iff
      exact .inr found_iff.symm
  · intro condition
    refine ⟨_, returns, ?_, ?_, ?_⟩
    · rw [Option.isSome_or, Bool.or_eq_true, chain_iff, inherited_iff]
      rcases condition with declared | same
      · simp [declared]
      · rw [same]
    · intro method result
      rcases Option.or_eq_some_iff.mp result with onChain | ⟨-, fromInterface⟩
      · exact named_of_chain onChain
      · exact inherited_named method fromInterface
    · intro other otherVisited method onChain
      obtain rfl := visited.unique otherVisited
      rw [onChain, Option.some_or]

end ClassGraph

/-! ## Tables -/

namespace ClassTable

variable (table : ClassTable)

/-- On a table the lookups end with the results that the table gives. -/
theorem returns_lookupMethodInClass (name descriptor : Str) (id : ClassId) :
    Returns (fun fuel => table.graph.lookupMethodInClass name descriptor fuel id)
      (table.lookupMethodInClass id name descriptor) :=
  ClassGraph.returns_lookupMethodInClass (table.depthFirst_superChain id)

theorem returns_lookupMethod (name descriptor : Str) (id : ClassId) :
    Returns (fun fuel => table.graph.lookupMethod name descriptor fuel id)
      (table.lookupMethod id name descriptor) := by
  have overwritten : Returns
      (fun fuel => table.graph.lookupMethodInInterfaces name descriptor fuel id)
      (table.lookupMethodInInterfaces id name descriptor) :=
    returns_foldlM
      (fun _ interface _ => table.returns_lookupMethodInClass name descriptor interface) none
  refine (table.returns_lookupMethodInClass name descriptor id).bind ?_
  rw [lookupMethod]
  cases table.lookupMethodInClass id name descriptor with
  | some method => exact .const (some method)
  | none => exact overwritten

/-- The fuel of a table is enough for every class. -/
theorem findSome_lookupFieldFrom {name descriptor : Str} {roots order : List ClassId} {fuel : Nat}
    (visited : DepthFirst table.graph.parents roots order) (enough : ∀ root ∈ roots, root < fuel) :
    roots.findSome? (table.lookupFieldFrom name descriptor fuel) =
      order.findSome? (table.graph.declaredField name descriptor) := by
  induction visited generalizing fuel with
  | nil => rfl
  | @cons node rest below after _ _ inner others =>
      have here : node < fuel := enough node List.mem_cons_self
      rcases fuel with - | fuel
      · exact absurd here (Nat.not_lt_zero node)
      have higher : ∀ parent ∈ table.graph.parents node, parent < fuel := by
        intro parent mem
        exact Nat.lt_of_lt_of_le (table.lt_of_inherits mem) (Nat.le_of_lt_succ here)
      have searched := inner higher
      have above : (table.graph.supers node).findSome? (table.lookupFieldFrom name descriptor fuel) =
          (table.info node).superClass.bind (table.lookupFieldFrom name descriptor fuel) := by
        have same : table.graph.supers node = (table.info node).superClass.toList := rfl
        rw [same]
        cases (table.info node).superClass with
        | none => rfl
        | some super => exact findSome?_singleton _ super
      rw [ClassGraph.parents, List.findSome?_append, above] at searched
      rw [findSome?_cons_or, findSome?_cons_or, List.findSome?_append, ← searched,
        others fun root mem => enough root (List.mem_cons_of_mem _ mem), ← Option.or_assoc]
      rfl

theorem returns_lookupField (name descriptor : Str) (id : ClassId) :
    Returns (fun fuel => table.graph.lookupField name descriptor fuel id)
      (table.lookupField id name descriptor) := by
  have acc : Acc (fun upper lower => upper ∈ table.graph.parents lower) id :=
    table.acyclic_inherits.acc ClassGraph.finite_classes ClassGraph.lt_of_inherits id
  obtain ⟨order, visited⟩ := DepthFirst.exists_of_acc acc
  have enough : ∀ root ∈ [id], root < id + 1 := by simp
  have same : table.lookupField id name descriptor =
      order.findSome? (table.graph.declaredField name descriptor) := by
    rw [← table.findSome_lookupFieldFrom visited enough, findSome?_singleton]
    rfl
  rw [same]
  exact ClassGraph.returns_lookupField visited

end ClassTable

/-- `interface I` and `class Base` with a field `int f`, and `class Derived extends
Base implements I`. -/
def twoFields : ClassTable :=
  .ofClasses
    [{ name := str "I", accessFlags := 0x0600
       fields := [{ name := str "f", descriptor := str "I", klass := 0 }] },
      { name := str "Base"
        fields := [{ name := str "f", descriptor := str "I", klass := 1 }] },
      { name := str "Derived", superClass := some 1, interfaces := [0] }] (by decide)

theorem lookupField_found_derived :
    ∃ result, Returns (fun fuel => twoFields.graph.lookupField (str "f") (str "I") fuel 2) result ∧
      twoFields.graph.FieldFound (str "f") (str "I") 2 result :=
  ClassGraph.lookupField_found twoFields.acyclic_inherits (str "f") (str "I") 2

/-- `interface I` with a method `m()V`, `interface J`, and `class D implements J, I`. -/
def lastDeclares : ClassTable :=
  .ofClasses
    [{ name := str "java/lang/Object" },
      { name := str "I", accessFlags := 0x0600, superClass := some 0,
        methods := [{ name := str "m", descriptor := str "()V", klass := 1 }] },
      { name := str "J", accessFlags := 0x0600, superClass := some 0 },
      { name := str "D", superClass := some 0, interfaces := [2, 1] }] (by decide)

/-- `D` has the method from the last of its two interfaces. -/
theorem resolvesMethod_lastInterface :
    lastDeclares.graph.ResolvesMethod (str "m") (str "()V") 3 := by
  apply (ClassGraph.resolvesMethod_iff lastDeclares.acyclic_extends _ _ 3).mpr
  right
  constructor
  · intro _
    exact ⟨1, rfl, 1, .refl, by decide⟩
  · intro _
    exact ⟨3, 1, .refl, .single (by decide), by decide⟩

/-- `interface I` with a method `m()V`, `interface J`, and `class C implements I, J`. -/
def twoInterfaces : ClassTable :=
  .ofClasses
    [{ name := str "java/lang/Object" },
      { name := str "I", accessFlags := 0x0600, superClass := some 0,
        methods := [{ name := str "m", descriptor := str "()V", klass := 1 }] },
      { name := str "J", accessFlags := 0x0600, superClass := some 0 },
      { name := str "C", superClass := some 0, interfaces := [1, 2] }] (by decide)

/-- `C` has the method from the first of its two interfaces. -/
theorem first_interface_not_found :
    ¬ twoInterfaces.graph.ResolvesMethod (str "m") (str "()V") 3 := by
  rintro ⟨result, ⟨bound, returns⟩, found⟩
  have declares : twoInterfaces.graph.InterfaceDeclares (str "m") (str "()V") 3 :=
    ⟨3, 1, .refl, .single (by decide), by decide⟩
  have missed : twoInterfaces.graph.lookupMethod (str "m") (str "()V") (bound + 2) 3 =
      .ok none := by
    rfl
  have same := (returns (bound + 2) (Nat.le_add_right bound 2)).symm.trans missed
  rw [Except.ok.injEq] at same
  rw [same] at found
  exact Bool.false_ne_true (found.found_iff.mpr (.inr declares))

end JvmDemo.Runtime
