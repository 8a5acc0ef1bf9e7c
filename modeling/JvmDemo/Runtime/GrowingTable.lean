import JvmDemo.Runtime.Class

/-!
# Tables that grow

Loading puts classes behind those of the table.  As pointers lead to older classes
only, everything that is looked up from an older class stays as it was.
-/

namespace JvmDemo.Runtime

open JvmDemo.Lib

namespace ClassTable

/-- The later table has the classes of the table, and others behind them. -/
def Grown (table later : ClassTable) : Prop := table.classes <+: later.classes

variable {table later : ClassTable} {id owner : ClassId} {name descriptor : Str}

theorem Grown.info_eq (grown : table.Grown later) (inside : id < table.classes.length) :
    later.info id = table.info id := by
  rcases grown with ⟨more, classes⟩
  rw [info, info, ← classes, List.getD_eq_getElem?_getD, List.getD_eq_getElem?_getD,
    List.getElem?_append_left inside]

/-- What a class has that is not in the table. -/
theorem info_of_le (outside : table.classes.length ≤ id) : table.info id = {} := by
  rw [info, List.getD_eq_getElem?_getD, List.getElem?_eq_none outside]
  rfl

theorem Grown.superChain_eq (grown : table.Grown later) (inside : id < table.classes.length) :
    later.superChain id = table.superChain id := by
  induction id using Nat.strongRecOn with
  | ind id ih =>
      rw [ClassTable.superChain_eq, ClassTable.superChain_eq, grown.info_eq inside]
      cases superEq : (table.info id).superClass with
      | none => rfl
      | some super =>
          have below := table.superClass_lt id super superEq
          simp only [ih super below (below.trans inside)]

/-- The classes of a chain are in the table. -/
theorem lt_length_of_mem_superChain {ancestor : ClassId} (inside : id < table.classes.length)
    (mem : ancestor ∈ table.superChain id) : ancestor < table.classes.length :=
  Nat.lt_of_le_of_lt (table.le_of_mem_superChain mem) inside

/-- A search over classes of the table finds the same. -/
theorem Grown.findSome?_eq {α : Type} (grown : table.Grown later) (find : ClassInfo → Option α)
    {classes : List ClassId} (inside : ∀ id ∈ classes, id < table.classes.length) :
    (classes.findSome? fun id => find (later.info id)) =
      classes.findSome? fun id => find (table.info id) := by
  induction classes with
  | nil => rfl
  | cons id classes ih =>
      rw [List.findSome?_cons, List.findSome?_cons, grown.info_eq (inside id List.mem_cons_self),
        ih fun other mem => inside other (List.mem_cons_of_mem _ mem)]

theorem Grown.lookupMethodInClass_eq (grown : table.Grown later)
    (inside : id < table.classes.length) :
    later.lookupMethodInClass id name descriptor =
      table.lookupMethodInClass id name descriptor := by
  rw [lookupMethodInClass, grown.superChain_eq inside]
  exact grown.findSome?_eq
    (fun info => info.methods.find? fun method =>
      method.name == name && method.descriptor == descriptor)
    fun ancestor mem => lt_length_of_mem_superChain inside mem

/-- The interfaces of a class are in the table. -/
theorem lt_length_of_mem_interfaces {interface : ClassId} (inside : id < table.classes.length)
    (mem : interface ∈ (table.info id).interfaces) : interface < table.classes.length :=
  (table.interface_lt id interface mem).trans inside

theorem Grown.lookupMethodInInterfaces_eq (grown : table.Grown later)
    (inside : id < table.classes.length) :
    later.lookupMethodInInterfaces id name descriptor =
      table.lookupMethodInInterfaces id name descriptor := by
  have older : ∀ interface ∈ (table.info id).interfaces, interface < table.classes.length :=
    fun interface mem => lt_length_of_mem_interfaces inside mem
  rw [lookupMethodInInterfaces, lookupMethodInInterfaces, grown.info_eq inside]
  generalize (none : Option Method) = found
  generalize (table.info id).interfaces = interfaces at older
  induction interfaces generalizing found with
  | nil => rfl
  | cons interface interfaces ih =>
      rw [List.foldl_cons, List.foldl_cons,
        grown.lookupMethodInClass_eq (older interface List.mem_cons_self)]
      exact ih _ fun other mem => older other (List.mem_cons_of_mem _ mem)

theorem Grown.lookupMethod_eq (grown : table.Grown later) (inside : id < table.classes.length) :
    later.lookupMethod id name descriptor = table.lookupMethod id name descriptor := by
  rw [lookupMethod, lookupMethod, grown.lookupMethodInClass_eq inside,
    grown.lookupMethodInInterfaces_eq inside]

theorem Grown.lookupFieldFrom_eq (grown : table.Grown later) (fuel : Nat)
    (inside : id < table.classes.length) :
    later.lookupFieldFrom name descriptor fuel id =
      table.lookupFieldFrom name descriptor fuel id := by
  induction fuel generalizing id with
  | zero => rfl
  | succ fuel ih =>
      have inherited : ∀ interfaces : List ClassId,
          (∀ interface ∈ interfaces, interface < table.classes.length) →
          interfaces.findSome? (later.lookupFieldFrom name descriptor fuel) =
            interfaces.findSome? (table.lookupFieldFrom name descriptor fuel) := by
        intro interfaces older
        induction interfaces with
        | nil => rfl
        | cons interface interfaces ihRest =>
            rw [List.findSome?_cons, List.findSome?_cons, ih (older interface List.mem_cons_self),
              ihRest fun other mem => older other (List.mem_cons_of_mem _ mem)]
      have above : (table.info id).superClass.bind (later.lookupFieldFrom name descriptor fuel) =
          (table.info id).superClass.bind (table.lookupFieldFrom name descriptor fuel) := by
        cases superEq : (table.info id).superClass with
        | none => rfl
        | some super => exact ih ((table.superClass_lt id super superEq).trans inside)
      rw [lookupFieldFrom, lookupFieldFrom, grown.info_eq inside, above,
        inherited _ fun interface mem => lt_length_of_mem_interfaces inside mem]

theorem Grown.lookupField_eq (grown : table.Grown later) (inside : id < table.classes.length) :
    later.lookupField id name descriptor = table.lookupField id name descriptor :=
  grown.lookupFieldFrom_eq (id + 1) inside

/-! ## Members of the table -/

/-- A class that declares something is in the table. -/
theorem lt_length_of_methods {method : Method} (mem : method ∈ (table.info id).methods) :
    id < table.classes.length := by
  by_contra outside
  rw [info_of_le (Nat.le_of_not_lt outside)] at mem
  exact absurd mem List.not_mem_nil

theorem lt_length_of_fields {field : Field} (mem : field ∈ (table.info id).fields) :
    id < table.classes.length := by
  by_contra outside
  rw [info_of_le (Nat.le_of_not_lt outside)] at mem
  exact absurd mem List.not_mem_nil

theorem lt_length_of_constant {index : Nat} {constant : Constant}
    (found : (table.info id).getConstant index = some constant) : id < table.classes.length := by
  by_contra outside
  rw [info_of_le (Nat.le_of_not_lt outside)] at found
  cases found

/-- A method that is found belongs to a class of the table. -/
theorem klass_lt_of_lookupMethodInClass {method : Method}
    (found : table.lookupMethodInClass id name descriptor = some method) :
    method.klass < table.classes.length := by
  rcases List.exists_of_findSome?_eq_some found with ⟨klass, -, declared⟩
  have mem := List.mem_of_find?_eq_some declared
  rw [table.method_klass klass method mem]
  exact lt_length_of_methods mem

theorem klass_lt_of_lookupMethod {method : Method}
    (found : table.lookupMethod id name descriptor = some method) :
    method.klass < table.classes.length := by
  unfold lookupMethod at found
  split at found
  · next first declared =>
      cases found
      exact klass_lt_of_lookupMethodInClass declared
  · unfold lookupMethodInInterfaces at found
    revert found
    have start : ∀ method : Method, (none : Option Method) = some method →
        method.klass < table.classes.length := by
      intro method none
      cases none
    generalize (none : Option Method) = before at start
    generalize (table.info id).interfaces = interfaces
    induction interfaces generalizing before with
    | nil => exact fun found => start method found
    | cons interface interfaces ih =>
        exact ih _ fun method declared => klass_lt_of_lookupMethodInClass declared

theorem klass_lt_of_lookupFieldFrom {fuel : Nat} {field : Field}
    (found : table.lookupFieldFrom name descriptor fuel id = some field) :
    field.klass < table.classes.length := by
  induction fuel generalizing id with
  | zero => cases found
  | succ fuel ih =>
      rcases Option.or_eq_some_iff.mp found with own | ⟨-, others⟩
      · have mem := List.mem_of_find?_eq_some own
        rw [table.field_klass id field mem]
        exact lt_length_of_fields mem
      · rcases Option.or_eq_some_iff.mp others with inherited | ⟨-, above⟩
        · rcases List.exists_of_findSome?_eq_some inherited with ⟨interface, -, there⟩
          exact ih there
        · rcases Option.bind_eq_some_iff.mp above with ⟨super, -, there⟩
          exact ih there

/-! ## Access -/

theorem Grown.isAccessibleTo_eq (grown : table.Grown later) (inside : id < table.classes.length)
    (ownerInside : owner < table.classes.length) :
    later.isAccessibleTo id owner = table.isAccessibleTo id owner := by
  rw [isAccessibleTo, isAccessibleTo, grown.info_eq inside, grown.info_eq ownerInside]

theorem Grown.isMemberAccessibleTo_eq (grown : table.Grown later) {member : ClassMember}
    (inside : member.klass < table.classes.length) :
    later.isMemberAccessibleTo member owner = table.isMemberAccessibleTo member owner := by
  rw [isMemberAccessibleTo, isMemberAccessibleTo, grown.info_eq inside, isSubClassOf,
    grown.superChain_eq inside, ← isSubClassOf]

theorem Grown.resolveMethodIn_eq (grown : table.Grown later) (inside : id < table.classes.length) :
    later.resolveMethodIn owner id name descriptor =
      table.resolveMethodIn owner id name descriptor := by
  rw [resolveMethodIn, resolveMethodIn, grown.lookupMethod_eq inside]
  cases found : table.lookupMethod id name descriptor with
  | none => rfl
  | some method =>
      dsimp only
      rw [grown.isMemberAccessibleTo_eq (klass_lt_of_lookupMethod found)]

end ClassTable

end JvmDemo.Runtime
