import JvmDemo.Instructions.Reference
import JvmDemo.Runtime.ClassGraph
import Mathlib.Data.List.GetD
import Mathlib.Logic.Relation

/-!
# Subtyping in `instanceof` and `checkcast`

`IsAssignableFrom(s, t)` is to say whether a value of type `t` may be assigned to
a variable of type `s`.  For two classes and for an interface and a class, the
source passes its arguments to the helper predicates the wrong way round.  The
other combinations are right, and arrays inherit the answer for their components.

`Misjudged` collects the pairs for which the answer is wrong.  It is exactly the
set of pairs that are related through a class that is neither an interface nor an
array, below any number of common array dimensions.
-/

namespace JvmDemo.Instructions

open JvmDemo.Lib
open JvmDemo.Runtime

/-! ## The subtype relation -/

section Relations

variable (table : ClassTable)

/-- `t` is an array of `c`. -/
def ComponentOf (c t : ClassId) : Prop :=
  (table.info t).isArrayClass = true ∧ table.getComponentClass t = .ok c

/-- `t` lists the interface, or one that extends it. -/
def Implements (t interface : ClassId) : Prop :=
  Relation.TransGen (fun lower upper => upper ∈ (table.info lower).interfaces) t interface

/-- The types that stand above every array. -/
def isArraySupertype (name : Str) : Bool :=
  name == str "java/lang/Object" || name == str "java/lang/Cloneable" ||
    name == str "java/io/Serializable"

/-- `t` is a subtype of `s`. -/
inductive IsSubtype : ClassId → ClassId → Prop where
  | refl (t : ClassId) : IsSubtype t t
  | superClass {t s : ClassId} (above : s ∈ (table.superChain t).tail) : IsSubtype t s
  | implements {t ancestor s : ClassId} (above : ancestor ∈ table.superChain t)
      (implements : Implements table ancestor s) : IsSubtype t s
  | interfaceObject {t s : ClassId} (isInterface : (table.info t).isInterface = true)
      (isObject : (table.info s).name = str "java/lang/Object") : IsSubtype t s
  | array {t s : ClassId} (isArray : (table.info t).isArrayClass = true)
      (isAbove : isArraySupertype (table.info s).name = true) : IsSubtype t s
  | primitives {t s c : ClassId} (component : ComponentOf table c t)
      (same : ComponentOf table c s) (isPrimitive : table.isPrimitive c = true) : IsSubtype t s
  | components {t s tc sc : ClassId} (component : ComponentOf table tc t)
      (other : ComponentOf table sc s) (related : IsSubtype tc sc) : IsSubtype t s

/-- The pairs `s`, `t` for which the answer of `IsAssignableFrom(s, t)` is wrong. -/
inductive Misjudged : ClassId → ClassId → Prop where
  | classes {s t : ClassId} (isClass : (table.info t).isInterface = false)
      (notArray : (table.info t).isArrayClass = false)
      (isClass' : (table.info s).isInterface = false)
      (related : s ∈ (table.superChain t).tail ∨ t ∈ (table.superChain s).tail) : Misjudged s t
  | interface {s t ancestor : ClassId} (isClass : (table.info t).isInterface = false)
      (notArray : (table.info t).isArrayClass = false)
      (isInterface : (table.info s).isInterface = true) (above : ancestor ∈ table.superChain t)
      (implements : Implements table ancestor s) : Misjudged s t
  | components {s t sc tc : ClassId} (other : ComponentOf table sc s)
      (component : ComponentOf table tc t) (misjudged : Misjudged sc tc) : Misjudged s t

end Relations

/-- The classes of a table form a hierarchy under `java/lang/Object`. -/
structure Hierarchy (table : ClassTable) : Prop where
  name_injective : ∀ id other, id < table.classes.length → other < table.classes.length →
    (table.info id).name = (table.info other).name → id = other
  /-- `Object` is at the top. -/
  object : ∀ id, (table.info id).name = str "java/lang/Object" →
    (table.info id).superClass = none ∧ (table.info id).interfaces = [] ∧
      (table.info id).isInterface = false
  /-- A class that extends nothing is `Object` or primitive. -/
  rooted : ∀ id < table.classes.length, (table.info id).superClass = none →
    (table.info id).name = str "java/lang/Object" ∨ table.isPrimitive id = true
  primitive : ∀ id, table.isPrimitive id = true → (table.info id).superClass = none ∧
    (table.info id).interfaces = [] ∧ (table.info id).isInterface = false
  /-- Only classes are extended. -/
  superClass : ∀ id super, (table.info id).superClass = some super →
    (table.info super).isInterface = false ∧ (table.info super).isArrayClass = false
  /-- Only interfaces are implemented. -/
  interfaces : ∀ id interface, interface ∈ (table.info id).interfaces →
    (table.info interface).isInterface = true
  /-- The superclass of an interface is `Object`. -/
  interface_super : ∀ id super, (table.info id).isInterface = true →
    (table.info id).superClass = some super →
    (table.info super).name = str "java/lang/Object"
  /-- `Cloneable` and `Serializable` are interfaces that extend none. -/
  markers : ∀ id, (table.info id).name = str "java/lang/Cloneable" ∨
    (table.info id).name = str "java/io/Serializable" →
    (table.info id).isInterface = true ∧ (table.info id).interfaces = []
  /-- An array class is as `StartLoadArrayClass` makes it, and its component class
  belongs to the hierarchy. -/
  array : ∀ id, (table.info id).isArrayClass = true → (table.info id).isInterface = false ∧
    (∀ super, (table.info id).superClass = some super →
      (table.info super).name = str "java/lang/Object") ∧
    (∀ interface ∈ (table.info id).interfaces,
      (table.info interface).name = str "java/lang/Cloneable" ∨
        (table.info interface).name = str "java/io/Serializable") ∧
    ∃ c, table.getComponentClass id = .ok c

/-! ## The helper predicates -/

section Helpers

variable {table : ClassTable}

theorem isSubInterfaceOfFrom_iff {t : ClassId} {fuel : Nat} {s : ClassId} (enough : s < fuel) :
    table.isSubInterfaceOfFrom t fuel s = true ↔ Implements table s t := by
  induction fuel generalizing s with
  | zero => exact absurd enough (Nat.not_lt_zero s)
  | succ fuel ih =>
      rw [ClassTable.isSubInterfaceOfFrom, List.any_eq_true]
      constructor
      · rintro ⟨interface, listed, found⟩
        have older : interface < fuel := Nat.lt_of_lt_of_le
          (table.interface_lt s interface listed) (Nat.le_of_lt_succ enough)
        rcases Bool.or_eq_true_iff.mp found with same | above
        · rw [← eq_of_beq same]
          exact .single listed
        · exact .head listed ((ih older).mp above)
      · intro implements
        rcases Relation.TransGen.head'_iff.mp implements with ⟨interface, listed, rest⟩
        have older : interface < fuel := Nat.lt_of_lt_of_le
          (table.interface_lt s interface listed) (Nat.le_of_lt_succ enough)
        refine ⟨interface, listed, Bool.or_eq_true_iff.mpr ?_⟩
        rcases Relation.reflTransGen_iff_eq_or_transGen.mp rest with same | above
        · exact .inl (beq_iff_eq.mpr same.symm)
        · exact .inr ((ih older).mpr above)

theorem isSubInterfaceOf_iff {s t : ClassId} :
    table.isSubInterfaceOf s t = true ↔ Implements table s t :=
  isSubInterfaceOfFrom_iff (Nat.lt_succ_self s)

/-- One level of `IsImplements` is one level of `IsSubInterfaceOf`. -/
theorem isImplements_iff {s t : ClassId} :
    table.isImplements s t = true ↔ Implements table s t := by
  have sameLoop : table.isImplements s t = table.isSubInterfaceOf s t := by
    rw [ClassTable.isImplements, ClassTable.isSubInterfaceOf, ClassTable.isSubInterfaceOfFrom,
      Bool.eq_iff_iff, List.any_eq_true, List.any_eq_true]
    refine exists_congr fun interface => and_congr_right fun listed => ?_
    rw [Bool.or_eq_true_iff, Bool.or_eq_true_iff, isSubInterfaceOf_iff,
      isSubInterfaceOfFrom_iff (table.interface_lt s interface listed)]
  rw [sameLoop, isSubInterfaceOf_iff]

/-- On a table `IsImplements` ends with the answer that the table gives. -/
theorem returns_isImplements (s t : ClassId) :
    Returns (fun fuel => table.graph.isImplements fuel s t) (table.isImplements s t) := by
  obtain ⟨answer, returns, meaning⟩ := ClassGraph.returns_isImplements table.acyclic_lists s t
  have same : answer = table.isImplements s t := by
    rw [Bool.eq_iff_iff, meaning, isImplements_iff]
    rfl
  rw [← same]
  exact returns

end Helpers

/-! ## What a hierarchy excludes -/

namespace Hierarchy

variable {table : ClassTable} (hierarchy : Hierarchy table)

include hierarchy

theorem isInterface_of_implements {t interface : ClassId}
    (implements : Implements table t interface) : (table.info interface).isInterface = true := by
  rcases Relation.TransGen.tail'_iff.mp implements with ⟨lower, -, listed⟩
  exact hierarchy.interfaces lower interface listed

/-- Nothing above a class is an interface or an array. -/
theorem isClass_of_mem_tail {id ancestor : ClassId}
    (above : ancestor ∈ (table.superChain id).tail) :
    (table.info ancestor).isInterface = false ∧ (table.info ancestor).isArrayClass = false := by
  induction id using Nat.strongRecOn with
  | ind id ih =>
      rcases table.mem_tail_superChain_iff.mp above with ⟨super, superEq, onChain⟩
      rcases table.mem_superChain_iff.mp onChain with rfl | higher
      · exact hierarchy.superClass id _ superEq
      · exact ih super (table.superClass_lt id super superEq) higher

/-- Above a class whose superclass is `Object` there is only `Object`. -/
theorem isObject_of_mem_tail {id ancestor : ClassId}
    (topped : ∀ super, (table.info id).superClass = some super →
      (table.info super).name = str "java/lang/Object")
    (above : ancestor ∈ (table.superChain id).tail) :
    (table.info ancestor).name = str "java/lang/Object" := by
  rcases table.mem_tail_superChain_iff.mp above with ⟨super, superEq, onChain⟩
  have isObject := topped super superEq
  rcases table.mem_superChain_iff.mp onChain with rfl | higher
  · exact isObject
  · rcases table.mem_tail_superChain_iff.mp higher with ⟨top, topEq, -⟩
    rw [(hierarchy.object super isObject).1] at topEq
    cases topEq

theorem not_implements_of_isObject {id interface : ClassId}
    (isObject : (table.info id).name = str "java/lang/Object") :
    ¬ Implements table id interface := by
  intro implements
  rcases Relation.TransGen.head'_iff.mp implements with ⟨first, listed, -⟩
  rw [(hierarchy.object id isObject).2.1] at listed
  cases listed

/-- What is implemented above a class whose superclass is `Object` is implemented
by the class itself. -/
theorem implements_of_topped {id ancestor interface : ClassId}
    (topped : ∀ super, (table.info id).superClass = some super →
      (table.info super).name = str "java/lang/Object")
    (above : ancestor ∈ table.superChain id) (implements : Implements table ancestor interface) :
    Implements table id interface := by
  rcases table.mem_superChain_iff.mp above with rfl | higher
  · exact implements
  · exact absurd implements
      (hierarchy.not_implements_of_isObject (hierarchy.isObject_of_mem_tail topped higher))

/-- An array implements exactly what is written above every array. -/
theorem isArraySupertype_of_implements {id interface : ClassId}
    (isArray : (table.info id).isArrayClass = true) (implements : Implements table id interface) :
    isArraySupertype (table.info interface).name = true := by
  rcases hierarchy.array id isArray with ⟨-, -, markers, -⟩
  rcases Relation.TransGen.head'_iff.mp implements with ⟨marker, listed, rest⟩
  rcases Relation.ReflTransGen.cases_head rest with rfl | ⟨higher, extended, -⟩
  · rcases markers marker listed with isMarker | isMarker
    · simp [isArraySupertype, isMarker]
    · simp [isArraySupertype, isMarker]
  · rw [(hierarchy.markers marker (markers marker listed)).2] at extended
    cases extended

end Hierarchy

/-! ## The cases of the relation -/

section Cases

variable {table : ClassTable} {s t : ClassId}

theorem ComponentOf.unique {c other : ClassId} (first : ComponentOf table c t)
    (second : ComponentOf table other t) : c = other :=
  Except.ok.inj (first.2.symm.trans second.2)

theorem not_componentOf {c : ClassId} (notArray : (table.info t).isArrayClass = false) :
    ¬ ComponentOf table c t := by
  rintro ⟨isArray, -⟩
  simp [notArray] at isArray

theorem not_isArray_of_above (isAbove : isArraySupertype (table.info s).name = true) :
    (table.info s).isArrayClass = false := by
  simp only [isArraySupertype, Bool.or_eq_true, beq_iff_eq] at isAbove
  rcases isAbove with (isObject | isCloneable) | isSerializable
  · rw [ClassInfo.isArrayClass, isObject]
    decide
  · rw [ClassInfo.isArrayClass, isCloneable]
    decide
  · rw [ClassInfo.isArrayClass, isSerializable]
    decide

/-- A type that is not an array. -/
theorem isSubtype_iff_of_notArray (notArray : (table.info t).isArrayClass = false) :
    IsSubtype table t s ↔ s = t ∨ s ∈ (table.superChain t).tail ∨
      (∃ ancestor ∈ table.superChain t, Implements table ancestor s) ∨
      ((table.info t).isInterface = true ∧ (table.info s).name = str "java/lang/Object") := by
  constructor
  · intro subtype
    cases subtype with
    | refl => exact .inl rfl
    | superClass above => exact .inr (.inl above)
    | implements above implements => exact .inr (.inr (.inl ⟨_, above, implements⟩))
    | interfaceObject isInterface isObject => exact .inr (.inr (.inr ⟨isInterface, isObject⟩))
    | array isArray isAbove => simp [notArray] at isArray
    | primitives component same isPrimitive => exact absurd component (not_componentOf notArray)
    | components component other related => exact absurd component (not_componentOf notArray)
  · rintro (rfl | above | ⟨ancestor, above, implements⟩ | ⟨isInterface, isObject⟩)
    · exact .refl _
    · exact .superClass above
    · exact .implements above implements
    · exact .interfaceObject isInterface isObject

theorem Misjudged.ne (misjudged : Misjudged table s t) : s ≠ t := by
  induction misjudged with
  | classes isClass notArray isClass' related =>
      rcases related with above | below
      · exact Nat.ne_of_lt (table.lt_of_mem_tail_superChain above)
      · exact Nat.ne_of_gt (table.lt_of_mem_tail_superChain below)
  | interface isClass notArray isInterface above implements =>
      rintro rfl
      rw [isClass] at isInterface
      cases isInterface
  | components other component misjudged ih =>
      rintro rfl
      exact ih (other.unique component)

/-- Nothing is misjudged against an interface or, unless both are arrays, against
an array. -/
theorem not_misjudged_of
    (isOther : (table.info t).isInterface = true ∨ (table.info t).isArrayClass = true)
    (notBoth : (table.info s).isArrayClass = false ∨ (table.info t).isArrayClass = false) :
    ¬ Misjudged table s t := by
  intro wrong
  cases wrong with
  | classes isClass notArray => simp [isClass, notArray] at isOther
  | interface isClass notArray => simp [isClass, notArray] at isOther
  | components other component =>
      rcases notBoth with notArray | notArray
      · exact not_componentOf notArray other
      · exact not_componentOf notArray component

/-! ## The judgement for each combination -/

/-- The answer `b` of `IsAssignableFrom(s, t)` is right except where it is
expected to be wrong. -/
def JudgedBy (table : ClassTable) (s t : ClassId) (b : Bool) : Prop :=
  (b = true ↔ IsSubtype table t s) ↔ ¬ Misjudged table s t

variable (hierarchy : Hierarchy table)

include hierarchy

/-- Two classes that are not interfaces, of which the second is no array: the
answer is the converse of the right one. -/
theorem judgedBy_classes (differ : s ≠ t) (notArray : (table.info t).isArrayClass = false)
    (isClass : (table.info t).isInterface = false)
    (isClass' : (table.info s).isInterface = false) :
    JudgedBy table s t (table.isSubClassOf s t) := by
  have subtype : IsSubtype table t s ↔ s ∈ (table.superChain t).tail := by
    rw [isSubtype_iff_of_notArray notArray]
    constructor
    · rintro (same | above | ⟨ancestor, -, implements⟩ | ⟨isInterface, -⟩)
      · exact absurd same differ
      · exact above
      · simp [hierarchy.isInterface_of_implements implements] at isClass'
      · simp [isClass] at isInterface
    · exact fun above => .inr (.inl above)
  have answer : table.isSubClassOf s t = true ↔ t ∈ (table.superChain s).tail := by
    rw [ClassTable.isSubClassOf, List.contains_iff_mem]
  have misjudged : Misjudged table s t ↔
      s ∈ (table.superChain t).tail ∨ t ∈ (table.superChain s).tail := by
    constructor
    · intro wrong
      cases wrong with
      | classes _ _ _ related => exact related
      | interface _ _ isInterface => simp [isClass'] at isInterface
      | components _ component => exact absurd component (not_componentOf notArray)
    · exact fun related => .classes isClass notArray isClass' related
  rw [JudgedBy, subtype, answer, misjudged]
  constructor
  · rintro agree (above | below)
    · exact Nat.lt_asymm (table.lt_of_mem_tail_superChain above)
        (table.lt_of_mem_tail_superChain (agree.mpr above))
    · exact Nat.lt_asymm (table.lt_of_mem_tail_superChain below)
        (table.lt_of_mem_tail_superChain (agree.mp below))
  · intro unrelated
    exact ⟨fun below => absurd (.inr below) unrelated, fun above => absurd (.inl above) unrelated⟩

/-- An interface and a class that is no array: the answer is always negative. -/
theorem judgedBy_interface (notArray : (table.info t).isArrayClass = false)
    (isClass : (table.info t).isInterface = false)
    (isInterface : (table.info s).isInterface = true) :
    JudgedBy table s t (table.isImplements s t) := by
  have subtype : IsSubtype table t s ↔
      ∃ ancestor ∈ table.superChain t, Implements table ancestor s := by
    rw [isSubtype_iff_of_notArray notArray]
    constructor
    · rintro (rfl | above | implemented | ⟨isInterface', -⟩)
      · simp [isClass] at isInterface
      · simp [(hierarchy.isClass_of_mem_tail above).1] at isInterface
      · exact implemented
      · simp [isClass] at isInterface'
    · exact fun implemented => .inr (.inr (.inl implemented))
  have answer : table.isImplements s t = false := by
    rw [← Bool.not_eq_true, isImplements_iff]
    intro implements
    simp [hierarchy.isInterface_of_implements implements] at isClass
  have misjudged : Misjudged table s t ↔
      ∃ ancestor ∈ table.superChain t, Implements table ancestor s := by
    constructor
    · intro wrong
      cases wrong with
      | classes _ _ isClass' => simp [isInterface] at isClass'
      | interface _ _ _ above implements => exact ⟨_, above, implements⟩
      | components _ component => exact absurd component (not_componentOf notArray)
    · rintro ⟨ancestor, above, implements⟩
      exact .interface isClass notArray isInterface above implements
  rw [JudgedBy, subtype, answer, misjudged]
  simp

/-- A class and an interface. -/
theorem judgedBy_class_interface (differ : s ≠ t) (notArray : (table.info t).isArrayClass = false)
    (isInterface : (table.info t).isInterface = true)
    (isClass : (table.info s).isInterface = false) :
    JudgedBy table s t ((table.info s).name == str "java/lang/Object") := by
  have right := not_misjudged_of (s := s) (.inl isInterface) (.inr notArray)
  rw [JudgedBy, beq_iff_eq, isSubtype_iff_of_notArray notArray]
  refine iff_of_true ?_ right
  constructor
  · exact fun isObject => .inr (.inr (.inr ⟨isInterface, isObject⟩))
  · rintro (same | above | ⟨ancestor, -, implements⟩ | ⟨-, isObject⟩)
    · exact absurd same differ
    · exact hierarchy.isObject_of_mem_tail
        (fun super => hierarchy.interface_super t super isInterface) above
    · simp [hierarchy.isInterface_of_implements implements] at isClass
    · exact isObject

/-- Two interfaces. -/
theorem judgedBy_interfaces (differ : s ≠ t) (notArray : (table.info t).isArrayClass = false)
    (isInterface : (table.info t).isInterface = true)
    (isInterface' : (table.info s).isInterface = true) :
    JudgedBy table s t (table.isSubInterfaceOf t s) := by
  have right := not_misjudged_of (s := s) (.inl isInterface) (.inr notArray)
  rw [JudgedBy, isSubInterfaceOf_iff, isSubtype_iff_of_notArray notArray]
  refine iff_of_true ?_ right
  constructor
  · exact fun implements => .inr (.inr (.inl ⟨t, table.mem_superChain_self t, implements⟩))
  · rintro (same | above | ⟨ancestor, above, implements⟩ | ⟨-, isObject⟩)
    · exact absurd same differ
    · simp [(hierarchy.isClass_of_mem_tail above).1] at isInterface'
    · exact hierarchy.implements_of_topped
        (fun super => hierarchy.interface_super t super isInterface) above implements
    · simp [(hierarchy.object s isObject).2.2] at isInterface'

/-- The supertypes of an array that are no arrays. -/
theorem isSubtype_array_iff (isArray : (table.info t).isArrayClass = true)
    (notArray : (table.info s).isArrayClass = false) :
    IsSubtype table t s ↔ isArraySupertype (table.info s).name = true := by
  rcases hierarchy.array t isArray with ⟨isClass, topped, -, -⟩
  constructor
  · intro subtype
    cases subtype with
    | refl => simp [notArray] at isArray
    | superClass above => simp [isArraySupertype, hierarchy.isObject_of_mem_tail topped above]
    | implements above implements =>
        exact hierarchy.isArraySupertype_of_implements isArray
          (hierarchy.implements_of_topped topped above implements)
    | interfaceObject isInterface isObject => simp [isClass] at isInterface
    | array _ isAbove => exact isAbove
    | primitives component same => exact absurd same (not_componentOf notArray)
    | components component other => exact absurd other (not_componentOf notArray)
  · exact fun isAbove => .array isArray isAbove

/-- A class that is no array, and an array. -/
theorem judgedBy_class_array (isArray : (table.info t).isArrayClass = true)
    (notArray : (table.info s).isArrayClass = false)
    (isClass : (table.info s).isInterface = false) :
    JudgedBy table s t ((table.info s).name == str "java/lang/Object") := by
  have right := not_misjudged_of (.inr isArray) (.inl notArray)
  rw [JudgedBy, beq_iff_eq, isSubtype_array_iff hierarchy isArray notArray]
  refine iff_of_true ?_ right
  constructor
  · intro isObject
    simp [isArraySupertype, isObject]
  · intro isAbove
    simp only [isArraySupertype, Bool.or_eq_true, beq_iff_eq, or_assoc] at isAbove
    rcases isAbove with isObject | isMarker
    · exact isObject
    · simp [(hierarchy.markers s isMarker).1] at isClass

/-- An interface and an array. -/
theorem judgedBy_interface_array (isArray : (table.info t).isArrayClass = true)
    (notArray : (table.info s).isArrayClass = false)
    (isInterface : (table.info s).isInterface = true) :
    JudgedBy table s t ((table.info s).name == str "java/lang/Cloneable" ||
      (table.info s).name == str "java/io/Serializable") := by
  have right := not_misjudged_of (.inr isArray) (.inl notArray)
  rw [JudgedBy, isSubtype_array_iff hierarchy isArray notArray]
  refine iff_of_true ?_ right
  constructor
  · intro isMarker
    simp only [isArraySupertype, Bool.or_assoc, isMarker, Bool.or_true]
  · intro isAbove
    rw [isArraySupertype, Bool.or_assoc, Bool.or_eq_true, beq_iff_eq] at isAbove
    rcases isAbove with isObject | isMarker
    · simp [(hierarchy.object s isObject).2.2] at isInterface
    · exact isMarker

/-- Two arrays: the answer for the components is carried over, right or wrong. -/
theorem judgedBy_components {sc tc : ClassId} (differ : s ≠ t) (other : ComponentOf table sc s)
    (component : ComponentOf table tc t) {b : Bool} (judged : JudgedBy table sc tc b) :
    JudgedBy table s t b := by
  rcases hierarchy.array t component.1 with ⟨isClass, topped, -, -⟩
  have subtype : IsSubtype table t s ↔ IsSubtype table tc sc := by
    constructor
    · intro related
      cases related with
      | refl => exact absurd rfl differ
      | superClass above =>
          exact absurd other (not_componentOf (hierarchy.isClass_of_mem_tail above).2)
      | implements above implements =>
          have isInterface := hierarchy.isInterface_of_implements implements
          simp [(hierarchy.array s other.1).1] at isInterface
      | interfaceObject isInterface isObject => simp [isClass] at isInterface
      | array _ isAbove => exact absurd other (not_componentOf (not_isArray_of_above isAbove))
      | primitives component' other' isPrimitive =>
          rw [component.unique component', other.unique other']
          exact .refl _
      | components component' other' related =>
          rw [component.unique component', other.unique other']
          exact related
    · exact fun related => .components component other related
  have misjudged : Misjudged table s t ↔ Misjudged table sc tc := by
    constructor
    · intro wrong
      cases wrong with
      | classes _ notArray => exact absurd component (not_componentOf notArray)
      | interface _ notArray => exact absurd component (not_componentOf notArray)
      | components other' component' wrong =>
          rw [component.unique component', other.unique other']
          exact wrong
    · exact fun wrong => .components other component wrong
  rw [JudgedBy, subtype, misjudged]
  exact judged

end Cases

/-! ## The recursion over components -/

section Recursion

variable {table : ClassTable}

theorem name_of_loadClass {name : Str} {id : ClassId} (loaded : table.loadClass name = .ok id) :
    (table.info id).name = name := by
  unfold ClassTable.loadClass at loaded
  split at loaded
  · next found =>
      cases loaded
      rcases List.findIdx?_eq_some_iff_getElem.mp found with ⟨inside, found, -⟩
      have same : table.info id = table.classes[id] := List.getD_eq_getElem _ _ inside
      rw [same]
      exact eq_of_beq found
  · cases loaded

theorem length_pos_of_bracket {name : Str} (bracket : (firstByte name == chr '[') = true) :
    0 < name.length := by
  cases name with
  | nil => simp [firstByte, chr] at bracket
  | cons first rest => exact Nat.succ_pos _

/-- The name of a component class that is an array itself is shorter. -/
theorem length_componentClassName {className name : Str}
    (named : ClassTable.getComponentClassName className = .ok name)
    (isArray : (firstByte name == chr '[') = true) : name.length < className.length := by
  unfold ClassTable.getComponentClassName at named
  split at named
  · next bracket =>
      have nonempty := length_pos_of_bracket bracket
      unfold ClassTable.toClassName at named
      split at named
      · cases named
        rw [List.length_drop]
        omega
      split at named
      · cases named
        simp only [List.length_take, List.length_drop]
        omega
      split at named
      · next found =>
          cases named
          have noBracket : ∀ pair ∈ ClassTable.primitiveTypes,
              (firstByte pair.1 == chr '[') = false := by decide
          rw [noBracket _ (List.mem_of_find?_eq_some found)] at isArray
          cases isArray
      · cases named
  · cases named

theorem length_component {c id : ClassId} (component : ComponentOf table c id)
    (isArray : (table.info c).isArrayClass = true) :
    (table.info c).name.length < (table.info id).name.length := by
  rcases Exec.bind_eq_ok.mp component.2 with ⟨name, named, loaded⟩
  rw [ClassInfo.isArrayClass, name_of_loadClass loaded] at isArray
  rw [name_of_loadClass loaded]
  exact length_componentClassName named isArray

/-- The answer comes, and is wrong for the misjudged pairs only. -/
theorem isAssignableFromFuel_judged (hierarchy : Hierarchy table) {fuel : Nat} {s t : ClassId}
    (positive : 0 < fuel)
    (enough : (table.info s).isArrayClass = true → (table.info s).name.length < fuel) :
    ∃ b, table.isAssignableFromFuel fuel s (some t) = .ok b ∧ JudgedBy table s t b := by
  induction fuel generalizing s t with
  | zero => exact absurd positive (Nat.lt_irrefl 0)
  | succ fuel ih =>
      by_cases differ : s = t
      · subst differ
        refine ⟨true, by simp [ClassTable.isAssignableFromFuel], ?_⟩
        exact iff_of_true (iff_of_true rfl (.refl s)) fun wrong => wrong.ne rfl
      rw [ClassTable.isAssignableFromFuel, if_neg differ]
      cases tArray : (table.info t).isArrayClass with
      | false =>
          cases tInterface : (table.info t).isInterface with
          | false =>
              cases sInterface : (table.info s).isInterface with
              | false =>
                  exact ⟨_, rfl, judgedBy_classes hierarchy differ tArray tInterface sInterface⟩
              | true => exact ⟨_, rfl, judgedBy_interface hierarchy tArray tInterface sInterface⟩
          | true =>
              cases sInterface : (table.info s).isInterface with
              | false =>
                  exact ⟨_, rfl,
                    judgedBy_class_interface hierarchy differ tArray tInterface sInterface⟩
              | true =>
                  exact ⟨_, rfl, judgedBy_interfaces hierarchy differ tArray tInterface sInterface⟩
      | true =>
          cases sArray : (table.info s).isArrayClass with
          | false =>
              cases sInterface : (table.info s).isInterface with
              | false => exact ⟨_, rfl, judgedBy_class_array hierarchy tArray sArray sInterface⟩
              | true => exact ⟨_, rfl, judgedBy_interface_array hierarchy tArray sArray sInterface⟩
          | true =>
              rcases (hierarchy.array s sArray).2.2.2 with ⟨sc, scEq⟩
              rcases (hierarchy.array t tArray).2.2.2 with ⟨tc, tcEq⟩
              have longer := enough sArray
              have shorter := @length_component table sc s ⟨sArray, scEq⟩
              have nonempty := length_pos_of_bracket sArray
              have less : (table.info sc).isArrayClass = true →
                  (table.info sc).name.length < fuel := by
                intro isArray
                exact Nat.lt_of_lt_of_le (shorter isArray) (Nat.le_of_lt_succ longer)
              rcases @ih sc tc (by omega) less with ⟨b, answered, judged⟩
              refine ⟨b, ?_,
                judgedBy_components hierarchy differ ⟨sArray, scEq⟩ ⟨tArray, tcEq⟩ judged⟩
              simp [scEq, tcEq, answered]

end Recursion

/-- In every hierarchy and for every two types: the call returns, and its answer
agrees with the subtype relation if and only if the pair is not misjudged; a test
of an object is the call with its class. -/
theorem isAssignableFrom_iff_not_misjudged (machine : Machine)
    (hierarchy : Hierarchy machine.table) (s t : ClassId) :
    (∃ b, machine.table.isAssignableFrom s (some t) = .ok b ∧
      ((b = true ↔ IsSubtype machine.table t s) ↔ ¬ Misjudged machine.table s t)) ∧
    ∀ vm ref, machine.classOf vm ref = .ok (some t) →
      isInstanceOf machine vm ref s = machine.table.isAssignableFrom s (some t) := by
  constructor
  · exact isAssignableFromFuel_judged hierarchy (Nat.succ_pos _) fun _ => Nat.lt_succ_self _
  · intro vm ref own
    rw [isInstanceOf, own]
    rfl

/-! ## A hierarchy -/

/-- `class Base implements Cloneable`, `class Derived extends Base`, and an array. -/
def typeClasses : List ClassInfo :=
  [{ name := str "java/lang/Object", accessFlags := 0x0021 },
    { name := str "java/lang/Cloneable", accessFlags := 0x0601, superClass := some 0 },
    { name := str "Base", accessFlags := 0x0021, superClass := some 0, interfaces := [1] },
    { name := str "Derived", accessFlags := 0x0021, superClass := some 2 },
    { name := str "[LDerived;", accessFlags := 0x0001, superClass := some 0, interfaces := [1] }]

def typeMachine : Machine := Machine.ofTable (.ofClasses typeClasses (by decide))

theorem hierarchy_typeMachine : Hierarchy typeMachine.table where
  name_injective := by
    have checked : ∀ id < typeMachine.table.classes.length,
        ∀ other < typeMachine.table.classes.length,
        (typeMachine.table.info id).name = (typeMachine.table.info other).name → id = other := by
      decide
    exact fun id other inside inside' => checked id inside other inside'
  object := by
    intro id isObject
    rcases id with - | - | - | - | - | id
    · decide
    all_goals cases isObject
  rooted := by decide
  primitive := by
    intro id isPrimitive
    rcases id with - | - | - | - | - | id
    all_goals cases isPrimitive
  superClass := by
    intro id super superEq
    rcases id with - | - | - | - | - | id
    all_goals
      cases superEq
      try decide
  interfaces := by
    intro id interface listed
    rcases id with - | - | - | - | - | id
    · cases listed
    · cases listed
    · cases List.mem_singleton.mp listed
      decide
    · cases listed
    · cases List.mem_singleton.mp listed
      decide
    · cases listed
  interface_super := by
    intro id super isInterface superEq
    rcases id with - | - | - | - | - | id
    · cases isInterface
    · cases superEq
      rfl
    · cases isInterface
    · cases isInterface
    · cases isInterface
    · cases superEq
  markers := by
    intro id isMarker
    rcases id with - | - | - | - | - | id
    · revert isMarker
      decide
    · decide
    · revert isMarker
      decide
    · revert isMarker
      decide
    · revert isMarker
      decide
    · rcases isMarker with isMarker | isMarker
      all_goals cases isMarker
  array := by
    intro id isArray
    rcases id with - | - | - | - | - | id
    · cases isArray
    · cases isArray
    · cases isArray
    · cases isArray
    · refine ⟨by decide, ?_, ?_, 3, rfl⟩
      · intro super superEq
        cases superEq
        rfl
      · intro interface listed
        cases List.mem_singleton.mp listed
        exact .inl rfl
    · cases isArray

/-- `Base b = new Derived()` is refused, and `Derived d = new Base()` is not. -/
theorem subclass_not_assignable :
    Hierarchy typeMachine.table ∧
    typeMachine.table.isAssignableFrom 2 (some 3) = .ok false ∧ IsSubtype typeMachine.table 3 2 ∧
    typeMachine.table.isAssignableFrom 3 (some 2) = .ok true ∧
    ¬ IsSubtype typeMachine.table 2 3 := by
  refine ⟨hierarchy_typeMachine, rfl, .superClass (by decide), rfl, ?_⟩
  rw [isSubtype_iff_of_notArray rfl]
  rintro (same | above | ⟨ancestor, -, implements⟩ | ⟨isInterface, -⟩)
  · cases same
  · exact absurd above (by decide)
  · exact absurd (hierarchy_typeMachine.isInterface_of_implements implements) (by decide)
  · cases isInterface

theorem isAssignableFrom_object_array :
    typeMachine.table.isAssignableFrom 0 (some 4) = .ok true ∧ IsSubtype typeMachine.table 4 0 := by
  rcases (isAssignableFrom_iff_not_misjudged typeMachine hierarchy_typeMachine 0 4).1 with
    ⟨b, answered, agrees⟩
  have right : ¬ Misjudged typeMachine.table 0 4 := not_misjudged_of (.inr rfl) (.inl rfl)
  have answer : b = true := by
    cases answered
    rfl
  rw [answer] at answered
  exact ⟨answered, (agrees.mpr right).mp answer⟩

end JvmDemo.Instructions
