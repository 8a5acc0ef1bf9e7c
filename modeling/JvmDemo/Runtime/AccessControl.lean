import JvmDemo.Runtime.Class

/-!
# Access control

What access to members and classes is to be, and what `IsAccessibleTo` gives.
Since `package_name_` is never assigned, and since the package of the member's
class is compared with itself, access is denied to private members only.
-/

namespace JvmDemo.Runtime

open JvmDemo.Lib

/-- The package of a binary name: what stands before the last `/`. -/
def packageOf (name : Str) : Str :=
  ((name.reverse.dropWhile (· != chr '/')).drop 1).reverse

example : packageOf (str "java/lang/Object") = str "java/lang" := by decide

namespace ClassMember

/-- None of the three access flags is set. -/
def isPackagePrivate (member : ClassMember) : Bool :=
  !member.isPublic && !member.isProtected && !member.isPrivate

end ClassMember

namespace ClassTable

variable (table : ClassTable)

def SamePackage (id other : ClassId) : Prop :=
  packageOf (table.info id).name = packageOf (table.info other).name

/-- `other` lies below `id`. -/
def ProperSubclass (other id : ClassId) : Prop := id ∈ (table.superChain other).tail

/-- The code of the class `other` may use the member. -/
def MayAccess (member : ClassMember) (other : ClassId) : Prop :=
  member.isPublic = true ∨
  (member.isProtected = true ∧ (table.SamePackage member.klass other ∨ other = member.klass ∨
    table.ProperSubclass other member.klass)) ∨
  (member.isPackagePrivate = true ∧ table.SamePackage member.klass other) ∨
  (member.isPrivate = true ∧ other = member.klass)

/-- The code of the class `other` may name the class `id`. -/
def MayAccessClass (id other : ClassId) : Prop :=
  (table.info id).isPublic = true ∨ table.SamePackage id other

instance (id other : ClassId) : Decidable (table.SamePackage id other) :=
  inferInstanceAs (Decidable (_ = _))

instance (other id : ClassId) : Decidable (table.ProperSubclass other id) :=
  inferInstanceAs (Decidable (_ ∈ _))

instance (member : ClassMember) (other : ClassId) : Decidable (table.MayAccess member other) :=
  inferInstanceAs (Decidable (_ ∨ _))

instance (id other : ClassId) : Decidable (table.MayAccessClass id other) :=
  inferInstanceAs (Decidable (_ ∨ _))

variable {table} {member : ClassMember} {id other : ClassId}

/-- Every class is accessible to every other. -/
theorem isAccessibleTo_eq (table : ClassTable) (id other : ClassId) :
    table.isAccessibleTo id other = true := by
  rw [isAccessibleTo, ClassInfo.packageName, ClassInfo.packageName, beq_self_eq_true, Bool.or_true]

/-- A member is denied to other classes only if it is private and nothing else. -/
theorem isMemberAccessibleTo_iff :
    table.isMemberAccessibleTo member other = true ↔
      member.isPublic = true ∨ member.isProtected = true ∨ member.isPrivate = false ∨
        member.klass = other := by
  rw [isMemberAccessibleTo]
  cases member.isPublic with
  | true => simp
  | false =>
      cases member.isProtected with
      | true => simp
      | false =>
          cases member.isPrivate with
          | true => simp
          | false => simp

/-- Where access is to be granted it is granted. -/
theorem isMemberAccessibleTo_of_mayAccess (may : table.MayAccess member other) :
    table.isMemberAccessibleTo member other = true := by
  rw [isMemberAccessibleTo_iff]
  rcases may with isPublic | ⟨isProtected, -⟩ | ⟨packagePrivate, -⟩ | ⟨-, same⟩
  · exact .inl isPublic
  · exact .inr (.inl isProtected)
  · simp only [ClassMember.isPackagePrivate, Bool.and_eq_true, Bool.not_eq_true'] at packagePrivate
    exact .inr (.inr (.inl packagePrivate.2))
  · exact .inr (.inr (.inr same.symm))

/-- The member is public, or private and not protected, or the two classes are in
one package, or the member is protected and the other class lies below its class. -/
def DecidesMember (table : ClassTable) (member : ClassMember) (other : ClassId) : Prop :=
  member.isPublic = true ∨ (member.isPrivate = true ∧ member.isProtected = false) ∨
    table.SamePackage member.klass other ∨
    (member.isProtected = true ∧ table.ProperSubclass other member.klass)

theorem samePackage_of_eq (same : other = member.klass) :
    table.SamePackage member.klass other := by
  rw [same]
  rfl

/-- A member that may be used is one of those. -/
theorem decidesMember_of_mayAccess (may : table.MayAccess member other) :
    table.DecidesMember member other := by
  rcases may with isPublic | ⟨isProtected, package | same | below⟩ | ⟨-, package⟩ | ⟨-, same⟩
  · exact .inl isPublic
  · exact .inr (.inr (.inl package))
  · exact .inr (.inr (.inl (samePackage_of_eq same)))
  · exact .inr (.inr (.inr ⟨isProtected, below⟩))
  · exact .inr (.inr (.inl package))
  · exact .inr (.inr (.inl (samePackage_of_eq same)))

/-- And of those the code grants only what may be used. -/
theorem mayAccess_of_decidesMember (decides : table.DecidesMember member other)
    (granted : table.isMemberAccessibleTo member other = true) : table.MayAccess member other := by
  rcases decides with isPublic | ⟨isPrivate, notProtected⟩ | package | ⟨isProtected, below⟩
  · exact .inl isPublic
  · rcases isMemberAccessibleTo_iff.mp granted with isPublic | isProtected | notPrivate | same
    · exact .inl isPublic
    · rw [isProtected] at notProtected
      cases notProtected
    · rw [isPrivate] at notPrivate
      cases notPrivate
    · exact .inr (.inr (.inr ⟨isPrivate, same.symm⟩))
  · by_cases isPublic : member.isPublic = true
    · exact .inl isPublic
    by_cases isProtected : member.isProtected = true
    · exact .inr (.inl ⟨isProtected, .inl package⟩)
    rcases isMemberAccessibleTo_iff.mp granted with yes | yes | notPrivate | same
    · exact absurd yes isPublic
    · exact absurd yes isProtected
    · have packagePrivate : member.isPackagePrivate = true := by
        simp [ClassMember.isPackagePrivate, isPublic, isProtected, notPrivate]
      exact .inr (.inr (.inl ⟨packagePrivate, package⟩))
    · by_cases isPrivate : member.isPrivate = true
      · exact .inr (.inr (.inr ⟨isPrivate, same.symm⟩))
      · have packagePrivate : member.isPackagePrivate = true := by
          simp [ClassMember.isPackagePrivate, isPublic, isProtected, isPrivate]
        exact .inr (.inr (.inl ⟨packagePrivate, package⟩))
  · exact .inr (.inl ⟨isProtected, .inr (.inr below)⟩)

/-- For every two classes and every member: `ClassMember::IsAccessibleTo` decides
the access to the member exactly in those cases, and `Class::IsAccessibleTo` the
access to the class exactly when the class is public or in the same package. -/
theorem accessControl_iff (table : ClassTable) (member : ClassMember) (id other : ClassId) :
    ((table.isMemberAccessibleTo member other = true ↔ table.MayAccess member other) ↔
      table.DecidesMember member other) ∧
    ((table.isAccessibleTo id other = true ↔ table.MayAccessClass id other) ↔
      ((table.info id).isPublic = true ∨ table.SamePackage id other)) := by
  constructor
  · constructor
    · intro right
      by_cases granted : table.isMemberAccessibleTo member other = true
      · exact decidesMember_of_mayAccess (right.mp granted)
      · -- only a private member is denied
        rw [isMemberAccessibleTo_iff] at granted
        simp only [not_or, Bool.not_eq_true, Bool.not_eq_false] at granted
        exact .inr (.inl ⟨granted.2.2.1, granted.2.1⟩)
    · intro decides
      exact ⟨mayAccess_of_decidesMember decides, isMemberAccessibleTo_of_mayAccess⟩
  · rw [isAccessibleTo_eq, MayAccessClass, eq_self_iff_true, true_iff]

end ClassTable

/-- `class a.C` with a field that has no access flags, and `class b.D`. -/
def twoPackages : ClassTable :=
  .ofClasses
    [{ name := str "a/C", fields := [{ name := str "f", descriptor := str "I", klass := 0 }] },
      { name := str "b/D" }] (by decide)

/-- The field and the class are accessible from the other package. -/
theorem twoPackages_accessible :
    ∃ field ∈ (twoPackages.info 0).fields,
      ¬ (twoPackages.isMemberAccessibleTo field.toClassMember 1 = true ↔
        twoPackages.MayAccess field.toClassMember 1) ∧
      ¬ (twoPackages.isAccessibleTo 0 1 = true ↔ twoPackages.MayAccessClass 0 1) := by
  decide

end JvmDemo.Runtime
