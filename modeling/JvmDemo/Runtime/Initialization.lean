import JvmDemo.Runtime.Vm

/-!
# Class initialisation

What a call of `InitClass` does: it marks the class and those of its
superclasses that are not marked yet, and pushes a frame for every one of them
that declares an initializer itself.  Marking and pushing go up the chain, so
the initializer of the uppermost class lies on top.

The recursion stops at the first superclass that is marked.  That nothing above
it is left out needs the marks to be closed under superclasses.
-/

namespace JvmDemo.Runtime

open JvmDemo.Lib

namespace ClassTable

variable (table : ClassTable)

/-- The static `<clinit>()V` that a class declares itself. -/
def declaredClinit (klass : ClassId) : Option Method :=
  (table.info klass).methods.find? fun method =>
    method.name == str "<clinit>" && method.descriptor == str "()V" && method.isStatic == true

/-- The superclass of a class that is not an interface is no interface. -/
def SupersAreClasses : Prop :=
  ∀ klass super, (table.info klass).isInterface = false →
    (table.info klass).superClass = some super → (table.info super).isInterface = false

/-- A marked class that is not an interface has all its superclasses marked. -/
def ClosedUpTo (bound : ClassId) (started : ClassId → Bool) : Prop :=
  ∀ klass ≤ bound, started klass = true → (table.info klass).isInterface = false →
    ∀ ancestor ∈ table.superChain klass, started ancestor = true

/-- The classes that `InitClass` is entered for, from the class upwards. -/
def toInitialize (started : ClassId → Bool) (klass : ClassId) : List ClassId :=
  if (table.info klass).isInterface then [klass]
  else (table.superChain klass).filter fun ancestor => !started ancestor

/-- The frames of the initializers that classes declare, in pushing order. -/
def initializerFrames (classes : List ClassId) : List Frame :=
  (classes.filterMap table.declaredClinit).map Frame.ofMethod

variable {table}

/-- The search through the superclasses finds a method of the class itself
exactly when the class declares one. -/
theorem getClinitMethod_of_declared {klass : ClassId} {method : Method}
    (declared : table.declaredClinit klass = some method) :
    table.getClinitMethod klass = some method ∧ method.klass = klass := by
  constructor
  · rw [getClinitMethod, getMethod, superChain_eq, List.findSome?_cons]
    unfold declaredClinit at declared
    rw [declared]
  · exact table.method_klass klass method (List.mem_of_find?_eq_some declared)

theorem klass_ne_of_inherited {klass : ClassId} {method : Method}
    (undeclared : table.declaredClinit klass = none)
    (found : table.getClinitMethod klass = some method) : method.klass ≠ klass := by
  rcases List.exists_of_findSome?_eq_some found with ⟨ancestor, onChain, declared⟩
  have owner : method.klass = ancestor :=
    table.method_klass ancestor method (List.mem_of_find?_eq_some declared)
  rintro same
  have here : ancestor = klass := owner.symm.trans same
  rw [here] at declared
  exact absurd (undeclared.symm.trans declared) (by simp)

end ClassTable

/-! ## One class -/

namespace Machine

variable {machine : Machine}

/-- `ScheduleClinit` pushes the initializer that the class declares, if any. -/
theorem scheduleClinit_eq_ok {klass : ClassId} {vm next : Vm}
    (scheduled : machine.scheduleClinit klass vm = .ok next) :
    next = vm.setFrames
      ((machine.table.declaredClinit klass).toList.map Frame.ofMethod ++ vm.thread.frames) := by
  unfold scheduleClinit at scheduled
  cases declared : machine.table.declaredClinit klass with
  | some method =>
      rcases ClassTable.getClinitMethod_of_declared declared with ⟨found, owner⟩
      simp only [found, owner, ↓reduceIte] at scheduled
      exact Vm.createFrame_eq_ok scheduled
  | none =>
      cases found : machine.table.getClinitMethod klass with
      | none =>
          simp only [found] at scheduled
          cases scheduled
          rfl
      | some method =>
          have other := ClassTable.klass_ne_of_inherited declared found
          simp only [found, other, ↓reduceIte] at scheduled
          cases scheduled
          rfl

/-! ## The chain -/

theorem toInitialize_cons {table : ClassTable} {started : ClassId → Bool} {klass super : ClassId}
    (supers : table.SupersAreClasses) (isClass : (table.info klass).isInterface = false)
    (superEq : (table.info klass).superClass = some super) (unstarted : started klass = false) :
    table.toInitialize started klass = klass :: table.toInitialize started super := by
  have superIsClass := supers klass super isClass superEq
  have chain := table.superChain_eq klass
  rw [superEq] at chain
  rw [ClassTable.toInitialize, ClassTable.toInitialize, isClass, superIsClass, chain]
  simp [unstarted]

/-- The outcome of a call of `InitClass`. -/
structure Initialized (machine : Machine) (klass : ClassId) (vm next : Vm) : Prop where
  started : ∀ id, next.clinitStarted id = true ↔
    id ∈ machine.table.toInitialize vm.clinitStarted klass ∨ vm.clinitStarted id = true
  log : next.initLog = (machine.table.toInitialize vm.clinitStarted klass).reverse ++ vm.initLog
  frames : next.thread.frames =
    (machine.table.initializerFrames (machine.table.toInitialize vm.clinitStarted klass)).reverse ++
      vm.thread.frames

/-- The state after the class itself has been marked and its initializer pushed. -/
def markAndPush (machine : Machine) (klass : ClassId) (vm : Vm) : Vm :=
  (vm.startClinit klass).setFrames
    ((machine.table.declaredClinit klass).toList.map Frame.ofMethod ++ vm.thread.frames)

theorem initializerFrames_cons (table : ClassTable) (klass : ClassId) (classes : List ClassId) :
    (table.initializerFrames (klass :: classes)).reverse =
      (table.initializerFrames classes).reverse ++
        (table.declaredClinit klass).toList.map Frame.ofMethod := by
  cases declared : table.declaredClinit klass <;>
    simp [ClassTable.initializerFrames, declared]

/-- A call that goes no further up. -/
theorem initialized_of_single {klass : ClassId} {vm : Vm}
    (single : machine.table.toInitialize vm.clinitStarted klass = [klass]) :
    Initialized machine klass vm (markAndPush machine klass vm) where
  started id := by
    rw [single]
    by_cases same : id = klass <;> simp [markAndPush, Vm.startClinit, same]
  log := by
    rw [single]
    rfl
  frames := by
    rw [single, initializerFrames_cons]
    rfl

/-- A call that goes on with the superclass. -/
theorem initialized_of_super {klass super : ClassId} {vm next : Vm}
    (cons : machine.table.toInitialize vm.clinitStarted klass =
      klass :: machine.table.toInitialize vm.clinitStarted super)
    (same : machine.table.toInitialize (markAndPush machine klass vm).clinitStarted super =
      machine.table.toInitialize vm.clinitStarted super)
    (above : Initialized machine super (markAndPush machine klass vm) next) :
    Initialized machine klass vm next where
  started id := by
    rw [above.started, same, cons, List.mem_cons]
    by_cases here : id = klass <;> simp [markAndPush, Vm.startClinit, here]
  log := by
    rw [above.log, same, cons, List.reverse_cons, List.append_assoc]
    rfl
  frames := by
    rw [above.frames, same, cons, initializerFrames_cons, List.append_assoc]
    rfl

/-- Marking a class does not change what there is to initialise for an older
one. -/
theorem toInitialize_markAndPush {klass super : ClassId} (vm : Vm) (older : super < klass)
    (isClass : (machine.table.info super).isInterface = false) :
    machine.table.toInitialize (markAndPush machine klass vm).clinitStarted super =
      machine.table.toInitialize vm.clinitStarted super := by
  rw [ClassTable.toInitialize, ClassTable.toInitialize, isClass]
  apply List.filter_congr
  rintro ancestor onChain
  have below : ancestor ≠ klass :=
    Nat.ne_of_lt (Nat.lt_of_le_of_lt (machine.table.le_of_mem_superChain onChain) older)
  simp [markAndPush, Vm.startClinit, below]

/-- The recursion of `InitClass` and `InitSuperClass`. -/
theorem initClassFrom_eq_ok (supers : machine.table.SupersAreClasses) {fuel : Nat}
    {klass : ClassId} {vm next : Vm} (enough : klass < fuel)
    (unstarted : vm.clinitStarted klass = false)
    (closed : machine.table.ClosedUpTo klass vm.clinitStarted)
    (returned : machine.initClassFrom fuel klass vm = .ok next) :
    Initialized machine klass vm next := by
  induction fuel generalizing klass vm with
  | zero => exact absurd enough (Nat.not_lt_zero klass)
  | succ fuel ih =>
      rcases Exec.bind_eq_ok.mp returned with ⟨marked, scheduled, continued⟩
      obtain rfl : marked = markAndPush machine klass vm := scheduleClinit_eq_ok scheduled
      have chain := machine.table.superChain_eq klass
      by_cases isInterface : (machine.table.info klass).isInterface = true
      · rw [if_pos isInterface] at continued
        cases continued
        apply initialized_of_single
        rw [ClassTable.toInitialize, if_pos isInterface]
      rw [if_neg isInterface] at continued
      cases superEq : (machine.table.info klass).superClass with
      | none =>
          simp only [superEq] at continued chain
          cases continued
          apply initialized_of_single
          simp [ClassTable.toInitialize, isInterface, chain, unstarted]
      | some super =>
          have older : super < klass := machine.table.superClass_lt klass super superEq
          have isClass : (machine.table.info klass).isInterface = false := by
            simpa using isInterface
          have superIsClass := supers klass super isClass superEq
          have cons := toInitialize_cons supers isClass superEq unstarted
          have kept : (markAndPush machine klass vm).clinitStarted super =
              vm.clinitStarted super := by
            simp [markAndPush, Vm.startClinit, Nat.ne_of_lt older]
          simp only [superEq, kept] at continued
          by_cases superStarted : vm.clinitStarted super = true
          · rw [if_pos superStarted] at continued
            cases continued
            apply initialized_of_single
            rw [cons, ClassTable.toInitialize, superIsClass]
            -- nothing above a marked superclass is left
            have above := closed super (Nat.le_of_lt older) superStarted superIsClass
            simpa [List.filter_eq_nil_iff] using above
          · rw [if_neg superStarted] at continued
            have same := @toInitialize_markAndPush machine klass super vm older superIsClass
            apply initialized_of_super cons same
            apply ih (Nat.lt_of_lt_of_le older (Nat.le_of_lt_succ enough)) ?_ ?_ continued
            · rw [kept]
              simpa using superStarted
            · rintro id below started idIsClass ancestor onChain
              have idOlder : id ≠ klass := Nat.ne_of_lt (Nat.lt_of_le_of_lt below older)
              have idStarted : vm.clinitStarted id = true := by
                simpa [markAndPush, Vm.startClinit, idOlder] using started
              have ancestorStarted := closed id (Nat.le_trans below (Nat.le_of_lt older))
                idStarted idIsClass ancestor onChain
              simp [markAndPush, Vm.startClinit, ancestorStarted]

/-- Whatever the hierarchy, `InitClass` only pushes. -/
theorem suffix_of_initClassFrom {fuel : Nat} {klass : ClassId} {vm next : Vm}
    (returned : machine.initClassFrom fuel klass vm = .ok next) :
    vm.thread.frames <:+ next.thread.frames := by
  induction fuel generalizing klass vm with
  | zero => cases returned
  | succ fuel ih =>
      rcases Exec.bind_eq_ok.mp returned with ⟨marked, scheduled, continued⟩
      obtain rfl : marked = markAndPush machine klass vm := scheduleClinit_eq_ok scheduled
      have pushed : vm.thread.frames <:+ (markAndPush machine klass vm).thread.frames :=
        List.suffix_append _ _
      split at continued
      · cases continued
        exact pushed
      · split at continued
        · cases continued
          exact pushed
        · split at continued
          · cases continued
            exact pushed
          · exact pushed.trans (ih continued)

/-- `InitClass` pushes the initializers of the class and of superclasses. -/
theorem frames_of_initClassFrom {fuel : Nat} {klass : ClassId} {vm next : Vm}
    (returned : machine.initClassFrom fuel klass vm = .ok next) :
    ∃ classes, (∀ ancestor ∈ classes, ancestor ∈ machine.table.superChain klass) ∧
      next.thread.frames =
        (machine.table.initializerFrames classes).reverse ++ vm.thread.frames := by
  induction fuel generalizing klass vm with
  | zero => cases returned
  | succ fuel ih =>
      rcases Exec.bind_eq_ok.mp returned with ⟨marked, scheduled, continued⟩
      obtain rfl : marked = markAndPush machine klass vm := scheduleClinit_eq_ok scheduled
      have here : ∃ classes, (∀ ancestor ∈ classes, ancestor ∈ machine.table.superChain klass) ∧
          (markAndPush machine klass vm).thread.frames =
            (machine.table.initializerFrames classes).reverse ++ vm.thread.frames := by
        refine ⟨[klass], ?_, ?_⟩
        · rintro ancestor mem
          rw [List.mem_singleton.mp mem]
          exact machine.table.mem_superChain_self klass
        · rw [initializerFrames_cons]
          rfl
      split at continued
      · cases continued
        exact here
      · split at continued
        · cases continued
          exact here
        · next super superEq =>
            split at continued
            · cases continued
              exact here
            · rcases ih continued with ⟨classes, onChain, frames⟩
              refine ⟨klass :: classes, ?_, ?_⟩
              · rintro ancestor mem
                rcases List.mem_cons.mp mem with rfl | above
                · exact machine.table.mem_superChain_self _
                · rw [machine.table.superChain_eq, superEq]
                  exact List.mem_cons_of_mem _ (onChain ancestor above)
              · rw [frames, initializerFrames_cons, List.append_assoc]
                rfl

/-- What `InitClass` does to a class that is not marked. -/
theorem initClass_eq_ok (supers : machine.table.SupersAreClasses) {klass : ClassId} {vm next : Vm}
    (unstarted : vm.clinitStarted klass = false)
    (closed : machine.table.ClosedUpTo klass vm.clinitStarted)
    (returned : machine.initClass klass vm = .ok next) : Initialized machine klass vm next :=
  initClassFrom_eq_ok supers (Nat.lt_succ_self klass) unstarted closed returned

end Machine

end JvmDemo.Runtime
