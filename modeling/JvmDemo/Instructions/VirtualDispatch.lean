import JvmDemo.Instructions.Invocation
import JvmDemo.Instructions.TypedOperands
import JvmDemo.Runtime.AccessControl
import JvmDemo.Runtime.MemberLookup

/-!
# Selection of virtual methods

`INVOKE_VIRTUAL` resolves a method and then takes the nearest declaration of its
name and descriptor on the superclass chain of the receiver.  A declaration that
is static, private, or package-private in another package does not override; if
one comes first, it is invoked all the same.
-/

namespace JvmDemo.Runtime

open JvmDemo.Lib

/-! ## Overriding -/

namespace ClassTable

variable {table : ClassTable}

/-- `lower` overrides `upper`, not through a third method. -/
structure OverridesDirectly (table : ClassTable) (lower upper : Method) : Prop where
  declared : lower ∈ (table.info lower.klass).methods
  below : table.ProperSubclass lower.klass upper.klass
  name_eq : lower.name = upper.name
  descriptor_eq : lower.descriptor = upper.descriptor
  not_static : lower.isStatic = false
  not_private : lower.isPrivate = false
  visible : upper.isPublic = true ∨ upper.isProtected = true ∨
    (upper.isPackagePrivate = true ∧ table.SamePackage lower.klass upper.klass)

/-- `lower` overrides `upper`. -/
def Overrides (table : ClassTable) : Method → Method → Prop :=
  Relation.TransGen table.OverridesDirectly

theorem Overrides.exists_direct {lower upper : Method} (overrides : table.Overrides lower upper) :
    ∃ middle, table.OverridesDirectly lower middle := by
  cases Relation.TransGen.head'_iff.mp overrides with
  | intro middle rest => exact ⟨middle, rest.1⟩

theorem Overrides.named {lower upper : Method} (overrides : table.Overrides lower upper) :
    lower.name = upper.name ∧ lower.descriptor = upper.descriptor := by
  induction overrides with
  | single direct => exact ⟨direct.name_eq, direct.descriptor_eq⟩
  | tail _ direct ih =>
      exact ⟨ih.1.trans direct.name_eq, ih.2.trans direct.descriptor_eq⟩

/-! ## The nearest declaration -/

/-- The first method of the class with this name and descriptor. -/
def Declares (table : ClassTable) (name descriptor : Str) (method : Method) : Prop :=
  (table.info method.klass).methods.find? (fun other =>
    other.name == name && other.descriptor == descriptor) = some method

/-- The nearest class on the superclass chain of `receiver` that has a method of
this name and descriptor has `method`. -/
def NearestDeclares (table : ClassTable) (receiver : ClassId) (name descriptor : Str)
    (method : Method) : Prop :=
  table.Declares name descriptor method ∧ ∃ nearer farther,
    table.superChain receiver = nearer ++ method.klass :: farther ∧
    ∀ id ∈ nearer, ∀ other ∈ (table.info id).methods,
      ¬ (other.name = name ∧ other.descriptor = descriptor)

variable {name descriptor : Str} {method : Method}

theorem Declares.mem (declares : table.Declares name descriptor method) :
    method ∈ (table.info method.klass).methods :=
  List.mem_of_find?_eq_some declares

theorem Declares.named (declares : table.Declares name descriptor method) :
    method.name = name ∧ method.descriptor = descriptor := by
  have named := List.find?_some declares
  rwa [Bool.and_eq_true, beq_iff_eq, beq_iff_eq] at named

/-- Of one class there is at most one. -/
theorem Declares.unique {other : Method} (declares : table.Declares name descriptor method)
    (otherDeclares : table.Declares name descriptor other) (same : other.klass = method.klass) :
    other = method := by
  rw [Declares, same, declares] at otherDeclares
  exact (Option.some.inj otherDeclares).symm

/-- `LookupMethodInClass` finds the nearest declaration. -/
theorem lookupMethodInClass_eq_some_iff {receiver : ClassId} :
    table.lookupMethodInClass receiver name descriptor = some method ↔
      table.NearestDeclares receiver name descriptor method := by
  rw [lookupMethodInClass, List.findSome?_eq_some_iff]
  constructor
  · rintro ⟨nearer, id, farther, chain, here, none⟩
    obtain rfl : method.klass = id := table.method_klass id method (List.mem_of_find?_eq_some here)
    refine ⟨here, nearer, farther, chain, ?_⟩
    intro other mem declared memDeclared
    have missed := List.find?_eq_none.mp (none other mem) declared memDeclared
    simpa using missed
  · rintro ⟨here, nearer, farther, chain, none⟩
    refine ⟨nearer, method.klass, farther, chain, here, ?_⟩
    intro other mem
    rw [List.find?_eq_none]
    intro declared memDeclared
    simpa using none other mem declared memDeclared

theorem NearestDeclares.unique {receiver : ClassId} {other : Method}
    (nearest : table.NearestDeclares receiver name descriptor method)
    (otherNearest : table.NearestDeclares receiver name descriptor other) : other = method := by
  rw [← lookupMethodInClass_eq_some_iff] at nearest otherNearest
  rw [nearest] at otherNearest
  exact (Option.some.inj otherNearest).symm

/-- A resolved method is the first of its class with that name and descriptor. -/
theorem declares_of_resolveMethod {owner : ClassId} {className : Str}
    (resolved : table.resolveMethod owner className name descriptor = .ok method) :
    table.Declares name descriptor method := by
  rcases Exec.bind_eq_ok.mp resolved with ⟨klass, -, later⟩
  split at later
  · cases later
  unfold resolveMethodIn at later
  split at later
  · cases later
  · next found lookup =>
      split at later
      · cases later
        rw [lookupMethod] at lookup
        split at lookup
        · next inClass =>
            cases lookup
            exact (lookupMethodInClass_eq_some_iff.mp inClass).1
        · rw [lookupMethodInInterfaces, ClassGraph.foldl_overwrite] at lookup
          cases lastEq : (table.info klass).interfaces.getLast? with
          | none =>
              rw [lastEq] at lookup
              cases lookup
          | some last =>
              rw [lastEq] at lookup
              exact (lookupMethodInClass_eq_some_iff.mp lookup).1
      · cases later

/-- All methods come from the constructor of `Method`. -/
def MethodsCreated (table : ClassTable) : Prop :=
  ∀ id, ∀ method ∈ (table.info id).methods,
    ∃ member code, Method.ofMember member code = .ok method

/-- Instance methods of one descriptor have the same number of argument slots. -/
theorem MethodsCreated.argSlotCount_eq (created : table.MethodsCreated) {other : Method}
    (mem : method ∈ (table.info method.klass).methods)
    (otherMem : other ∈ (table.info other.klass).methods)
    (descriptor_eq : method.descriptor = other.descriptor)
    (static_eq : method.isStatic = other.isStatic) : method.argSlotCount = other.argSlotCount := by
  rcases created _ method mem with ⟨_, _, made⟩
  rcases created _ other otherMem with ⟨_, _, otherMade⟩
  rcases (Method.ofMember_eq_ok made).2 with ⟨types, parsed, count⟩
  rcases (Method.ofMember_eq_ok otherMade).2 with ⟨otherTypes, otherParsed, otherCount⟩
  rw [descriptor_eq, otherParsed, Except.ok.injEq] at parsed
  rw [count, otherCount, parsed, static_eq]

/-- What is to be invoked for the resolved method on a receiver of that class: the
method itself, or the one that overrides it in the nearest class that overrides it. -/
structure Selects (table : ClassTable) (receiver : ClassId) (resolved selected : Method) :
    Prop where
  itself_or_override : selected = resolved ∨
    (selected.isStatic = false ∧ selected.isPrivate = false ∧ table.Overrides selected resolved)
  nearest : ∃ nearer farther, table.superChain receiver = nearer ++ selected.klass :: farther ∧
    ∀ id ∈ nearer, ∀ other ∈ (table.info id).methods, ¬ table.Overrides other resolved

/-- The nearest declaration is the one to be invoked, if it is in the class of the
resolved method or overrides it. -/
theorem NearestDeclares.selects {receiver : ClassId} {resolved : Method}
    (nearest : table.NearestDeclares receiver name descriptor method)
    (declares : table.Declares name descriptor resolved)
    (right : method.klass = resolved.klass ∨ table.Overrides method resolved) :
    table.Selects receiver resolved method := by
  rcases nearest with ⟨here, nearer, farther, chain, none⟩
  constructor
  · rcases right with same | overrides
    · exact .inl (declares.unique here same)
    · rcases overrides.exists_direct with ⟨_, direct⟩
      exact .inr ⟨direct.not_static, direct.not_private, overrides⟩
  · refine ⟨nearer, farther, chain, ?_⟩
    intro id mem other otherMem overrides
    -- what overrides has the same name and descriptor
    rcases overrides.named with ⟨name_eq, descriptor_eq⟩
    exact none id mem other otherMem
      ⟨name_eq.trans declares.named.1, descriptor_eq.trans declares.named.2⟩

end ClassTable

end JvmDemo.Runtime

namespace JvmDemo.Instructions

open JvmDemo.Lib
open JvmDemo.Runtime

/-! ## `INVOKE_VIRTUAL` -/

variable {machine : Machine} {index : BitVec 32} {vm next : Vm} {frame : Frame} {rest : List Frame}
  {className name descriptor : Str} {resolved : Method} {ref : DWord} {receiver : ClassId}

/-- An `INVOKE_VIRTUAL` that returns has invoked what `LookupMethodInClass` finds on
the class of the receiver. -/
theorem invoked_of_executeInvokeVirtual
    (reference : methodRefAt machine frame index.toNat = .ok (className, name, descriptor))
    (resolves : machine.table.resolveMethod frame.method.klass className name descriptor =
      .ok resolved)
    (notPrintln : resolved.name ≠ str "println") (found : receiverOf frame resolved = .ok ref)
    (ownClass : machine.classOf! vm ref = .ok receiver)
    (invoked : executeInvokeVirtual machine index vm frame rest = .ok next) :
    resolved.isStatic = false ∧ ∃ selected callee below,
      machine.table.lookupMethodInClass receiver name descriptor = some selected ∧
      next.thread.frames = callee :: below ∧ callee.method = selected := by
  have differs : (resolved.name == str "println") = false := beq_eq_false_iff_ne.mpr notPrintln
  simp only [executeInvokeVirtual, reference, Exec.bind_ok, resolves, differs, found, ownClass]
    at invoked
  split at invoked
  · cases invoked
  · next notStatic =>
      refine ⟨Bool.not_eq_true _ ▸ notStatic, ?_⟩
      rw [if_neg Bool.false_ne_true] at invoked
      rcases Exec.bind_eq_ok.mp invoked with ⟨_, -, last⟩
      cases lookup : machine.table.lookupMethodInClass receiver name descriptor with
      | none =>
          rw [lookup] at last
          cases last
      | some selected =>
          rw [lookup, invokeConcrete] at last
          split at last
          · cases last
          · rcases invokeMethod_eq_ok last with ⟨-, stack, vars, -, frames⟩
            exact ⟨selected, _, _, rfl, frames, rfl⟩

/-- The method of the new frame is the one to be invoked, and it takes as many
argument slots as the resolved method. -/
def InvokesSelected (table : ClassTable) (receiver : ClassId) (resolved : Method) (next : Vm) :
    Prop :=
  ∃ callee below, next.thread.frames = callee :: below ∧
    table.Selects receiver resolved callee.method ∧
    callee.method.argSlotCount = resolved.argSlotCount

/-- For every hierarchy, every resolved instance method and every receiver for which
`INVOKE_VIRTUAL` returns: it invokes the right method exactly when the nearest
declaration of that name and descriptor on the chain of the receiver is in the class
of the resolved method, or overrides it. -/
theorem invokesSelected_iff (created : machine.table.MethodsCreated)
    (reference : methodRefAt machine frame index.toNat = .ok (className, name, descriptor))
    (resolves : machine.table.resolveMethod frame.method.klass className name descriptor =
      .ok resolved)
    (notPrintln : resolved.name ≠ str "println") (found : receiverOf frame resolved = .ok ref)
    (ownClass : machine.classOf! vm ref = .ok receiver)
    (invoked : executeInvokeVirtual machine index vm frame rest = .ok next) :
    InvokesSelected machine.table receiver resolved next ↔
      ∀ method, machine.table.NearestDeclares receiver name descriptor method →
        method.klass = resolved.klass ∨ machine.table.Overrides method resolved := by
  have declares := ClassTable.declares_of_resolveMethod resolves
  rcases invoked_of_executeInvokeVirtual reference resolves notPrintln found ownClass invoked with
    ⟨notStatic, selected, callee, others, lookup, frames, rfl⟩
  have nearest := ClassTable.lookupMethodInClass_eq_some_iff.mp lookup
  constructor
  · rintro ⟨top, bottom, topFrames, selects, -⟩ method nearestMethod
    rw [frames, List.cons.injEq] at topFrames
    rw [nearest.unique nearestMethod, topFrames.1]
    rcases selects.itself_or_override with itself | ⟨-, -, overrides⟩
    · exact .inl (congrArg (·.klass) itself)
    · exact .inr overrides
  · intro right
    have here := right _ nearest
    refine ⟨callee, others, frames, nearest.selects declares here, ?_⟩
    rcases here with same | overrides
    · rw [declares.unique nearest.1 same]
    · rcases overrides.exists_direct with ⟨_, direct⟩
      exact created.argSlotCount_eq direct.declared declares.mem overrides.named.2
        (direct.not_static.trans notStatic.symm)

/-! ## Two packages -/

/-- `void m()` of a class. -/
def methodM (klass : ClassId) (accessFlags : BitVec 16) : Method where
  accessFlags := accessFlags
  name := str "m"
  descriptor := str "()V"
  klass := klass
  codes := some (padded [0xb1])
  maxLocals := 1
  argSlotCount := 1
  exceptionTable := some [emptyHandler]

/-- `class a.C { void m() {} }` with these access flags, and
`class b.D extends a.C { public void m() {} }`. -/
def dispatchTable (accessFlags : BitVec 16) : ClassTable :=
  .ofClasses
    [{ name := str "a/C", accessFlags := 0x0001, methods := [methodM 0 accessFlags],
       constantPool := [none, some (.methodRef (str "a/C") (str "m") (str "()V"))] },
      { name := str "b/D", accessFlags := 0x0001, superClass := some 0,
        methods := [methodM 1 0x0001] }] rfl

def dispatchMachine (accessFlags : BitVec 16) : Machine := .ofTable (dispatchTable accessFlags)

/-- A frame of `C` with a `D` on the stack. -/
def dispatchFrame : Frame := frameHolding 4 [.ref 0x1000, .int 7]

/-- The header of the object points at `D`. -/
def dispatchVm : Vm :=
  { Vm.ofFrames [dispatchFrame] with
    memory := Memory.write64 (fun _ => 0) (0x1000 + Object.klassOffset)
      (BitVec.ofNat 64 (2 ^ 32 + 512 * 1)) }

theorem methodsCreated_dispatchTable : (dispatchTable 0x0001).MethodsCreated := by
  intro id method mem
  rcases id with - | - | id
  · cases List.mem_singleton.mp mem
    exact ⟨(methodM 0 0x0001).toClassMember, some ⟨0, 1, padded [0xb1], [emptyHandler]⟩, rfl⟩
  · cases List.mem_singleton.mp mem
    exact ⟨(methodM 1 0x0001).toClassMember, some ⟨0, 1, padded [0xb1], [emptyHandler]⟩, rfl⟩
  · cases mem

/-- A public method is overridden. -/
theorem invokesSelected_public :
    ∃ next, executeInvokeVirtual (dispatchMachine 0x0001) 1 dispatchVm dispatchFrame [] =
        .ok next ∧
      InvokesSelected (dispatchTable 0x0001) 1 (methodM 0 0x0001) next := by
  have invoked : ∃ next, executeInvokeVirtual (dispatchMachine 0x0001) 1 dispatchVm dispatchFrame
      [] = .ok next := ⟨_, rfl⟩
  rcases invoked with ⟨next, invoked⟩
  refine ⟨next, invoked, ?_⟩
  have ownClass : (dispatchMachine 0x0001).classOf! dispatchVm 0x1000 = .ok 1 := by decide +kernel
  apply (@invokesSelected_iff (dispatchMachine 0x0001) 1 dispatchVm next dispatchFrame [] (str "a/C")
    (str "m") (str "()V") (methodM 0 0x0001) 0x1000 1 methodsCreated_dispatchTable rfl rfl
    (by decide) rfl ownClass invoked).mpr
  intro method nearest
  have here : (dispatchTable 0x0001).NearestDeclares 1 (str "m") (str "()V") (methodM 1 0x0001) :=
    ClassTable.lookupMethodInClass_eq_some_iff.mp rfl
  rw [here.unique nearest]
  refine .inr (.single ⟨?_, ?_, rfl, rfl, rfl, rfl, .inl rfl⟩)
  · exact List.mem_singleton.mpr rfl
  · decide

/-- A package-private method is not overridden from another package. -/
theorem not_overrides_packagePrivate :
    ¬ (dispatchTable 0).Overrides (methodM 1 0x0001) (methodM 0 0) := by
  intro overrides
  rcases Relation.TransGen.tail'_iff.mp overrides with ⟨middle, -, direct⟩
  have declared := direct.declared
  have below := direct.below
  rcases direct.visible with isPublic | isProtected | ⟨-, samePackage⟩
  · cases isPublic
  · cases isProtected
  · generalize middle.klass = id at declared below samePackage
    rcases id with - | - | id
    · exact absurd below (by decide)
    · exact absurd samePackage (by decide)
    · cases declared

/-- `a.C.m()` on a `b.D` runs the method of `D`, which does not override it. -/
theorem other_package_invoked :
    (dispatchTable 0).resolveMethod 0 (str "a/C") (str "m") (str "()V") = .ok (methodM 0 0) ∧
      receiverOf dispatchFrame (methodM 0 0) = .ok 0x1000 ∧
      (dispatchMachine 0).classOf! dispatchVm 0x1000 = .ok 1 ∧
      0 ∈ (dispatchTable 0).superChain 1 ∧
      ∃ next, executeInvokeVirtual (dispatchMachine 0) 1 dispatchVm dispatchFrame [] = .ok next ∧
        ¬ InvokesSelected (dispatchTable 0) 1 (methodM 0 0) next := by
  have ownClass : (dispatchMachine 0).classOf! dispatchVm 0x1000 = .ok 1 := by decide +kernel
  have invoked : ∃ next callee below,
      executeInvokeVirtual (dispatchMachine 0) 1 dispatchVm dispatchFrame [] = .ok next ∧
        next.thread.frames = callee :: below ∧ callee.method = methodM 1 0x0001 :=
    ⟨_, _, _, rfl, rfl, rfl⟩
  rcases invoked with ⟨next, callee, below, run, frames, method_eq⟩
  refine ⟨rfl, rfl, ownClass, by decide, next, run, ?_⟩
  rintro ⟨top, others, topFrames, selects, -⟩
  rw [frames, List.cons.injEq] at topFrames
  have itself_or_override := selects.itself_or_override
  rw [← topFrames.1, method_eq] at itself_or_override
  rcases itself_or_override with itself | ⟨-, -, overrides⟩
  · cases itself
  · exact not_overrides_packagePrivate overrides

end JvmDemo.Instructions
