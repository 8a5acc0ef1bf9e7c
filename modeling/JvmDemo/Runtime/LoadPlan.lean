import JvmDemo.Runtime.ClassLoader

/-!
# What a load asks for

Whether the file of a class can be made into a class, and which other classes it asks
for on the way, depends on the file alone and not on what has been loaded before.
-/

namespace JvmDemo.Runtime

open JvmDemo.Lib
open JvmDemo.Classfile

/-! ## Plans -/

/-- The end of a load: members, constants and static variables are made. -/
def makeMembers (newJString : Str → Exec DWord) (file : ClassFile) : Exec Unit := do
  let fields ← file.fields.mapM (createField file.constantPool 0)
  let constantPool ← createConstants file.constantPool
  let _ ← file.methods.mapM (createMethod file.constantPool constantPool 0)
  let _ ← allocAndInitStaticVars newJString (numberStaticFields { fields, constantPool })
  pure ()

/-- The classes that the load of a file asks for, in this order, and its outcome when
it gets them: the name under which the class is entered, or a fault. -/
def filePlan (newJString : Str → Exec DWord) (file : ClassFile) : List Str × Exec Str :=
  match file.getClassName with
  | .error fault => ([], .error fault)
  | .ok name => match file.getSuperClassName with
    | .error fault => ([], .error fault)
    | .ok superClassName => match file.getSourceFile with
      | .error fault => (dependencies name superClassName [], .error fault)
      | .ok _ => match file.getInterfaceNames with
        | .error fault => (dependencies name superClassName [], .error fault)
        | .ok interfaceNames =>
            (dependencies name superClassName interfaceNames, do
              makeMembers newJString file
              pure name)

/-- The same for a name that a loader is asked for. -/
def loadPlan [Target] (env : LoaderEnv) (loader : LoaderName) (name : Str) :
    List Str × Exec Str :=
  if firstByte name == chr '[' then (arrayDependencies, .ok name)
  else match env.reader loader name with
    | none => ([], undefined "parse of null class data")
    | some data => match parse data with
      | .error fault => ([], .error fault)
      | .ok (file, _) => filePlan env.newJString file

/-- How a load goes on when the classes it asks for have been answered. -/
inductive Follows (loader : LoaderName) (outcome : Exec Str) :
    Exec (List (Option ClassId) × LoaderState) → Exec (ClassId × LoaderState) → Prop where
  | refused {fault : Fault} : Follows loader outcome (.error fault) (.error fault)
  | fails {fault : Fault} {results : List (Option ClassId)} {middle : LoaderState} :
      outcome = .error fault → Follows loader outcome (.ok (results, middle)) (.error fault)
  | enters {results : List (Option ClassId)} {middle : LoaderState} {object : ClassObject} :
      outcome = .ok object.info.name → object.definer = loader →
        Follows loader outcome (.ok (results, middle)) (.ok (middle.heap.length, middle.enter object))

/-! ## Members -/

section Members

variable {α β γ : Type} {pool : ConstantPool} {klass : ClassId}

theorem mapM_map {make : α → Exec β} {other : α → Exec γ} {change : β → γ}
    (each : ∀ entry, other entry = (make entry).map change) (entries : List α) :
    entries.mapM other = (entries.mapM make).map (List.map change) := by
  induction entries with
  | nil => rfl
  | cons entry entries ih =>
      rw [List.mapM_cons, List.mapM_cons, each, ih]
      cases make entry with
      | error fault => rfl
      | ok first => cases entries.mapM make <;> rfl

/-- A field of another class. -/
def Field.ofClass (klass : ClassId) (field : Field) : Field := { field with klass := klass }

def Method.ofClass (klass : ClassId) (method : Method) : Method := { method with klass := klass }

theorem createField_eq (info : MemberInfo) :
    createField pool klass info = (createField pool 0 info).map (Field.ofClass klass) := by
  simp only [createField, createMember]
  cases pool.getUtf8 info.nameIndex with
  | error fault => rfl
  | ok name => cases pool.getUtf8 info.descriptorIndex <;> rfl

theorem Method.ofMember_ofClass (member : ClassMember) (code : Option CodeInfo) :
    Method.ofMember { member with klass := klass } code =
      (Method.ofMember member code).map (Method.ofClass klass) := by
  simp only [Method.ofMember]
  cases parameterTypes member.descriptor with
  | error fault => rfl
  | ok types =>
      simp only [Exec.bind_ok]
      split
      · next native =>
          split
          · rfl
          · next notNative => exact absurd native notNative
      · next notNative =>
          split
          · next native => exact absurd native notNative
          · rfl

theorem createMethod_eq (constants : List (Option Constant)) (info : MemberInfo) :
    createMethod pool constants klass info =
      (createMethod pool constants 0 info).map (Method.ofClass klass) := by
  simp only [createMethod, createMember]
  cases pool.getUtf8 info.nameIndex with
  | error fault => rfl
  | ok name =>
      cases pool.getUtf8 info.descriptorIndex with
      | error fault => rfl
      | ok descriptor =>
          exact Method.ofMember_ofClass ⟨info.accessFlags, name, descriptor, 0⟩ _

end Members

/-! ## Static variables -/

section StaticVariables

variable {newJString : Str → Exec DWord}

/-- The field before it is numbered, without its class. -/
def Field.blank (field : Field) : Field := { field with klass := 0, slotId := 0 }

/-- What `AllocAndInitStaticVars` sees of a field. -/
def Field.staticView (field : Field) : Field :=
  { field with klass := 0, slotId := if field.isStatic then field.slotId else 0 }

theorem isStatic_blank (field : Field) : field.blank.isStatic = field.isStatic := rfl

theorem map_blank_numberFields (select : Field → Bool) (slotId : BitVec 32) (fields : List Field) :
    (numberFields select slotId fields).1.map Field.blank = fields.map Field.blank := by
  induction fields generalizing slotId with
  | nil => rfl
  | cons field fields ih =>
      rw [numberFields]
      split
      · simp only [List.map_cons, ih]
        rfl
      · simp only [List.map_cons, ih]

/-- The static slots do not depend on how the instance fields are numbered. -/
theorem numberFields_blank (slotId : BitVec 32) (fields : List Field) :
    ((numberFields (fun field => field.isStatic) slotId fields).1.map Field.staticView =
      (numberFields (fun field => field.isStatic) slotId (fields.map Field.blank)).1.map
        Field.staticView) ∧
    (numberFields (fun field => field.isStatic) slotId fields).2 =
      (numberFields (fun field => field.isStatic) slotId (fields.map Field.blank)).2 := by
  induction fields generalizing slotId with
  | nil => exact ⟨rfl, rfl⟩
  | cons field fields ih =>
      rw [List.map_cons, numberFields, numberFields, isStatic_blank]
      cases static : field.isStatic with
      | true =>
          simp only [if_true, List.map_cons]
          rw [(ih _).1, (ih _).2]
          exact ⟨rfl, rfl⟩
      | false =>
          simp only [Bool.false_eq_true, if_false, List.map_cons]
          rw [(ih _).1, (ih _).2]
          have view : field.staticView = field.blank.staticView := by
            rw [Field.staticView, Field.staticView, isStatic_blank, static]
            rfl
          exact ⟨by rw [view], rfl⟩

theorem allocAndInitStaticVars_staticView (info : ClassInfo) :
    allocAndInitStaticVars newJString info =
      allocAndInitStaticVars newJString
        { info with fields := info.fields.map Field.staticView } := by
  simp only [allocAndInitStaticVars, List.foldlM_map]
  congr 1
  funext vars field
  have flags : field.staticView.isStatic = field.isStatic ∧
      field.staticView.isFinal = field.isFinal := ⟨rfl, rfl⟩
  rw [flags.1, flags.2]
  cases static : field.isStatic with
  | true =>
      have view : initStaticFinalVar newJString info field vars =
          initStaticFinalVar newJString { info with fields := info.fields.map Field.staticView }
            field.staticView vars := by
        simp only [initStaticFinalVar, Field.staticView, static, if_true]
      rw [view]
  | false => rfl

/-- The static variables of a class depend on its constants and on its fields without
their class and their instance slots. -/
theorem allocAndInitStaticVars_congr {first second : ClassInfo} (slotId : BitVec 32)
    (constants : second.constantPool = first.constantPool)
    (fields : second.fields.map Field.blank = first.fields.map Field.blank) :
    allocAndInitStaticVars newJString (numberStaticFields (numberInstanceFields slotId second)) =
      allocAndInitStaticVars newJString (numberStaticFields first) := by
  rw [allocAndInitStaticVars_staticView, allocAndInitStaticVars_staticView (numberStaticFields first)]
  simp only [numberStaticFields, numberInstanceFields, constants]
  rw [(numberFields_blank 0 (numberFields Field.isInstance slotId second.fields).1).1,
    (numberFields_blank 0 (numberFields Field.isInstance slotId second.fields).1).2,
    (numberFields_blank 0 first.fields).1, (numberFields_blank 0 first.fields).2,
    map_blank_numberFields, fields]
  rfl

end StaticVariables

/-! ## Loads follow their plans -/

section Loads

variable {load : Loading} {loader : LoaderName} {state : LoaderState} {name : Str}

/-- A list of names is loaded in two parts. -/
theorem resolveInterfaces_append_eq (first second : List Str) (state : LoaderState) :
    resolveInterfaces load (first ++ second) state = (do
      let (results, middle) ← resolveInterfaces load first state
      let (others, next) ← resolveInterfaces load second middle
      pure (results ++ others, next)) := by
  induction first generalizing state with
  | nil =>
      rw [List.nil_append, resolveInterfaces, Exec.bind_pure]
      dsimp only
      cases resolveInterfaces load second state <;> rfl
  | cons name names ih =>
      rw [List.cons_append, resolveInterfaces, resolveInterfaces]
      cases load name state with
      | error fault => rfl
      | ok loaded =>
          simp only [Exec.bind_ok, ih]
          cases resolveInterfaces load names loaded.2 with
          | error fault => rfl
          | ok resolved =>
              simp only [Exec.bind_ok, Exec.bind_pure]
              cases resolveInterfaces load second resolved.2 <;> rfl

/-- The superclass is the first name, if there is one. -/
theorem resolveSuperClass_eq (superClassName : Str) :
    resolveSuperClass load name superClassName state =
      (resolveInterfaces load (dependencies name superClassName []) state).map fun resolved =>
        (resolved.1.head?.join, resolved.2) := by
  rw [resolveSuperClass, dependencies]
  split
  · rfl
  · rw [List.append_nil, resolveInterfaces]
    cases load superClassName state <;> rfl

theorem dependencies_eq (superClassName : Str) (interfaceNames : List Str) :
    dependencies name superClassName interfaceNames =
      dependencies name superClassName [] ++ interfaceNames := by
  rw [dependencies, dependencies, List.append_nil]

/-- From the class in the file on: it is entered and linked. -/
def enterFile (env : LoaderEnv) (loader : LoaderName) (data : ClassData)
    (started : Exec (ClassInfo × LoaderState)) : Exec (ClassId × LoaderState) := do
  let (info, state) ← started
  let object : ClassObject := { info, definer := loader, source := some data }
  let state' ← linkClass env state.heap.length
    ((state.allocate object).put loader info.name state.heap.length)
  pure (state.heap.length, state')

theorem follows_link (env : LoaderEnv) {object : ClassObject} {fields : List Field}
    (results : List (Option ClassId)) (definer : object.definer = loader)
    (fieldsEq : object.info.fields.map Field.blank = fields.map Field.blank) :
    Follows loader
      (do
        let _ ← allocAndInitStaticVars env.newJString
          (numberStaticFields { fields, constantPool := object.info.constantPool })
        pure object.info.name)
      (.ok (results, state))
      (do
        let state' ← linkClass env state.heap.length (state.enter object)
        pure (state.heap.length, state')) := by
  have vars := @allocAndInitStaticVars_congr env.newJString
    { fields, constantPool := object.info.constantPool } object.info
    ((state.enter object).firstInstanceSlot object.info) rfl fieldsEq
  rw [linkClass, classAt_enter]
  dsimp only
  rw [vars]
  cases allocAndInitStaticVars env.newJString
      (numberStaticFields { fields, constantPool := object.info.constantPool }) with
  | error fault => exact .fails rfl
  | ok vars =>
      simp only [Exec.bind_ok, Exec.bind_pure]
      rw [modify_enter rfl rfl]
      exact .enters rfl definer

/-- If the classes that a file asks for are there, the file alone decides the rest. -/
theorem follows_members (env : LoaderEnv) (data : ClassData) (file : ClassFile)
    (results : List (Option ClassId)) (superClass : Option ClassId) (interfaces : List ClassId) :
    Follows loader (do makeMembers env.newJString file; pure name) (.ok (results, state))
      (enterFile env loader data (do
        let fields ← file.fields.mapM (createField file.constantPool state.heap.length)
        let constantPool ← createConstants file.constantPool
        let methods ← file.methods.mapM
          (createMethod file.constantPool constantPool state.heap.length)
        pure ({ name, accessFlags := file.accessFlags, superClass, interfaces, fields, methods,
                constantPool }, state))) := by
  have fieldsEq : file.fields.mapM (createField file.constantPool state.heap.length) =
      (file.fields.mapM (createField file.constantPool 0)).map
        (List.map (Field.ofClass state.heap.length)) := mapM_map createField_eq file.fields
  have methodsEq (constantPool : List (Option Constant)) :
      file.methods.mapM (createMethod file.constantPool constantPool state.heap.length) =
        (file.methods.mapM (createMethod file.constantPool constantPool 0)).map
          (List.map (Method.ofClass state.heap.length)) :=
    mapM_map (createMethod_eq constantPool) file.methods
  rw [makeMembers, fieldsEq]
  cases file.fields.mapM (createField file.constantPool 0) with
  | error fault => exact .fails rfl
  | ok fields =>
      cases createConstants file.constantPool with
      | error fault => exact .fails rfl
      | ok constantPool =>
          simp only [Except.map, Exec.bind_ok]
          rw [methodsEq]
          cases file.methods.mapM (createMethod file.constantPool constantPool 0) with
          | error fault => exact .fails rfl
          | ok methods =>
              let info : ClassInfo :=
                { name, accessFlags := file.accessFlags, superClass, interfaces
                  fields := fields.map (Field.ofClass state.heap.length)
                  methods := methods.map (Method.ofClass state.heap.length), constantPool }
              have sameFields : info.fields.map Field.blank = fields.map Field.blank := by
                simp [info, Field.blank, Field.ofClass]
              have linked := @follows_link loader state env
                { info, definer := loader, source := some data } fields results rfl sameFields
              simp only [Except.map, Exec.bind_ok, Exec.bind_pure, enterFile, bind_assoc]
              exact linked

/-- The load of a file follows its plan. -/
theorem follows_file (env : LoaderEnv) (data : ClassData) (file : ClassFile) :
    Follows loader (filePlan env.newJString file).2
      (resolveInterfaces load (filePlan env.newJString file).1 state)
      (enterFile env loader data (startLoad load file state)) := by
  rw [filePlan, startLoad]
  cases file.getClassName with
  | error fault => exact .fails rfl
  | ok name =>
  cases file.getSuperClassName with
  | error fault => exact .fails rfl
  | ok superClassName =>
  simp only [Exec.bind_ok, resolveSuperClass_eq]
  cases file.getSourceFile with
  | error fault =>
      cases resolveInterfaces load (dependencies name superClassName []) state with
      | error refusal => exact .refused
      | ok resolved => exact .fails rfl
  | ok sourceFile =>
  cases file.getInterfaceNames with
  | error fault =>
      cases resolveInterfaces load (dependencies name superClassName []) state with
      | error refusal => exact .refused
      | ok resolved => exact .fails rfl
  | ok interfaceNames =>
  simp only [dependencies_eq superClassName interfaceNames, resolveInterfaces_append_eq]
  cases resolveInterfaces load (dependencies name superClassName []) state with
  | error refusal => exact .refused
  | ok resolved =>
  simp only [Except.map, Exec.bind_ok]
  cases resolveInterfaces load interfaceNames resolved.2 with
  | error refusal => exact .refused
  | ok others =>
      simp only [Exec.bind_ok]
      exact follows_members env data file _ _ _

/-- Every load of a class that is not in the cache follows its plan. -/
theorem follows_loadUncached [Target] (env : LoaderEnv) (name : Str) :
    Follows loader (loadPlan env loader name).2
      (resolveInterfaces load (loadPlan env loader name).1 state)
      (loadUncached env load loader name state) := by
  rw [loadPlan, loadUncached]
  split
  · rw [loadArrayClass, arrayDependencies]
    simp only [resolveInterfaces]
    cases load (str "java/lang/Object") state with
    | error refusal => exact .refused
    | ok first =>
    simp only [Exec.bind_ok]
    cases load (str "java/lang/Cloneable") first.2 with
    | error refusal => exact .refused
    | ok second =>
    simp only [Exec.bind_ok]
    cases load (str "java/io/Serializable") second.2 with
    | error refusal => exact .refused
    | ok third =>
        let info : ClassInfo :=
          { name, accessFlags := 0x0001, superClass := first.1
            interfaces := [second.1, third.1].reduceOption }
        exact @Follows.enters loader _ _ third.2 { info, definer := loader } rfl rfl
  · rw [loadNonArrayClass]
    cases env.reader loader name with
    | none => exact .fails rfl
    | some data =>
    simp only [defineClass]
    cases parse data with
    | error fault => exact .fails rfl
    | ok parsed =>
        have followed := @follows_file load loader state env data parsed.1
        simpa only [enterFile, bind_assoc, Exec.bind_ok, Exec.bind_pure] using followed

end Loads

end JvmDemo.Runtime
