import JvmDemo.Interpreter.LazyInitialization
import JvmDemo.Runtime.LoadedTable

/-!
# The program in the class files

The static methods of class files, with parameters and results of the types of
the fragment, are read off as a program.  A machine with the classes that the
loaders have made when `main` begins provides this program, so that what is known
of programs holds of class files, from their bytes on.

A method is read if its code survives the constructor of `Method`, and a call if
the boot loader has the class by then, so that nothing is loaded in the run.
-/

namespace JvmDemo.Interpreter

open JvmDemo.Lib
open JvmDemo.Lib.Refinement
open JvmDemo.Classfile
open JvmDemo.Classpath
open JvmDemo.Runtime
open JvmDemo.Instructions
open Specification

/-! ## Reading a class file -/

/-- The kind of a type of the fragment, by its descriptor. -/
def kindOfType (type : Str) : Option Kind :=
  if type = str "J" then some .long
  else if type = str "I" ∨ type = str "S" ∨ type = str "C" ∨ type = str "B" ∨ type = str "Z" then
    some .int
  else none

/-- The result of a method of the fragment, by the descriptor. -/
def resultOf (descriptor : Str) : Option (Option Kind) :=
  if returnType descriptor = str "V" then some none
  else (kindOfType (returnType descriptor)).map some

/-- The constants that a class file has at run time. -/
def constantsOf (file : ClassFile) : List (Option Constant) :=
  (createConstants file.constantPool).toOption.getD []

/-- A method has this name and descriptor. -/
def Named (file : ClassFile) (name descriptor : Str) (member : MemberInfo) : Bool :=
  decide (file.constantPool.getUtf8 member.nameIndex = .ok name) &&
    decide (file.constantPool.getUtf8 member.descriptorIndex = .ok descriptor)

/-- The code of a method that is not native.  It is not written over if it is as long as
the header of a vector, and there is a handler. -/
def codeOf (file : ClassFile) (member : MemberInfo) : Option CodeInfo :=
  if hasFlag member.accessFlags .accNative then none
  else (codeInfo (constantsOf file) member).filter fun code =>
    24 ≤ code.codes.length ∧ code.exceptionTable ≠ [] ∧ code.codes.length < 2 ^ 31

/-- What is run of a method, without arguments and result. -/
def bodyOf (file : ClassFile) (klass : ClassId) (member : MemberInfo) : Option Routine :=
  (codeOf file member).map fun code =>
    ⟨klass, code.codes, code.maxStack.toNat, code.maxLocals.toNat, [], none⟩

/-- A static method with parameters and a result of the fragment, whose arguments fit
into its local variables. -/
def routineOf (file : ClassFile) (klass : ClassId) (descriptor : Str) (member : MemberInfo) :
    Option Routine := do
  let body ← bodyOf file klass member
  let types ← (parameterTypes descriptor).toOption
  let params ← types.mapM kindOfType
  let result ← resultOf descriptor
  if hasFlag member.accessFlags .accStatic ∧ (params.map Kind.indices).sum ≤ body.maxLocals then
    some { body with params := params, result := result }
  else none

/-- The class may be used by another one, and the method, too. -/
def MayUse (klass owner : ClassId) (file : ClassFile) (member : MemberInfo) : Prop :=
  klass = owner ∨ hasFlag file.accessFlags .accPublic ∧ hasFlag member.accessFlags .accPublic

instance (klass owner : ClassId) (file : ClassFile) (member : MemberInfo) :
    Decidable (MayUse klass owner file member) :=
  inferInstanceAs (Decidable (_ ∨ _))

/-- The method of a class file that a method reference stands for. -/
def targetOf (files : ClassId → Option ClassFile) (load : Str → Option ClassId) (owner : ClassId) :
    Option Constant → Option Routine
  | some (.methodRef className name descriptor) => do
      let klass ← load className
      let file ← files klass
      let member ← file.methods.find? (Named file name descriptor)
      if MayUse klass owner file member ∧ hasFlag file.accessFlags .accInterface = false ∧
          name ≠ str "println" then
        routineOf file klass descriptor member
      else none
  | _ => none

/-- The static method of this name and descriptor that a class file declares. -/
def staticMember (file : ClassFile) (name descriptor : Str) : Option MemberInfo :=
  file.methods.find? fun member =>
    Named file name descriptor member && hasFlag member.accessFlags .accStatic

/-- What is run of a static method without arguments and result. -/
def staticBody (files : ClassId → Option ClassFile) (klass : ClassId) (name descriptor : Str) :
    Option Routine := do
  let file ← files klass
  let member ← staticMember file name descriptor
  bodyOf file klass member

/-- The program in class files, with the names of the classes. -/
def programOf (files : ClassId → Option ClassFile) (load : Str → Option ClassId) : Program where
  routineAt klass index := do
    let file ← files klass
    targetOf files load klass ((constantsOf file)[index]?).join
  initializer klass := staticBody files klass (str "<clinit>") (str "()V")

@[simp]
theorem initializer_programOf (files : ClassId → Option ClassFile) (load : Str → Option ClassId)
    (klass : ClassId) :
    (programOf files load).initializer klass = staticBody files klass (str "<clinit>") (str "()V") :=
  rfl

/-! ## Methods -/

section Methods

variable {file : ClassFile} {klass : ClassId} {info : ClassInfo} {member : MemberInfo}
  {method : Method} {name descriptor : Str}

theorem constantsOf_eq (reflects : Reflects file klass info) :
    constantsOf file = info.constantPool := by
  rw [constantsOf, reflects.constants]
  rfl

/-- What the constructor of `Method` makes of a member. -/
theorem createMethod_eq_ok {constants : List (Option Constant)}
    (created : createMethod file.constantPool constants klass member = .ok method) :
    ∃ name descriptor, file.constantPool.getUtf8 member.nameIndex = .ok name ∧
      file.constantPool.getUtf8 member.descriptorIndex = .ok descriptor ∧
      method.toClassMember = ⟨member.accessFlags, name, descriptor, klass⟩ ∧
      Method.ofMember ⟨member.accessFlags, name, descriptor, klass⟩ (codeInfo constants member) =
        .ok method := by
  rcases Exec.bind_eq_ok.mp created with ⟨made, memberEq, methodEq⟩
  rcases Exec.bind_eq_ok.mp memberEq with ⟨name, nameEq, rest⟩
  rcases Exec.bind_eq_ok.mp rest with ⟨descriptor, descriptorEq, same⟩
  cases same
  exact ⟨name, descriptor, nameEq, descriptorEq, (Method.ofMember_eq_ok methodEq).1, methodEq⟩

/-- A method that is not native has the code of its attribute, if that survives. -/
theorem code_of_ofMember {made : ClassMember} {code : CodeInfo}
    (notNative : hasFlag made.accessFlags .accNative = false)
    (placed : code.placedCodes = some code.codes)
    (created : Method.ofMember made (some code) = .ok method) :
    method.codes = some code.codes ∧ method.maxStack = code.maxStack.toNat ∧
      method.maxLocals = code.maxLocals.toNat := by
  rcases Exec.bind_eq_ok.mp created with ⟨types, parsed, rest⟩
  dsimp only at rest
  split at rest
  · next native =>
      have isNative : hasFlag made.accessFlags .accNative = true := native
      rw [notNative] at isNative
      cases isNative
  · cases rest
    exact ⟨placed, rfl, rfl⟩

theorem codeOf_eq_some {code : CodeInfo} (found : codeOf file member = some code) :
    hasFlag member.accessFlags .accNative = false ∧
      codeInfo (constantsOf file) member = some code ∧ code.placedCodes = some code.codes ∧
      code.codes.length < 2 ^ 31 := by
  unfold codeOf at found
  split at found
  · cases found
  · next notNative =>
      rcases Option.filter_eq_some_iff.mp found with ⟨here, kept⟩
      rcases of_decide_eq_true kept with ⟨long, handled, short⟩
      exact ⟨by simpa using notNative, here,
        code.placedCodes_eq_some_iff.mpr ⟨rfl, long, handled⟩, short⟩

/-- The method that the loader makes of a member runs as it is read. -/
theorem realises_of_bodyOf (reflects : Reflects file klass info) {body : Routine}
    (read : bodyOf file klass member = some body)
    (created : createMethod file.constantPool info.constantPool klass member = .ok method) :
    Realises body method := by
  rcases Option.map_eq_some_iff.mp read with ⟨code, found, rfl⟩
  rcases codeOf_eq_some found with ⟨notNative, info, placed, short⟩
  rcases createMethod_eq_ok created with ⟨name, descriptor, -, -, same, made⟩
  rw [constantsOf_eq reflects] at info
  rw [info] at made
  rcases code_of_ofMember notNative placed made with ⟨codes, maxStack, maxLocals⟩
  exact ⟨congrArg ClassMember.klass same, codes, short, maxStack, maxLocals, code.maxStack.isLt,
    code.maxLocals.isLt⟩

/-- The kinds of the fragment take the slots that the constructor counts. -/
theorem kindOfType_eq_some {type : Str} {kind : Kind} (found : kindOfType type = some kind) :
    (kind = .int ∨ kind = .long) ∧ argSlots type = kind.indices := by
  unfold kindOfType at found
  split at found
  · next long =>
      cases found
      rw [long]
      exact ⟨.inr rfl, rfl⟩
  · next notLong =>
      split at found
      · next int =>
          cases found
          refine ⟨.inl rfl, ?_⟩
          rcases int with rfl | rfl | rfl | rfl | rfl <;> rfl
      · cases found

theorem kinds_of_mapM {types : List Str} {params : List Kind}
    (read : types.mapM kindOfType = some params) :
    (∀ kind ∈ params, kind = .int ∨ kind = .long) ∧
      (types.map argSlots).sum = (params.map Kind.indices).sum := by
  induction types generalizing params with
  | nil =>
      cases read
      exact ⟨fun kind mem => absurd mem List.not_mem_nil, rfl⟩
  | cons type types ih =>
      rw [List.mapM_cons] at read
      rcases Option.bind_eq_some_iff.mp read with ⟨kind, first, rest⟩
      rcases Option.bind_eq_some_iff.mp rest with ⟨kinds, others, same⟩
      cases same
      rcases kindOfType_eq_some first with ⟨scalar, slots⟩
      rcases ih others with ⟨scalars, sum⟩
      refine ⟨?_, ?_⟩
      · intro other mem
        rcases List.mem_cons.mp mem with rfl | mem
        · exact scalar
        · exact scalars other mem
      · simp only [List.map_cons, List.sum_cons, slots, sum]

/-- The method takes the arguments of the routine that is read off its member. -/
theorem implements_of_routineOf (reflects : Reflects file klass info) {routine : Routine}
    (read : routineOf file klass descriptor member = some routine)
    (described : file.constantPool.getUtf8 member.descriptorIndex = .ok descriptor)
    (created : createMethod file.constantPool info.constantPool klass member = .ok method) :
    Implements routine method ∧ method.isStatic = true ∧ routine.klass = klass := by
  rcases Option.bind_eq_some_iff.mp read with ⟨body, bodyEq, rest⟩
  rcases Option.bind_eq_some_iff.mp rest with ⟨types, typesEq, rest⟩
  rcases Option.bind_eq_some_iff.mp rest with ⟨params, paramsEq, rest⟩
  rcases Option.bind_eq_some_iff.mp rest with ⟨result, -, checked⟩
  split at checked
  · next fits =>
      cases checked
      have realises := realises_of_bodyOf reflects bodyEq created
      rcases createMethod_eq_ok created with ⟨name, other, -, otherEq, same, made⟩
      cases otherEq.symm.trans described
      rcases Method.ofMember_eq_ok made with ⟨-, parsedTypes, parsed, count⟩
      have sameDescriptor : method.descriptor = descriptor := congrArg ClassMember.descriptor same
      rw [sameDescriptor] at parsed
      rw [parsed] at typesEq
      cases typesEq
      have isStatic : method.isStatic = true := by
        have flags : method.accessFlags = member.accessFlags :=
          congrArg ClassMember.accessFlags same
        rw [ClassMember.isStatic, flags]
        exact fits.1
      rcases kinds_of_mapM paramsEq with ⟨scalars, sum⟩
      have slots : method.argSlotCount = (params.map Kind.indices).sum := by
        rw [count, isStatic, calcArgSlotCount, sum]
        rfl
      refine ⟨⟨⟨realises.klass, realises.codes, realises.short, realises.maxStack,
        realises.maxLocals, realises.smallStack, realises.smallLocals⟩, scalars, slots, fits.2⟩,
        isStatic, ?_⟩
      rcases Option.map_eq_some_iff.mp bodyEq with ⟨code, -, rfl⟩
      rfl
  · cases checked

/-- The first method of a class with a name and descriptor is made of the first such
member. -/
theorem find?_of_mapM {α β : Type} {make : α → Exec β} {items : List α} {made : List β}
    (done : items.mapM make = .ok made) {test : α → Bool} {testMade : β → Bool}
    (agrees : ∀ {item result}, make item = .ok result → testMade result = test item) :
    (items.find? test = none ∧ made.find? testMade = none) ∨
      ∃ item result, items.find? test = some item ∧ made.find? testMade = some result ∧
        make item = .ok result := by
  have pairs := forall₂_of_mapM done
  clear done
  induction pairs with
  | nil => exact .inl ⟨rfl, rfl⟩
  | @cons item result items made created _ ih =>
      rw [List.find?_cons, List.find?_cons, agrees created]
      cases test item with
      | true => exact .inr ⟨item, result, rfl, rfl, created⟩
      | false => exact ih

theorem named_eq {constants : List (Option Constant)}
    (created : createMethod file.constantPool constants klass member = .ok method)
    (name descriptor : Str) :
    (method.name == name && method.descriptor == descriptor) =
      Named file name descriptor member := by
  rcases createMethod_eq_ok created with ⟨own, ownDescriptor, nameEq, descriptorEq, same, -⟩
  have sameName : method.name = own := congrArg ClassMember.name same
  have sameDescriptor : method.descriptor = ownDescriptor := congrArg ClassMember.descriptor same
  rw [Named, nameEq, descriptorEq, sameName, sameDescriptor, Bool.beq_eq_decide_eq,
    Bool.beq_eq_decide_eq]
  simp

end Methods

/-! ## The machine provides the program -/

/-- The class that the boot loader has for a name, if a run finds it by the name. -/
def bootClass (state : LoaderState) (table : ClassTable) (name : Str) : Option ClassId :=
  (state.cached .boot name).join.filter fun id => table.loadClass name = .ok id

theorem loadClass_of_bootClass {state : LoaderState} {table : ClassTable} {name : Str}
    {id : ClassId} (found : bootClass state table name = some id) :
    table.loadClass name = .ok id :=
  of_decide_eq_true (Option.filter_eq_some_iff.mp found).2

section Provides

variable [Target] {state : LoaderState} {machine : Machine} {klass owner : ClassId}
  {file : ClassFile} {member : MemberInfo}

omit [Target] in
/-- A class may use its own methods, and public ones of other classes. -/
theorem isMemberAccessibleTo_of_mayUse (table : ClassTable)
    (mayUse : MayUse klass owner file member) {made : ClassMember} (own : made.klass = klass)
    (flags : made.accessFlags = member.accessFlags) :
    table.isMemberAccessibleTo made owner = true := by
  rw [ClassTable.isMemberAccessibleTo]
  rcases mayUse with rfl | ⟨-, isPublic⟩
  · simp [own]
  · rw [← flags] at isPublic
    simp [ClassMember.isPublic, isPublic]

omit [Target] in
/-- What a method reference is resolved to, when the class declares the method. -/
theorem resolveMethod_of_declared {table : ClassTable} {className name descriptor : Str}
    {method : Method} (loaded : table.loadClass className = .ok klass)
    (notInterface : (table.info klass).isInterface = false)
    (declared : (table.info klass).methods.find? (fun method =>
      method.name == name && method.descriptor == descriptor) = some method)
    (accessible : table.isMemberAccessibleTo method.toClassMember owner = true) :
    table.resolveMethod owner className name descriptor = .ok method := by
  have resolved : table.resolveClass owner className = .ok klass := by
    rw [ClassTable.resolveClass, loaded, Exec.bind_ok, ClassTable.isAccessibleTo]
    simp [ClassInfo.packageName]
    rfl
  have found : table.lookupMethod klass name descriptor = some method := by
    rw [ClassTable.lookupMethod, ClassTable.lookupMethodInClass, ClassTable.superChain_eq,
      List.findSome?_cons, declared]
  rw [ClassTable.resolveMethod, resolved, Exec.bind_ok, notInterface,
    ClassTable.resolveMethodIn, found]
  simp [accessible]
  rfl

/-- A method reference of a class file is resolved to a method that runs as what is
read off the files. -/
theorem refers_of_routineAt (yields : Yields state machine.table) {index : Nat}
    {routine : Routine}
    (known : (programOf state.fileOf (bootClass state machine.table)).routineAt owner index =
      some routine) : ∃ method, Refers machine owner index routine method := by
  rcases Option.bind_eq_some_iff.mp known with ⟨ownerFile, ownerEq, targeted⟩
  unfold targetOf at targeted
  split at targeted
  · next className name descriptor constant =>
      rcases Option.bind_eq_some_iff.mp targeted with ⟨klass, loaded, rest⟩
      rcases Option.bind_eq_some_iff.mp rest with ⟨file, fileEq, rest⟩
      rcases Option.bind_eq_some_iff.mp rest with ⟨member, memberEq, checked⟩
      split at checked
      · next allowed =>
          rcases allowed with ⟨mayUse, notInterface, notPrintln⟩
          have ownerReflects := yields.reflects ownerEq
          have reflects := yields.reflects fileEq
          have load := loadClass_of_bootClass loaded
          rcases find?_of_mapM reflects.methods (fun created => named_eq created name descriptor)
            with ⟨none, -⟩ | ⟨found, method, foundEq, declared, created⟩
          · rw [memberEq] at none
            cases none
          · cases memberEq.symm.trans foundEq
            have described := List.find?_some memberEq
            rw [Named, Bool.and_eq_true, decide_eq_true_eq, decide_eq_true_eq] at described
            rcases implements_of_routineOf reflects checked described.2 created with
              ⟨implements, isStatic, -⟩
            rcases createMethod_eq_ok created with ⟨own, ownDescriptor, nameEq, -, same, -⟩
            cases nameEq.symm.trans described.1
            refine ⟨method, ⟨className, name, descriptor, ?_, ?_⟩, isStatic, ?_, implements⟩
            · rw [ClassInfo.getConstant, ← constantsOf_eq ownerReflects]
              exact constant
            · apply resolveMethod_of_declared load _ declared
              · exact isMemberAccessibleTo_of_mayUse _ mayUse (congrArg ClassMember.klass same)
                  (congrArg ClassMember.accessFlags same)
              · rw [ClassInfo.isInterface, reflects.accessFlags]
                exact notInterface
            · have named : method.name = name := congrArg ClassMember.name same
              rw [named]
              exact notPrintln
      · cases checked
  · cases targeted

/-- A class declares the method that its file does, made of the first such member. -/
theorem declared_of_file (yields : Yields state machine.table)
    (fileEq : state.fileOf klass = some file) (name descriptor : Str) :
    (staticMember file name descriptor = none ∧
      (machine.table.info klass).methods.find? (fun method =>
        method.name == name && method.descriptor == descriptor && method.isStatic == true) =
          none) ∨
    ∃ member method, staticMember file name descriptor = some member ∧
      (machine.table.info klass).methods.find? (fun method =>
        method.name == name && method.descriptor == descriptor && method.isStatic == true) =
          some method ∧
      createMethod file.constantPool (machine.table.info klass).constantPool klass member =
        .ok method := by
  have reflects := yields.reflects fileEq
  apply find?_of_mapM reflects.methods
  intro member method created
  rw [named_eq created name descriptor]
  rcases createMethod_eq_ok created with ⟨own, ownDescriptor, -, -, same, -⟩
  have flags : method.accessFlags = member.accessFlags := congrArg ClassMember.accessFlags same
  rw [ClassMember.isStatic, flags, beq_true]

/-- A part of the program in class files, with the initializers that its calls need;
these have code that can be read. -/
structure PartOf (state : LoaderState) (table : ClassTable) (program : Program) : Prop where
  routine : ∀ {klass index routine}, program.routineAt klass index = some routine →
    (programOf state.fileOf (bootClass state table)).routineAt klass index = some routine
  initializer : ∀ {klass index routine ancestor}, program.routineAt klass index = some routine →
    ancestor ∈ table.superChain routine.klass →
    program.initializer ancestor =
      (programOf state.fileOf (bootClass state table)).initializer ancestor
  readable : ∀ {klass index routine ancestor file member},
    program.routineAt klass index = some routine →
    ancestor ∈ table.superChain routine.klass → state.fileOf ancestor = some file →
    staticMember file (str "<clinit>") (str "()V") = some member →
    ∃ body, bodyOf file ancestor member = some body

/-- The machine provides what is read off the class files. -/
theorem initializes_of_partOf {program : Program} (yields : Yields state machine.table)
    (part : PartOf state machine.table program) : Initializes machine program where
  routine := by
    intro owner index routine known
    exact refers_of_routineAt yields (part.routine known)
  initializer := by
    intro owner index routine ancestor method known onChain declared
    have declares : (machine.table.info ancestor).methods ≠ [] := by
      intro none
      rw [ClassTable.declaredClinit, none] at declared
      cases declared
    rcases yields.fileOf_of_methods declares with ⟨file, fileEq⟩
    rcases declared_of_file yields fileEq (str "<clinit>") (str "()V") with
      ⟨-, none⟩ | ⟨member, found, memberEq, foundEq, created⟩
    · cases none.symm.trans declared
    · cases foundEq.symm.trans declared
      rcases part.readable known onChain fileEq memberEq with ⟨body, read⟩
      refine ⟨body, ?_, realises_of_bodyOf (yields.reflects fileEq) read created⟩
      rw [part.initializer known onChain, initializer_programOf, staticBody, fileEq,
        Option.bind_eq_bind, Option.bind_some, memberEq, Option.bind_eq_bind, Option.bind_some, read]
  undeclared := by
    intro owner index routine ancestor known onChain undeclared
    rw [part.initializer known onChain, initializer_programOf, staticBody]
    cases fileEq : state.fileOf ancestor with
    | none => rfl
    | some file =>
        rcases declared_of_file yields fileEq (str "<clinit>") (str "()V") with
          ⟨none, -⟩ | ⟨member, found, -, foundEq, -⟩
        · rw [Option.bind_eq_bind, Option.bind_some, none]
          rfl
        · cases foundEq.symm.trans undeclared

end Provides

/-! ## From the class files to the run -/

section Run

variable [Target] {env : LoaderEnv} {state : LoaderState} {machine : Machine} {program : Program}
  {path className : Str} {main : Routine}

/-- What `JVM::Start` asks the loaders for until `main` begins, with the name that the
command gives; the last two calls are for the argument. -/
def startCalls (path : Str) : List LoaderCall :=
  [.loadBasicClass .boot, .loadPrimitiveClasses .boot, .loadClass .base path,
    .loadClass .boot (str "java/lang/String"), .loadClass .boot (str "[Ljava/lang/String;")]

/-- The calls one after the other. -/
def executeAll (env : LoaderEnv) (fuel : Nat) (calls : List LoaderCall) (state : LoaderState) :
    Exec LoaderState :=
  calls.foldlM (fun state call => call.execute env fuel state) state

/-- The classes of a table are those that the loaders have made when `main` begins.  A
run finds the main class and the class of the argument by their names. -/
structure MadeAtStart (env : LoaderEnv) (path className : Str) (state : LoaderState)
    (table : ClassTable) : Prop where
  calls : ∃ fuel, executeAll env fuel (startCalls path) .initial = .ok state
  classes : table.classes = state.objects.map ClassObject.info
  main : ∃ id, (.base, path, some id) ∈ state.results ∧ table.loadClass className = .ok id
  argument : ∃ id, bootClass state table (str "[Ljava/lang/String;") = some id

theorem cacheReachable_of_executeAll {fuel : Nat} {calls : List LoaderCall} {next : LoaderState}
    (reachable : CacheReachable env state) (done : executeAll env fuel calls state = .ok next) :
    CacheReachable env next := by
  induction calls generalizing state with
  | nil =>
      cases done
      exact reachable
  | cons call calls ih =>
      rw [executeAll, List.foldlM_cons] at done
      rcases Exec.bind_eq_ok.mp done with ⟨middle, first, rest⟩
      exact ih (reachable.tail ⟨call, fuel, first⟩) rest

/-- The table shows the classes that the loaders have made. -/
theorem MadeAtStart.yields {table : ClassTable}
    (made : MadeAtStart env path className state table) : Yields state table := by
  rcases made.calls with ⟨fuel, done⟩
  have reachable := cacheReachable_of_executeAll .refl done
  rcases (yields_initial.calls reachable).yields with ⟨other, yields⟩
  rw [ClassTable.eq_of_classes (made.classes.trans yields.classes.symm)]
  exact yields

/-- The class of this name declares this main method. -/
def MainOf (files : ClassId → Option ClassFile) (table : ClassTable) (className : Str)
    (main : Routine) : Prop :=
  ∃ mainClass, table.loadClass className = .ok mainClass ∧
    staticBody files mainClass (str "main") (str "([Ljava/lang/String;)V") = some main

theorem realises_of_mainOf (yields : Yields state machine.table)
    (mainOf : MainOf state.fileOf machine.table className main) {mainClass : ClassId}
    {method : Method} (loaded : machine.table.loadClass className = .ok mainClass)
    (found : getMainMethod machine.table mainClass = some method) :
    main.params = [] ∧ main.result = none ∧ Realises main method := by
  rcases mainOf with ⟨other, named, declared⟩
  cases named.symm.trans loaded
  rcases Option.bind_eq_some_iff.mp declared with ⟨file, fileEq, rest⟩
  rcases Option.bind_eq_some_iff.mp rest with ⟨member, memberEq, bodyEq⟩
  have noArguments : main.params = [] ∧ main.result = none := by
    rcases Option.map_eq_some_iff.mp bodyEq with ⟨code, -, rfl⟩
    exact ⟨rfl, rfl⟩
  refine ⟨noArguments.1, noArguments.2, ?_⟩
  rcases declared_of_file yields fileEq (str "main") (str "([Ljava/lang/String;)V") with
    ⟨none, -⟩ | ⟨first, made, firstEq, madeEq, created⟩
  · cases none.symm.trans memberEq
  · cases firstEq.symm.trans memberEq
    have here : getMainMethod machine.table mainClass = some made := by
      rw [getMainMethod, ClassTable.getMethod, ClassTable.superChain_eq, List.findSome?_cons,
        madeEq]
    cases here.symm.trans found
    exact realises_of_bodyOf (yields.reflects fileEq) bodyEq created

end Run

/-! ## A class path with a recursive method

The readers want names with the suffix, so that the classes are read as superclasses
under such names; after that they are found under their own.
-/

/-- The bytes of a class without interfaces and fields. -/
def classBytes (constants : List ConstantInfo) (members : List Format.Member) : List Byte :=
  be32 0xCAFEBABE ++ be16 0 ++ be16 52 ++ Format.encodePool constants ++ be16 0x21 ++ be16 2 ++
    be16 4 ++ be16 0 ++ be16 0 ++ Format.encodeTable Format.Member.encode members ++ be16 0

def sumFileMain : Routine := ⟨15, padded [0x05, 0xb8, 0x00, 0x0d, 0x40, 0xb1], 2, 3, [], none⟩

def sumFileSum : Routine where
  klass := 14
  code := padded [0x1a, 0x9a, 0x00, 0x05, 0x09, 0xad, 0x1a, 0x85, 0x1a, 0x04, 0x64,
    0xb8, 0x00, 0x09, 0x61, 0xad]
  maxStack := 4
  maxLocals := 1
  params := [.int]
  result := some .long

def sumFileClinit : Routine := ⟨14, padded [0xb1], 0, 0, [], none⟩

/-- The class `Sum` calls its own method. -/
def sumData : ClassData where
  bytes := classBytes
    [.utf8 (str "Sum"), .classInfo 1, .utf8 (str "java/lang/String.class"), .classInfo 3,
      .utf8 (str "Code"), .utf8 (str "sum"), .utf8 (str "(I)J"), .nameAndType 6 7,
      .methodRef 2 8, .utf8 (str "<clinit>"), .utf8 (str "()V")]
    [⟨0x0009, 6, 7, [.code 5 4 1 sumFileSum.code [⟨0, 0, 0, 0⟩] []]⟩,
      ⟨0x0008, 10, 11, [.code 5 0 0 sumFileClinit.code [⟨0, 0, 0, 0⟩] []]⟩]
  size_lt := by decide +kernel

/-- The class `Main` extends `Sum`, and calls its method. -/
def mainData : ClassData where
  bytes := classBytes
    [.utf8 (str "Main"), .classInfo 1, .utf8 (str "Sum.class"), .classInfo 3,
      .utf8 (str "Code"), .utf8 (str "main"), .utf8 (str "([Ljava/lang/String;)V"),
      .utf8 (str "Sum"), .classInfo 8, .utf8 (str "sum"), .utf8 (str "(I)J"),
      .nameAndType 10 11, .methodRef 9 12]
    [⟨0x0009, 6, 7, [.code 5 2 3 sumFileMain.code [⟨0, 0, 0, 0⟩] []]⟩]
  size_lt := by decide +kernel

/-- An entry of an archive with a class that has no members. -/
def bareEntry (file name superName : String)
    (short : (str name).length < 2 ^ 16 ∧ (str superName).length < 2 ^ 16) : Str × FileContent :=
  (str file, .bytes (bareData ⟨str name, short.1⟩ ⟨str superName, short.2⟩))

def bootEntries : List (Str × FileContent) :=
  [bareEntry "java/lang/Object.class" "java/lang/Object" "" (by decide),
    bareEntry "java/lang/Class.class" "java/lang/Class" "java/lang/Object.class" (by decide),
    bareEntry "java/io/Serializable.class" "java/io/Serializable" "java/lang/Object" (by decide),
    bareEntry "java/lang/Cloneable.class" "java/lang/Cloneable" "java/io/Serializable.class"
      (by decide),
    bareEntry "java/lang/String.class" "java/lang/String" "java/lang/Cloneable.class" (by decide),
    (str "Sum.class", .bytes sumData)]

def sumReaders : LoaderName → ClassReader
  | .boot => .zip bootEntries
  | .ext => .zip []
  | .base => .zip [(str "Main.class", .bytes mainData)]

def sumEnv : LoaderEnv := .ofReaders sumReaders noString

/-- The state when `main` begins. -/
def sumLoaded : LoaderState :=
  (@executeAll maskedShift sumEnv 7 (startCalls (str "Main.class")) .initial).toOption.getD .initial

/-- A class without members. -/
def bareInfo (name superName : Str) (superClass : Option ClassId) : ClassInfo where
  name := name
  accessFlags := 0x21
  superClass := superClass
  constantPool := [none, none, some (.classRef name), none, some (.classRef superName)]

def sumFileMethod (name descriptor : Str) (flags : BitVec 16) (args : Nat) (routine : Routine) :
    Method where
  name := name
  descriptor := descriptor
  accessFlags := flags
  klass := routine.klass
  codes := some routine.code
  maxStack := routine.maxStack
  maxLocals := routine.maxLocals
  argSlotCount := args
  exceptionTable := some [emptyHandler]

def mainFileMethod : Method :=
  sumFileMethod (str "main") (str "([Ljava/lang/String;)V") 0x0009 1 sumFileMain

/-- The classes that the calls make. -/
def sumFileClasses : List ClassInfo :=
  [bareInfo (str "java/lang/Object") [] none,
    bareInfo (str "java/lang/Class") (str "java/lang/Object.class") (some 0)] ++
  ClassTable.primitiveTypes.map (fun type => { name := type.1, accessFlags := 0x0001 }) ++
  [bareInfo (str "java/io/Serializable") (str "java/lang/Object") (some 0),
    bareInfo (str "java/lang/Cloneable") (str "java/io/Serializable.class") (some 11),
    bareInfo (str "java/lang/String") (str "java/lang/Cloneable.class") (some 12),
    { name := str "Sum", accessFlags := 0x21, superClass := some 13
      methods := [sumFileMethod (str "sum") (str "(I)J") 0x0009 1 sumFileSum,
        sumFileMethod (str "<clinit>") (str "()V") 0x0008 0 sumFileClinit]
      constantPool := [none, none, some (.classRef (str "Sum")), none,
        some (.classRef (str "java/lang/String.class")), none, none, none, none,
        some (.methodRef (str "Sum") (str "sum") (str "(I)J")), none, none] },
    { name := str "Main", accessFlags := 0x21, superClass := some 14
      methods := [mainFileMethod]
      constantPool := [none, none, some (.classRef (str "Main")), none,
        some (.classRef (str "Sum.class")), none, none, none, none,
        some (.classRef (str "Sum")), none, none, none,
        some (.methodRef (str "Sum") (str "sum") (str "(I)J"))] },
    { name := str "[Ljava/lang/String;", accessFlags := 0x0001, superClass := some 0
      interfaces := [12, 11] }]

def sumFileMachine : Machine := .ofTable (.ofClasses sumFileClasses (by decide +kernel))

def sumFileProgram : Program where
  routineAt klass index :=
    if klass = 15 ∧ index = 13 ∨ klass = 14 ∧ index = 9 then some sumFileSum else none
  initializer klass := if klass = 14 then some sumFileClinit else none

/-- A table of types is a typing of a routine. -/
def typeChecks (program : Program) (routine : Routine) (table : List (Nat × FrameType)) : Bool :=
  flowsTo (fun pc => table.lookup pc) routine.entryType 0 &&
    table.all fun row => checksAt program routine (fun pc => table.lookup pc) row.1 row.2

theorem wellTyped_of_typeChecks {program : Program} {routine : Routine}
    {table : List (Nat × FrameType)} (checks : typeChecks program routine table = true) :
    routine.WellTyped program fun pc => table.lookup pc := by
  rw [typeChecks, Bool.and_eq_true] at checks
  exact Routine.wellTyped_of_checks table checks.1 checks.2

theorem typeChecks_sumFileProgram : typeChecks sumFileProgram sumFileSum sumTypes = true ∧
    typeChecks sumFileProgram sumFileClinit [(0, ⟨[], []⟩)] = true ∧
    typeChecks sumFileProgram sumFileMain mainTypes = true := by
  decide +kernel

theorem wellTyped_sumFileProgram : sumFileProgram.WellTyped where
  routine := by
    intro klass index routine known
    simp only [sumFileProgram] at known
    split at known
    · cases known
      exact ⟨_, wellTyped_of_typeChecks typeChecks_sumFileProgram.1⟩
    · cases known
  initializer := by
    intro klass routine known
    simp only [sumFileProgram] at known
    split at known
    · cases known
      exact ⟨rfl, rfl, _, wellTyped_of_typeChecks typeChecks_sumFileProgram.2.1⟩
    · cases known

theorem wellTyped_sumFileMain : ∃ types, sumFileMain.WellTyped sumFileProgram types :=
  ⟨_, wellTyped_of_typeChecks typeChecks_sumFileProgram.2.2⟩

/-- What the start uses, and the end of the program. -/
theorem facts_sumFileMachine :
    (sumFileMachine.table.loadClass (str "java/lang/Class") = .ok 1 ∧
      sumFileMachine.table.loadClass (str "Main") = .ok 15 ∧
      getMainMethod sumFileMachine.table 15 = some mainFileMethod ∧
      Thread.overflows 0 mainFileMethod = false ∧
      sumFileMachine.table.loadClass (str "java/lang/String") = .ok 13 ∧
      sumFileMachine.table.getArrayClass 13 = .ok 16 ∧
      (sumFileMachine.table.info 16).isArrayClass = true ∧
      2 ≤ mainFileMethod.maxLocals % 2 ^ 16) ∧
    sumFileMachine.table.superChain 14 = [14, 13, 12, 11, 0] ∧
    (runLazily? sumFileProgram (superOf sumFileMachine.table) 30
      (LazyState.ofMain sumFileMain)).map LazyState.acts = some [] := by
  decide +kernel

theorem startable_sumFileMachine : Startable sumFileMachine (str "Main") :=
  ⟨1, 15, mainFileMethod, 13, 16, facts_sumFileMachine.1⟩

/-- The class files of the loaded classes. -/
def sumFiles : ClassId → Option ClassFile := @LoaderState.fileOf maskedShift sumLoaded

/-- The calls return, these classes have been made, and this is read off the files. -/
theorem made_sumLoaded :
    ((@executeAll maskedShift sumEnv 7 (startCalls (str "Main.class")) .initial).toOption.isSome =
        true ∧
      sumLoaded.objects.map ClassObject.info = sumFileClasses ∧
      (.base, str "Main.class", some 15) ∈ sumLoaded.results ∧
      bootClass sumLoaded sumFileMachine.table (str "[Ljava/lang/String;") = some 16) ∧
    (programOf sumFiles (bootClass sumLoaded sumFileMachine.table)).routineAt 15 13 =
        some sumFileSum ∧
      (programOf sumFiles (bootClass sumLoaded sumFileMachine.table)).routineAt 14 9 =
        some sumFileSum ∧
      staticBody sumFiles 15 (str "main") (str "([Ljava/lang/String;)V") = some sumFileMain ∧
      staticBody sumFiles 14 (str "<clinit>") (str "()V") = some sumFileClinit ∧
      ∀ klass ∈ [13, 12, 11, 0], staticBody sumFiles klass (str "<clinit>") (str "()V") = none ∧
        (sumFiles klass).any (fun file =>
          (staticMember file (str "<clinit>") (str "()V")).isSome) = false := by
  decide +kernel

theorem executeAll_sumEnv :
    @executeAll maskedShift sumEnv 7 (startCalls (str "Main.class")) .initial = .ok sumLoaded := by
  have done := made_sumLoaded.1.1
  cases result : @executeAll maskedShift sumEnv 7 (startCalls (str "Main.class")) .initial with
  | error failure =>
      rw [result] at done
      cases done
  | ok last =>
      rw [sumLoaded, result]
      rfl

theorem madeAtStart_sumLoaded : @MadeAtStart maskedShift sumEnv (str "Main.class") (str "Main")
    sumLoaded sumFileMachine.table :=
  @MadeAtStart.mk maskedShift _ _ _ _ _ ⟨7, executeAll_sumEnv⟩ made_sumLoaded.1.2.1.symm
    ⟨15, made_sumLoaded.1.2.2.1, facts_sumFileMachine.1.2.1⟩ ⟨16, made_sumLoaded.1.2.2.2⟩

theorem ancestor_of_sumFileProgram {klass index : Nat} {routine : Routine} {ancestor : ClassId}
    (known : sumFileProgram.routineAt klass index = some routine)
    (onChain : ancestor ∈ sumFileMachine.table.superChain routine.klass) :
    ancestor = 14 ∨ ancestor ∈ [13, 12, 11, 0] := by
  simp only [sumFileProgram] at known
  split at known
  · cases known
    change ancestor ∈ sumFileMachine.table.superChain 14 at onChain
    rw [facts_sumFileMachine.2.1] at onChain
    exact List.mem_cons.mp onChain
  · cases known

theorem partOf_sumFileProgram :
    @PartOf maskedShift sumLoaded sumFileMachine.table sumFileProgram := by
  rcases made_sumLoaded.2 with ⟨fromMain, fromSum, -, declared, above⟩
  apply @PartOf.mk maskedShift
  · intro klass index routine known
    simp only [sumFileProgram] at known
    split at known
    · next here =>
        cases known
        rcases here with ⟨rfl, rfl⟩ | ⟨rfl, rfl⟩
        · exact fromMain
        · exact fromSum
    · cases known
  · intro klass index routine ancestor known onChain
    rcases ancestor_of_sumFileProgram known onChain with rfl | mem
    · exact declared.symm
    · have other : ancestor ≠ 14 := by
        rintro rfl
        simp at mem
      rw [sumFileProgram]
      dsimp only
      rw [if_neg other]
      exact (above ancestor mem).1.symm
  · intro klass index routine ancestor file member known onChain fileEq memberEq
    have here : sumFiles ancestor = some file := fileEq
    rcases ancestor_of_sumFileProgram known onChain with rfl | mem
    · rw [staticBody, here, Option.bind_eq_bind, Option.bind_some, memberEq,
        Option.bind_eq_bind, Option.bind_some] at declared
      exact ⟨sumFileClinit, declared⟩
    · have undeclared := (above ancestor mem).2
      rw [here, Option.any_some, memberEq] at undeclared
      cases undeclared

theorem mainOf_sumFileMain : MainOf sumFiles sumFileMachine.table (str "Main") sumFileMain :=
  ⟨15, facts_sumFileMachine.1.2.1, made_sumLoaded.2.2.2.1⟩

end JvmDemo.Interpreter
