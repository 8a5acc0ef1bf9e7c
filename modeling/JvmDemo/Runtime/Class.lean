import JvmDemo.Runtime.Slots

/-!
# Classes, members and their lookups

A `ClassTable` has the classes that the loader provides during a run, in the
order in which they are loaded: superclasses and interfaces come before the
classes that name them, so that every walk along them ends.  A class pointer is
an index into the table.

`package_name_` is assigned nowhere in the source and therefore empty for every
class; the resolution caches of the constant pool are left out, since resolving
again gives the same member.
-/

namespace JvmDemo.Runtime

open JvmDemo.Lib

/-! ## Members -/

/-- A class pointer. -/
abbrev ClassId := Nat

/-- The bits of `ACCESS_FLAG` that the code tests. -/
inductive AccessFlag where
  | accPublic | accPrivate | accProtected | accStatic | accFinal | accSuper | accNative
  | accInterface | accAbstract
  deriving DecidableEq, Repr

def AccessFlag.mask : AccessFlag → BitVec 16
  | .accPublic => 0x0001
  | .accPrivate => 0x0002
  | .accProtected => 0x0004
  | .accStatic => 0x0008
  | .accFinal => 0x0010
  | .accSuper => 0x0020
  | .accNative => 0x0100
  | .accInterface => 0x0200
  | .accAbstract => 0x0400

/-- `(access_flags_ & flag) != 0`. -/
def hasFlag (accessFlags : BitVec 16) (flag : AccessFlag) : Bool :=
  accessFlags &&& flag.mask != 0

/-- What fields and methods have in common. -/
structure ClassMember where
  accessFlags : BitVec 16 := 0
  name : Str := []
  descriptor : Str := []
  klass : ClassId := 0
  deriving DecidableEq, Repr

namespace ClassMember

def isPublic (member : ClassMember) : Bool := hasFlag member.accessFlags .accPublic

def isPrivate (member : ClassMember) : Bool := hasFlag member.accessFlags .accPrivate

def isProtected (member : ClassMember) : Bool := hasFlag member.accessFlags .accProtected

def isStatic (member : ClassMember) : Bool := hasFlag member.accessFlags .accStatic

def isFinal (member : ClassMember) : Bool := hasFlag member.accessFlags .accFinal

end ClassMember

structure Field extends ClassMember where
  slotId : BitVec 32 := 0
  constValueIndex : BitVec 32 := 0
  deriving DecidableEq, Repr

/-- `descriptor_[0]`, which is the terminator on an empty string. -/
def firstByte (text : Str) : Byte := text.headD 0

/-- `Field::IsLongOrDouble`, which also holds of references. -/
def Field.isLongOrDouble (field : Field) : Bool :=
  field.descriptor == str "J" || field.descriptor == str "D" ||
    firstByte field.descriptor == chr '[' || firstByte field.descriptor == chr 'L'

/-- An entry of an exception table; the catch type is the class named by the
constant it points at, if any. -/
structure ExceptionHandler where
  startPc : BitVec 32
  endPc : BitVec 32
  handlerPc : BitVec 32
  catchType : Option Str
  deriving DecidableEq, Repr

/-- A method.  `codes_` and `exception_table_` may be uninitialised pointers, or lead to
a vector that has been written over. -/
structure Method extends ClassMember where
  codes : Option (List Byte) := none
  maxStack : Nat := 0
  maxLocals : Nat := 0
  argSlotCount : Nat := 0
  exceptionTable : Option (List ExceptionHandler) := none
  deriving DecidableEq, Repr

/-- `sizeof(std::vector)`: a header of three pointers, with the elements elsewhere. -/
def vectorSize : Nat := 24

/-- `sizeof(ExceptionHandler)`. -/
def ExceptionHandler.size : Nat := 24

/-- Code with `nop` behind it, as far as the header of its vector reaches. -/
def padded (code : List Byte) : List Byte :=
  code ++ List.replicate (vectorSize - code.length) 0x00

/-- A handler of an empty range, which makes room for the header of a vector. -/
def emptyHandler : ExceptionHandler := ⟨0, 0, 0, none⟩

namespace Method

def isNative (method : Method) : Bool := hasFlag method.accessFlags .accNative

def isAbstract (method : Method) : Bool := hasFlag method.accessFlags .accAbstract

end Method

/-! ## Run-time constants -/

/-- The constants that the run-time pool keeps. -/
inductive Constant where
  | integer (value : Word)
  | float (bits : Word)
  | long (value : DWord)
  | double (bits : DWord)
  | string (value : Str)
  | classRef (className : Str)
  | fieldRef (className name descriptor : Str)
  | methodRef (className name descriptor : Str)
  | interfaceMethodRef (className name descriptor : Str)
  deriving DecidableEq, Repr

/-! ## Classes -/

/-- The part of a class that is fixed once it is loaded. -/
structure ClassInfo where
  name : Str := []
  accessFlags : BitVec 16 := 0
  superClass : Option ClassId := none
  interfaces : List ClassId := []
  fields : List Field := []
  methods : List Method := []
  constantPool : List (Option Constant) := []
  instanceSlotCount : BitVec 32 := 0
  staticSlotCount : BitVec 32 := 0
  deriving DecidableEq, Repr

namespace ClassInfo

def isPublic (info : ClassInfo) : Bool := hasFlag info.accessFlags .accPublic

def isSuper (info : ClassInfo) : Bool := hasFlag info.accessFlags .accSuper

def isInterface (info : ClassInfo) : Bool := hasFlag info.accessFlags .accInterface

def isAbstract (info : ClassInfo) : Bool := hasFlag info.accessFlags .accAbstract

/-- `package_name_`, which no code assigns. -/
def packageName (_ : ClassInfo) : Str := []

/-- `name_[0] == '['`. -/
def isArrayClass (info : ClassInfo) : Bool := firstByte info.name == chr '['

/-- `ObjectSize`: `sizeof(Slot)` is 4, and the result is a `uint32_t`. -/
def objectSize (info : ClassInfo) : Nat := info.instanceSlotCount.toNat * 4 % 2 ^ 32

/-- `GetConstant`; an index past the end is only logged and gives null. -/
def getConstant (info : ClassInfo) (index : Nat) : Option Constant :=
  (info.constantPool[index]?).join

end ClassInfo

/-- The classes of a run in loading order. -/
structure ClassTable where
  classes : List ClassInfo
  superClass_lt : ∀ id super, (classes.getD id {}).superClass = some super → super < id
  interface_lt : ∀ id interface, interface ∈ (classes.getD id {}).interfaces → interface < id
  field_klass : ∀ id, ∀ field ∈ (classes.getD id {}).fields, field.klass = id
  method_klass : ∀ id, ∀ method ∈ (classes.getD id {}).methods, method.klass = id

namespace ClassTable

/-- No classes. -/
def empty : ClassTable where
  classes := []
  superClass_lt := by simp
  interface_lt := by simp
  field_klass := by simp
  method_klass := by simp

/-- One class without superclass and interfaces. -/
def single (info : ClassInfo) (superClass : info.superClass = none)
    (interfaces : info.interfaces = []) (fields : ∀ field ∈ info.fields, field.klass = 0)
    (methods : ∀ method ∈ info.methods, method.klass = 0) : ClassTable where
  classes := [info]
  superClass_lt := by
    intro id super found
    cases id with
    | zero => simp [superClass] at found
    | succ id => simp at found
  interface_lt := by
    intro id interface mem
    cases id with
    | zero => simp [interfaces] at mem
    | succ id => simp at mem
  field_klass := by
    intro id field mem
    cases id with
    | zero => exact fields field mem
    | succ id => simp at mem
  method_klass := by
    intro id method mem
    cases id with
    | zero => exact methods method mem
    | succ id => simp at mem

/-- Whether classes refer back only, and own their members. -/
def linked (classes : List ClassInfo) : Bool :=
  (List.range classes.length).all fun id =>
    let info := classes.getD id {}
    info.superClass.all (· < id) && info.interfaces.all (· < id) &&
      info.fields.all (·.klass == id) && info.methods.all (·.klass == id)

theorem linked_at {classes : List ClassInfo} (checked : linked classes = true) (id : ClassId) :
    (∀ super, (classes.getD id {}).superClass = some super → super < id) ∧
    (∀ interface ∈ (classes.getD id {}).interfaces, interface < id) ∧
    (∀ field ∈ (classes.getD id {}).fields, field.klass = id) ∧
    (∀ method ∈ (classes.getD id {}).methods, method.klass = id) := by
  by_cases inside : id < classes.length
  · have here := List.all_eq_true.mp checked id (List.mem_range.mpr inside)
    simp only [Bool.and_eq_true, List.all_eq_true, decide_eq_true_eq, beq_iff_eq] at here
    rcases here with ⟨⟨⟨supers, interfaces⟩, fields⟩, methods⟩
    refine ⟨?_, interfaces, fields, methods⟩
    intro super found
    rw [found] at supers
    simpa using supers
  · have missing : classes.getD id {} = {} := by
      rw [List.getD_eq_getElem?_getD, List.getElem?_eq_none (Nat.le_of_not_lt inside)]
      rfl
    rw [missing]
    simp

/-- A table of classes that pass the check. -/
def ofClasses (classes : List ClassInfo) (checked : linked classes = true) : ClassTable where
  classes := classes
  superClass_lt id super := (linked_at checked id).1 super
  interface_lt id interface := (linked_at checked id).2.1 interface
  field_klass id := (linked_at checked id).2.2.1
  method_klass id := (linked_at checked id).2.2.2

variable (table : ClassTable)

/-- The class that a pointer points at. -/
def info (id : ClassId) : ClassInfo := table.classes.getD id {}

/-! ## The superclass chain -/

def superChainFrom : Nat → ClassId → List ClassId
  | 0, _ => []
  | fuel + 1, id =>
      id :: match (table.info id).superClass with
        | some super => superChainFrom fuel super
        | none => []

/-- The class, its superclass, and so on: what the loops and recursions along
`super_class_` run through. -/
def superChain (id : ClassId) : List ClassId := table.superChainFrom (id + 1) id

theorem superChainFrom_eq {fuel : Nat} {id : ClassId} (enough : id < fuel) :
    table.superChainFrom fuel id = table.superChain id := by
  induction id using Nat.strongRecOn generalizing fuel with
  | ind id ih =>
      rcases fuel with - | fuel
      · exact absurd enough (Nat.not_lt_zero id)
      · rw [superChain, superChainFrom, superChainFrom]
        cases superEq : (table.info id).superClass with
        | none => rfl
        | some super =>
            have below : super < id := table.superClass_lt id super superEq
            have here := ih super below (Nat.lt_of_lt_of_le below (Nat.le_of_lt_succ enough))
            have there := ih super below below
            simp only [here, there]

/-- The chain goes on with the chain of the superclass. -/
theorem superChain_eq (id : ClassId) :
    table.superChain id = id :: match (table.info id).superClass with
      | some super => table.superChain super
      | none => [] := by
  rw [superChain, superChainFrom]
  cases superEq : (table.info id).superClass with
  | none => rfl
  | some super => simp [table.superChainFrom_eq (table.superClass_lt id super superEq)]

theorem mem_superChain_self (id : ClassId) : id ∈ table.superChain id := by
  rw [superChain_eq]
  exact List.mem_cons_self

/-- Every class of a chain is older than the class it starts from. -/
theorem le_of_mem_superChain {id ancestor : ClassId} (mem : ancestor ∈ table.superChain id) :
    ancestor ≤ id := by
  induction id using Nat.strongRecOn with
  | ind id ih =>
      rw [superChain_eq] at mem
      rcases List.mem_cons.mp mem with rfl | rest
      · exact Nat.le_refl _
      · cases superEq : (table.info id).superClass with
        | none => simp [superEq] at rest
        | some super =>
            have below : super < id := table.superClass_lt id super superEq
            have older := ih super below (by simpa [superEq] using rest)
            exact Nat.le_trans older (Nat.le_of_lt below)

/-- A chain strictly descends in loading order. -/
theorem nodup_superChain (id : ClassId) : (table.superChain id).Nodup := by
  induction id using Nat.strongRecOn with
  | ind id ih =>
      rw [superChain_eq]
      cases superEq : (table.info id).superClass with
      | none => simp
      | some super =>
          have below : super < id := table.superClass_lt id super superEq
          refine List.nodup_cons.mpr ⟨?_, ih super below⟩
          intro mem
          exact Nat.not_le_of_lt below (table.le_of_mem_superChain mem)

/-- The chain of a class on the chain is part of it. -/
theorem mem_superChain_trans {id middle ancestor : ClassId} (first : middle ∈ table.superChain id)
    (second : ancestor ∈ table.superChain middle) : ancestor ∈ table.superChain id := by
  induction id using Nat.strongRecOn with
  | ind id ih =>
      rw [superChain_eq] at first
      rcases List.mem_cons.mp first with rfl | rest
      · exact second
      · cases superEq : (table.info id).superClass with
        | none => simp [superEq] at rest
        | some super =>
            have below : super < id := table.superClass_lt id super superEq
            have above := ih super below (by simpa [superEq] using rest)
            rw [superChain_eq, superEq]
            exact List.mem_cons_of_mem id above

theorem mem_superChain_iff {id ancestor : ClassId} :
    ancestor ∈ table.superChain id ↔ ancestor = id ∨ ancestor ∈ (table.superChain id).tail := by
  rw [table.superChain_eq id, List.mem_cons, List.tail_cons]

/-- The classes above a class are the chain of its superclass. -/
theorem mem_tail_superChain_iff {id ancestor : ClassId} :
    ancestor ∈ (table.superChain id).tail ↔
      ∃ super, (table.info id).superClass = some super ∧ ancestor ∈ table.superChain super := by
  rw [table.superChain_eq id, List.tail_cons]
  cases (table.info id).superClass with
  | none => simp
  | some super => simp

theorem lt_of_mem_tail_superChain {id ancestor : ClassId}
    (above : ancestor ∈ (table.superChain id).tail) : ancestor < id := by
  rcases table.mem_tail_superChain_iff.mp above with ⟨super, superEq, onChain⟩
  exact Nat.lt_of_le_of_lt (table.le_of_mem_superChain onChain)
    (table.superClass_lt id super superEq)

/-! ## Lookups along the chain -/

/-- `GetMethod`. -/
def getMethod (id : ClassId) (name descriptor : Str) (isStatic : Bool) : Option Method :=
  (table.superChain id).findSome? fun klass => (table.info klass).methods.find? fun method =>
    method.name == name && method.descriptor == descriptor && method.isStatic == isStatic

/-- `LookupMethodInClass`. -/
def lookupMethodInClass (id : ClassId) (name descriptor : Str) : Option Method :=
  (table.superChain id).findSome? fun klass => (table.info klass).methods.find? fun method =>
    method.name == name && method.descriptor == descriptor

/-- `GetClinitMethod`. -/
def getClinitMethod (id : ClassId) : Option Method :=
  table.getMethod id (str "<clinit>") (str "()V") true

/-- `IsSubClassOf(s, t)`. -/
def isSubClassOf (s t : ClassId) : Bool := (table.superChain s).tail.contains t

/-- `IsSuperClassOf(s, t)`. -/
def isSuperClassOf (s t : ClassId) : Bool := (table.superChain t).tail.contains s

/-! ## Lookups along interfaces -/

/-- `LookupMethodInInterfaces`: each interface overwrites the result of the one
before it, also when it has no such method. -/
def lookupMethodInInterfaces (id : ClassId) (name descriptor : Str) : Option Method :=
  (table.info id).interfaces.foldl
    (fun _ interface => table.lookupMethodInClass interface name descriptor) none

/-- `LookupMethod`. -/
def lookupMethod (id : ClassId) (name descriptor : Str) : Option Method :=
  match table.lookupMethodInClass id name descriptor with
  | some method => some method
  | none => table.lookupMethodInInterfaces id name descriptor

def lookupFieldFrom (name descriptor : Str) : Nat → ClassId → Option Field
  | 0, _ => none
  | fuel + 1, id =>
      let own := (table.info id).fields.find? fun field =>
        field.name == name && field.descriptor == descriptor
      let inherited := (table.info id).interfaces.findSome? (lookupFieldFrom name descriptor fuel)
      let above := (table.info id).superClass.bind (lookupFieldFrom name descriptor fuel)
      own.or (inherited.or above)

/-- `LookupField`: own fields, then the interfaces in order, then the
superclass.  Loading order bounds the depth. -/
def lookupField (id : ClassId) (name descriptor : Str) : Option Field :=
  table.lookupFieldFrom name descriptor (id + 1) id

def isSubInterfaceOfFrom (t : ClassId) : Nat → ClassId → Bool
  | 0, _ => false
  | fuel + 1, s =>
      (table.info s).interfaces.any fun interface =>
        interface == t || isSubInterfaceOfFrom t fuel interface

/-- `IsSubInterfaceOf(s, t)`. -/
def isSubInterfaceOf (s t : ClassId) : Bool := table.isSubInterfaceOfFrom t (s + 1) s

/-- `IsImplements(s, t)`: only the interfaces of `s` itself are searched. -/
def isImplements (s t : ClassId) : Bool :=
  (table.info s).interfaces.any fun interface =>
    interface == t || table.isSubInterfaceOf interface t

/-! ## Names -/

/-- `primitive_types_`. -/
def primitiveTypes : List (Str × Str) :=
  [(str "void", str "V"), (str "boolean", str "Z"), (str "byte", str "B"), (str "short", str "S"),
    (str "int", str "I"), (str "long", str "J"), (str "char", str "C"), (str "float", str "F"),
    (str "double", str "D")]

/-- `IsPrimitive`. -/
def isPrimitive (id : ClassId) : Bool :=
  primitiveTypes.any fun pair => pair.1 == (table.info id).name

/-- `ToDescriptor`. -/
def toDescriptor (className : Str) : Str :=
  if firstByte className == chr '[' then className
  else match primitiveTypes.find? fun pair => pair.1 == className with
    | some pair => pair.2
    | none => str "L" ++ className ++ str ";"

/-- `GetArrayClassName`. -/
def getArrayClassName (className : Str) : Str := str "[" ++ toDescriptor className

/-- `ToClassName`. -/
def toClassName (descriptor : Str) : Exec Str :=
  if firstByte descriptor == chr '[' then .ok descriptor
  else if firstByte descriptor == chr 'L' then
    .ok ((descriptor.drop 1).take (descriptor.length - 2))
  else match primitiveTypes.find? fun pair => pair.2 == descriptor with
    | some pair => .ok pair.1
    | none => fatal ("Invalid descriptor: " ++ text descriptor)

/-- `GetComponentClassName`. -/
def getComponentClassName (className : Str) : Exec Str :=
  if firstByte className == chr '[' then toClassName (className.drop 1)
  else fatal ("Not array class: " ++ text className)

/-- `LoadClass` by name; a name that the class path does not provide leads
through a null `ClassData`. -/
def loadClass (name : Str) : Exec ClassId :=
  match table.classes.findIdx? fun info => info.name == name with
  | some id => .ok id
  | none => undefined "parse of a class file that was not found"

/-- `GetComponentClass`. -/
def getComponentClass (id : ClassId) : Exec ClassId := do
  let name ← getComponentClassName (table.info id).name
  table.loadClass name

/-- `GetArrayClass`. -/
def getArrayClass (id : ClassId) : Exec ClassId :=
  table.loadClass (getArrayClassName (table.info id).name)

/-! ## Assignment compatibility -/

def isAssignableFromFuel : Nat → ClassId → Option ClassId → Exec Bool
  | 0, _, _ => .error .diverges
  | _, _, none => .ok false
  | fuel + 1, s, some t =>
      let sInfo := table.info s
      let tInfo := table.info t
      if s = t then .ok true
      else if !tInfo.isArrayClass then
        if !tInfo.isInterface then
          if !sInfo.isInterface then .ok (table.isSubClassOf s t)
          else .ok (table.isImplements s t)
        else if !sInfo.isInterface then .ok (sInfo.name == str "java/lang/Object")
        else .ok (table.isSubInterfaceOf t s)
      else if !sInfo.isArrayClass then
        if !sInfo.isInterface then .ok (sInfo.name == str "java/lang/Object")
        else .ok (sInfo.name == str "java/lang/Cloneable" ||
          sInfo.name == str "java/io/Serializable")
      else do
        let sc ← table.getComponentClass s
        let tc ← table.getComponentClass t
        isAssignableFromFuel fuel sc (some tc)

/-- `IsAssignableFrom(s, t)`: the recursion goes to the component classes, whose
names are shorter. -/
def isAssignableFrom (s : ClassId) (t : Option ClassId) : Exec Bool :=
  table.isAssignableFromFuel ((table.info s).name.length + 1) s t

/-! ## Access control and resolution -/

/-- `Class::IsAccessibleTo`. -/
def isAccessibleTo (id other : ClassId) : Bool :=
  (table.info id).isPublic || (table.info id).packageName == (table.info other).packageName

/-- `ClassMember::IsAccessibleTo`: the package comparison is of the member's
class with itself. -/
def isMemberAccessibleTo (member : ClassMember) (other : ClassId) : Bool :=
  let samePackage := (table.info member.klass).packageName == (table.info member.klass).packageName
  if member.isPublic then true
  else if member.isProtected then table.isSubClassOf member.klass other || samePackage
  else if !member.isPrivate then samePackage
  else member.klass == other

/-- `SymRefConstant::ResolveClass` in the pool of class `owner`. -/
def resolveClass (owner : ClassId) (className : Str) : Exec ClassId := do
  let id ← table.loadClass className
  if table.isAccessibleTo id owner then pure id else fatal "java.lang.IllegalAccessError"

/-- `ResolveField`. -/
def resolveField (owner : ClassId) (className name descriptor : Str) : Exec Field := do
  let d ← table.resolveClass owner className
  match table.lookupField d name descriptor with
  | none => fatal "java.lang.NoSuchFieldError"
  | some field =>
      if table.isMemberAccessibleTo field.toClassMember owner then pure field
      else fatal "java.lang.IllegalAccessError"

/-- The end of `ResolveMethod` and `ResolveInterfaceMethod`. -/
def resolveMethodIn (owner d : ClassId) (name descriptor : Str) : Exec Method :=
  match table.lookupMethod d name descriptor with
  | none => fatal "java.lang.NoSuchMethodError"
  | some method =>
      if table.isMemberAccessibleTo method.toClassMember owner then pure method
      else fatal "java.lang.IllegalAccessError"

/-- `ResolveMethod`. -/
def resolveMethod (owner : ClassId) (className name descriptor : Str) : Exec Method := do
  let d ← table.resolveClass owner className
  if (table.info d).isInterface then fatal "java.lang.IncompatibleClassChangeError"
  else table.resolveMethodIn owner d name descriptor

/-- `ResolveInterfaceMethod`. -/
def resolveInterfaceMethod (owner : ClassId) (className name descriptor : Str) : Exec Method := do
  let d ← table.resolveClass owner className
  if !(table.info d).isInterface then fatal "java.lang.IncompatibleClassChangeError"
  else table.resolveMethodIn owner d name descriptor

/-- `Class::GetField`. -/
def getField (id : ClassId) (name descriptor : Str) (isStatic : Bool) : Exec Field :=
  match table.lookupField id name descriptor with
  | none => fatal "java.lang.NoSuchFieldError"
  | some field =>
      if isStatic == field.isStatic then pure field
      else fatal "java.lang.IncompatibleClassChangeError"

end ClassTable

end JvmDemo.Runtime
