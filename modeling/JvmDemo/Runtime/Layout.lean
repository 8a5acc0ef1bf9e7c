import JvmDemo.Lib.Cells
import JvmDemo.Runtime.Class

/-!
# Preparation of classes and the layout of instance fields

`PrepareClass` numbers the slots of the instance fields, from where the
superclass ended, and of the static fields, from zero; then it allocates the
static variables and sets those that are final.  Classes are prepared in loading
order, the superclass first.

The instance fields of a class and of its superclasses are laid out one after
the other: their slots are disjoint and leave no gap.
-/

namespace JvmDemo.Runtime

open JvmDemo.Lib

/-! ## Changing a class of a table -/

/-- A change of a class that leaves its place in the hierarchy and its members
as they are. -/
structure KeepsMembers (change : ClassInfo → ClassInfo) : Prop where
  superClass : ∀ info, (change info).superClass = info.superClass
  interfaces : ∀ info, (change info).interfaces = info.interfaces
  methods : ∀ info, (change info).methods = info.methods
  fields : ∀ info, (change info).fields.map Field.toClassMember =
    info.fields.map Field.toClassMember

namespace ClassTable

theorem getD_modify (classes : List ClassInfo) (id other : ClassId)
    (change : ClassInfo → ClassInfo) :
    (classes.modify id change).getD other {} = classes.getD other {} ∨
      (id = other ∧ (classes.modify id change).getD other {} = change (classes.getD other {})) := by
  rw [List.getD_eq_getElem?_getD, List.getD_eq_getElem?_getD, List.getElem?_modify]
  cases classes[other]? with
  | none => exact Or.inl rfl
  | some info =>
      by_cases same : id = other
      · exact Or.inr ⟨same, by simp [same]⟩
      · exact Or.inl (by simp [same])

/-- Change one class of the table. -/
def modify (table : ClassTable) (id : ClassId) (change : ClassInfo → ClassInfo)
    (keeps : KeepsMembers change) : ClassTable where
  classes := table.classes.modify id change
  superClass_lt := by
    intro other super found
    rcases getD_modify table.classes id other change with same | ⟨-, changed⟩
    · rw [same] at found
      exact table.superClass_lt other super found
    · rw [changed, keeps.superClass] at found
      exact table.superClass_lt other super found
  interface_lt := by
    intro other interface mem
    rcases getD_modify table.classes id other change with same | ⟨-, changed⟩
    · rw [same] at mem
      exact table.interface_lt other interface mem
    · rw [changed, keeps.interfaces] at mem
      exact table.interface_lt other interface mem
  field_klass := by
    intro other field mem
    rcases getD_modify table.classes id other change with same | ⟨-, changed⟩
    · rw [same] at mem
      exact table.field_klass other field mem
    · rw [changed] at mem
      have member := List.mem_map_of_mem (f := Field.toClassMember) mem
      rw [keeps.fields] at member
      rcases List.mem_map.mp member with ⟨old, oldMem, sameMember⟩
      rw [← sameMember]
      exact table.field_klass other old oldMem
  method_klass := by
    intro other method mem
    rcases getD_modify table.classes id other change with same | ⟨-, changed⟩
    · rw [same] at mem
      exact table.method_klass other method mem
    · rw [changed, keeps.methods] at mem
      exact table.method_klass other method mem

section Modify

variable {table : ClassTable} {id other : ClassId} {change : ClassInfo → ClassInfo}
  (keeps : KeepsMembers change)

@[simp]
theorem length_modify : (table.modify id change keeps).classes.length = table.classes.length := by
  simp [modify]

theorem info_modify_self (inside : id < table.classes.length) :
    (table.modify id change keeps).info id = change (table.info id) := by
  simp [info, modify, List.getD_eq_getElem?_getD, inside]

theorem info_modify_ne (differ : id ≠ other) :
    (table.modify id change keeps).info other = table.info other := by
  simp [info, modify, List.getD_eq_getElem?_getD, differ]

theorem superClass_modify :
    ((table.modify id change keeps).info other).superClass = (table.info other).superClass := by
  rcases getD_modify table.classes id other change with same | ⟨-, changed⟩
  · exact congrArg ClassInfo.superClass same
  · exact (congrArg ClassInfo.superClass changed).trans (keeps.superClass _)

end Modify

/-- Tables with the same superclasses have the same chains. -/
theorem superChain_congr {first second : ClassTable}
    (same : ∀ id, (first.info id).superClass = (second.info id).superClass) (id : ClassId) :
    first.superChain id = second.superChain id := by
  induction id using Nat.strongRecOn with
  | ind id ih =>
      rw [superChain_eq, superChain_eq, same id]
      cases superEq : (second.info id).superClass with
      | none => rfl
      | some super => simp only [ih super (second.superClass_lt id super superEq)]

end ClassTable

/-! ## Numbering of fields -/

/-- The loop of `CalcInstanceFieldSlotIds` and `CalcStaticFieldSlotIds` over the
selected fields, and the slot id it ends with. -/
def numberFields (select : Field → Bool) : BitVec 32 → List Field → List Field × BitVec 32
  | slotId, [] => ([], slotId)
  | slotId, field :: fields =>
      if select field then
        let next := if field.isLongOrDouble then slotId + 1 + 1 else slotId + 1
        let (numbered, last) := numberFields select next fields
        ({ field with slotId := slotId } :: numbered, last)
      else
        let (numbered, last) := numberFields select slotId fields
        (field :: numbered, last)

def Field.isInstance (field : Field) : Bool := !field.isStatic

/-- Only slot ids change. -/
theorem map_toClassMember_numberFields (select : Field → Bool) (slotId : BitVec 32)
    (fields : List Field) :
    (numberFields select slotId fields).1.map Field.toClassMember =
      fields.map Field.toClassMember := by
  induction fields generalizing slotId with
  | nil => rfl
  | cons field fields ih =>
      rw [numberFields]
      split
      · simp [ih]
      · simp [ih]

def numberInstanceFields (slotId : BitVec 32) (info : ClassInfo) : ClassInfo :=
  { info with
    fields := (numberFields Field.isInstance slotId info.fields).1
    instanceSlotCount := (numberFields Field.isInstance slotId info.fields).2 }

def numberStaticFields (info : ClassInfo) : ClassInfo :=
  { info with
    fields := (numberFields (fun field => field.isStatic) 0 info.fields).1
    staticSlotCount := (numberFields (fun field => field.isStatic) 0 info.fields).2 }

theorem keepsMembers_numberInstanceFields (slotId : BitVec 32) :
    KeepsMembers (numberInstanceFields slotId) :=
  ⟨fun _ => rfl, fun _ => rfl, fun _ => rfl, fun _ => map_toClassMember_numberFields _ _ _⟩

theorem keepsMembers_numberStaticFields : KeepsMembers numberStaticFields :=
  ⟨fun _ => rfl, fun _ => rfl, fun _ => rfl, fun _ => map_toClassMember_numberFields _ _ _⟩

/-- The slot count of the superclass, or zero. -/
def ClassTable.firstInstanceSlot (table : ClassTable) (id : ClassId) : BitVec 32 :=
  match (table.info id).superClass with
  | some super => (table.info super).instanceSlotCount
  | none => 0

/-- `CalcInstanceFieldSlotIds`. -/
def calcInstanceFieldSlotIds (table : ClassTable) (id : ClassId) : ClassTable :=
  table.modify id (numberInstanceFields (table.firstInstanceSlot id))
    (keepsMembers_numberInstanceFields _)

/-- `CalcStaticFieldSlotIds`. -/
def calcStaticFieldSlotIds (table : ClassTable) (id : ClassId) : ClassTable :=
  table.modify id numberStaticFields keepsMembers_numberStaticFields

/-! ## Static variables -/

/-- `InitStaticFinalVar`.  A constant of another type than the descriptor asks
for is a null pointer after the cast; `newJString` is `NewJString`. -/
def initStaticFinalVar (newJString : Str → Exec DWord) (info : ClassInfo) (field : Field)
    (vars : Slots) : Exec Slots := do
  let slotId := field.slotId.toNat % 2 ^ 16
  let type := firstByte field.descriptor
  match info.constantPool[field.constValueIndex.toNat]? with
  | none => undefined "read past the end of constants_"
  | some constant => do
      let vars ←
        if type == chr 'Z' || type == chr 'B' || type == chr 'C' || type == chr 'S' ||
            type == chr 'I' then
          if field.name == str "$assertionsDisabled" then pure vars
          else match constant with
            | none => vars.setInt slotId 0
            | some (.integer value) => vars.setInt slotId value
            | some _ => undefined "GetValue of a null constant"
        else if type == chr 'F' then match constant with
          | none => vars.setFloat slotId 0
          | some (.float bits) => vars.setFloat slotId bits
          | some _ => undefined "GetValue of a null constant"
        else if type == chr 'J' then match constant with
          | none => vars.setLong slotId 0
          | some (.long value) => vars.setLong slotId value
          | some _ => undefined "GetValue of a null constant"
        else if type == chr 'D' then match constant with
          | none => vars.setDouble slotId 0
          | some (.double bits) => vars.setDouble slotId bits
          | some _ => undefined "GetValue of a null constant"
        else pure vars
      if field.descriptor == str "L/java/lang/String;" then match constant with
        | some (.string value) => do
            let string ← newJString value
            vars.setRef slotId string
        | _ => undefined "GetValue of a null constant"
      else pure vars

/-- `AllocAndInitStaticVars`; the count is converted to `uint16_t`. -/
def allocAndInitStaticVars (newJString : Str → Exec DWord) (info : ClassInfo) : Exec Slots :=
  info.fields.foldlM
    (fun vars field =>
      if field.isStatic && field.isFinal then initStaticFinalVar newJString info field vars
      else pure vars)
    (Slots.ofCount (info.staticSlotCount.toNat % 2 ^ 16))

/-! ## Preparation -/

/-- The classes that have been defined, and the static variables of those that
have been prepared. -/
structure Loaded where
  table : ClassTable
  staticVars : ClassId → Option Slots

/-- `PrepareClass`, which is all that `LinkClass` does. -/
def prepareClass (newJString : Str → Exec DWord) (loaded : Loaded) (id : ClassId) :
    Exec Loaded := do
  let table := calcStaticFieldSlotIds (calcInstanceFieldSlotIds loaded.table id) id
  let vars ← allocAndInitStaticVars newJString (table.info id)
  pure ⟨table, fun other => if other = id then some vars else loaded.staticVars other⟩

/-- Prepare classes one after the other. -/
def prepareAll (newJString : Str → Exec DWord) : List ClassId → Loaded → Exec Loaded
  | [], loaded => pure loaded
  | id :: ids, loaded => do
      let loaded ← prepareClass newJString loaded id
      prepareAll newJString ids loaded

/-- The order in which `LoadNonArrayClass` links classes: each of them once, and
after its superclass. -/
def LoadingOrder (table : ClassTable) : List ClassId → List ClassId → Prop
  | _, [] => True
  | linked, id :: ids =>
      id ∉ linked ∧ id < table.classes.length ∧
        (∀ super, (table.info id).superClass = some super → super ∈ linked) ∧
        LoadingOrder table (id :: linked) ids

/-! ## Instance fields -/

/-- The slots that a field of a descriptor takes: two for `long`, `double`,
classes and arrays. -/
def descriptorWidth (descriptor : Str) : Nat :=
  if descriptor = str "J" ∨ descriptor = str "D" ∨ descriptor.head? = some (chr '[') ∨
    descriptor.head? = some (chr 'L') then 2 else 1

/-- `IsLongOrDouble` decides the width. -/
theorem descriptorWidth_eq (field : Field) :
    descriptorWidth field.descriptor = if field.isLongOrDouble then 2 else 1 := by
  rw [descriptorWidth, Field.isLongOrDouble]
  cases field.descriptor with
  | nil => decide
  | cons first rest => simp [firstByte, or_assoc]

/-- The slots of a field. -/
def Field.block (field : Field) : Nat × Nat :=
  (field.slotId.toNat, descriptorWidth field.descriptor)

def ClassInfo.instanceFields (info : ClassInfo) : List Field := info.fields.filter Field.isInstance

def ClassInfo.staticFields (info : ClassInfo) : List Field :=
  info.fields.filter fun field => field.isStatic

/-- The slots that fields take together. -/
def widths (fields : List Field) : Nat :=
  (fields.map fun field => descriptorWidth field.descriptor).sum

theorem widths_append (first second : List Field) :
    widths (first ++ second) = widths first + widths second := by
  simp [widths]

theorem descriptorWidth_le_two (descriptor : Str) : descriptorWidth descriptor ≤ 2 := by
  unfold descriptorWidth
  split
  · exact Nat.le_refl 2
  · exact Nat.le_succ 1

theorem widths_le (fields : List Field) : widths fields ≤ 2 * fields.length := by
  induction fields with
  | nil => exact Nat.le_refl 0
  | cons field fields ih =>
      have width := descriptorWidth_le_two field.descriptor
      have sum : widths (field :: fields) = descriptorWidth field.descriptor + widths fields := by
        simp [widths]
      rw [sum, List.length_cons]
      omega

/-- The increments of the loop, without wraparound. -/
theorem toNat_nextSlot (field : Field) (slotId : BitVec 32)
    (small : slotId.toNat + descriptorWidth field.descriptor < 2 ^ 32) :
    (if field.isLongOrDouble then slotId + 1 + 1 else slotId + 1).toNat =
      slotId.toNat + descriptorWidth field.descriptor := by
  rw [descriptorWidth_eq] at small ⊢
  by_cases wide : field.isLongOrDouble = true
  · simp only [wide, if_true, BitVec.toNat_add] at small ⊢
    simp
    omega
  · simp only [wide, Bool.false_eq_true, if_false, BitVec.toNat_add] at small ⊢
    simp
    omega

/-- The numbering lays the selected fields out one after the other; whether a
field is selected does not depend on its slot id. -/
theorem tiles_numberFields {select : Field → Bool}
    (ignores : ∀ (field : Field) (slotId : BitVec 32),
      select { field with slotId := slotId } = select field)
    (slotId : BitVec 32) (fields : List Field)
    (total : slotId.toNat + widths (fields.filter select) < 2 ^ 32) :
    Cells.Tiles slotId.toNat
        (((numberFields select slotId fields).1.filter select).map Field.block)
        (numberFields select slotId fields).2.toNat ∧
      (numberFields select slotId fields).2.toNat =
        slotId.toNat + widths (fields.filter select) := by
  induction fields generalizing slotId with
  | nil => exact ⟨.nil _, rfl⟩
  | cons field fields ih =>
      rw [numberFields]
      by_cases selected : select field = true
      · have renumbered : select { field with slotId := slotId } = true :=
          (ignores field slotId).trans selected
        have sum : widths ((field :: fields).filter select) =
            descriptorWidth field.descriptor + widths (fields.filter select) := by
          simp [widths, selected]
        rw [sum] at total ⊢
        have next := toNat_nextSlot field slotId (by omega)
        rcases ih (if field.isLongOrDouble then slotId + 1 + 1 else slotId + 1)
          (by rw [next]; omega) with ⟨tiles, last⟩
        rw [next] at tiles last
        simp only [selected, if_true, List.filter_cons_of_pos renumbered, List.map_cons]
        exact ⟨.cons tiles, by rw [last]; omega⟩
      · have dropped : (field :: fields).filter select = fields.filter select :=
          List.filter_cons_of_neg selected
        rw [dropped] at total ⊢
        simp only [selected, Bool.false_eq_true, if_false, List.filter_cons_of_neg,
          not_false_eq_true]
        exact ih slotId total

/-- Numbering the static fields leaves the instance fields alone. -/
theorem filter_numberFields_isStatic (slotId : BitVec 32) (fields : List Field) :
    (numberFields (fun field => field.isStatic) slotId fields).1.filter Field.isInstance =
      fields.filter Field.isInstance := by
  induction fields generalizing slotId with
  | nil => rfl
  | cons field fields ih =>
      rw [numberFields]
      by_cases isStatic : field.isStatic = true
      · have other : Field.isInstance field = false := by simp [Field.isInstance, isStatic]
        have renumbered : Field.isInstance { field with slotId := slotId } = false := other
        simp [isStatic, other, renumbered, ih]
      · simp [isStatic, List.filter_cons, ih]

theorem instanceFields_numberStaticFields (info : ClassInfo) :
    (numberStaticFields info).instanceFields = info.instanceFields :=
  filter_numberFields_isStatic 0 info.fields

/-! ## The layout of a class -/

/-- The instance fields of a class and its superclasses, the oldest first. -/
def ClassTable.instanceFields (table : ClassTable) (id : ClassId) : List Field :=
  (table.superChain id).reverse.flatMap fun klass => (table.info klass).instanceFields

/-- The number of instance slots that the descriptors ask for. -/
def ClassTable.totalWidth (table : ClassTable) (id : ClassId) : Nat :=
  widths (table.instanceFields id)

/-- The fields that a class inherits. -/
def ClassTable.inherited (table : ClassTable) (id : ClassId) : List Field :=
  match (table.info id).superClass with
  | some super => table.instanceFields super
  | none => []

theorem ClassTable.instanceFields_eq (table : ClassTable) (id : ClassId) :
    table.instanceFields id = table.inherited id ++ (table.info id).instanceFields := by
  rw [instanceFields, superChain_eq, inherited]
  cases (table.info id).superClass with
  | none => simp
  | some super => simp [instanceFields]

/-- The class has been laid out: its slot count is what its fields ask for, and
they follow each other. -/
structure Laid (table : ClassTable) (id : ClassId) : Prop where
  count : (table.info id).instanceSlotCount.toNat = table.totalWidth id
  tiles : Cells.Tiles 0 ((table.instanceFields id).map Field.block)
    (table.info id).instanceSlotCount.toNat

/-- Two tables with the same classes up to slot ids and slot counts. -/
structure SameMembers (first second : ClassTable) : Prop where
  length : first.classes.length = second.classes.length
  superClass : ∀ id, (first.info id).superClass = (second.info id).superClass
  fields : ∀ id, (first.info id).fields.map Field.toClassMember =
    (second.info id).fields.map Field.toClassMember

namespace SameMembers

variable {first second third : ClassTable}

theorem refl (table : ClassTable) : SameMembers table table :=
  ⟨rfl, fun _ => rfl, fun _ => rfl⟩

theorem trans (left : SameMembers first second) (right : SameMembers second third) :
    SameMembers first third where
  length := left.length.trans right.length
  superClass id := (left.superClass id).trans (right.superClass id)
  fields id := (left.fields id).trans (right.fields id)

theorem modify (table : ClassTable) (id : ClassId) {change : ClassInfo → ClassInfo}
    (keeps : KeepsMembers change) : SameMembers (table.modify id change keeps) table where
  length := ClassTable.length_modify keeps
  superClass _ := ClassTable.superClass_modify keeps
  fields other := by
    rcases ClassTable.getD_modify table.classes id other change with same | ⟨-, changed⟩
    · exact congrArg (fun info => info.fields.map Field.toClassMember) same
    · exact (congrArg (fun info => info.fields.map Field.toClassMember) changed).trans
        (keeps.fields _)

theorem superChain_eq (same : SameMembers first second) (id : ClassId) :
    first.superChain id = second.superChain id :=
  ClassTable.superChain_congr same.superClass id

/-- The declared instance fields are the same members in the same order. -/
theorem map_instanceFields (same : SameMembers first second) (id : ClassId) :
    (first.instanceFields id).map Field.toClassMember =
      (second.instanceFields id).map Field.toClassMember := by
  have declared (table : ClassTable) (klass : ClassId) :
      ((table.info klass).instanceFields).map Field.toClassMember =
        ((table.info klass).fields.map Field.toClassMember).filter fun member =>
          !member.isStatic := by
    rw [List.filter_map]
    rfl
  simp only [ClassTable.instanceFields, List.map_flatMap, same.superChain_eq, declared,
    same.fields]

theorem totalWidth_eq (same : SameMembers first second) (id : ClassId) :
    first.totalWidth id = second.totalWidth id := by
  have members (fields : List Field) :
      widths fields =
        ((fields.map Field.toClassMember).map
          fun member => descriptorWidth member.descriptor).sum := by
    simp [widths, Function.comp_def]
  rw [ClassTable.totalWidth, ClassTable.totalWidth, members, members, same.map_instanceFields]

theorem loadingOrder (same : SameMembers first second) {ids linked : List ClassId}
    (order : LoadingOrder second linked ids) : LoadingOrder first linked ids := by
  induction ids generalizing linked with
  | nil => trivial
  | cons id ids ih =>
      rcases order with ⟨fresh, inside, super, rest⟩
      refine ⟨fresh, same.length ▸ inside, ?_, ih rest⟩
      rw [same.superClass id]
      exact super

end SameMembers

/-! ## Preparation lays classes out -/

section Prepare

variable {newJString : Str → Exec DWord} {loaded next : Loaded} {id other : ClassId}

/-- What preparing a class does to the table. -/
theorem table_of_prepareClass (prepared : prepareClass newJString loaded id = .ok next) :
    next.table = calcStaticFieldSlotIds (calcInstanceFieldSlotIds loaded.table id) id := by
  rcases Exec.bind_eq_ok.mp prepared with ⟨vars, -, same⟩
  cases same
  rfl

theorem sameMembers_of_prepareClass (prepared : prepareClass newJString loaded id = .ok next) :
    SameMembers next.table loaded.table := by
  rw [table_of_prepareClass prepared]
  exact (SameMembers.modify _ _ _).trans (SameMembers.modify _ _ _)

/-- The other classes keep all that they have. -/
theorem info_of_prepareClass_ne (prepared : prepareClass newJString loaded id = .ok next)
    (differ : id ≠ other) : next.table.info other = loaded.table.info other := by
  rw [table_of_prepareClass prepared, calcStaticFieldSlotIds, ClassTable.info_modify_ne _ differ,
    calcInstanceFieldSlotIds, ClassTable.info_modify_ne _ differ]

theorem info_of_prepareClass_self (prepared : prepareClass newJString loaded id = .ok next)
    (inside : id < loaded.table.classes.length) :
    next.table.info id = numberStaticFields
      (numberInstanceFields (loaded.table.firstInstanceSlot id) (loaded.table.info id)) := by
  rw [table_of_prepareClass prepared, calcStaticFieldSlotIds, ClassTable.info_modify_self,
    calcInstanceFieldSlotIds, ClassTable.info_modify_self _ inside]
  rw [calcInstanceFieldSlotIds, ClassTable.length_modify]
  exact inside

/-- The fields of a class are not renumbered by the preparation of a class
outside its chain. -/
theorem instanceFields_of_prepareClass (prepared : prepareClass newJString loaded id = .ok next)
    (outside : id ∉ loaded.table.superChain other) :
    next.table.instanceFields other = loaded.table.instanceFields other := by
  rw [ClassTable.instanceFields, ClassTable.instanceFields,
    (sameMembers_of_prepareClass prepared).superChain_eq]
  apply List.flatMap_congr
  intro klass mem
  have differ : id ≠ klass := by
    rintro rfl
    exact outside (List.mem_reverse.mp mem)
  rw [info_of_prepareClass_ne prepared differ]

theorem Laid.of_prepareClass (laid : Laid loaded.table other)
    (prepared : prepareClass newJString loaded id = .ok next)
    (outside : id ∉ loaded.table.superChain other) : Laid next.table other := by
  have differ : id ≠ other := by
    rintro rfl
    exact outside (ClassTable.mem_superChain_self _ _)
  constructor
  · rw [info_of_prepareClass_ne prepared differ,
      (sameMembers_of_prepareClass prepared).totalWidth_eq]
    exact laid.count
  · rw [info_of_prepareClass_ne prepared differ, instanceFields_of_prepareClass prepared outside]
    exact laid.tiles

/-- The numbering starts behind the inherited fields. -/
theorem tiles_of_firstInstanceSlot
    (super : ∀ super, (loaded.table.info id).superClass = some super → Laid loaded.table super) :
    Cells.Tiles 0 ((loaded.table.inherited id).map Field.block)
        (loaded.table.firstInstanceSlot id).toNat ∧
      (loaded.table.firstInstanceSlot id).toNat = widths (loaded.table.inherited id) := by
  rw [ClassTable.inherited, ClassTable.firstInstanceSlot]
  cases superEq : (loaded.table.info id).superClass with
  | none => exact ⟨.nil _, rfl⟩
  | some klass => exact ⟨(super klass superEq).tiles, (super klass superEq).count⟩

/-- Preparing a class does not renumber the fields that it inherits. -/
theorem inherited_of_prepareClass (prepared : prepareClass newJString loaded id = .ok next) :
    next.table.inherited id = loaded.table.inherited id := by
  rw [ClassTable.inherited, ClassTable.inherited,
    (sameMembers_of_prepareClass prepared).superClass]
  cases superEq : (loaded.table.info id).superClass with
  | none => rfl
  | some super =>
      apply instanceFields_of_prepareClass prepared
      intro mem
      have older := loaded.table.le_of_mem_superChain mem
      exact absurd (loaded.table.superClass_lt id super superEq) (Nat.not_lt.mpr older)

/-- A class that is prepared after its superclass is laid out. -/
theorem laid_of_prepareClass (prepared : prepareClass newJString loaded id = .ok next)
    (inside : id < loaded.table.classes.length)
    (total : loaded.table.totalWidth id < 2 ^ 32)
    (super : ∀ super, (loaded.table.info id).superClass = some super → Laid loaded.table super) :
    Laid next.table id := by
  have same := sameMembers_of_prepareClass prepared
  have own := info_of_prepareClass_self prepared inside
  have ownFields : (next.table.info id).instanceFields =
      (numberFields Field.isInstance (loaded.table.firstInstanceSlot id)
        (loaded.table.info id).fields).1.filter Field.isInstance := by
    rw [own, instanceFields_numberStaticFields]
    rfl
  have ownCount : (next.table.info id).instanceSlotCount =
      (numberFields Field.isInstance (loaded.table.firstInstanceSlot id)
        (loaded.table.info id).fields).2 := by
    rw [own]
    rfl
  rcases tiles_of_firstInstanceSlot super with ⟨tilesAbove, countAbove⟩
  have sum : loaded.table.totalWidth id =
      (loaded.table.firstInstanceSlot id).toNat +
        widths ((loaded.table.info id).fields.filter Field.isInstance) := by
    rw [ClassTable.totalWidth, ClassTable.instanceFields_eq, widths_append, countAbove]
    rfl
  rcases tiles_numberFields (fun _ _ => rfl) (loaded.table.firstInstanceSlot id)
    (loaded.table.info id).fields (sum ▸ total) with ⟨tilesOwn, countOwn⟩
  constructor
  · rw [ownCount, same.totalWidth_eq, sum]
    exact countOwn
  · rw [ClassTable.instanceFields_eq, ownFields, ownCount, inherited_of_prepareClass prepared,
      List.map_append]
    exact tilesAbove.append tilesOwn

/-! ## Sequences of preparations -/

theorem prepareAll_append {first second : List ClassId} :
    prepareAll newJString (first ++ second) loaded = (do
      let middle ← prepareAll newJString first loaded
      prepareAll newJString second middle) := by
  induction first generalizing loaded with
  | nil => rfl
  | cons id first ih =>
      simp only [List.cons_append, prepareAll]
      cases prepareClass newJString loaded id with
      | error fault => rfl
      | ok next => exact ih

theorem sameMembers_of_prepareAll {ids : List ClassId}
    (prepared : prepareAll newJString ids loaded = .ok next) :
    SameMembers next.table loaded.table := by
  induction ids generalizing loaded with
  | nil =>
      cases prepared
      exact .refl _
  | cons id ids ih =>
      rcases Exec.bind_eq_ok.mp prepared with ⟨middle, first, rest⟩
      exact (ih rest).trans (sameMembers_of_prepareClass first)

theorem info_of_prepareAll {ids : List ClassId}
    (prepared : prepareAll newJString ids loaded = .ok next) (outside : other ∉ ids) :
    next.table.info other = loaded.table.info other := by
  induction ids generalizing loaded with
  | nil =>
      cases prepared
      rfl
  | cons id ids ih =>
      rcases Exec.bind_eq_ok.mp prepared with ⟨middle, first, rest⟩
      rw [List.mem_cons, not_or] at outside
      rw [ih rest outside.2, info_of_prepareClass_ne first (Ne.symm outside.1)]

/-- The linked classes have their superclasses among them. -/
def SuperClosed (table : ClassTable) (linked : List ClassId) : Prop :=
  ∀ klass ∈ linked, ∀ super, (table.info klass).superClass = some super → super ∈ linked

theorem SuperClosed.cons {table : ClassTable} {linked : List ClassId}
    (closed : SuperClosed table linked)
    (super : ∀ super, (table.info id).superClass = some super → super ∈ linked) :
    SuperClosed table (id :: linked) := by
  intro klass mem parent found
  rcases List.mem_cons.mp mem with rfl | old
  · exact List.mem_cons_of_mem _ (super parent found)
  · exact List.mem_cons_of_mem _ (closed klass old parent found)

theorem SuperClosed.superChain_subset {table : ClassTable} {linked : List ClassId}
    (closed : SuperClosed table linked) {klass : ClassId} (mem : klass ∈ linked) :
    table.superChain klass ⊆ linked := by
  induction klass using Nat.strongRecOn with
  | ind klass ih =>
      rw [ClassTable.superChain_eq]
      cases superEq : (table.info klass).superClass with
      | none => exact List.cons_subset.mpr ⟨mem, List.nil_subset _⟩
      | some super =>
          exact List.cons_subset.mpr ⟨mem,
            ih super (table.superClass_lt klass super superEq) (closed klass mem super superEq)⟩

/-- A superclass asks for no more slots than the class. -/
theorem totalWidth_super_le {table : ClassTable} {super : ClassId}
    (found : (table.info id).superClass = some super) :
    table.totalWidth super ≤ table.totalWidth id := by
  rw [ClassTable.totalWidth, ClassTable.totalWidth, table.instanceFields_eq id, widths_append,
    ClassTable.inherited, found]
  exact Nat.le_add_right _ _

/-- Preparation in loading order lays out every class: the classes linked before
stay laid out, and each new one is when its turn comes. -/
theorem laid_of_prepareAll {ids linked : List ClassId}
    (order : LoadingOrder loaded.table linked ids) (closed : SuperClosed loaded.table linked)
    (laid : ∀ klass ∈ linked, loaded.table.totalWidth klass < 2 ^ 32 → Laid loaded.table klass)
    (prepared : prepareAll newJString ids loaded = .ok next) :
    ∀ klass, klass ∈ linked ∨ klass ∈ ids → next.table.totalWidth klass < 2 ^ 32 →
      Laid next.table klass := by
  induction ids generalizing loaded linked with
  | nil =>
      cases prepared
      rintro klass (mem | ⟨⟨⟩⟩) total
      exact laid klass mem total
  | cons id ids ih =>
      rcases order with ⟨fresh, inside, super, rest⟩
      rcases Exec.bind_eq_ok.mp prepared with ⟨middle, first, later⟩
      have same := sameMembers_of_prepareClass first
      have closedMiddle : SuperClosed middle.table (id :: linked) := by
        intro klass mem parent found
        rw [same.superClass] at found
        exact closed.cons super klass mem parent found
      have laidMiddle : ∀ klass ∈ id :: linked, middle.table.totalWidth klass < 2 ^ 32 →
          Laid middle.table klass := by
        intro klass mem total
        rw [same.totalWidth_eq] at total
        rcases List.mem_cons.mp mem with rfl | old
        · apply laid_of_prepareClass first inside total
          intro parent found
          exact laid parent (super parent found)
            (Nat.lt_of_le_of_lt (totalWidth_super_le found) total)
        · apply (laid klass old total).of_prepareClass first
          intro chained
          exact fresh (closed.superChain_subset old chained)
      intro klass mem total
      apply ih (same.loadingOrder rest) closedMiddle laidMiddle later klass _ total
      rcases mem with old | new
      · exact Or.inl (List.mem_cons_of_mem _ old)
      · rcases List.mem_cons.mp new with rfl | rest
        · exact Or.inl List.mem_cons_self
        · exact Or.inr rest

theorem LoadingOrder.not_mem_linked {table : ClassTable} {ids linked : List ClassId}
    (order : LoadingOrder table linked ids) : ∀ klass ∈ ids, klass ∉ linked := by
  induction ids generalizing linked with
  | nil =>
      rintro klass ⟨⟩
  | cons id ids ih =>
      rcases order with ⟨fresh, -, -, rest⟩
      intro klass mem old
      rcases List.mem_cons.mp mem with rfl | later
      · exact fresh old
      · exact ih rest klass later (List.mem_cons_of_mem _ old)

/-- A class in loading order comes after its superclasses, and none of them is
prepared again. -/
theorem LoadingOrder.not_mem_after {table : ClassTable} {before after linked : List ClassId}
    (order : LoadingOrder table linked (before ++ id :: after))
    (closed : SuperClosed table linked) {ancestor : ClassId}
    (mem : ancestor ∈ (table.superChain id).tail) : ancestor ∉ id :: after := by
  induction before generalizing linked with
  | nil =>
      intro later
      apply order.not_mem_linked ancestor later
      rcases order with ⟨-, -, super, -⟩
      rw [ClassTable.superChain_eq, List.tail_cons] at mem
      cases superEq : (table.info id).superClass with
      | none => simp [superEq] at mem
      | some parent =>
          exact closed.superChain_subset (super parent superEq) (by simpa [superEq] using mem)
  | cons first before ih =>
      rcases order with ⟨-, -, super, rest⟩
      exact ih rest (closed.cons super)

/-- For every loading order, every class whose fields ask for fewer than `2 ^ 32`
slots: the fields of the class and its superclasses are the declared ones, their
slots are pairwise disjoint, inside the slot count, and cover it; and preparing
the class, or any later one, leaves its superclasses as they were. -/
theorem prepareAll_layout {ids : List ClassId} (order : LoadingOrder loaded.table [] ids)
    (prepared : prepareAll newJString ids loaded = .ok next) (mem : id ∈ ids)
    (total : loaded.table.totalWidth id < 2 ^ 32) :
    (next.table.instanceFields id).map Field.toClassMember =
        (loaded.table.instanceFields id).map Field.toClassMember ∧
      ((next.table.instanceFields id).map Field.block).Pairwise
        (fun first second => Cells.Disjoint first.1 first.2 second.1 second.2) ∧
      (∀ field ∈ next.table.instanceFields id,
        field.block.1 + field.block.2 ≤ (next.table.info id).instanceSlotCount.toNat) ∧
      (∀ slot < (next.table.info id).instanceSlotCount.toNat,
        ∃ field ∈ next.table.instanceFields id,
          field.block.1 ≤ slot ∧ slot < field.block.1 + field.block.2) ∧
      ∀ before after middle, ids = before ++ id :: after →
        prepareAll newJString before loaded = .ok middle →
          ∀ ancestor ∈ (loaded.table.superChain id).tail,
            next.table.info ancestor = middle.table.info ancestor := by
  have same := sameMembers_of_prepareAll prepared
  have laid : Laid next.table id :=
    laid_of_prepareAll order (by rintro klass ⟨⟩) (by rintro klass ⟨⟩) prepared id (Or.inr mem)
      (by rw [same.totalWidth_eq]; exact total)
  refine ⟨same.map_instanceFields id, laid.tiles.pairwise_disjoint, ?_, ?_, ?_⟩
  · intro field fieldMem
    exact (laid.tiles.inside field.block (List.mem_map_of_mem fieldMem)).2
  · intro slot below
    rcases laid.tiles.covered (Nat.zero_le slot) below with ⟨block, blockMem, within⟩
    rcases List.mem_map.mp blockMem with ⟨field, fieldMem, rfl⟩
    exact ⟨field, fieldMem, within⟩
  · rintro before after middle rfl first ancestor ancestorMem
    rw [prepareAll_append, first] at prepared
    exact info_of_prepareAll prepared (order.not_mem_after (by rintro klass ⟨⟩) ancestorMem)

end Prepare

/-- `class A { int i; static long s; long j; }` and `class B extends A { Object o; }`. -/
def sampleClasses : ClassTable where
  classes := [
    { fields := [
        { name := str "i", descriptor := str "I", klass := 0 },
        { accessFlags := 0x0008, name := str "s", descriptor := str "J", klass := 0 },
        { name := str "j", descriptor := str "J", klass := 0 }] },
    { superClass := some 0
      fields := [{ name := str "o", descriptor := str "Ljava/lang/Object;", klass := 1 }] }]
  superClass_lt := by
    intro id super found
    match id with
    | 0 => cases found
    | 1 =>
        cases found
        exact Nat.one_pos
    | id + 2 => cases found
  interface_lt := by
    intro id interface
    match id with
    | 0 => simp
    | 1 => simp
    | id + 2 => simp
  field_klass := by
    intro id
    match id with
    | 0 => decide
    | 1 => decide
    | id + 2 => simp
  method_klass := by
    intro id
    match id with
    | 0 => simp
    | 1 => simp
    | id + 2 => simp

theorem prepareAll_layout_sampleClasses :
    ∃ next, prepareAll (fun _ => pure 0) [0, 1] ⟨sampleClasses, fun _ => none⟩ = .ok next ∧
      ((next.table.instanceFields 1).map Field.block).Pairwise
        (fun first second => Cells.Disjoint first.1 first.2 second.1 second.2) ∧
      ∀ slot < (next.table.info 1).instanceSlotCount.toNat,
        ∃ field ∈ next.table.instanceFields 1,
          field.block.1 ≤ slot ∧ slot < field.block.1 + field.block.2 := by
  have order : LoadingOrder sampleClasses [] [0, 1] := by
    simp [LoadingOrder, sampleClasses, ClassTable.info]
  have total : sampleClasses.totalWidth 1 < 2 ^ 32 := by decide
  have returns : ∃ next, prepareAll (fun _ => pure 0) [0, 1] ⟨sampleClasses, fun _ => none⟩ =
      .ok next := ⟨_, rfl⟩
  rcases returns with ⟨next, prepared⟩
  have layout := prepareAll_layout order prepared (List.mem_cons_of_mem _ List.mem_cons_self) total
  exact ⟨next, prepared, layout.2.1, layout.2.2.2.1⟩

end JvmDemo.Runtime
