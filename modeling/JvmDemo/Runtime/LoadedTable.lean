import JvmDemo.Runtime.GrowingTable
import JvmDemo.Runtime.LoadPlan
import JvmDemo.Runtime.LoaderCache

/-!
# The classes that the loaders have made

The lookups, the layout of objects and the interpreter take the classes as a
`ClassTable`, in which pointers lead to older classes only.  The loaders provide
such a table after any calls: an object joins the heap behind everything that it
points at, is linked at once, and is not changed any more but for its class.

Linking is the preparation of the last class of the table, so that the instance
fields of the classes are laid out without gaps and overlaps.
-/

namespace JvmDemo.Runtime

open JvmDemo.Lib
open JvmDemo.Classfile

/-! ## One class more -/

/-- A class can be at this place of a table. -/
structure ClassInfo.FitsAt (info : ClassInfo) (id : ClassId) : Prop where
  superClass : ∀ super, info.superClass = some super → super < id
  interface : ∀ interface ∈ info.interfaces, interface < id
  field : ∀ field ∈ info.fields, field.klass = id
  method : ∀ method ∈ info.methods, method.klass = id

/-- A class that declares nothing. -/
theorem ClassInfo.fitsAt_of_noMembers {info : ClassInfo} {id : ClassId} (fields : info.fields = [])
    (methods : info.methods = []) (superClass : ∀ super, info.superClass = some super → super < id)
    (interface : ∀ interface ∈ info.interfaces, interface < id) : info.FitsAt id where
  superClass := superClass
  interface := interface
  field := by simp [fields]
  method := by simp [methods]

namespace ClassTable

/-- A class of a longer list. -/
theorem getD_snoc (classes : List ClassInfo) (info : ClassInfo) (id : ClassId) :
    (classes ++ [info]).getD id {} = classes.getD id {} ∨
      id = classes.length ∧ (classes ++ [info]).getD id {} = info := by
  rcases Nat.lt_trichotomy id classes.length with before | rfl | behind
  · left
    rw [List.getD_eq_getElem?_getD, List.getD_eq_getElem?_getD, List.getElem?_append_left before]
  · right
    simp [List.getD_eq_getElem?_getD]
  · left
    rw [List.getD_eq_default _ _ (Nat.le_of_lt behind), List.getD_eq_default]
    rw [List.length_append]
    exact behind

/-- A table is its classes. -/
theorem eq_of_classes {first second : ClassTable} (same : first.classes = second.classes) :
    first = second := by
  cases first
  cases second
  cases same
  rfl

/-- A class behind the others. -/
def snoc (table : ClassTable) (info : ClassInfo) (fits : info.FitsAt table.classes.length) :
    ClassTable where
  classes := table.classes ++ [info]
  superClass_lt := by
    intro id super found
    rcases getD_snoc table.classes info id with same | ⟨rfl, last⟩
    · rw [same] at found
      exact table.superClass_lt id super found
    · rw [last] at found
      exact fits.superClass super found
  interface_lt := by
    intro id interface mem
    rcases getD_snoc table.classes info id with same | ⟨rfl, last⟩
    · rw [same] at mem
      exact table.interface_lt id interface mem
    · rw [last] at mem
      exact fits.interface interface mem
  field_klass := by
    intro id field mem
    rcases getD_snoc table.classes info id with same | ⟨rfl, last⟩
    · rw [same] at mem
      exact table.field_klass id field mem
    · rw [last] at mem
      exact fits.field field mem
  method_klass := by
    intro id method mem
    rcases getD_snoc table.classes info id with same | ⟨rfl, last⟩
    · rw [same] at mem
      exact table.method_klass id method mem
    · rw [last] at mem
      exact fits.method method mem

variable {table : ClassTable} {info : ClassInfo} (fits : info.FitsAt table.classes.length)
  {id : ClassId}

@[simp]
theorem classes_snoc : (table.snoc info fits).classes = table.classes ++ [info] := rfl

theorem grown_snoc : table.Grown (table.snoc info fits) := List.prefix_append _ _

theorem info_snoc_of_lt (inside : id < table.classes.length) :
    (table.snoc info fits).info id = table.info id :=
  (grown_snoc fits).info_eq inside

theorem info_snoc_last : (table.snoc info fits).info table.classes.length = info := by
  simp [ClassTable.info, List.getD_eq_getElem?_getD]

theorem superChain_snoc (inside : id < table.classes.length) :
    (table.snoc info fits).superChain id = table.superChain id :=
  (grown_snoc fits).superChain_eq inside

/-- The new class is no superclass of the others. -/
theorem last_not_mem_superChain (inside : id < table.classes.length) :
    table.classes.length ∉ (table.snoc info fits).superChain id := by
  intro mem
  exact absurd (le_of_mem_superChain _ mem) (Nat.not_le_of_lt inside)

theorem instanceFields_snoc (inside : id < table.classes.length) :
    (table.snoc info fits).instanceFields id = table.instanceFields id := by
  rw [instanceFields, instanceFields, superChain_snoc fits inside]
  apply List.flatMap_congr
  intro klass mem
  have older := table.le_of_mem_superChain (List.mem_reverse.mp mem)
  rw [info_snoc_of_lt fits (Nat.lt_of_le_of_lt older inside)]

theorem totalWidth_snoc (inside : id < table.classes.length) :
    (table.snoc info fits).totalWidth id = table.totalWidth id := by
  rw [totalWidth, totalWidth, instanceFields_snoc fits inside]

end ClassTable

theorem Laid.snoc {table : ClassTable} {info : ClassInfo} {id : ClassId} (laid : Laid table id)
    (fits : info.FitsAt table.classes.length) (inside : id < table.classes.length) :
    Laid (table.snoc info fits) id where
  count := by
    rw [ClassTable.info_snoc_of_lt fits inside, ClassTable.totalWidth_snoc fits inside]
    exact laid.count
  tiles := by
    rw [ClassTable.info_snoc_of_lt fits inside, ClassTable.instanceFields_snoc fits inside]
    exact laid.tiles

/-- The preparation of a class that has just been put behind the others. -/
theorem prepareClass_snoc {newJString : Str → Exec DWord} {table : ClassTable} {info : ClassInfo}
    (fits : info.FitsAt table.classes.length) {vars : Slots} {numbered : ClassInfo}
    (same : numbered = numberStaticFields (numberInstanceFields
      ((table.snoc info fits).firstInstanceSlot table.classes.length) info))
    (allocated : allocAndInitStaticVars newJString numbered = .ok vars)
    (staticVars : ClassId → Option Slots) :
    ∃ next, prepareClass newJString ⟨table.snoc info fits, staticVars⟩ table.classes.length =
        .ok next ∧
      next.table.classes = table.classes ++ [numbered] := by
  have inside : table.classes.length < (table.snoc info fits).classes.length := by simp
  have own : (calcStaticFieldSlotIds (calcInstanceFieldSlotIds (table.snoc info fits)
      table.classes.length) table.classes.length).info table.classes.length = numbered := by
    rw [calcStaticFieldSlotIds, ClassTable.info_modify_self, calcInstanceFieldSlotIds,
      ClassTable.info_modify_self _ inside, ClassTable.info_snoc_last, same]
    rw [calcInstanceFieldSlotIds, ClassTable.length_modify]
    exact inside
  have prepared : prepareClass newJString ⟨table.snoc info fits, staticVars⟩ table.classes.length =
      .ok ⟨calcStaticFieldSlotIds (calcInstanceFieldSlotIds (table.snoc info fits)
        table.classes.length) table.classes.length,
        fun other => if other = table.classes.length then some vars else staticVars other⟩ := by
    rw [prepareClass]
    dsimp only
    rw [own, allocated]
    rfl
  refine ⟨_, prepared, ?_⟩
  rw [same]
  simp [calcStaticFieldSlotIds, calcInstanceFieldSlotIds, ClassTable.modify,
    List.modify_eq_take_cons_drop]

/-! ## Objects -/

/-- An object without its class, which is set when it has been linked. -/
def ClassObject.detached (object : ClassObject) : ClassObject := { object with klass := none }

/-- The objects of the heap without their classes. -/
def LoaderState.objects (state : LoaderState) : List ClassObject :=
  state.heap.map ClassObject.detached

/-- The object was made from a class file. -/
def LoaderState.FromFile (state : LoaderState) (id : ClassId) : Prop :=
  ∃ object, state.objects[id]? = some object ∧ object.source ≠ none

/-- A pointer to an object that may be entered under the name. -/
def LoaderState.Points (state : LoaderState) (loader : LoaderName) (name : Str) (id : ClassId) :
    Prop :=
  ∃ object, state.objects[id]? = some object ∧
    (name = kJlcClassString ∨ object.definer = loader ∧ object.info.name = name)

section Objects

variable {state next : LoaderState} {object : ClassObject} {loader other : LoaderName}
  {name key : Str} {id jlc : ClassId}

theorem length_objects (state : LoaderState) : state.objects.length = state.heap.length :=
  List.length_map _

theorem objects_enter : (state.enter object).objects = state.objects ++ [object.detached] := by
  simp [LoaderState.objects, LoaderState.enter, LoaderState.allocate, LoaderState.put]

/-- The new object is there. -/
theorem heap_length_lt_enter (state : LoaderState) (object : ClassObject) :
    state.heap.length < (state.enter object).objects.length := by
  rw [objects_enter, List.length_append, length_objects]
  exact Nat.lt_succ_self _

theorem objects_modify {change : ClassObject → ClassObject}
    (keeps : ∀ object, (change object).detached = object.detached) :
    (state.modify id change).objects = state.objects := by
  apply List.ext_getElem?
  intro i
  simp only [LoaderState.objects, LoaderState.modify, List.getElem?_map, List.getElem?_modify]
  cases state.heap[i]? with
  | none => rfl
  | some object =>
      by_cases same : id = i
      · simp [same, keeps]
      · simp [same]

theorem objects_touch : (state.touch loader name).objects = state.objects := by
  unfold LoaderState.touch
  split
  · rfl
  · rfl

theorem objects_assignClass : (assignClass loader id state).objects = state.objects := by
  unfold assignClass
  dsimp only
  split
  · rw [LoaderState.setClass, objects_modify]
    · exact objects_touch
    · intro object
      rfl
  · exact objects_touch

theorem LoaderState.FromFile.lt (fromFile : state.FromFile id) : id < state.objects.length := by
  rcases fromFile with ⟨object, found, -⟩
  exact (List.getElem?_eq_some_iff.mp found).1

theorem LoaderState.Points.lt (points : state.Points loader name id) :
    id < state.objects.length := by
  rcases points with ⟨object, found, -⟩
  exact (List.getElem?_eq_some_iff.mp found).1

theorem LoaderState.Points.of_objects (points : state.Points loader name id)
    (same : next.objects = state.objects) : next.Points loader name id := by
  unfold LoaderState.Points
  rw [same]
  exact points

/-- An older object, before the last one was entered. -/
theorem LoaderState.FromFile.of_enter (fromFile : (state.enter object).FromFile id)
    (inside : id < state.objects.length) : state.FromFile id := by
  rcases fromFile with ⟨found, foundEq, source⟩
  rw [objects_enter, List.getElem?_append_left inside] at foundEq
  exact ⟨found, foundEq, source⟩

theorem LoaderState.Points.enter (points : state.Points loader name id) :
    (state.enter object).Points loader name id := by
  rcases points with ⟨found, foundEq, named⟩
  refine ⟨found, ?_, named⟩
  rw [objects_enter, List.getElem?_append_left (List.getElem?_eq_some_iff.mp foundEq).1]
  exact foundEq

/-- The objects when another one has been entered. -/
theorem getElem?_objects_enter {found : ClassObject}
    (foundEq : (state.enter object).objects[id]? = some found) :
    state.objects[id]? = some found ∨ id = state.objects.length ∧ found = object.detached := by
  rw [objects_enter] at foundEq
  rcases Nat.lt_or_ge id state.objects.length with inside | outside
  · rw [List.getElem?_append_left inside] at foundEq
    exact .inl foundEq
  · rw [List.getElem?_append_right outside, List.getElem?_singleton] at foundEq
    split at foundEq
    · next last =>
        cases foundEq
        exact .inr ⟨Nat.le_antisymm (Nat.sub_eq_zero_iff_le.mp last) outside, rfl⟩
    · cases foundEq

end Objects

/-! ## The table of a state -/

/-- The class is what the file says, but for the slots of its fields. -/
structure Reflects (file : ClassFile) (id : ClassId) (info : ClassInfo) : Prop where
  name : file.getClassName = .ok info.name
  accessFlags : info.accessFlags = file.accessFlags
  constants : createConstants file.constantPool = .ok info.constantPool
  fields : ∃ declared, file.fields.mapM (createField file.constantPool id) = .ok declared ∧
    info.fields.map Field.blank = declared.map Field.blank
  methods : file.methods.mapM (createMethod file.constantPool info.constantPool id) =
    .ok info.methods

/-- Numbering the fields changes nothing that the file says. -/
theorem Reflects.numbered {file : ClassFile} {id : ClassId} {info : ClassInfo}
    (reflects : Reflects file id info) (slotId : BitVec 32) :
    Reflects file id (numberStaticFields (numberInstanceFields slotId info)) where
  name := reflects.name
  accessFlags := reflects.accessFlags
  constants := reflects.constants
  fields := by
    rcases reflects.fields with ⟨declared, created, same⟩
    refine ⟨declared, created, Eq.trans ?_ same⟩
    exact (map_blank_numberFields _ _ _).trans (map_blank_numberFields _ _ _)
  methods := reflects.methods

/-- The table has the classes of the state, each with the content of its file, if it
has one.  The caches point at objects that have the name, and the classes whose
superclasses all come from files are laid out. -/
structure Yields [Target] (state : LoaderState) (table : ClassTable) : Prop where
  classes : table.classes = state.objects.map ClassObject.info
  content : ∀ ⦃id object data⦄, state.objects[id]? = some object → object.source = some data →
    ∃ file cursor, parse data = .ok (file, cursor) ∧ Reflects file id object.info
  declares : ∀ ⦃id : ClassId⦄ ⦃object : ClassObject⦄, state.objects[id]? = some object →
    object.source = none → object.info.methods = []
  entries : ∀ {loader name id}, state.cached loader name = some (some id) →
    state.Points loader name id
  laid : ∀ {id}, (∀ ancestor ∈ table.superChain id, state.FromFile ancestor) →
    table.totalWidth id < 2 ^ 32 → Laid table id

/-- Later states of the loaders have the same objects, and new ones behind them. -/
structure Advances [Target] (state next : LoaderState) : Prop where
  yields : ∃ table, Yields next table
  kept : state.objects <+: next.objects

section Yields

variable [Target] {state middle next : LoaderState} {table : ClassTable} {object : ClassObject}
  {loader : LoaderName} {name : Str} {id : ClassId}

theorem Yields.length (yields : Yields state table) :
    table.classes.length = state.objects.length := by
  rw [yields.classes, List.length_map]

theorem yields_initial : Yields .initial .empty where
  classes := rfl
  content id object data found := by cases found
  declares id object found := by cases found
  entries found := by cases found
  laid := by
    intro id chain total
    rcases chain id (ClassTable.mem_superChain_self _ _) with ⟨object, found, -⟩
    cases found

theorem Yields.of_objects (yields : Yields state table) (same : next.objects = state.objects)
    (entries : ∀ {loader name id}, next.cached loader name = some (some id) →
      state.Points loader name id) : Yields next table where
  classes := by
    rw [same]
    exact yields.classes
  content := by
    rw [same]
    exact yields.content
  declares := by
    rw [same]
    exact yields.declares
  entries found := (entries found).of_objects same
  laid := by
    unfold LoaderState.FromFile
    rw [same]
    exact yields.laid

theorem Advances.refl (yields : Yields state table) : Advances state state :=
  ⟨⟨table, yields⟩, List.prefix_rfl⟩

theorem Advances.trans (first : Advances state middle) (second : Advances middle next) :
    Advances state next :=
  ⟨second.yields, first.kept.trans second.kept⟩

/-- What changes only entries and the classes of objects. -/
theorem Advances.of_objects (yields : Yields state table) (same : next.objects = state.objects)
    (entries : ∀ {loader name id}, next.cached loader name = some (some id) →
      state.Points loader name id) : Advances state next where
  yields := ⟨table, yields.of_objects same entries⟩
  kept := ⟨[], by rw [List.append_nil, same]⟩

theorem Yields.content_enter (yields : Yields state table)
    (made : ∀ data, object.source = some data → ∃ file cursor,
      parse data = .ok (file, cursor) ∧ Reflects file state.objects.length object.info)
    {found : ClassObject} {data : ClassData}
    (foundEq : (state.enter object).objects[id]? = some found) (source : found.source = some data) :
    ∃ file cursor, parse data = .ok (file, cursor) ∧ Reflects file id found.info := by
  rcases getElem?_objects_enter foundEq with old | ⟨rfl, rfl⟩
  · exact yields.content old source
  · exact made data source

theorem Yields.declares_enter (yields : Yields state table)
    (made : object.source = none → object.info.methods = []) {found : ClassObject}
    (foundEq : (state.enter object).objects[id]? = some found) (source : found.source = none) :
    found.info.methods = [] := by
  rcases getElem?_objects_enter foundEq with old | ⟨rfl, rfl⟩
  · exact yields.declares old source
  · exact made source

theorem Yields.entries_enter (yields : Yields state table)
    (found : (state.enter object).cached loader name = some (some id)) :
    (state.enter object).Points loader name id := by
  by_cases here : (loader, name) = (object.definer, object.info.name)
  · rcases Prod.mk.inj here with ⟨rfl, rfl⟩
    rw [cached_enter_self, ← length_objects] at found
    cases found
    refine ⟨object.detached, ?_, .inr ⟨rfl, rfl⟩⟩
    rw [objects_enter]
    exact List.getElem?_concat_length
  · rw [cached_enter_of_ne here] at found
    exact (yields.entries found).enter

/-- The older classes stay laid out. -/
theorem Yields.laid_snoc (yields : Yields state table) {info : ClassInfo}
    (fits : info.FitsAt table.classes.length) (inside : id < table.classes.length)
    (chain : ∀ ancestor ∈ (table.snoc info fits).superChain id,
      (state.enter object).FromFile ancestor)
    (total : (table.snoc info fits).totalWidth id < 2 ^ 32) :
    Laid (table.snoc info fits) id := by
  rw [ClassTable.superChain_snoc fits inside] at chain
  rw [ClassTable.totalWidth_snoc fits inside] at total
  refine (yields.laid ?_ total).snoc fits inside
  intro ancestor mem
  apply (chain ancestor mem).of_enter
  rw [← yields.length]
  exact Nat.lt_of_le_of_lt (table.le_of_mem_superChain mem) inside

/-- A class that is not linked, an array or a primitive type, is entered. -/
theorem Yields.enter_unlinked (yields : Yields state table)
    (fits : object.info.FitsAt state.objects.length) (noFile : object.source = none)
    (noMethods : object.info.methods = []) : Advances state (state.enter object) := by
  rw [← yields.length] at fits
  refine ⟨⟨table.snoc object.info fits, ?_, ?_, ?_, yields.entries_enter, ?_⟩, ?_⟩
  · rw [objects_enter, List.map_append, ClassTable.classes_snoc, yields.classes]
    rfl
  · intro id found data
    apply yields.content_enter
    intro other source
    rw [noFile] at source
    cases source
  · intro id found
    exact yields.declares_enter fun _ => noMethods
  · intro id chain total
    have here := chain id (ClassTable.mem_superChain_self _ _)
    rcases Nat.lt_or_ge id table.classes.length with inside | outside
    · exact yields.laid_snoc fits inside chain total
    · rcases here with ⟨found, foundEq, source⟩
      rcases getElem?_objects_enter foundEq with old | ⟨-, rfl⟩
      · rw [yields.length] at outside
        exact absurd (List.getElem?_eq_some_iff.mp old).1 (Nat.not_lt.mpr outside)
      · exact absurd noFile source
  · rw [objects_enter]
    exact List.prefix_append _ _

/-- A class that was made from a file is entered and linked. -/
theorem Yields.enter_linked (yields : Yields state table) {newJString : Str → Exec DWord}
    {info : ClassInfo} {vars : Slots} (fits : info.FitsAt table.classes.length)
    (numbered : object.info = numberStaticFields (numberInstanceFields
      ((table.snoc info fits).firstInstanceSlot table.classes.length) info))
    (allocated : allocAndInitStaticVars newJString object.info = .ok vars)
    (fromFile : object.source ≠ none)
    (made : ∀ data, object.source = some data → ∃ file cursor,
      parse data = .ok (file, cursor) ∧ Reflects file state.objects.length info) :
    Advances state (state.enter object) := by
  rcases prepareClass_snoc fits numbered allocated (fun _ => none) with
    ⟨linked, prepared, classes⟩
  have same := sameMembers_of_prepareClass prepared
  have last : table.classes.length < (table.snoc info fits).classes.length := by simp
  refine ⟨⟨linked.table, ?_, ?_, ?_, yields.entries_enter, ?_⟩, ?_⟩
  · rw [classes, objects_enter, List.map_append, yields.classes]
    rfl
  · intro id found data
    apply yields.content_enter
    intro other source
    rcases made other source with ⟨file, cursor, parsed, reflects⟩
    rw [numbered]
    exact ⟨file, cursor, parsed, reflects.numbered _⟩
  · intro id found
    exact yields.declares_enter fun noFile => absurd noFile fromFile
  · intro id chain total
    rw [same.superChain_eq] at chain
    rw [same.totalWidth_eq] at total
    have older : ∀ {super}, super < table.classes.length →
        super ∈ (table.snoc info fits).superChain id →
        (table.snoc info fits).totalWidth super < 2 ^ 32 →
        Laid (table.snoc info fits) super := by
      intro super inside onChain small
      have onChains : ∀ ancestor ∈ (table.snoc info fits).superChain super,
          (state.enter object).FromFile ancestor :=
        fun ancestor mem => chain ancestor (ClassTable.mem_superChain_trans _ onChain mem)
      exact yields.laid_snoc fits inside onChains small
    have self := ClassTable.mem_superChain_self (table.snoc info fits) id
    have inside := (chain id self).lt
    rw [objects_enter, List.length_append, ← yields.length] at inside
    rcases Nat.lt_succ_iff_lt_or_eq.mp inside with before | rfl
    · exact (older before self total).of_prepareClass prepared
        (ClassTable.last_not_mem_superChain fits before)
    · apply laid_of_prepareClass prepared last total
      intro super superEq
      have below : super < table.classes.length := ClassTable.superClass_lt _ _ super superEq
      apply older below _ (Nat.lt_of_le_of_lt (totalWidth_super_le superEq) total)
      rw [ClassTable.superChain_eq, superEq]
      exact List.mem_cons_of_mem _ (ClassTable.mem_superChain_self _ _)
  · rw [objects_enter]
    exact List.prefix_append _ _

end Yields

/-! ## Members -/

/-- What comes out of `mapM` was made of the items of the list, one by one. -/
theorem forall₂_of_mapM {α β : Type} {make : α → Exec β} {items : List α} {made : List β}
    (done : items.mapM make = .ok made) :
    List.Forall₂ (fun item result => make item = .ok result) items made := by
  induction items generalizing made with
  | nil =>
      cases done
      exact .nil
  | cons item items ih =>
      rw [List.mapM_cons] at done
      rcases Exec.bind_eq_ok.mp done with ⟨first, firstEq, rest⟩
      rcases Exec.bind_eq_ok.mp rest with ⟨others, othersEq, same⟩
      cases same
      exact .cons firstEq (ih othersEq)

theorem klass_of_createMember {pool : ConstantPool} {klass : ClassId} {info : MemberInfo}
    {member : ClassMember} (created : createMember pool klass info = .ok member) :
    member.klass = klass := by
  rcases Exec.bind_eq_ok.mp created with ⟨name, -, rest⟩
  rcases Exec.bind_eq_ok.mp rest with ⟨descriptor, -, same⟩
  cases same
  rfl

theorem klass_of_createField {pool : ConstantPool} {klass : ClassId} {info : MemberInfo}
    {field : Field} (created : createField pool klass info = .ok field) : field.klass = klass := by
  rcases Exec.bind_eq_ok.mp created with ⟨member, memberEq, same⟩
  cases same
  exact klass_of_createMember memberEq

theorem klass_of_createMethod {pool : ConstantPool} {constants : List (Option Constant)}
    {klass : ClassId} {info : MemberInfo} {method : Method}
    (created : createMethod pool constants klass info = .ok method) : method.klass = klass := by
  rcases Exec.bind_eq_ok.mp created with ⟨member, memberEq, made⟩
  rw [(Method.ofMember_eq_ok made).1]
  exact klass_of_createMember memberEq

theorem exists_of_mapM {α β : Type} {make : α → Exec β} {items : List α} {made : List β}
    (done : items.mapM make = .ok made) :
    ∀ result ∈ made, ∃ item ∈ items, make item = .ok result := by
  have pairs := forall₂_of_mapM done
  clear done
  induction pairs with
  | nil =>
      intro result mem
      cases mem
  | @cons item first items others firstEq _ ih =>
      intro result mem
      rcases List.mem_cons.mp mem with rfl | mem
      · exact ⟨item, List.mem_cons_self, firstEq⟩
      · rcases ih result mem with ⟨other, otherMem, otherEq⟩
        exact ⟨other, List.mem_cons_of_mem _ otherMem, otherEq⟩

/-! ## Loading -/

section Loading

variable [Target] {load : Loading} {state middle next : LoaderState} {table : ClassTable}
  {name : Str} {loader : LoaderName}

/-- Every load yields a table again, and what it returns is inside. -/
def Loads (load : Loading) : Prop :=
  ∀ ⦃name state next result table⦄, Yields state table → load name state = .ok (result, next) →
    Advances state next ∧ ∀ id, result = some id → id < next.objects.length

theorem Loads.resolveInterfaces (loads : Loads load) (yields : Yields state table)
    {names : List Str} {results : List (Option ClassId)}
    (done : resolveInterfaces load names state = .ok (results, next)) :
    Advances state next ∧ ∀ id, some id ∈ results → id < next.objects.length := by
  induction names generalizing state table results with
  | nil =>
      cases done
      exact ⟨.refl yields, fun id mem => by cases mem⟩
  | cons name names ih =>
      rcases Exec.bind_eq_ok.mp done with ⟨⟨first, middle⟩, firstEq, rest⟩
      rcases Exec.bind_eq_ok.mp rest with ⟨⟨others, last⟩, othersEq, same⟩
      cases same
      rcases loads yields firstEq with ⟨advances, inside⟩
      rcases advances.yields with ⟨middleTable, middleYields⟩
      rcases ih middleYields othersEq with ⟨later, othersInside⟩
      refine ⟨advances.trans later, ?_⟩
      intro id mem
      rcases List.mem_cons.mp mem with here | mem
      · exact Nat.lt_of_lt_of_le (inside id here.symm) later.kept.length_le
      · exact othersInside id mem

theorem Loads.resolveSuperClass (loads : Loads load) (yields : Yields state table)
    {superClassName : Str} {result : Option ClassId}
    (done : resolveSuperClass load name superClassName state = .ok (result, next)) :
    Advances state next ∧ ∀ id, result = some id → id < next.objects.length := by
  unfold Runtime.resolveSuperClass at done
  split at done
  · cases done
    exact ⟨.refl yields, fun id none => by cases none⟩
  · exact loads yields done

/-- What `StartLoad` makes is what the file says, and fits behind the classes that it has
loaded. -/
theorem Loads.startLoad (loads : Loads load) (yields : Yields state table) {file : ClassFile}
    {info : ClassInfo} (done : startLoad load file state = .ok (info, next)) :
    Advances state next ∧ info.FitsAt next.objects.length ∧
      Reflects file next.objects.length info := by
  rcases Exec.bind_eq_ok.mp done with ⟨name, nameEq, rest⟩
  rcases Exec.bind_eq_ok.mp rest with ⟨superClassName, -, rest⟩
  rcases Exec.bind_eq_ok.mp rest with ⟨⟨superClass, middle⟩, superLoaded, rest⟩
  rcases Exec.bind_eq_ok.mp rest with ⟨_, -, rest⟩
  rcases Exec.bind_eq_ok.mp rest with ⟨interfaceNames, -, rest⟩
  rcases Exec.bind_eq_ok.mp rest with ⟨⟨interfaces, last⟩, interfacesLoaded, rest⟩
  rcases Exec.bind_eq_ok.mp rest with ⟨fields, fieldsEq, rest⟩
  rcases Exec.bind_eq_ok.mp rest with ⟨constantPool, constantsEq, rest⟩
  rcases Exec.bind_eq_ok.mp rest with ⟨methods, methodsEq, same⟩
  cases same
  rcases loads.resolveSuperClass yields superLoaded with ⟨first, superInside⟩
  rcases first.yields with ⟨middleTable, middleYields⟩
  rcases loads.resolveInterfaces middleYields interfacesLoaded with ⟨second, interfacesInside⟩
  rw [← length_objects] at fieldsEq methodsEq
  refine ⟨first.trans second, ⟨?_, ?_, ?_, ?_⟩,
    nameEq, rfl, constantsEq, ⟨fields, fieldsEq, rfl⟩, methodsEq⟩
  · intro super superEq
    exact Nat.lt_of_lt_of_le (superInside super superEq) second.kept.length_le
  · intro interface mem
    rcases List.mem_filterMap.mp mem with ⟨pointer, pointerMem, rfl⟩
    exact interfacesInside interface pointerMem
  · intro field mem
    rcases exists_of_mapM fieldsEq field mem with ⟨member, -, created⟩
    exact klass_of_createField created
  · intro method mem
    rcases exists_of_mapM methodsEq method mem with ⟨member, -, created⟩
    exact klass_of_createMethod created

/-- The slot count of the superclass, in the state and in the table. -/
theorem Yields.firstInstanceSlot_eq (yields : Yields state table) {object : ClassObject}
    (fits : object.info.FitsAt table.classes.length) :
    (state.enter object).firstInstanceSlot object.info =
      (table.snoc object.info fits).firstInstanceSlot table.classes.length := by
  rw [LoaderState.firstInstanceSlot, ClassTable.firstInstanceSlot, ClassTable.info_snoc_last]
  cases superEq : object.info.superClass with
  | none => rfl
  | some super =>
      have below := fits.superClass super superEq
      have found : table.classes[super]? =
          ((state.enter object).heap.map ClassObject.info)[super]? := by
        rw [yields.classes, LoaderState.objects, List.map_map, LoaderState.enter]
        rw [yields.length, length_objects] at below
        simp only [LoaderState.put, LoaderState.allocate, List.map_append]
        rw [List.getElem?_append_left (by simpa using below)]
        rfl
      rw [List.getElem?_map] at found
      rw [Option.bind_some, LoaderState.classAt]
      dsimp only
      rw [ClassTable.info_snoc_of_lt fits below, ClassTable.info, List.getD_eq_getElem?_getD, found]
      cases foundEq : (state.enter object).heap[super]? with
      | some superObject => rfl
      | none =>
          rw [foundEq, Option.map_none, List.getElem?_eq_none_iff] at found
          exact absurd below (Nat.not_lt.mpr found)

theorem Loads.loadArrayClass (loads : Loads load) (yields : Yields state table) {id : ClassId}
    (done : loadArrayClass load loader name state = .ok (id, next)) :
    Advances state next ∧ id < next.objects.length := by
  rcases Exec.bind_eq_ok.mp done with ⟨⟨superClass, first⟩, superEq, rest⟩
  rcases Exec.bind_eq_ok.mp rest with ⟨⟨cloneable, second⟩, cloneableEq, rest⟩
  rcases Exec.bind_eq_ok.mp rest with ⟨⟨serializable, third⟩, serializableEq, same⟩
  cases same
  rcases loads yields superEq with ⟨toFirst, superInside⟩
  rcases toFirst.yields with ⟨firstTable, firstYields⟩
  rcases loads firstYields cloneableEq with ⟨toSecond, cloneableInside⟩
  rcases toSecond.yields with ⟨secondTable, secondYields⟩
  rcases loads secondYields serializableEq with ⟨toThird, serializableInside⟩
  rcases toThird.yields with ⟨thirdTable, thirdYields⟩
  let object : ClassObject :=
    { info := { name, accessFlags := 0x0001, superClass
                interfaces := [cloneable, serializable].reduceOption }
      definer := loader }
  have fits : object.info.FitsAt third.objects.length := by
    apply ClassInfo.fitsAt_of_noMembers rfl rfl
    · intro super superEq
      have inSecond := Nat.lt_of_lt_of_le (superInside super superEq) toSecond.kept.length_le
      exact Nat.lt_of_lt_of_le inSecond toThird.kept.length_le
    · intro interface mem
      rcases List.mem_filterMap.mp mem with ⟨pointer, pointerMem, rfl⟩
      rcases List.mem_pair.mp pointerMem with isCloneable | isSerializable
      · exact Nat.lt_of_lt_of_le (cloneableInside interface isCloneable.symm)
          toThird.kept.length_le
      · exact serializableInside interface isSerializable.symm
  exact ⟨(toFirst.trans toSecond).trans (toThird.trans (thirdYields.enter_unlinked fits rfl rfl)),
    heap_length_lt_enter third object⟩

variable {env : LoaderEnv}

theorem Loads.loadNonArrayClass (loads : Loads load) (yields : Yields state table) {id : ClassId}
    (done : loadNonArrayClass env load loader name state = .ok (id, next)) :
    Advances state next ∧ id < next.objects.length := by
  rcases Exec.bind_eq_ok.mp done with ⟨⟨id, defined⟩, define, link⟩
  rcases Exec.bind_eq_ok.mp link with ⟨linked, linkEq, same⟩
  cases same
  unfold defineClass at define
  split at define
  · cases define
  · next data read =>
      rcases Exec.bind_eq_ok.mp define with ⟨⟨file, cursor⟩, parsed, started⟩
      rcases Exec.bind_eq_ok.mp started with ⟨⟨info, middle⟩, startEq, same⟩
      cases same
      rcases loads.startLoad yields startEq with ⟨first, fits, reflects⟩
      rcases first.yields with ⟨middleTable, middleYields⟩
      rw [← middleYields.length] at fits
      let object : ClassObject := { info, definer := loader, source := some data }
      have found : (middle.enter object).classAt middle.heap.length = some object :=
        classAt_enter object
      have entered : (middle.allocate object).put loader info.name middle.heap.length =
          middle.enter object := rfl
      rw [entered, linkClass, found] at linkEq
      rcases Exec.bind_eq_ok.mp linkEq with ⟨vars, allocated, same⟩
      cases same
      rw [@Yields.firstInstanceSlot_eq _ _ _ middleYields object fits] at allocated ⊢
      rw [modify_enter rfl rfl]
      refine ⟨first.trans (middleYields.enter_linked fits rfl allocated (by simp) ?_),
        heap_length_lt_enter middle _⟩
      intro other source
      cases source
      exact ⟨file, cursor, parsed, reflects⟩

/-- The entries that `assignClass` reads are not new pointers. -/
theorem Yields.assignClass (yields : Yields state table) (id : ClassId) :
    Advances state (assignClass loader id state) := by
  apply Advances.of_objects yields objects_assignClass
  intro other key pointer found
  rw [cached_congr (caches_assignClass id)] at found
  exact yields.entries (cached_of_touch found)

/-- Every call of `LoadClass` yields a table again. -/
theorem loads_loadClass (fuel : Nat) (loader : LoaderName) : Loads (loadClass env fuel loader) := by
  induction fuel generalizing loader with
  | zero =>
      intro name state next result table yields done
      cases done
  | succ fuel ih =>
      intro name state next result table yields done
      rw [loadClass] at done
      split at done
      · next entry hit =>
          cases done
          refine ⟨⟨⟨table, yields.of_objects rfl yields.entries⟩, List.prefix_rfl⟩, ?_⟩
          rintro id rfl
          exact (yields.entries hit).lt
      · rcases Exec.bind_eq_ok.mp done with ⟨⟨id, loaded⟩, made, same⟩
        cases same
        have entered : Advances state loaded ∧ id < loaded.objects.length := by
          unfold loadUncached at made
          split at made
          · exact (ih .boot).loadArrayClass yields made
          · exact (ih .boot).loadNonArrayClass yields made
        rcases entered.1.yields with ⟨loadedTable, loadedYields⟩
        rcases (loadedYields.assignClass id).yields with ⟨assignedTable, assigned⟩
        have objects : ((assignClass loader id loaded).record loader name (some id)).objects =
            loaded.objects := objects_assignClass
        refine ⟨⟨⟨assignedTable, assigned.of_objects rfl assigned.entries⟩, ?_⟩, ?_⟩
        · rw [objects]
          exact entered.1.kept
        · rintro other ⟨⟩
          rw [objects]
          exact entered.2

omit [Target] in
theorem objects_setClasses {jlc : Option ClassId} {entries : List (Str × Option ClassId)}
    (done : setClasses jlc entries state = .ok next) : next.objects = state.objects := by
  induction entries generalizing state with
  | nil =>
      cases done
      rfl
  | cons entry entries ih =>
      rcases entry with ⟨key, pointer⟩
      cases pointer with
      | none => cases done
      | some id =>
          rw [ih done]
          apply objects_modify
          intro object
          rfl

theorem Yields.loadBasicClass {fuel : Nat} (yields : Yields state table)
    (done : loadBasicClass env fuel loader state = .ok next) : Advances state next := by
  rcases Exec.bind_eq_ok.mp done with ⟨⟨jlc, loaded⟩, loadedEq, set⟩
  rcases loads_loadClass fuel loader yields loadedEq with ⟨first, inside⟩
  rcases first.yields with ⟨loadedTable, loadedYields⟩
  have assigned : setClasses jlc ((loaded.put loader kJlcClassString jlc).caches loader)
      (loaded.put loader kJlcClassString jlc) = .ok next := set
  have objects : next.objects = (loaded.put loader kJlcClassString jlc).objects :=
    objects_setClasses assigned
  refine first.trans (Advances.of_objects loadedYields objects ?_)
  intro other key id found
  rw [cached_congr (setClasses_eq_ok assigned).1] at found
  by_cases here : (other, key) = (loader, kJlcClassString)
  · rcases Prod.mk.inj here with ⟨rfl, rfl⟩
    rw [cached_put_self] at found
    cases found
    exact ⟨_, List.getElem?_eq_getElem (inside id rfl), .inl rfl⟩
  · rw [cached_put_of_ne here] at found
    exact loadedYields.entries found

theorem Yields.loadPrimitives (yields : Yields state table) (types : List (Str × Str)) :
    Advances state (loadPrimitives loader types state) := by
  induction types generalizing state table with
  | nil => exact .refl yields
  | cons type types ih =>
      rcases type with ⟨name, descriptor⟩
      let object : ClassObject :=
        { info := { name, accessFlags := 0x0001 }, definer := loader
          klass := (state.cached loader kJlcClassString).join }
      have fits : object.info.FitsAt state.objects.length :=
        ClassInfo.fitsAt_of_noMembers rfl rfl (by simp [object]) (by simp [object])
      have first : Advances state (state.enter object) := yields.enter_unlinked fits rfl rfl
      rcases first.yields with ⟨enteredTable, enteredYields⟩
      exact first.trans (ih enteredYields)

/-! ## Runs -/

/-- Every call of a loader that returns leads to a state with a table, and leaves
the objects of the state before it as they are. -/
theorem Yields.execute (yields : Yields state table) {call : LoaderCall}
    (returns : call.Returns env state next) : Advances state next := by
  rcases returns with ⟨fuel, done⟩
  cases call with
  | loadClass loader name =>
      rcases Exec.bind_eq_ok.mp done with ⟨⟨result, loaded⟩, loadedEq, same⟩
      cases same
      exact (loads_loadClass fuel loader yields loadedEq).1
  | loadBasicClass loader => exact yields.loadBasicClass done
  | loadPrimitiveClasses loader =>
      cases done
      exact yields.loadPrimitives _

/-- A run of the loaders. -/
theorem Yields.calls (yields : Yields state table)
    (run : Relation.ReflTransGen
      (fun state next => ∃ call, LoaderCall.Returns env call state next) state next) :
    Advances state next := by
  induction run with
  | refl => exact .refl yields
  | tail _ step before =>
      rcases before.yields with ⟨middle, middleYields⟩
      rcases step with ⟨call, returns⟩
      exact before.trans (middleYields.execute returns)

/-- After any calls of the loaders, whatever the class files say, the classes form a
table: superclasses and interfaces are older than the classes that name them, and
members belong to their class; and the classes whose superclasses come from files
are laid out. -/
theorem yields_of_cacheReachable (reachable : CacheReachable env state) :
    ∃ table, Yields state table := (yields_initial.calls reachable).yields

omit [Target] in
/-- The classes that are there when the machine starts. -/
theorem yields_of_cacheReachable_basicEnv : ∃ state id,
    state.cached .boot (str "java/lang/Class") = some (some id) ∧
      ∃ table, @Yields maskedShift state table := by
  rcases @basicClass_loaded maskedShift with ⟨state, id, returns, caches⟩
  refine ⟨state, id, ?_, @yields_of_cacheReachable maskedShift _ basicEnv (.single ⟨_, returns⟩)⟩
  rw [LoaderState.cached, caches]
  rfl

/-- What has been loaded is not changed by later calls, but for the classes of the
objects. -/
theorem objects_prefix_of_later (reachable : CacheReachable env state)
    (later : Relation.ReflTransGen
      (fun state next => ∃ call, LoaderCall.Returns env call state next) state next) :
    state.objects <+: next.objects := by
  rcases (yields_initial.calls reachable).yields with ⟨table, yields⟩
  exact (yields.calls later).kept

omit [Target] in
/-- The primitive classes come behind the others. -/
theorem objects_prefix_of_later_basicEnv : ∃ state : LoaderState,
    state.cached .boot (str "java/lang/Object") = some (some 0) ∧
      state.objects <+: (loadPrimitiveClasses .boot state).objects := by
  rcases @basicClass_loaded maskedShift with ⟨state, id, returns, caches⟩
  refine ⟨state, ?_, @objects_prefix_of_later maskedShift _ _ basicEnv (.single ⟨_, returns⟩)
    (.single ⟨.loadPrimitiveClasses .boot, 0, rfl⟩)⟩
  rw [LoaderState.cached, caches]
  rfl

/-! ## Class files -/

/-- The class file that a class was made from. -/
def LoaderState.fileOf (state : LoaderState) (id : ClassId) : Option ClassFile := do
  let object ← state.objects[id]?
  let data ← object.source
  let (file, _) ← (parse data).toOption
  some file

theorem Yields.reflects (yields : Yields state table) {id : ClassId} {file : ClassFile}
    (found : state.fileOf id = some file) : Reflects file id (table.info id) := by
  rcases Option.bind_eq_some_iff.mp found with ⟨object, objectEq, sourced⟩
  rcases Option.bind_eq_some_iff.mp sourced with ⟨data, source, parsed⟩
  rcases yields.content objectEq source with ⟨content, cursor, contentEq, reflects⟩
  rw [contentEq] at parsed
  cases parsed
  have here : table.info id = object.info := by
    rw [ClassTable.info, List.getD_eq_getElem?_getD, yields.classes, List.getElem?_map, objectEq]
    rfl
  rw [here]
  exact reflects

/-- A class that declares methods was made from a file. -/
theorem Yields.fileOf_of_methods (yields : Yields state table) {id : ClassId}
    (declares : (table.info id).methods ≠ []) : ∃ file, state.fileOf id = some file := by
  rw [ClassTable.info, List.getD_eq_getElem?_getD, yields.classes, List.getElem?_map] at declares
  cases objectEq : state.objects[id]? with
  | none =>
      rw [objectEq] at declares
      exact absurd rfl declares
  | some object =>
      rw [objectEq] at declares
      cases source : object.source with
      | none => exact absurd (yields.declares objectEq source) declares
      | some data =>
          rcases yields.content objectEq source with ⟨file, cursor, parsed, -⟩
          refine ⟨file, ?_⟩
          rw [LoaderState.fileOf, objectEq, Option.bind_eq_bind, Option.bind_some, source,
            Option.bind_eq_bind, Option.bind_some, parsed]
          rfl

/-! ## Looking classes up -/

theorem Yields.classes_getElem? (yields : Yields state table) {id : ClassId} {info : ClassInfo} :
    table.classes[id]? = some info ↔ ∃ object, state.objects[id]? = some object ∧
      object.info = info := by
  rw [yields.classes, List.getElem?_map, Option.map_eq_some_iff]

omit [Target] in
theorem Consistent.made_of_objects (consistent : Consistent state) {id : ClassId}
    {object : ClassObject} (found : state.objects[id]? = some object) :
    state.cached object.definer object.info.name = some (some id) := by
  rw [LoaderState.objects, List.getElem?_map] at found
  rcases Option.map_eq_some_iff.mp found with ⟨whole, wholeEq, rfl⟩
  exact @Consistent.made_of_classAt _ consistent id whole wholeEq

omit [Target] in
/-- The first class of the name is the one at this place, if no other class has it. -/
theorem ClassTable.loadClass_eq_ok_iff {table : ClassTable}
    (unique : ∀ ⦃first second : ClassId⦄ ⦃firstInfo secondInfo : ClassInfo⦄,
      table.classes[first]? = some firstInfo → table.classes[second]? = some secondInfo →
      firstInfo.name = name → secondInfo.name = name → first = second) {id : ClassId} :
    table.loadClass name = .ok id ↔ ∃ info, table.classes[id]? = some info ∧ info.name = name := by
  unfold ClassTable.loadClass
  cases found : table.classes.findIdx? fun info => info.name == name with
  | none =>
      rw [List.findIdx?_eq_none_iff] at found
      constructor
      · intro none
        cases none
      · rintro ⟨info, infoEq, named⟩
        have differs := found info (List.mem_of_getElem? infoEq)
        simp [named] at differs
  | some first =>
      rcases List.findIdx?_eq_some_iff_getElem.mp found with ⟨inside, named, -⟩
      have here := List.getElem?_eq_getElem inside
      constructor
      · intro same
        cases same
        exact ⟨_, here, by simpa using named⟩
      · rintro ⟨info, infoEq, infoNamed⟩
        rw [unique here infoEq (by simpa using named) infoNamed]

/-- The run finds a class in the table if and only if the loader returns it from its
cache: after calls that are in order, for a name that no other loader has a class
of. -/
theorem loadClass_table_iff (reachable : OrderlyReachable env state)
    (yields : Yields state table) (notJlc : name ≠ kJlcClassString)
    (only : ∀ other, other ≠ loader → state.cached other name = none) (id : ClassId) (fuel : Nat) :
    table.loadClass name = .ok id ↔
      loadClass env (fuel + 1) loader name state =
        .ok (some id, state.record loader name (some id)) := by
  have consistent := (Sound.of_orderlyReachable reachable).consistent
  have cached : ∀ ⦃other : ClassId⦄ ⦃info : ClassInfo⦄, table.classes[other]? = some info →
      info.name = name → state.cached loader name = some (some other) := by
    intro other info found named
    rcases yields.classes_getElem?.mp found with ⟨object, objectEq, rfl⟩
    have made := consistent.made_of_objects objectEq
    rw [named] at made
    by_cases own : object.definer = loader
    · rwa [own] at made
    · rw [only object.definer own] at made
      cases made
  rw [ClassTable.loadClass_eq_ok_iff fun first second firstInfo secondInfo firstEq secondEq
    firstNamed secondNamed => by
      have same := (cached firstEq firstNamed).symm.trans (cached secondEq secondNamed)
      cases same
      rfl]
  constructor
  · rintro ⟨info, found, named⟩
    rw [loadClass, cached found named]
    rfl
  · intro done
    rcases loadClass_eq_ok done with ⟨hit, -⟩ |
      ⟨-, depends, results, middle, object, -, -, resolved, -, entered⟩
    · rcases yields.entries hit with ⟨object, found, isJlc | ⟨-, named⟩⟩
      · exact absurd isJlc notJlc
      · exact ⟨object.info, yields.classes_getElem?.mpr ⟨object, found, rfl⟩, named⟩
    · -- The load has made an object, so that the state is another one.
      have advances := ((loads_loadClass fuel .boot).resolveInterfaces yields resolved).1
      have longer := heap_length_lt_enter middle object
      have same : state.objects = (assignClass loader middle.heap.length
          (middle.enter object)).objects := by
        have whole := congrArg LoaderState.objects entered
        exact whole
      rw [objects_assignClass] at same
      rw [← same, ← length_objects] at longer
      exact absurd longer (Nat.not_lt.mpr advances.kept.length_le)

/-- The boot loader leaves the caches of the other loaders alone. -/
theorem caches_loadClass_of_ne {fuel : Nat} {result : Option ClassId} (notBoot : loader ≠ .boot)
    (done : loadClass env fuel .boot name state = .ok (result, next)) :
    next.caches loader = state.caches loader := by
  induction fuel generalizing name state result next with
  | zero => cases done
  | succ fuel ih =>
      rcases loadClass_eq_ok done with ⟨-, rfl⟩ |
        ⟨-, depends, results, middle, object, -, definer, resolved, -, rfl⟩
      · rfl
      · have below : middle.caches loader = state.caches loader := by
          clear done
          induction depends generalizing state results with
          | nil =>
              cases resolved
              rfl
          | cons first rest ihRest =>
              rcases Exec.bind_eq_ok.mp resolved with ⟨⟨found, after⟩, loaded, restEq⟩
              rcases Exec.bind_eq_ok.mp restEq with ⟨⟨others, last⟩, restLoaded, same⟩
              cases same
              exact (ihRest _ restLoaded).trans (ih loaded)
        have touched : ∀ before : LoaderState,
            (before.touch .boot kJlcClassString).caches loader = before.caches loader :=
          fun _ => grows_touch.others notBoot
        have assigned := congrFun (@caches_assignClass .boot (middle.enter object)
          middle.heap.length) loader
        rw [touched] at assigned
        refine assigned.trans (Eq.trans ?_ below)
        rw [LoaderState.enter, definer]
        exact if_neg notBoot

theorem caches_loadBasicClass_of_ne {fuel : Nat} (notBoot : loader ≠ .boot)
    (done : loadBasicClass env fuel .boot state = .ok next) :
    next.caches loader = state.caches loader := by
  rcases Exec.bind_eq_ok.mp done with ⟨⟨jlc, loaded⟩, loadedEq, set⟩
  rw [(setClasses_eq_ok set).1]
  exact (if_neg notBoot).trans (caches_loadClass_of_ne notBoot loadedEq)

omit [Target] in
/-- Both ways lead to `java/lang/Object`. -/
theorem loadClass_table_iff_basicEnv : ∃ state table, @Yields maskedShift state table ∧
    state.cached .boot (str "java/lang/Object") = some (some 0) ∧
    (table.loadClass (str "java/lang/Object") = .ok 0 ↔
      @loadClass maskedShift basicEnv 1 .boot (str "java/lang/Object") state =
        .ok (some 0, state.record .boot (str "java/lang/Object") (some 0))) := by
  rcases @basicClass_loaded maskedShift with ⟨state, id, returns, caches⟩
  have reachable : @OrderlyReachable maskedShift basicEnv state :=
    .single ⟨_, @ReadsBasic.orderly_loadBasicClass maskedShift _ readsBasic_basicEnv, returns⟩
  have executed := @Yields.execute maskedShift _ _ _ _ (@yields_initial maskedShift) _ returns
  rcases @Advances.yields maskedShift _ _ executed with ⟨table, yields⟩
  refine ⟨state, table, yields, ?_, ?_⟩
  · rw [LoaderState.cached, caches]
    rfl
  · apply @loadClass_table_iff maskedShift _ _ _ _ _ reachable yields (by decide)
    intro other notBoot
    rcases returns with ⟨fuel, done⟩
    rw [LoaderState.cached, @caches_loadBasicClass_of_ne maskedShift _ _ _ _ _ notBoot done]
    rfl

end Loading

end JvmDemo.Runtime
