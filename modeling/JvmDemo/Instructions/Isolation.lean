import JvmDemo.Instructions.Reference
import JvmDemo.Runtime.Layout

/-!
# Objects made by `new`

`NEW` asks the heap for `ObjectSize` bytes, which is the size of the instance
slots without the header; the accessors find the fields behind the header and
multiply the slot id by the size of a slot twice.  An object is isolated when
its header and its fields are inside the bytes reserved for it.  This module
shows that no object of any class is: every run of `NEW` that makes an object
breaks isolation.
-/

namespace JvmDemo.Instructions

open JvmDemo.Lib
open JvmDemo.Runtime

/-- An object that `NEW` has made, and the bytes reserved from its address on. -/
structure Allocated where
  klass : ClassId
  object : DWord
  reserved : Nat
  deriving DecidableEq, Repr

namespace Allocated

/-- A block of memory is inside the reserved bytes. -/
def Reserves (made : Allocated) (start count : Nat) : Prop :=
  made.object.toNat ≤ start ∧ start + count ≤ made.object.toNat + made.reserved

/-- The bytes of the header. -/
def headerBlock (made : Allocated) : Nat × Nat := (made.object.toNat, Object.headerSize)

/-- The bytes that the accessors use for a field. -/
def fieldBlock (made : Allocated) (field : Field) : Nat × Nat :=
  (DataObject.fieldAddress made.object field.slotId, 4 * descriptorWidth field.descriptor)

/-- The header and all fields are inside the reserved bytes. -/
structure Contained (table : ClassTable) (made : Allocated) : Prop where
  header : made.Reserves made.headerBlock.1 made.headerBlock.2
  fields : ∀ field ∈ table.instanceFields made.klass,
    made.Reserves (made.fieldBlock field).1 (made.fieldBlock field).2

/-- The bytes of the header and of all fields. -/
def blocks (table : ClassTable) (made : Allocated) : List (Nat × Nat) :=
  made.headerBlock :: (table.instanceFields made.klass).map made.fieldBlock

/-- Writing a field of one object changes no byte of the other. -/
def Undisturbed (table : ClassTable) (made other : Allocated) : Prop :=
  ∀ field ∈ table.instanceFields made.klass, ∀ value : Value,
    value.kind.width = descriptorWidth field.descriptor → ∀ memory : Memory,
      ∀ block ∈ other.blocks table, ∀ address,
        block.1 ≤ address → address < block.1 + block.2 →
          DataObject.setField memory made.object field.slotId value address = memory address

end Allocated

/-- The objects of a run are isolated from each other. -/
structure Isolated (table : ClassTable) (made : List Allocated) : Prop where
  contained : ∀ object ∈ made, object.Contained table
  disjoint : made.Pairwise fun first second =>
    Cells.Disjoint first.object.toNat first.reserved second.object.toNat second.reserved
  distinct : made.Pairwise fun first second => first.object ≠ second.object
  undisturbed : made.Pairwise fun first second =>
    first.Undisturbed table second ∧ second.Undisturbed table first

variable (machine : Machine)

/-- A run with the objects that `NEW` makes in it.  Between two executions of
`NEW`, other instructions may change everything but the heap. -/
inductive News : Vm → List Allocated → Vm → Prop where
  | done (vm : Vm) : News vm [] vm
  | other {vm between final : Vm} {made : List Allocated} :
      between.heap = vm.heap → News between made final → News vm made final
  | new {vm next final : Vm} {frame : Frame} {rest : List Frame} {index : BitVec 32}
      {klass : ClassId} {made : List Allocated} :
      resolveClassAt machine true frame index.toNat = .ok klass →
      vm.clinitStarted klass = true →
      executeNew machine index vm frame rest = .ok next →
      (vm.heap.allocObject vm.memory (machine.classAddress klass)
        (machine.table.info klass).objectSize).1 ≠ 0 →
      News next made final →
      News vm
        (⟨klass, (vm.heap.allocObject vm.memory (machine.classAddress klass)
            (machine.table.info klass).objectSize).1,
          next.heap.freshPos - vm.heap.freshPos⟩ :: made)
        final

variable {machine}

/-! ## The reserved bytes -/

theorem roundUp_le (x : Nat) : roundUp x Heap.objectAlignment ≤ x + 7 := by
  rw [roundUp, roundDown, Heap.objectAlignment]
  have bound := Nat.mod_le (x + 8 - 1) (2 ^ 64)
  omega

/-- `NEW` of an initialised class moves the fresh position by the rounded object
size, or returns null. -/
theorem freshPos_of_executeNew {vm next : Vm} {frame : Frame} {rest : List Frame}
    {index : BitVec 32} {klass : ClassId}
    (resolved : resolveClassAt machine true frame index.toNat = .ok klass)
    (started : vm.clinitStarted klass = true)
    (executed : executeNew machine index vm frame rest = .ok next)
    (notNull : (vm.heap.allocObject vm.memory (machine.classAddress klass)
      (machine.table.info klass).objectSize).1 ≠ 0) :
    next.heap.freshPos = vm.heap.freshPos +
      roundUp (machine.table.info klass).objectSize Heap.objectAlignment := by
  rw [executeNew, resolved] at executed
  simp only [Exec.bind_ok, started, Bool.not_true, Bool.false_eq_true, if_false] at executed
  split at executed
  · cases executed
  · rcases Exec.bind_eq_ok.mp executed with ⟨stack, -, same⟩
    cases same
    by_cases full : vm.heap.freshStart + vm.heap.freshSize < vm.heap.freshPos +
        roundUp (machine.table.info klass).objectSize Heap.objectAlignment
    · rw [Heap.allocObject, if_pos full] at notNull
      exact absurd rfl notNull
    · show (vm.heap.allocObject vm.memory (machine.classAddress klass)
        (machine.table.info klass).objectSize).2.1.freshPos = _
      rw [Heap.allocObject, if_neg full]

/-! ## Objects are larger than what is reserved for them -/

/-- A field behind the header is at this distance from the object, up to
wraparound of the address. -/
theorem fieldAddress_cases (object : DWord) {slotId : BitVec 32} (small : slotId.toNat < 2 ^ 31) :
    DataObject.fieldAddress object slotId = object.toNat + 28 + 16 * slotId.toNat ∨
      DataObject.fieldAddress object slotId + 2 ^ 64 =
        object.toNat + 28 + 16 * slotId.toNat := by
  have positive : slotId.msb = false := by
    rw [BitVec.msb_eq_decide]
    simpa using small
  have objectBound := object.isLt
  rw [DataObject.toNat_fieldAddress, BitVec.signExtend_eq_setWidth_of_msb_false positive,
    BitVec.toNat_setWidth]
  omega

/-- Some field of a class with fields is farther from the object than its slots
would reach. -/
theorem exists_far_field {table : ClassTable} {klass : ClassId} (laid : Laid table klass)
    (nonempty : (table.info klass).instanceSlotCount.toNat ≠ 0) :
    ∃ field ∈ table.instanceFields klass, field.slotId.toNat < 2 ^ 31 ∧
      (table.info klass).objectSize + 8 ≤
        28 + 16 * field.slotId.toNat + 4 * descriptorWidth field.descriptor := by
  -- the last slot, or one whose id is still positive as an `int`
  let slot := min ((table.info klass).instanceSlotCount.toNat - 1) (2 ^ 30)
  rcases laid.tiles.covered (Nat.zero_le slot) (show slot < _ by omega) with
    ⟨block, blockMem, lower, upper⟩
  rcases List.mem_map.mp blockMem with ⟨field, fieldMem, rfl⟩
  have width : descriptorWidth field.descriptor ≤ 2 := by
    rw [descriptorWidth_eq]
    split <;> decide
  have size : (table.info klass).objectSize ≤ 4 * (table.info klass).instanceSlotCount.toNat := by
    rw [ClassInfo.objectSize, Nat.mul_comm]
    exact Nat.mod_le _ _
  have bounded : (table.info klass).objectSize < 2 ^ 32 := Nat.mod_lt _ (Nat.two_pow_pos 32)
  simp only [Field.block] at lower upper
  refine ⟨field, fieldMem, by omega, ?_⟩
  by_cases short : (table.info klass).instanceSlotCount.toNat - 1 ≤ 2 ^ 30
  · have slotEq : slot = (table.info klass).instanceSlotCount.toNat - 1 := Nat.min_eq_left short
    omega
  · have slotEq : slot = 2 ^ 30 := Nat.min_eq_right (by omega)
    omega

/-- Whatever the class, the header or some field is outside the reserved
bytes. -/
theorem not_contained {table : ClassTable} {made : Allocated} (laid : Laid table made.klass)
    (reserved : made.reserved =
      roundUp (table.info made.klass).objectSize Heap.objectAlignment) :
    ¬ made.Contained table := by
  rintro ⟨header, fields⟩
  have size := roundUp_le (table.info made.klass).objectSize
  by_cases empty : (table.info made.klass).instanceSlotCount.toNat = 0
  · -- nothing is reserved for a class without fields, not even for the header
    have nothing : made.reserved = 0 := by
      rw [reserved, ClassInfo.objectSize, empty]
      rfl
    have upper := header.2
    simp only [Allocated.headerBlock, Object.headerSize, nothing] at upper
    omega
  · rcases exists_far_field laid empty with ⟨field, mem, small, far⟩
    rcases fields field mem with ⟨lower, upper⟩
    simp only [Allocated.fieldBlock] at lower upper
    rcases fieldAddress_cases made.object small with address | address
    · omega
    · have bound := small
      omega

/-! ## Runs -/

/-- Every object of a run has its rounded object size reserved. -/
theorem News.reserved {vm final : Vm} {made : List Allocated} (run : News machine vm made final) :
    ∀ object ∈ made, object.reserved =
      roundUp (machine.table.info object.klass).objectSize Heap.objectAlignment := by
  induction run with
  | done vm =>
      rintro object ⟨⟩
  | other _ _ ih => exact ih
  | new resolved started executed notNull _ ih =>
      intro object mem
      rcases List.mem_cons.mp mem with rfl | later
      · rw [freshPos_of_executeNew resolved started executed notNull]
        exact Nat.add_sub_cancel_left _ _
      · exact ih object later

/-- In every run, over prepared classes of any shape: the objects that `NEW` made
are isolated if and only if it made none. -/
theorem isolated_iff_no_objects {vm final : Vm} {made : List Allocated}
    (run : News machine vm made final)
    (laid : ∀ object ∈ made, Laid machine.table object.klass) :
    Isolated machine.table made ↔ made = [] := by
  constructor
  · intro isolated
    cases made with
    | nil => rfl
    | cons object others =>
        have mem : object ∈ object :: others := List.mem_cons_self
        exact absurd (isolated.contained object mem)
          (not_contained (laid object mem) (run.reserved object mem))
  · rintro rfl
    exact ⟨by rintro object ⟨⟩, .nil, .nil, .nil⟩

/-! ## Two objects without fields -/

/-- `class java.lang.Object`, with its own name as a constant. -/
def objectClass : ClassInfo where
  name := str "java/lang/Object"
  accessFlags := 0x0021
  constantPool := [none, some (.classRef (str "java/lang/Object"))]

/-- A machine with `java.lang.Object` alone, asserts compiled out. -/
def objectMachine : Machine :=
  { Machine.ofTable (.single objectClass rfl rfl (by decide) (by decide)) with asserts := false }

/-- The state before `new Object(); new Object();`. -/
def objectVm : Vm :=
  { Vm.ofFrames [.ofMethod { maxStack := 4 }] with clinitStarted := fun _ => true }

theorem news_objects : ∃ made final, News objectMachine objectVm made final ∧
    made = [⟨0, 0x100000, 0⟩, ⟨0, 0x100000, 0⟩] := by
  refine ⟨_, _, @News.new _ _ _ _ (.ofMethod { maxStack := 4 }) [] 1 0 _ rfl rfl rfl (by decide)
    (@News.new _ _ _ _ (.ofMethod { maxStack := 4 }) [] 1 0 _ rfl rfl rfl (by decide)
      (.done _)), ?_⟩
  decide

/-- The second object has the address of the first. -/
theorem new_objects_not_isolated :
    ∃ made final, News objectMachine objectVm made final ∧
      made.map Allocated.object = [0x100000, 0x100000] ∧
      ¬ Isolated objectMachine.table made := by
  rcases news_objects with ⟨made, final, run, rfl⟩
  refine ⟨_, final, run, rfl, ?_⟩
  intro isolated
  have differ := List.rel_of_pairwise_cons isolated.distinct List.mem_cons_self
  exact differ rfl

theorem isolated_iff_no_objects_objects :
    ∃ final, News objectMachine objectVm [⟨0, 0x100000, 0⟩, ⟨0, 0x100000, 0⟩] final ∧
      ¬ Isolated objectMachine.table [⟨0, 0x100000, 0⟩, ⟨0, 0x100000, 0⟩] := by
  rcases news_objects with ⟨made, final, run, rfl⟩
  have laid : ∀ object ∈ [⟨0, 0x100000, 0⟩, (⟨0, 0x100000, 0⟩ : Allocated)],
      Laid objectMachine.table object.klass := by
    intro object mem
    have klass : object.klass = 0 := by
      revert object
      decide
    rw [klass]
    exact ⟨by decide, .nil 0⟩
  refine ⟨final, run, ?_⟩
  rw [isolated_iff_no_objects run laid]
  exact List.cons_ne_nil _ _

end JvmDemo.Instructions
