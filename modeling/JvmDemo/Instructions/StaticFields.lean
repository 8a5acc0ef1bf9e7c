import JvmDemo.Instructions.Reference
import JvmDemo.Instructions.TypedOperands
import JvmDemo.Runtime.Layout
import Mathlib.Data.List.Pairwise

/-!
# Static fields

`CalcStaticFieldSlotIds` numbers the slots of the static fields with 32 bits,
while the constructor of `Slots` and its accessors take 16.  This module
determines for which classes the static variables are independent of each other,
and what `PUT_STATIC` followed by `GET_STATIC` does to them.
-/

namespace JvmDemo.Instructions

open JvmDemo.Lib
open JvmDemo.Runtime
open JvmDemo.Runtime.TypedStack (Represents)

/-! ## Widths -/

/-- The kind of a descriptor takes as many slots as the numbering leaves for it. -/
theorem descriptorWidth_of_fieldKind {descriptor : Str} {kind : Kind}
    (found : fieldKind descriptor = some kind) : descriptorWidth descriptor = kind.width := by
  unfold fieldKind at found
  split at found
  · rename_i isInt
    cases found
    simp only [Bool.or_eq_true, beq_iff_eq] at isInt
    rcases isInt with (((rfl | rfl) | rfl) | rfl) | rfl <;> rfl
  split at found
  · rename_i isFloat
    cases found
    rw [beq_iff_eq.mp isFloat]
    rfl
  split at found
  · rename_i isLong
    cases found
    rw [beq_iff_eq.mp isLong]
    rfl
  split at found
  · rename_i isDouble
    cases found
    rw [beq_iff_eq.mp isDouble]
    rfl
  split at found
  · rename_i isRef
    cases found
    cases descriptor with
    | nil => exact absurd isRef (by decide)
    | cons first rest =>
        rw [Bool.or_eq_true, beq_iff_eq, beq_iff_eq] at isRef
        rcases isRef with rfl | rfl <;> simp [descriptorWidth, Kind.width]
  · cases found

/-! ## Independence of the static variables -/

/-- Whatever has been stored in the static variables since they were allocated:
every static field can be written with the setter of its type, is then read back
with the getter, and no other static field has changed. -/
def IndependentStatics (info : ClassInfo) (vars : Slots) : Prop :=
  ∀ current : Slots, current.getSize = vars.getSize →
    ∀ field ∈ info.staticFields, ∀ value : Value, fieldKind field.descriptor = some value.kind →
      ∃ next, current.setValue (field.slotId.toNat % 2 ^ 16) value = .ok next ∧
        next.getValue (field.slotId.toNat % 2 ^ 16) value.kind = .ok value ∧
        ∀ other ∈ info.staticFields, other ≠ field → ∀ kind,
          fieldKind other.descriptor = some kind →
            next.getValue (other.slotId.toNat % 2 ^ 16) kind =
              current.getValue (other.slotId.toNat % 2 ^ 16) kind

/-! ## The size of the allocation -/

/-- If the access returns, the array has as many slots as before. -/
def KeepsSize (vars : Slots) (result : Exec Slots) : Prop :=
  ∀ next, result = .ok next → next.getSize = vars.getSize

namespace KeepsSize

variable {vars : Slots}

theorem same : KeepsSize vars (pure vars) := by
  intro next returned
  cases returned
  rfl

theorem stopped (message : String) : KeepsSize vars (undefined message) := by
  intro next returned
  cases returned

theorem setValue (index : Nat) (value : Value) : KeepsSize vars (vars.setValue index value) :=
  fun _ stored => Slots.getSize_of_setValue stored

theorem bind {α : Type} {first : Exec α} {second : α → Exec Slots}
    (keeps : ∀ result, first = .ok result → KeepsSize vars (second result)) :
    KeepsSize vars (first >>= second) := by
  intro next returned
  obtain ⟨result, firstEq, secondEq⟩ := Exec.bind_eq_ok.mp returned
  exact keeps result firstEq next secondEq

theorem trans {middle : Slots} {result : Exec Slots} (size : middle.getSize = vars.getSize)
    (keeps : KeepsSize middle result) : KeepsSize vars result :=
  fun next returned => (keeps next returned).trans size

end KeepsSize

/-- Setting a final variable leaves the number of slots as it is. -/
theorem keepsSize_initStaticFinalVar (newJString : Str → Exec DWord) (info : ClassInfo)
    (field : Field) (vars : Slots) :
    KeepsSize vars (initStaticFinalVar newJString info field vars) := by
  unfold initStaticFinalVar
  extract_lets slotId type
  split
  · exact .stopped _
  · extract_lets finish
    have finishKeeps : ∀ {first : Exec Slots}, KeepsSize vars first →
        KeepsSize vars (first >>= finish) := by
      intro first keeps
      apply KeepsSize.bind
      intro middle initialised
      apply KeepsSize.trans (keeps middle initialised)
      dsimp only [finish]
      repeat' split
      · exact .bind fun string _ => .setValue slotId (.ref string)
      · exact .stopped _
      · exact .same
    repeat' split
    all_goals apply finishKeeps
    · exact .same
    · exact .setValue slotId (.int 0)
    · exact .setValue slotId (.int _)
    · exact .stopped _
    · exact .setValue slotId (.float 0)
    · exact .setValue slotId (.float _)
    · exact .stopped _
    · exact .setValue slotId (.long 0)
    · exact .setValue slotId (.long _)
    · exact .stopped _
    · exact .setValue slotId (.double 0)
    · exact .setValue slotId (.double _)
    · exact .stopped _
    · exact .same

/-- `AllocAndInitStaticVars` allocates the low 16 bits of the slot count. -/
theorem getSize_allocAndInitStaticVars {newJString : Str → Exec DWord} {info : ClassInfo}
    {vars : Slots} (allocated : allocAndInitStaticVars newJString info = .ok vars) :
    vars.getSize = info.staticSlotCount.toNat % 2 ^ 16 := by
  rw [allocAndInitStaticVars] at allocated
  rw [← Slots.getSize_ofCount (info.staticSlotCount.toNat % 2 ^ 16)]
  generalize Slots.ofCount (info.staticSlotCount.toNat % 2 ^ 16) = start at allocated ⊢
  generalize info.fields = fields at allocated
  induction fields generalizing start with
  | nil =>
      cases allocated
      rfl
  | cons field fields ih =>
      rw [List.foldlM_cons] at allocated
      obtain ⟨middle, first, rest⟩ := Exec.bind_eq_ok.mp allocated
      rw [ih middle rest]
      split at first
      · exact keepsSize_initStaticFinalVar newJString info field start middle first
      · exact KeepsSize.same middle first

/-! ## When they are independent -/

section Independence

variable {info : ClassInfo}

/-- The static fields lie one behind the other from slot zero. -/
theorem tiles_staticFields (few : info.fields.length ≤ 65535) :
    Cells.Tiles 0 ((numberStaticFields info).staticFields.map Field.block)
        (widths info.staticFields) ∧
      (numberStaticFields info).staticSlotCount.toNat = widths info.staticFields := by
  have bound := widths_le info.staticFields
  have fewer : info.staticFields.length ≤ info.fields.length := List.length_filter_le _ _
  have total : (0#32).toNat + widths (info.fields.filter fun field => field.isStatic) < 2 ^ 32 := by
    rw [ClassInfo.staticFields] at bound fewer
    simp only [BitVec.toNat_zero]
    omega
  obtain ⟨tiles, count⟩ := tiles_numberFields (fun _ _ => rfl) 0#32 info.fields total
  rw [count] at tiles
  rw [BitVec.toNat_zero, Nat.zero_add] at tiles count
  exact ⟨tiles, count⟩

/-- Numbering the fields changes nothing else of them. -/
theorem exists_original {field : Field} (mem : field ∈ (numberStaticFields info).fields) :
    ∃ original ∈ info.fields, original.toClassMember = field.toClassMember := by
  have member := List.mem_map_of_mem (f := Field.toClassMember) mem
  rw [numberStaticFields, map_toClassMember_numberFields] at member
  exact List.mem_map.mp member

theorem exists_kind_of_mem {field : Field}
    (described : ∀ field ∈ info.staticFields, (fieldKind field.descriptor).isSome)
    (mem : field ∈ (numberStaticFields info).staticFields) :
    ∃ kind, fieldKind field.descriptor = some kind := by
  obtain ⟨numbered, isStatic⟩ := List.mem_filter.mp mem
  obtain ⟨original, originalMem, same⟩ := exists_original numbered
  rw [← same] at isStatic ⊢
  exact Option.isSome_iff_exists.mp
    (described original (List.mem_filter.mpr ⟨originalMem, isStatic⟩))

/-- A field that reaches past the allocation cannot be written. -/
theorem not_independentStatics_of_past {vars : Slots} {field : Field} {kind : Kind}
    (mem : field ∈ info.staticFields) (found : fieldKind field.descriptor = some kind)
    (past : vars.getSize < field.slotId.toNat % 2 ^ 16 + kind.width) :
    ¬ IndependentStatics info vars := by
  intro independent
  have length : (List.replicate kind.width (0 : Slot)).length = kind.width := List.length_replicate
  obtain ⟨value, rfl, -⟩ := Slots.exists_value_of_length length
  obtain ⟨next, stored, -⟩ := independent vars rfl field mem value found
  exact absurd (Slots.setValue_eq_ok stored).1 (Nat.not_le.mpr past)

/-- Fields that all lie in the allocation are independent. -/
theorem independentStatics_of_inside {vars : Slots}
    (tiles : Cells.Tiles 0 (info.staticFields.map Field.block) vars.getSize)
    (small : vars.getSize < 2 ^ 16) : IndependentStatics info vars := by
  have place : ∀ field ∈ info.staticFields, ∀ kind, fieldKind field.descriptor = some kind →
      field.slotId.toNat % 2 ^ 16 = field.slotId.toNat ∧
        field.slotId.toNat + kind.width ≤ vars.getSize ∧ field.block.2 = kind.width := by
    intro field mem kind found
    have width := descriptorWidth_of_fieldKind found
    have inside := (tiles.inside field.block (List.mem_map_of_mem mem)).2
    simp only [Field.block, width] at inside
    exact ⟨Nat.mod_eq_of_lt (by omega), inside, width⟩
  intro current size field mem value found
  obtain ⟨index, inside, width⟩ := place field mem value.kind found
  rw [index]
  rw [← size] at inside
  have stored := Slots.setValue_of_le value inside
  have readBack := Slots.getValue_of_setValue value inside
  rw [stored, Exec.bind_ok] at readBack
  refine ⟨_, stored, readBack, ?_⟩
  intro other otherMem differs kind otherFound
  obtain ⟨otherIndex, otherInside, otherWidth⟩ := place other otherMem kind otherFound
  have apart : Cells.Disjoint other.block.1 other.block.2 field.block.1 field.block.2 := by
    have symmetric : Std.Symm fun first second : Field =>
        Cells.Disjoint first.block.1 first.block.2 second.block.1 second.block.2 :=
      ⟨fun _ _ disjoint => disjoint.symm⟩
    exact (List.pairwise_map.mp tiles.pairwise_disjoint).forall otherMem mem differs
  rw [otherWidth, width, ← Value.length_words] at apart
  rw [otherIndex]
  exact Slots.getValue_blit_of_disjoint (size ▸ otherInside) apart

variable {newJString : Str → Exec DWord} {vars : Slots}

/-- From `2 ^ 16` slots on, the allocation ends before the last field. -/
theorem not_independentStatics_of_le (few : info.fields.length ≤ 65535)
    (described : ∀ field ∈ info.staticFields, (fieldKind field.descriptor).isSome)
    (allocated : allocAndInitStaticVars newJString (numberStaticFields info) = .ok vars)
    (large : 2 ^ 16 ≤ widths info.staticFields) :
    ¬ IndependentStatics (numberStaticFields info) vars := by
  obtain ⟨tiles, count⟩ := tiles_staticFields few
  have size := getSize_allocAndInitStaticVars allocated
  have bound := widths_le info.staticFields
  have fewer : info.staticFields.length ≤ info.fields.length := List.length_filter_le _ _
  rw [count] at size
  -- the field that has the first slot behind the allocation
  have behind : vars.getSize < widths info.staticFields := by omega
  obtain ⟨block, blockMem, starts, ends⟩ := tiles.covered (Nat.zero_le vars.getSize) behind
  obtain ⟨field, mem, rfl⟩ := List.mem_map.mp blockMem
  obtain ⟨kind, found⟩ := exists_kind_of_mem described mem
  simp only [Field.block, descriptorWidth_of_fieldKind found] at starts ends
  apply not_independentStatics_of_past mem found
  rw [Nat.mod_eq_of_lt (by omega)]
  exact ends

/-- For every class with at most 65535 fields, whatever their types, whose static
variables have been allocated: they are independent exactly when they take fewer
than `2 ^ 16` slots. -/
theorem independentStatics_iff (few : info.fields.length ≤ 65535)
    (described : ∀ field ∈ info.staticFields, (fieldKind field.descriptor).isSome)
    (allocated : allocAndInitStaticVars newJString (numberStaticFields info) = .ok vars) :
    IndependentStatics (numberStaticFields info) vars ↔ widths info.staticFields < 2 ^ 16 := by
  constructor
  · intro independent
    by_contra large
    exact not_independentStatics_of_le few described allocated (Nat.le_of_not_lt large) independent
  · intro small
    obtain ⟨tiles, count⟩ := tiles_staticFields few
    have size := getSize_allocAndInitStaticVars allocated
    rw [count, Nat.mod_eq_of_lt small] at size
    rw [← size] at tiles small
    exact independentStatics_of_inside tiles small

/-- Without final fields the variables are only allocated. -/
theorem allocAndInitStaticVars_of_notFinal (newJString : Str → Exec DWord)
    (notFinal : ∀ field ∈ info.fields, field.isFinal = false) :
    allocAndInitStaticVars newJString info =
      .ok (Slots.ofCount (info.staticSlotCount.toNat % 2 ^ 16)) := by
  rw [allocAndInitStaticVars]
  generalize Slots.ofCount (info.staticSlotCount.toNat % 2 ^ 16) = start
  generalize info.fields = fields at notFinal
  induction fields with
  | nil => rfl
  | cons field fields ih =>
      have skipped : (field.isStatic && field.isFinal) = false := by
        rw [notFinal field List.mem_cons_self, Bool.and_false]
      rw [List.foldlM_cons, skipped, if_neg Bool.false_ne_true]
      exact ih fun other mem => notFinal other (List.mem_cons_of_mem _ mem)

end Independence

/-- `static int i; static long j; static Object o;` -/
def threeStatics : ClassInfo where
  fields := [
    { accessFlags := 0x0008, name := str "i", descriptor := str "I" },
    { accessFlags := 0x0008, name := str "j", descriptor := str "J" },
    { accessFlags := 0x0008, name := str "o", descriptor := str "Ljava/lang/Object;" }]

theorem independentStatics_threeStatics :
    ∃ vars, allocAndInitStaticVars (fun _ => pure 0) (numberStaticFields threeStatics) = .ok vars ∧
      IndependentStatics (numberStaticFields threeStatics) vars := by
  have allocated : allocAndInitStaticVars (fun _ => pure 0) (numberStaticFields threeStatics) =
      .ok (Slots.ofCount 5) := rfl
  exact ⟨_, allocated, (independentStatics_iff (by decide) (by decide) allocated).mpr (by decide)⟩

/-- A class with static fields of type `long`. -/
def longStatics (count : Nat) : ClassInfo where
  fields := (List.range count).map fun i =>
    { accessFlags := 0x0008, name := str ("f" ++ toString i), descriptor := str "J" }

theorem mem_longStatics {count : Nat} {field : Field} (mem : field ∈ (longStatics count).fields) :
    field.descriptor = str "J" ∧ field.isStatic = true ∧ field.isFinal = false := by
  obtain ⟨i, -, rfl⟩ := List.mem_map.mp mem
  have flags : hasFlag 0x0008 .accStatic = true ∧ hasFlag 0x0008 .accFinal = false := by decide
  exact ⟨rfl, flags⟩

theorem length_longStatics (count : Nat) : (longStatics count).fields.length = count := by
  simp [longStatics]

theorem staticFields_longStatics (count : Nat) :
    (longStatics count).staticFields = (longStatics count).fields :=
  List.filter_eq_self.mpr fun _ mem => (mem_longStatics mem).2.1

theorem widths_longStatics (count : Nat) : widths (longStatics count).staticFields = count * 2 := by
  have each : ((longStatics count).fields.map fun field => descriptorWidth field.descriptor) =
      (longStatics count).fields.map fun _ => 2 := by
    apply List.map_congr_left
    intro field mem
    rw [(mem_longStatics mem).1]
    rfl
  rw [staticFields_longStatics, widths, each, List.map_const', List.sum_replicate_nat,
    length_longStatics]

/-- With 32768 of them the slot count 65536 becomes zero, and no field has a slot. -/
theorem longStatics_not_independent :
    ∃ vars, allocAndInitStaticVars (fun _ => pure 0) (numberStaticFields (longStatics 32768)) =
        .ok vars ∧
      vars.getSize = 0 ∧ ¬ IndependentStatics (numberStaticFields (longStatics 32768)) vars := by
  have few : (longStatics 32768).fields.length ≤ 65535 := by
    rw [length_longStatics]
    decide
  have notFinal : ∀ field ∈ (numberStaticFields (longStatics 32768)).fields,
      field.isFinal = false := by
    intro field mem
    obtain ⟨original, originalMem, same⟩ := exists_original mem
    rw [← same]
    exact (mem_longStatics originalMem).2.2
  have described : ∀ field ∈ (longStatics 32768).staticFields,
      (fieldKind field.descriptor).isSome := by
    intro field mem
    rw [staticFields_longStatics] at mem
    rw [(mem_longStatics mem).1]
    rfl
  have total := widths_longStatics 32768
  have allocated := allocAndInitStaticVars_of_notFinal (fun _ => pure 0) notFinal
  refine ⟨_, allocated, ?_, ?_⟩
  · rw [getSize_allocAndInitStaticVars allocated, (tiles_staticFields few).2, total]
    decide
  · apply not_independentStatics_of_le few described allocated
    rw [total]
    decide

/-! ## Writing and reading a static field

The index of both instructions resolves to a field of a class that has been
prepared and whose initialisation has begun. -/

/-- The constant at the index resolves to an accessible static field that is not
final, of an initialised class; a value of its type is on top of the operand stack. -/
structure StaticReference (machine : Machine) (vm : Vm) (frame : Frame) (index : BitVec 32)
    (field : Field) (value : Value) (capacity : Nat) (below : List Value) : Prop where
  resolves : ∃ className name descriptor,
    constantAt machine frame index.toNat = some (.fieldRef className name descriptor) ∧
      machine.table.resolveField frame.method.klass className name descriptor = .ok field
  initialised : vm.clinitStarted field.klass = true
  isStatic : field.isStatic = true
  notFinal : field.isFinal = false
  typed : fieldKind field.descriptor = some value.kind
  represents : Represents capacity (value :: below) frame.operandStack

/-- The variables of the class have the field's slots, too. -/
structure StaticAccess (machine : Machine) (vm : Vm) (frame : Frame) (index : BitVec 32)
    (field : Field) (vars : Slots) (value : Value) (capacity : Nat) (below : List Value) : Prop
    extends StaticReference machine vm frame index field value capacity below where
  allocated : vm.staticVars field.klass = some vars
  inside : field.slotId.toNat % 2 ^ 16 + value.kind.width ≤ vars.getSize

/-- `PUT_STATIC` and then `GET_STATIC` return, the value is on top again above the
same values, and of all static variables only the field's slots have changed. -/
def PutThenGet (machine : Machine) (vm : Vm) (frame : Frame) (rest : List Frame)
    (index : BitVec 32) (field : Field) (vars : Slots) (value : Value) (capacity : Nat)
    (below : List Value) : Prop :=
  ∃ popped pushed next,
    executePutStatic machine index vm frame rest =
        .ok ((vm.setStaticVars field.klass next).setFrames (frame.setStack popped :: rest)) ∧
      executeGetStatic machine index
          ((vm.setStaticVars field.klass next).setFrames (frame.setStack popped :: rest))
          (frame.setStack popped) rest =
        .ok ((vm.setStaticVars field.klass next).setFrames (frame.setStack pushed :: rest)) ∧
      Represents capacity (value :: below) pushed ∧
      ∀ slot, slot < field.slotId.toNat % 2 ^ 16 ∨
          field.slotId.toNat % 2 ^ 16 + value.kind.width ≤ slot →
        next.slots[slot]? = vars.slots[slot]?

section StaticFields

variable {machine : Machine} {vm : Vm} {frame : Frame} {rest : List Frame} {index : BitVec 32}
  {field : Field} {vars : Slots} {value : Value} {capacity : Nat} {below : List Value}

namespace StaticReference

/-- The inverted assert stops on a constant of the right type. -/
theorem resolveFieldAt_aborts
    (reference : StaticReference machine vm frame index field value capacity below)
    (asserts : machine.asserts = true) :
    Aborts (resolveFieldAt machine true frame index.toNat) := by
  obtain ⟨className, name, descriptor, constant, -⟩ := reference.resolves
  rw [resolveFieldAt, constant]
  simp only [assertNull, asserts, Bool.and_self, if_true]
  exact ⟨_, rfl⟩

theorem resolveFieldAt_eq
    (reference : StaticReference machine vm frame index field value capacity below)
    (asserts : machine.asserts = false) :
    resolveFieldAt machine true frame index.toNat = .ok field := by
  obtain ⟨className, name, descriptor, constant, resolved⟩ := reference.resolves
  rw [resolveFieldAt, constant]
  simp [assertNull, asserts, resolved]

/-- In the build with asserts, `PUT_STATIC` stops the process on every field that
it should write. -/
theorem not_putThenGet
    (reference : StaticReference machine vm frame index field value capacity below)
    (asserts : machine.asserts = true) (vars : Slots) :
    Aborts (executePutStatic machine index vm frame rest) ∧
      ¬ PutThenGet machine vm frame rest index field vars value capacity below := by
  obtain ⟨message, aborted⟩ := reference.resolveFieldAt_aborts asserts
  have stops : executePutStatic machine index vm frame rest = .error (.fatal message) := by
    rw [executePutStatic, aborted]
    rfl
  refine ⟨⟨message, stops⟩, ?_⟩
  rintro ⟨popped, pushed, next, put, -⟩
  rw [stops] at put
  cases put

end StaticReference

namespace StaticAccess

/-- With asserts compiled out, `PUT_STATIC` moves the value to the field's slots. -/
theorem executePutStatic_eq
    (access : StaticAccess machine vm frame index field vars value capacity below)
    (asserts : machine.asserts = false) :
    ∃ popped, Represents capacity below popped ∧
      executePutStatic machine index vm frame rest =
        .ok ((vm.setStaticVars field.klass
          ⟨Cells.blit vars.slots (field.slotId.toNat % 2 ^ 16) value.words⟩).setFrames
            (frame.setStack popped :: rest)) := by
  obtain ⟨popped, popEq, represents⟩ := access.represents.pop
  refine ⟨popped, represents, ?_⟩
  rw [executePutStatic, access.resolveFieldAt_eq asserts, Exec.bind_ok]
  simp only [access.initialised, access.isStatic, access.notFinal, access.typed, Bool.not_true,
    Bool.false_eq_true, if_false, Bool.false_and, popEq, Exec.bind_ok, access.allocated,
    Slots.setValue_of_le value access.inside]
  rfl

/-- `GET_STATIC` pushes the value that is found in the field's slots. -/
theorem executeGetStatic_eq
    (access : StaticAccess machine vm frame index field vars value capacity below)
    (asserts : machine.asserts = false) (later : Vm) {popped : OperandStack} {current : Slots}
    (initialised : later.clinitStarted field.klass = true)
    (allocated : later.staticVars field.klass = some current)
    (held : current.getValue (field.slotId.toNat % 2 ^ 16) value.kind = .ok value)
    (represents : Represents capacity below popped) :
    ∃ pushed, Represents capacity (value :: below) pushed ∧
      executeGetStatic machine index later (frame.setStack popped) rest =
        .ok (later.setFrames (frame.setStack pushed :: rest)) := by
  have room := access.represents.used_le
  obtain ⟨pushed, pushEq, representsNext⟩ := represents.push value room
  have resolved : resolveFieldAt machine true (frame.setStack popped) index.toNat = .ok field :=
    access.resolveFieldAt_eq asserts
  refine ⟨pushed, representsNext, ?_⟩
  rw [executeGetStatic, resolved, Exec.bind_ok]
  simp only [initialised, access.isStatic, access.typed, Bool.not_true, Bool.false_eq_true,
    if_false, allocated, held, Exec.bind_ok, pushValue]
  rw [show (frame.setStack popped).operandStack = popped from rfl, pushEq]
  rfl

/-- Apart from the assert, both instructions do what they should. -/
theorem putThenGet (access : StaticAccess machine vm frame index field vars value capacity below)
    (asserts : machine.asserts = false) :
    PutThenGet machine vm frame rest index field vars value capacity below := by
  obtain ⟨popped, represents, put⟩ := access.executePutStatic_eq asserts
  have readBack := Slots.getValue_of_setValue value access.inside
  rw [Slots.setValue_of_le value access.inside, Exec.bind_ok] at readBack
  obtain ⟨pushed, representsNext, got⟩ := access.executeGetStatic_eq asserts
    ((vm.setStaticVars field.klass _).setFrames (frame.setStack popped :: rest))
    access.initialised (if_pos rfl) readBack represents
  refine ⟨popped, pushed, _, put, got, representsNext, ?_⟩
  intro slot outside
  apply Cells.getElem?_blit_of_outside
  rwa [Value.length_words]

end StaticAccess

end StaticFields

/-- `class java.lang.Object { public static int count; }`, with the field as a
constant. -/
def counterClass : ClassInfo where
  name := str "java/lang/Object"
  accessFlags := 0x0021
  constantPool := [none, some (.fieldRef (str "java/lang/Object") (str "count") (str "I"))]
  fields := [{ accessFlags := 0x0009, name := str "count", descriptor := str "I" }]

/-- The machine of the debug build with that class. -/
def counterMachine : Machine := .ofTable (.single counterClass rfl rfl (by decide) (by decide))

/-- Its state before `count = 7`. -/
def counterVm (frame : Frame) : Vm :=
  { Vm.ofFrames [frame] with
    clinitStarted := fun _ => true
    staticVars := fun _ => some ⟨[0]⟩ }

/-- The field as it is resolved. -/
def counterField : Field :=
  { accessFlags := 0x0009, name := str "count", descriptor := str "I" }

theorem staticAccess_counter :
    StaticAccess counterMachine (counterVm (frameHolding 1 [.int 7])) (frameHolding 1 [.int 7]) 1
      counterField ⟨[0]⟩ (.int 7) 1 [] where
  resolves := ⟨_, _, _, rfl, rfl⟩
  initialised := rfl
  isStatic := by decide
  notFinal := by decide
  typed := rfl
  allocated := rfl
  inside := by decide
  represents := TypedStack.represents_ofValues (by decide) (by decide)

theorem not_putThenGet_counter :
    Aborts (executePutStatic counterMachine 1 (counterVm (frameHolding 1 [.int 7]))
        (frameHolding 1 [.int 7]) []) ∧
      ¬ PutThenGet counterMachine (counterVm (frameHolding 1 [.int 7])) (frameHolding 1 [.int 7]) []
        1 counterField ⟨[0]⟩ (.int 7) 1 [] :=
  staticAccess_counter.toStaticReference.not_putThenGet rfl ⟨[0]⟩

/-- `count = 7` stops the process. -/
theorem count_not_stored :
    StaticAccess counterMachine (counterVm (frameHolding 1 [.int 7])) (frameHolding 1 [.int 7]) 1
        counterField ⟨[0]⟩ (.int 7) 1 [] ∧
      executePutStatic counterMachine 1 (counterVm (frameHolding 1 [.int 7]))
        (frameHolding 1 [.int 7]) [] = fatal "Assertion `ref_constant == nullptr' failed." ∧
      ¬ PutThenGet counterMachine (counterVm (frameHolding 1 [.int 7])) (frameHolding 1 [.int 7]) []
        1 counterField ⟨[0]⟩ (.int 7) 1 [] := by
  have stops : executePutStatic counterMachine 1 (counterVm (frameHolding 1 [.int 7]))
      (frameHolding 1 [.int 7]) [] = fatal "Assertion `ref_constant == nullptr' failed." := rfl
  refine ⟨staticAccess_counter, stops, ?_⟩
  rintro ⟨popped, pushed, next, put, -⟩
  rw [stops] at put
  cases put

end JvmDemo.Instructions
