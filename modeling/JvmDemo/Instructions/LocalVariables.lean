import JvmDemo.Instructions.FrameExecution

/-!
# Stores and loads of local variables

The compiler numbers local variables with one index for an `int`, a `float` or a
reference and two for a `long` or a `double`.  The slot array keeps a reference
in two slots.  This module determines for which sequences of stores the slots
keep every variable that the numbering keeps: no reference may be in the last
slot, and no store may hit the second slot of a reference, or with its second
slot another variable, while that variable is still to be read.
-/

namespace JvmDemo.Instructions

open JvmDemo.Lib
open JvmDemo.Runtime

/-! ## Writes of local variables -/

/-- A store instruction that is about to run: the value is on top of the operand
stack.  The indexed, the short and the wide forms run the same code at their
index. -/
structure Store where
  index : BitVec 32
  value : Value
  stack : OperandStack
  popped : OperandStack
  pops : stack.pop value.kind = .ok (value, popped)

/-- A write of a local variable. -/
inductive VarWrite where
  /-- `SetRef` of an argument when the frame is entered. -/
  | entry (index : BitVec 16) (address : DWord)
  | store (inst : Store)

namespace VarWrite

def index : VarWrite → Nat
  | .entry index _ => index.toNat
  | .store inst => inst.index.toNat

def value : VarWrite → Value
  | .entry _ address => .ref address
  | .store inst => inst.value

def run (frame : Frame) : VarWrite → Exec Frame
  | .entry index address => do
      let vars ← frame.localVars.setRef index.toNat address
      pure (frame.setVars vars)
  | .store inst => executeStore (frame.setStack inst.stack) inst.value.kind inst.index

def runAll (frame : Frame) : List VarWrite → Exec Frame
  | [] => pure frame
  | write :: writes => do
      let frame ← write.run frame
      runAll frame writes

end VarWrite

/-- Which variables a write touches: its first index and its kind. -/
structure VarShape where
  index : Nat
  kind : Kind
  deriving DecidableEq, Repr

namespace VarShape

/-- The indices of two variables have one in common. -/
def Touches (first second : VarShape) : Prop :=
  ¬ Cells.Disjoint first.index first.kind.indices second.index second.kind.indices

instance (first second : VarShape) : Decidable (first.Touches second) :=
  inferInstanceAs (Decidable (¬ _))

/-- One of the two is a reference and the other starts at the next index. -/
def Clashes (first second : VarShape) : Prop :=
  (first.kind = .ref ∧ second.index = first.index + 1) ∨
    (second.kind = .ref ∧ first.index = second.index + 1)

instance (first second : VarShape) : Decidable (first.Clashes second) :=
  inferInstanceAs (Decidable (_ ∨ _))

end VarShape

def VarWrite.shape (write : VarWrite) : VarShape := ⟨write.index, write.value.kind⟩

/-- The local variables of a method keep their values: no write aborts, and a
load of the matching type returns the value last written unless a later write
touched one of its indices. -/
def KeepsVariables (method : Method) (writes : List VarWrite) : Prop :=
  ∃ frame, VarWrite.runAll (Frame.ofMethod method) writes = .ok frame ∧
    ∀ before write after, writes = before ++ write :: after →
      (∀ later ∈ after, ¬ write.shape.Touches later.shape) →
        frame.localVars.getValue write.index write.value.kind = .ok write.value ∧
          ∀ stack, executeLoad (frame.setStack stack) write.value.kind
              (BitVec.ofNat 32 write.index) =
            pushConst (frame.setStack stack) write.value

/-- No reference is written to the last index, and no later write clashes with a
variable whose indices are not touched any more. -/
structure RefsApart (maxLocals : Nat) (shapes : List VarShape) : Prop where
  notLast : ∀ shape ∈ shapes, shape.kind = .ref → shape.index + 1 < maxLocals
  noClash : ∀ before shape after, shapes = before ++ shape :: after →
    (∀ later ∈ after, ¬ shape.Touches later) → ∀ later ∈ after, ¬ shape.Clashes later

/-! ## What a sequence of writes does -/

namespace VarWrite

variable {frame : Frame}

/-- The block of slots that a write replaces. -/
def block (write : VarWrite) : Nat × List Word := (write.index, write.value.words)

/-- A write is the typed setter at its index. -/
theorem run_eq (frame : Frame) (write : VarWrite) (small : write.index < 2 ^ 16) :
    ∃ stack, write.run frame = (do
      let vars ← frame.localVars.setValue write.index write.value
      pure ((frame.setStack stack).setVars vars)) := by
  cases write with
  | entry index address => exact ⟨frame.operandStack, rfl⟩
  | store inst =>
      refine ⟨inst.popped, ?_⟩
      have pops : (frame.setStack inst.stack).operandStack.pop inst.value.kind =
        .ok (inst.value, inst.popped) := inst.pops
      have index : inst.index.toNat % 2 ^ 16 = inst.index.toNat := Nat.mod_eq_of_lt small
      simp only [run, executeStore, pops, index, Exec.bind_ok]
      rfl

theorem runAll_of_fits (writes : List VarWrite) (small : frame.localVars.getSize ≤ 2 ^ 16)
    (fits : ∀ write ∈ writes, write.index + write.value.kind.width ≤ frame.localVars.getSize) :
    ∃ final, runAll frame writes = .ok final ∧
      final.localVars.slots = Cells.blitAll frame.localVars.slots (writes.map block) := by
  induction writes generalizing frame with
  | nil => exact ⟨frame, rfl, rfl⟩
  | cons write writes ih =>
      have inside := fits write List.mem_cons_self
      have width := write.value.kind.width_pos
      rcases run_eq frame write (by omega) with ⟨stack, runEq⟩
      rw [Slots.setValue_of_le _ inside] at runEq
      let next := (frame.setStack stack).setVars
        ⟨Cells.blit frame.localVars.slots write.index write.value.words⟩
      have size : next.localVars.getSize = frame.localVars.getSize := Slots.getSize_blit _ _
      rcases @ih next (by rw [size]; exact small)
        (by rw [size]; exact fun later mem => fits later (List.mem_cons_of_mem _ mem)) with
        ⟨final, finished, slotsEq⟩
      refine ⟨final, ?_, slotsEq⟩
      rw [runAll, runEq]
      exact finished

/-- Writes that return had their slots, and wrote them. -/
theorem runAll_eq_ok (writes : List VarWrite) (small : ∀ write ∈ writes, write.index < 2 ^ 16)
    {final : Frame} (finished : runAll frame writes = .ok final) :
    (∀ write ∈ writes, write.index + write.value.kind.width ≤ frame.localVars.getSize) ∧
      final.localVars.slots = Cells.blitAll frame.localVars.slots (writes.map block) := by
  induction writes generalizing frame with
  | nil =>
      cases finished
      constructor
      · rintro write ⟨⟩
      · rfl
  | cons write writes ih =>
      rcases Exec.bind_eq_ok.mp finished with ⟨next, runs, rest⟩
      rcases run_eq frame write (small write List.mem_cons_self) with ⟨stack, runEq⟩
      rw [runEq] at runs
      rcases Exec.bind_eq_ok.mp runs with ⟨vars, stored, same⟩
      cases same
      rcases Slots.setValue_eq_ok stored with ⟨inside, rfl⟩
      rcases ih (fun other mem => small other (List.mem_cons_of_mem _ mem)) rest with
        ⟨later, slotsEq⟩
      rw [Frame.setVars_localVars, Slots.getSize_blit] at later
      refine ⟨?_, slotsEq⟩
      intro other mem
      rcases List.mem_cons.mp mem with rfl | others
      · exact inside
      · exact later other others

end VarWrite

/-- A load at an index whose variable is known pushes it. -/
theorem executeLoad_of_getValue {frame : Frame} {index : Nat} {value : Value}
    (small : index < 2 ^ 16) (held : frame.localVars.getValue index value.kind = .ok value) :
    executeLoad frame value.kind (BitVec.ofNat 32 index) = pushConst frame value := by
  have same : (BitVec.ofNat 32 index).toNat % 2 ^ 16 = index := by
    rw [BitVec.toNat_ofNat, Nat.mod_eq_of_lt (show index < 2 ^ 32 by omega)]
    exact Nat.mod_eq_of_lt small
  rw [executeLoad, same, held]
  rfl

/-! ## Slots and indices -/

namespace VarShape

/-- Where two variables have no index in common, they share a slot exactly when
they clash. -/
theorem disjoint_of_not_clashes {first second : VarShape} (apart : ¬ first.Touches second)
    (noClash : ¬ first.Clashes second) :
    Cells.Disjoint first.index first.kind.width second.index second.kind.width := by
  rcases first with ⟨i, firstKind⟩
  rcases second with ⟨j, secondKind⟩
  cases firstKind <;> cases secondKind <;>
    simp only [Touches, Clashes, Cells.Disjoint, Kind.indices, Kind.width, not_or,
      true_and, not_false_eq_true, and_self, reduceCtorEq, false_and] at * <;> omega

/-- Of two clashing variables, one covers the second slot of the other. -/
theorem shared_of_clashes {first second : VarShape} (clash : first.Clashes second) :
    ∃ slot, (first.index ≤ slot ∧ slot < first.index + first.kind.width) ∧
      second.index ≤ slot ∧ slot < second.index + second.kind.width := by
  have firstWidth := first.kind.width_pos
  have secondWidth := second.kind.width_pos
  rcases clash with ⟨ref, next⟩ | ⟨ref, next⟩
  · refine ⟨second.index, ⟨by omega, ?_⟩, by omega, by omega⟩
    rw [ref, next]
    exact Nat.lt_succ_self _
  · refine ⟨first.index, ⟨by omega, by omega⟩, by omega, ?_⟩
    rw [ref, next]
    exact Nat.lt_succ_self _

end VarShape

/-! ## Which sequences keep their variables -/

/-- The value of a kind all of whose words are zero, or all of them one. -/
def Kind.filled (ones : Bool) : Kind → Value
  | .int => .int (if ones then 1 else 0)
  | .float => .float (if ones then 1 else 0)
  | .long => .long (if ones then 0x100000001 else 0)
  | .double => .double (if ones then 0x100000001 else 0)
  | .ref => .ref (if ones then 0x100000001 else 0)

theorem kind_filled (ones : Bool) (kind : Kind) : (Kind.filled ones kind).kind = kind := by
  cases kind <;> rfl

theorem words_filled (ones : Bool) (kind : Kind) :
    (Kind.filled ones kind).words = List.replicate kind.width (if ones then 1 else 0) := by
  cases ones <;> cases kind <;> decide

/-- A store of a filled value, on an operand stack of two slots. -/
def VarShape.stored (ones : Bool) (shape : VarShape) : VarWrite :=
  .store {
    index := BitVec.ofNat 32 shape.index
    value := Kind.filled ones shape.kind
    stack := (OperandStack.ofSize 2).pushed (Kind.filled ones shape.kind).words
    popped := ((OperandStack.ofSize 2).pushed (Kind.filled ones shape.kind).words).popped
      (Kind.filled ones shape.kind).kind.width
    pops := by
      have holds := (OperandStack.holds_ofSize (show 2 < 2 ^ 16 by omega)).pushed
        (show 0 + (Kind.filled ones shape.kind).words.length ≤ 2 by
          rw [words_filled, List.length_replicate, Nat.zero_add]
          exact shape.kind.width_le_two)
      exact OperandStack.Holds.pop_eq holds }

theorem VarShape.shape_stored (ones : Bool) {shape : VarShape} (small : shape.index < 2 ^ 16) :
    (shape.stored ones).shape = shape := by
  have index : (BitVec.ofNat 32 shape.index).toNat = shape.index := by
    rw [BitVec.toNat_ofNat]
    exact Nat.mod_eq_of_lt (by omega)
  simp only [VarWrite.shape, VarShape.stored, VarWrite.index, VarWrite.value, kind_filled, index]

section Method

variable {method : Method} {shapes : List VarShape}

theorem getSize_ofMethod (small : method.maxLocals < 2 ^ 16) :
    (Frame.ofMethod method).localVars.getSize = method.maxLocals := by
  rw [Frame.ofMethod, Slots.getSize_ofCount]
  exact Nat.mod_eq_of_lt small

/-- A kind takes as many slots as indices, or is a reference. -/
theorem width_le_of_indices {shape : VarShape} {maxLocals : Nat}
    (below : shape.index + shape.kind.indices ≤ maxLocals)
    (notLast : shape.kind = .ref → shape.index + 1 < maxLocals) :
    shape.index + shape.kind.width ≤ maxLocals := by
  rcases shape with ⟨index, kind⟩
  cases kind with
  | ref => exact notLast rfl
  | _ => exact below

theorem keepsVariables_of_refsApart (small : method.maxLocals < 2 ^ 16)
    (below : ∀ shape ∈ shapes, shape.index + shape.kind.indices ≤ method.maxLocals)
    (apart : RefsApart method.maxLocals shapes) {writes : List VarWrite}
    (shapesEq : writes.map VarWrite.shape = shapes) : KeepsVariables method writes := by
  have size := getSize_ofMethod small
  have fits : ∀ write ∈ writes, write.index + write.value.kind.width ≤ method.maxLocals := by
    intro write mem
    have shapeMem : write.shape ∈ shapes := shapesEq ▸ List.mem_map_of_mem mem
    exact width_le_of_indices (below _ shapeMem) (apart.notLast _ shapeMem)
  rcases VarWrite.runAll_of_fits writes (by rw [size]; exact Nat.le_of_lt small)
    (by rw [size]; exact fits) with ⟨frame, finished, slotsEq⟩
  refine ⟨frame, finished, ?_⟩
  rintro before write after rfl visible
  have inside := fits write (by simp)
  have finalSize : frame.localVars.getSize = method.maxLocals := by
    rw [← size, Slots.getSize, slotsEq, Cells.length_blitAll]
    rfl
  have disjoint : ∀ later ∈ after.map VarWrite.block,
      Cells.Disjoint write.index write.value.words.length later.1 later.2.length := by
    intro later mem
    rcases List.mem_map.mp mem with ⟨other, otherMem, rfl⟩
    have untouched : ∀ later ∈ after.map VarWrite.shape, ¬ write.shape.Touches later := by
      intro later laterMem
      rcases List.mem_map.mp laterMem with ⟨original, originalMem, rfl⟩
      exact visible original originalMem
    have noClash := apart.noClash (before.map VarWrite.shape) write.shape
      (after.map VarWrite.shape) (by rw [← shapesEq]; simp) untouched other.shape
      (List.mem_map_of_mem otherMem)
    have slots := VarShape.disjoint_of_not_clashes (visible other otherMem) noClash
    simpa [VarWrite.block, VarWrite.shape] using slots
  have held : Cells.slice frame.localVars.slots write.index write.value.kind.width =
      write.value.words := by
    rw [slotsEq, List.map_append, List.map_cons, ← Value.length_words]
    apply Cells.slice_blitAll_last _ _ _ _ _ _ disjoint
    rw [Value.length_words]
    exact Nat.le_trans inside (Nat.le_of_eq size.symm)
  have value := Slots.getValue_of_slice_eq write.value (by rw [finalSize]; exact inside) held
  refine ⟨value, fun stack => executeLoad_of_getValue ?_ value⟩
  have width := write.value.kind.width_pos
  omega

/-- The writes that store filled values have the given shapes. -/
theorem map_shape_stored (ones : Bool) (small : ∀ shape ∈ shapes, shape.index < 2 ^ 16) :
    (shapes.map (VarShape.stored ones)).map VarWrite.shape = shapes := by
  rw [List.map_map]
  calc shapes.map (VarWrite.shape ∘ VarShape.stored ones)
      = shapes.map id := List.map_congr_left fun shape mem =>
        VarShape.shape_stored ones (small shape mem)
    _ = shapes := List.map_id shapes

/-- In a sequence of writes that return, every shape has its slots. -/
theorem width_le_of_runAll (small : method.maxLocals < 2 ^ 16)
    (range : ∀ shape ∈ shapes, shape.index < 2 ^ 16) {writes : List VarWrite} {frame : Frame}
    (shapesEq : writes.map VarWrite.shape = shapes)
    (finished : VarWrite.runAll (Frame.ofMethod method) writes = .ok frame) :
    ∀ shape ∈ shapes, shape.index + shape.kind.width ≤ method.maxLocals := by
  subst shapesEq
  have fits := (VarWrite.runAll_eq_ok writes
    (fun write mem => range write.shape (List.mem_map_of_mem mem)) finished).1
  intro shape mem
  rcases List.mem_map.mp mem with ⟨write, writeMem, rfl⟩
  have inside := fits write writeMem
  rwa [getSize_ofMethod small] at inside

/-- A slot that a write of zeros covers, with nothing but zeros written after it,
is zero. -/
theorem getElem?_of_zeros {cells : List Word} {before : List VarWrite} {after : List VarShape}
    {later : VarShape} {slot : Nat} (range : ∀ shape ∈ after, shape.index < 2 ^ 16)
    (fits : ∀ shape ∈ after, shape.index + shape.kind.width ≤ cells.length) (mem : later ∈ after)
    (covered : later.index ≤ slot ∧ slot < later.index + later.kind.width) :
    (Cells.blitAll cells ((before ++ after.map (VarShape.stored false)).map
      VarWrite.block))[slot]? = some 0 := by
  have blockOf {shape : VarShape} (shapeMem : shape ∈ after) :
      (shape.stored false).block = (shape.index, List.replicate shape.kind.width 0) := by
    have shapeEq := VarShape.shape_stored false (range shape shapeMem)
    have index : (shape.stored false).index = shape.index := congrArg VarShape.index shapeEq
    rw [VarWrite.block, index]
    exact congrArg _ (words_filled false shape.kind)
  have zeros : ∃ value, (Cells.blitAll (Cells.blitAll cells (before.map VarWrite.block))
      ((after.map (VarShape.stored false)).map VarWrite.block))[slot]? = some value ∧
        value = 0 := by
    apply Cells.getElem?_blitAll_of_covered
    · intro write writeMem
      simp only [List.map_map, List.mem_map, Function.comp_apply] at writeMem
      rcases writeMem with ⟨shape, shapeMem, rfl⟩
      rw [blockOf shapeMem, Cells.length_blitAll, List.length_replicate]
      exact fits shape shapeMem
    · intro write writeMem
      simp only [List.map_map, List.mem_map, Function.comp_apply] at writeMem
      rcases writeMem with ⟨shape, shapeMem, rfl⟩
      rw [blockOf shapeMem]
      intro value valueMem
      exact List.eq_of_mem_replicate valueMem
    · right
      refine ⟨(later.stored false).block, ?_, ?_⟩
      · exact List.mem_map_of_mem (List.mem_map_of_mem mem)
      · rw [blockOf mem, List.length_replicate]
        exact covered
  rcases zeros with ⟨value, found, rfl⟩
  rw [List.map_append, Cells.blitAll_append]
  exact found

/-- If every sequence of writes of these shapes keeps its variables, then
references are apart.  A variable that clashes with a later one is refuted by
storing ones in it and zeros everywhere else. -/
theorem refsApart_of_keepsVariables (small : method.maxLocals < 2 ^ 16)
    (below : ∀ shape ∈ shapes, shape.index + shape.kind.indices ≤ method.maxLocals)
    (keeps : ∀ writes : List VarWrite, writes.map VarWrite.shape = shapes →
      KeepsVariables method writes) : RefsApart method.maxLocals shapes := by
  have range : ∀ shape ∈ shapes, shape.index < 2 ^ 16 := by
    intro shape mem
    have inside := below shape mem
    omega
  have fits : ∀ shape ∈ shapes, shape.index + shape.kind.width ≤ method.maxLocals := by
    rcases keeps _ (map_shape_stored false range) with ⟨frame, finished, -⟩
    exact width_le_of_runAll small range (map_shape_stored false range) finished
  constructor
  · intro shape mem isRef
    have inside := fits shape mem
    rw [isRef] at inside
    exact inside
  · rintro before shape after rfl untouched later laterMem clash
    have shapeMem : shape ∈ before ++ shape :: after := by simp
    have rangeBefore : ∀ other ∈ before, other.index < 2 ^ 16 :=
      fun other mem => range other (List.mem_append_left _ mem)
    have rangeAfter : ∀ other ∈ after, other.index < 2 ^ 16 :=
      fun other mem => range other (List.mem_append_right _ (List.mem_cons_of_mem _ mem))
    have shapeEq := VarShape.shape_stored true (range shape shapeMem)
    have writesEq : (before.map (VarShape.stored false) ++ shape.stored true ::
        after.map (VarShape.stored false)).map VarWrite.shape = before ++ shape :: after := by
      rw [List.map_append, List.map_cons, map_shape_stored false rangeBefore,
        map_shape_stored false rangeAfter, shapeEq]
    rcases keeps _ writesEq with ⟨frame, finished, loads⟩
    have visible : ∀ other ∈ after.map (VarShape.stored false),
        ¬ (shape.stored true).shape.Touches other.shape := by
      intro other mem
      rcases List.mem_map.mp mem with ⟨original, originalMem, rfl⟩
      rw [shapeEq, VarShape.shape_stored false (rangeAfter original originalMem)]
      exact untouched original originalMem
    have value := (loads _ _ _ rfl visible).1
    have index : (shape.stored true).index = shape.index := congrArg VarShape.index shapeEq
    rcases VarShape.shared_of_clashes clash with ⟨slot, ⟨first, last⟩, covered⟩
    have ones : frame.localVars.slots[slot]? = some 1 := by
      have offset : slot - shape.index < shape.kind.width := by omega
      have width : slot - shape.index < (shape.stored true).value.kind.width := by
        rw [VarShape.stored, VarWrite.value, kind_filled]
        exact offset
      have cell := Slots.getElem?_of_getValue_eq_ok value width
      rw [index, Nat.add_sub_cancel' first] at cell
      rw [cell, VarShape.stored, VarWrite.value, words_filled]
      simp [offset]
    have zeros : frame.localVars.slots[slot]? = some 0 := by
      have smallWrites : ∀ write ∈ before.map (VarShape.stored false) ++ shape.stored true ::
          after.map (VarShape.stored false), write.index < 2 ^ 16 := by
        intro write mem
        exact range write.shape (writesEq ▸ List.mem_map_of_mem mem)
      rw [(VarWrite.runAll_eq_ok _ smallWrites finished).2, List.append_cons]
      apply getElem?_of_zeros rangeAfter ?_ laterMem covered
      intro other mem
      exact Nat.le_trans (fits other (List.mem_append_right _ (List.mem_cons_of_mem _ mem)))
        (Nat.le_of_eq (getSize_ofMethod small).symm)
    rw [ones] at zeros
    cases zeros

/-- For every method and every sequence of stores whose indices are in range:
the local variables keep their values, whatever is stored, if and only if no
reference is in the last variable and no store to a neighbour of a reference
hits a variable that is still to be read. -/
theorem keepsVariables_iff_refsApart (small : method.maxLocals < 2 ^ 16)
    (below : ∀ shape ∈ shapes, shape.index + shape.kind.indices ≤ method.maxLocals) :
    (∀ writes : List VarWrite, writes.map VarWrite.shape = shapes →
      KeepsVariables method writes) ↔ RefsApart method.maxLocals shapes := by
  constructor
  · exact refsApart_of_keepsVariables small below
  · intro apart writes shapesEq
    exact keepsVariables_of_refsApart small below apart shapesEq

end Method

/-- Variables of a method with a reference between an `int` and a `long`, and an
index left free behind the reference. -/
def spacedShapes : List VarShape := [⟨0, .int⟩, ⟨1, .ref⟩, ⟨3, .long⟩, ⟨1, .ref⟩]

theorem keepsVariables_iff_refsApart_spacedShapes :
    (∀ shape ∈ spacedShapes, shape.index + shape.kind.indices ≤ 5) ∧
      ∀ writes : List VarWrite, writes.map VarWrite.shape = spacedShapes →
        KeepsVariables { maxLocals := 5 } writes := by
  have below : ∀ shape ∈ spacedShapes, shape.index + shape.kind.indices ≤ 5 := by decide
  have noneClash : ∀ first ∈ spacedShapes, ∀ second ∈ spacedShapes, ¬ first.Clashes second := by
    decide
  refine ⟨below, (keepsVariables_iff_refsApart (by decide) below).mpr ⟨by decide, ?_⟩⟩
  intro before shape after shapesEq _ later mem
  apply noneClash shape _ later
  · rw [shapesEq]
    exact List.mem_append_right _ (List.mem_cons_of_mem _ mem)
  · rw [shapesEq]
    simp

/-- `astore_0` in a method with one local variable aborts, although its index is
in range. -/
theorem astore_last_aborts :
    (∀ shape ∈ [VarShape.mk 0 .ref], shape.index + shape.kind.indices ≤ 1) ∧
      ¬ KeepsVariables { maxLocals := 1 } [(VarShape.mk 0 .ref).stored false] := by
  constructor
  · decide
  · rintro ⟨frame, finished, -⟩
    have fits := (VarWrite.runAll_eq_ok _ (by decide) finished).1 _ List.mem_cons_self
    exact absurd fits (by decide)

end JvmDemo.Instructions
