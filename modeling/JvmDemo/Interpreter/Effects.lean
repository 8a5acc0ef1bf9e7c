import JvmDemo.Instructions.KeptFrames
import JvmDemo.Interpreter.ExceptionHandling
import JvmDemo.Runtime.Initialization

/-!
# The effects of an instruction

What one instruction can do to the frames of the thread and to the stores that
all frames share: static variables, heap, memory and string pool.  The relations
say everything that the invariants of runs need, so that no invariant goes
through the instructions again.
-/

namespace JvmDemo.Interpreter

open JvmDemo.Lib
open JvmDemo.Runtime
open JvmDemo.Instructions

/-! ## Frames -/

/-- The number of frames that lie inside the stack of the thread.  Its check lets one
more through. -/
def maxFrames : Nat := 12

/-- The frame has the exception on top of its operand stack, and below it `stack`. -/
structure Throws (machine : Machine) (vm : Vm) (frame : Frame) (ex : DWord)
    (exClass : Option ClassId) (stack : OperandStack) : Prop where
  popped : frame.operandStack.popRef = .ok (ex, stack)
  notNull : ex ≠ 0
  classed : machine.classOf vm ex = .ok exClass

/-- The frames behind an instruction that was executed on `frame`. -/
inductive Moves (machine : Machine) (vm : Vm) (frame : Frame) (rest : List Frame) :
    List Frame → Prop where
  /-- The instruction works on its frame, or only pushes fresh ones. -/
  | settles {fresh : List Frame} {top : Frame} (keeps : frame.Keeps top)
      (wellFormed : ∀ other ∈ fresh, other.WellFormed)
      (fits : fresh = [] ∨ (fresh ++ top :: rest).length ≤ maxFrames) :
      Moves machine vm frame rest (fresh ++ top :: rest)
  | returns : Moves machine vm frame rest rest
  | returnsValue {kind : Kind} {left stack : OperandStack} {invoker : Frame} {below : List Frame}
      {value : Value} (popped : frame.operandStack.pop kind = .ok (value, left))
      (waiting : rest = invoker :: below) (pushed : invoker.operandStack.push value = .ok stack) :
      Moves machine vm frame rest (invoker.setStack stack :: below)
  /-- The exception lies alone on the stack of the innermost frame with a matching
  entry, which goes on at the handler of the first one. -/
  | throws {ex : DWord} {exClass : Option ClassId} {stack : OperandStack} {handler : Frame}
      {passed below : List Frame} {entry : ExceptionHandler}
      (thrown : Throws machine vm frame ex exClass stack)
      (split : frame.setStack stack :: rest = passed ++ handler :: below)
      (unhandled : ∀ other ∈ passed, Passed machine exClass other)
      (handled : HandledBy machine exClass handler entry)
      (room : 2 ≤ handler.operandStack.slots.getSize) :
      Moves machine vm frame rest (enterHandler ex handler entry.handlerPc :: below)
  | uncaught {ex : DWord} {exClass : Option ClassId} {stack : OperandStack}
      (thrown : Throws machine vm frame ex exClass stack)
      (unhandled : ∀ other ∈ frame.setStack stack :: rest, Passed machine exClass other) :
      Moves machine vm frame rest []

/-- The class of an exception is read from the memory alone. -/
theorem Throws.of_memory {machine : Machine} {vm other : Vm} {frame : Frame} {ex : DWord}
    {exClass : Option ClassId} {stack : OperandStack}
    (thrown : Throws machine vm frame ex exClass stack) (same : other.memory = vm.memory) :
    Throws machine other frame ex exClass stack where
  popped := thrown.popped
  notNull := thrown.notNull
  classed := by
    rw [← thrown.classed, Machine.classOf, Machine.classOf, same]

theorem Moves.of_memory {machine : Machine} {vm other : Vm} {frame : Frame}
    {rest after : List Frame} (moves : Moves machine vm frame rest after)
    (same : other.memory = vm.memory) : Moves machine other frame rest after := by
  cases moves with
  | settles keeps wellFormed fits => exact .settles keeps wellFormed fits
  | returns => exact .returns
  | returnsValue popped waiting pushed => exact .returnsValue popped waiting pushed
  | throws thrown split unhandled handled room =>
      exact .throws (thrown.of_memory same) split unhandled handled room
  | uncaught thrown unhandled => exact .uncaught (thrown.of_memory same) unhandled

/-! ## Stores -/

/-- What all frames share. -/
structure Stores where
  staticVars : ClassId → Option Slots
  heap : Heap
  memory : Memory
  newCount : Nat
  stringPool : List (Str × DWord)

end JvmDemo.Interpreter

namespace JvmDemo.Runtime.Vm

open JvmDemo.Interpreter

def stores (vm : Vm) : Stores where
  staticVars := vm.staticVars
  heap := vm.heap
  memory := vm.memory
  newCount := vm.newCount
  stringPool := vm.stringPool

@[simp]
theorem setFrames_stores (vm : Vm) (frames : List Frame) :
    (vm.setFrames frames).stores = vm.stores := rfl

@[simp]
theorem setPc_stores (vm : Vm) (pc : BitVec 32) : (vm.setPc pc).stores = vm.stores := rfl

@[simp]
theorem startClinit_stores (vm : Vm) (klass : ClassId) :
    (vm.startClinit klass).stores = vm.stores := rfl

end JvmDemo.Runtime.Vm

namespace JvmDemo.Interpreter

open JvmDemo.Lib
open JvmDemo.Runtime
open JvmDemo.Instructions

/-- The stores behind an instruction.  Allocations and writes of static variables
are behind an assert on the constant that they refer to. -/
inductive Touches (machine : Machine) (stores : Stores) : Stores → Prop where
  | nothing : Touches machine stores stores
  /-- `NEW`. -/
  | allocates (klass : ClassId) (unchecked : machine.asserts = false) :
      Touches machine stores
        { stores with
          heap := (stores.heap.allocObject stores.memory (machine.classAddress klass)
            (machine.table.info klass).objectSize).2.1
          memory := (stores.heap.allocObject stores.memory (machine.classAddress klass)
            (machine.table.info klass).objectSize).2.2 }
  /-- The instructions that make arrays. -/
  | makesArray :
      Touches machine stores
        { stores with
          newCount := stores.newCount + 1
          memory := stores.memory.write64
            ((machine.newAddress stores.newCount).toNat + Object.klassOffset) 0 }
  /-- `PUT_FIELD`. -/
  | writesField (object : DWord) (slotId : BitVec 32) (value : Value) :
      Touches machine stores
        { stores with memory := DataObject.setField stores.memory object slotId value }
  /-- `PUT_STATIC`. -/
  | writesStatic {klass : ClassId} {slots written : Slots} {index : Nat} {value : Value}
      (unchecked : machine.asserts = false) (found : stores.staticVars klass = some slots)
      (stored : slots.setValue index value = .ok written) :
      Touches machine stores
        { stores with
          staticVars := fun id => if id = klass then some written else stores.staticVars id }
  /-- `Intern`, which takes every string for the same one. -/
  | interns (string : DWord) (missing : stores.stringPool.lookup (str "hello") = none) :
      Touches machine stores
        { stores with stringPool := (str "hello", string) :: stores.stringPool }

/-! ## Instructions -/

/-- What an instruction does that was executed on `frame`. -/
structure Performs (machine : Machine) (vm : Vm) (frame : Frame) (rest : List Frame) (next : Vm) :
    Prop where
  frames : Moves machine vm frame rest next.thread.frames
  stores : Touches machine vm.stores next.stores

variable {machine : Machine} {vm other next : Vm} {frame top : Frame} {rest : List Frame}

/-- Only the current frame is changed. -/
theorem moves_top (keeps : frame.Keeps top) : Moves machine vm frame rest (top :: rest) :=
  @Moves.settles machine vm frame rest [] top keeps (by simp) (.inl rfl)

theorem performs_setFrames (keeps : frame.Keeps top)
    (touches : Touches machine vm.stores other.stores) :
    Performs machine vm frame rest (other.setFrames (top :: rest)) where
  frames := moves_top keeps
  stores := touches

theorem performs_self (current : vm.thread.frames = frame :: rest) :
    Performs machine vm frame rest vm where
  frames := by
    rw [current]
    exact moves_top (.refl frame)
  stores := .nothing

theorem performs_pushValue {value : Value} (done : pushValue other top rest value = .ok next)
    (keeps : frame.Keeps top) (touches : Touches machine vm.stores other.stores) :
    Performs machine vm frame rest next := by
  rcases Exec.bind_eq_ok.mp done with ⟨stack, pushed, same⟩
  cases same
  exact performs_setFrames (keeps.trans (Frame.keeps_setStack (OperandStack.evolves_push pushed)))
    touches

/-- A value is popped and another one pushed. -/
theorem keeps_popped {α : Type} {pop : OperandStack → Exec (α × OperandStack)} {value : α}
    {stack : OperandStack} (lowers : OperandStack.Lowers pop)
    (popped : pop frame.operandStack = .ok (value, stack)) : frame.Keeps (frame.setStack stack) :=
  Frame.keeps_setStack (lowers popped)

/-! ## Invocations -/

theorem lt_maxFrames_of_createFrame {thread created : Thread} {method : Method}
    (done : thread.createFrame method = .ok created) : thread.frames.length < maxFrames := by
  have inside := (Thread.hasRoom_of_createFrame done).2
  rw [Thread.oversteps, decide_eq_false_iff_not, Frame.size, Thread.maxSize] at inside
  rw [maxFrames]
  omega

theorem evolves_copyArgs {count : Nat} {stack left : OperandStack} {vars written : Slots}
    (copied : copyArgs count stack vars = .ok (left, written)) :
    stack.Evolves left ∧ written.getSize = vars.getSize := by
  induction count generalizing stack vars with
  | zero =>
      cases copied
      exact ⟨.refl _, rfl⟩
  | succ count ih =>
      rcases Exec.bind_eq_ok.mp copied with ⟨⟨slot, middle⟩, popped, stored⟩
      rcases Exec.bind_eq_ok.mp stored with ⟨middleVars, set, rest⟩
      rcases ih rest with ⟨evolves, size⟩
      refine ⟨(OperandStack.lowers_popSlot popped).trans evolves, size.trans ?_⟩
      have inside := Slots.setOne_eq_ok set
      cases (Slots.setOne_of_lt _ inside slot).symm.trans set
      exact Slots.getSize_blit _ _

theorem performs_invokeMethod {method : Method} (keeps : frame.Keeps top)
    (done : invokeMethod vm top rest method = .ok next) : Performs machine vm frame rest next := by
  rcases Exec.bind_eq_ok.mp done with ⟨thread, created, copied⟩
  rcases Exec.bind_eq_ok.mp copied with ⟨⟨left, vars⟩, copyEq, same⟩
  cases same
  have deep := lt_maxFrames_of_createFrame created
  rcases evolves_copyArgs copyEq with ⟨evolves, size⟩
  have callee : ((Frame.ofMethod method).setVars vars).WellFormed :=
    (Frame.wellFormed_ofMethod method).keeps (Frame.keeps_setVars size)
  constructor
  · exact @Moves.settles machine vm frame rest [(Frame.ofMethod method).setVars vars]
      (top.setStack left) (keeps.trans (Frame.keeps_setStack evolves)) (by simpa using callee) (.inr deep)
  · exact .nothing

theorem performs_invokeConcrete {target : Option Method}
    (done : invokeConcrete vm frame rest target = .ok next) :
    Performs machine vm frame rest next := by
  cases target with
  | none => cases done
  | some method =>
      simp only [invokeConcrete] at done
      split at done
      · cases done
      · exact performs_invokeMethod (.refl frame) done

theorem performs_hackPrintln {method : Method}
    (done : hackPrintln vm frame rest method = .ok next) : Performs machine vm frame rest next := by
  simp only [hackPrintln] at done
  split at done
  · cases done
  · next kind _ =>
      rcases Exec.bind_eq_ok.mp done with ⟨⟨value, stack⟩, popped, rest⟩
      have first := keeps_popped (OperandStack.lowers_pop kind) popped
      dsimp only at rest
      split at rest
      · cases rest
      · split at rest
        · cases rest
          exact performs_setFrames first .nothing
        · rcases Exec.bind_eq_ok.mp rest with ⟨⟨ref, below⟩, refPopped, same⟩
          cases same
          exact performs_setFrames
            (first.trans (@keeps_popped (frame.setStack stack) _ _ _ _ OperandStack.lowers_popRef
              refPopped)) .nothing

theorem performs_executeInvokeSpecial {index : BitVec 32}
    (done : executeInvokeSpecial machine index vm frame rest = .ok next) :
    Performs machine vm frame rest next := by
  rcases Exec.bind_eq_ok.mp done with ⟨⟨className, name, descriptor⟩, _, named⟩
  rcases Exec.bind_eq_ok.mp named with ⟨method, _, resolved⟩
  rcases Exec.bind_eq_ok.mp resolved with ⟨klass, _, checked⟩
  split at checked
  · cases checked
  · split at checked
    · cases checked
    · rcases Exec.bind_eq_ok.mp checked with ⟨ref, _, received⟩
      rcases Exec.bind_eq_ok.mp received with ⟨_, _, accessible⟩
      split at accessible
      · split at accessible
        · cases accessible
        · exact performs_invokeConcrete accessible
      · exact performs_invokeConcrete accessible

theorem performs_executeInvokeVirtual {index : BitVec 32}
    (done : executeInvokeVirtual machine index vm frame rest = .ok next) :
    Performs machine vm frame rest next := by
  rcases Exec.bind_eq_ok.mp done with ⟨⟨className, name, descriptor⟩, _, named⟩
  rcases Exec.bind_eq_ok.mp named with ⟨method, _, resolved⟩
  split at resolved
  · cases resolved
  · split at resolved
    · exact performs_hackPrintln resolved
    · rcases Exec.bind_eq_ok.mp resolved with ⟨ref, _, received⟩
      rcases Exec.bind_eq_ok.mp received with ⟨_, _, accessible⟩
      rcases Exec.bind_eq_ok.mp accessible with ⟨own, _, found⟩
      exact performs_invokeConcrete found

theorem performs_executeInvokeInterface {index : BitVec 32}
    (done : executeInvokeInterface machine index vm frame rest = .ok next) :
    Performs machine vm frame rest next := by
  unfold executeInvokeInterface at done
  split at done
  · rcases Exec.bind_eq_ok.mp done with ⟨method, _, resolved⟩
    split at resolved
    · cases resolved
    · rcases Exec.bind_eq_ok.mp resolved with ⟨ref, _, received⟩
      rcases Exec.bind_eq_ok.mp received with ⟨own, _, known⟩
      rcases Exec.bind_eq_ok.mp known with ⟨interface, _, implemented⟩
      split at implemented
      · cases implemented
      · split at implemented
        · cases implemented
        · split at implemented
          · cases implemented
          · split at implemented
            · cases implemented
            · exact performs_invokeMethod (.refl frame) implemented
  · cases done

/-! ## Returns and exceptions -/

theorem performs_executeReturn {kind : Option Kind}
    (done : executeReturn kind vm frame rest = .ok next) : Performs machine vm frame rest next := by
  cases kind with
  | none =>
      cases done
      exact ⟨.returns, .nothing⟩
  | some kind =>
      rcases Exec.bind_eq_ok.mp done with ⟨⟨value, stack⟩, popped, handed⟩
      cases rest with
      | nil => cases handed
      | cons invoker below =>
          rcases Exec.bind_eq_ok.mp handed with ⟨pushed, pushEq, same⟩
          cases same
          exact ⟨.returnsValue popped rfl pushEq, .nothing⟩

theorem performs_executeAthrow (done : executeAthrow machine vm frame rest = .ok next) :
    Performs machine vm frame rest next := by
  rcases Exec.bind_eq_ok.mp done with ⟨⟨ex, stack⟩, popped, thrown⟩
  dsimp only at thrown
  split at thrown
  · cases thrown
  · next notNull =>
      rcases Exec.bind_eq_ok.mp thrown with ⟨exClass, classed, known⟩
      rcases Exec.bind_eq_ok.mp known with ⟨left, unwound, handled⟩
      have throws : Throws machine vm frame ex exClass stack := ⟨popped, notNull, classed⟩
      rcases findAndGotoExceptionHandler_eq_ok unwound with
        ⟨unhandled, rfl⟩ | ⟨passed, handler, below, entry, split, unhandled, matching, -, room, rfl⟩
      · rcases Exec.bind_eq_ok.mp handled with ⟨_, _, same⟩
        cases same
        exact ⟨.uncaught throws unhandled, .nothing⟩
      · cases handled
        exact ⟨.throws throws split unhandled matching room, .nothing⟩

/-! ## Arrays and fields -/

theorem performs_pushNewArray {arrayClass : ClassId} (keeps : frame.Keeps top)
    (stores : other.stores = vm.stores)
    (done : pushNewArray machine other top rest arrayClass = .ok next) :
    Performs machine vm frame rest next := by
  rcases Exec.bind_eq_ok.mp done with ⟨⟨arr, made⟩, created, pushed⟩
  unfold newArray at created
  split at created
  · cases created
  · cases created
    apply performs_pushValue pushed keeps
    have makes : Touches machine other.stores (other.newObject machine).2.stores := .makesArray
    rw [← stores]
    exact makes

theorem performs_executeNewArray {arrayType : BitVec 8}
    (done : executeNewArray machine arrayType vm frame rest = .ok next) :
    Performs machine vm frame rest next := by
  rcases Exec.bind_eq_ok.mp done with ⟨⟨count, stack⟩, popped, counted⟩
  dsimp only at counted
  split at counted
  · cases counted
  · rcases Exec.bind_eq_ok.mp counted with ⟨arrayClass, _, made⟩
    exact performs_pushNewArray (keeps_popped OperandStack.lowers_popInt popped) rfl made

theorem performs_executeAnewArray {index : BitVec 32}
    (done : executeAnewArray machine index vm frame rest = .ok next) :
    Performs machine vm frame rest next := by
  rcases Exec.bind_eq_ok.mp done with ⟨klass, _, resolved⟩
  rcases Exec.bind_eq_ok.mp resolved with ⟨⟨count, stack⟩, popped, counted⟩
  dsimp only at counted
  split at counted
  · cases counted
  · rcases Exec.bind_eq_ok.mp counted with ⟨arrayClass, _, made⟩
    exact performs_pushNewArray (keeps_popped OperandStack.lowers_popInt popped) rfl made

theorem evolves_popCounts {dimensions : Nat} {counts result : List Word}
    {stack left : OperandStack} (popped : popCounts dimensions counts stack = .ok (result, left)) :
    stack.Evolves left := by
  induction dimensions generalizing counts stack with
  | zero =>
      cases popped
      exact .refl _
  | succ dimensions ih =>
      rcases Exec.bind_eq_ok.mp popped with ⟨⟨count, middle⟩, first, rest⟩
      dsimp only at rest
      split at rest
      · cases rest
      · exact (OperandStack.lowers_popInt first).trans (ih rest)

theorem performs_executeMultiAnewArray {index : BitVec 16} {dimensions : BitVec 8}
    (done : executeMultiAnewArray machine index dimensions vm frame rest = .ok next) :
    Performs machine vm frame rest next := by
  rcases Exec.bind_eq_ok.mp done with ⟨klass, _, resolved⟩
  rcases Exec.bind_eq_ok.mp resolved with ⟨⟨counts, stack⟩, popped, counted⟩
  rcases Exec.bind_eq_ok.mp counted with ⟨_, _, made⟩
  exact performs_pushNewArray (Frame.keeps_setStack (evolves_popCounts popped)) rfl made

theorem performs_executeGetField {index : BitVec 32}
    (done : executeGetField machine index vm frame rest = .ok next) :
    Performs machine vm frame rest next := by
  rcases Exec.bind_eq_ok.mp done with ⟨field, _, resolved⟩
  split at resolved
  · cases resolved
  · rcases Exec.bind_eq_ok.mp resolved with ⟨⟨ref, stack⟩, popped, read⟩
    have keeps := keeps_popped OperandStack.lowers_popRef popped
    dsimp only at read
    split at read
    · cases read
    · split at read
      · cases read
        exact performs_setFrames keeps .nothing
      · exact performs_pushValue read keeps .nothing

theorem performs_executePutField {index : BitVec 32} (current : vm.thread.frames = frame :: rest)
    (done : executePutField machine index vm frame rest = .ok next) :
    Performs machine vm frame rest next := by
  rcases Exec.bind_eq_ok.mp done with ⟨field, _, resolved⟩
  split at resolved
  · cases resolved
  · split at resolved
    · cases resolved
    · split at resolved
      · cases resolved
        exact performs_self current
      · next kind _ =>
          rcases Exec.bind_eq_ok.mp resolved with ⟨⟨value, stack⟩, popped, owner⟩
          rcases Exec.bind_eq_ok.mp owner with ⟨⟨ref, below⟩, refPopped, written⟩
          have keeps := (keeps_popped (OperandStack.lowers_pop kind) popped).trans
            (@keeps_popped (frame.setStack stack) _ _ _ _ OperandStack.lowers_popRef refPopped)
          dsimp only at written
          split at written
          · cases written
          · cases written
            exact ⟨moves_top keeps, .writesField ref field.slotId value⟩

/-! ## Type tests and constants -/

theorem performs_executeInstanceOf {index : BitVec 32}
    (done : executeInstanceOf machine index vm frame rest = .ok next) :
    Performs machine vm frame rest next := by
  rcases Exec.bind_eq_ok.mp done with ⟨klass, _, resolved⟩
  rcases Exec.bind_eq_ok.mp resolved with ⟨⟨ref, stack⟩, popped, tested⟩
  have keeps := keeps_popped OperandStack.lowers_popRef popped
  dsimp only at tested
  split at tested
  · exact performs_pushValue tested keeps .nothing
  · rcases Exec.bind_eq_ok.mp tested with ⟨result, _, pushed⟩
    exact performs_pushValue pushed keeps .nothing

theorem performs_executeCheckCast {index : BitVec 32}
    (done : executeCheckCast machine index vm frame rest = .ok next) :
    Performs machine vm frame rest next := by
  rcases Exec.bind_eq_ok.mp done with ⟨klass, _, resolved⟩
  rcases Exec.bind_eq_ok.mp resolved with ⟨⟨ref, stack⟩, popped, tested⟩
  have keeps := keeps_popped OperandStack.lowers_popRef popped
  dsimp only at tested
  split at tested
  · exact performs_pushValue tested keeps .nothing
  · rcases Exec.bind_eq_ok.mp tested with ⟨passes, _, pushed⟩
    split at pushed
    · exact performs_pushValue pushed keeps .nothing
    · cases pushed

theorem performs_loadConstant {index : BitVec 32}
    (done : loadConstant machine index vm frame rest = .ok next) :
    Performs machine vm frame rest next := by
  unfold loadConstant at done
  split at done
  · cases done
  · exact performs_pushValue done (.refl frame) .nothing
  · exact performs_pushValue done (.refl frame) .nothing
  · rcases Exec.bind_eq_ok.mp done with ⟨object, _, pushed⟩
    exact performs_pushValue pushed (.refl frame) .nothing
  · rcases Exec.bind_eq_ok.mp done with ⟨klass, _, pushed⟩
    exact performs_pushValue pushed (.refl frame) .nothing
  · cases done

theorem performs_executeLdc2W {index : BitVec 32}
    (done : executeLdc2W machine index vm frame rest = .ok next) :
    Performs machine vm frame rest next := by
  unfold executeLdc2W at done
  split at done
  · cases done
  · exact performs_pushValue done (.refl frame) .nothing
  · exact performs_pushValue done (.refl frame) .nothing
  · cases done

/-! ## Native methods -/

theorem performs_initializeVm (done : initializeVm machine vm frame rest = .ok next) :
    Performs machine vm frame rest next := by
  rcases Exec.bind_eq_ok.mp done with ⟨vmClass, _, loaded⟩
  rcases Exec.bind_eq_ok.mp loaded with ⟨field, _, found⟩
  rcases Exec.bind_eq_ok.mp found with ⟨propClass, _, both⟩
  split at both
  · cases both
  · rcases Exec.bind_eq_ok.mp both with ⟨savedProps, _, read⟩
    rcases Exec.bind_eq_ok.mp read with ⟨key, _, keyed⟩
    rcases Exec.bind_eq_ok.mp keyed with ⟨val, _, valued⟩
    rcases Exec.bind_eq_ok.mp valued with ⟨first, pushedProps, rest1⟩
    rcases Exec.bind_eq_ok.mp rest1 with ⟨second, pushedKey, rest2⟩
    rcases Exec.bind_eq_ok.mp rest2 with ⟨third, pushedVal, invoked⟩
    have evolves := ((OperandStack.raises_pushRef pushedProps).trans
      (OperandStack.raises_pushRef pushedKey)).trans (OperandStack.raises_pushRef pushedVal)
    split at invoked
    · cases invoked
    · exact performs_invokeMethod (Frame.keeps_setStack evolves) invoked

theorem performs_run {native : Native} (current : vm.thread.frames = frame :: rest)
    (done : native.run machine vm frame rest = .ok next) : Performs machine vm frame rest next := by
  have same := Frame.Keeps.refl frame
  cases native with
  | getClass =>
      rcases Exec.bind_eq_ok.mp done with ⟨this, _, read⟩
      split at read
      · cases read
      · exact performs_pushValue read same .nothing
  | hashCode =>
      rcases Exec.bind_eq_ok.mp done with ⟨this, _, read⟩
      exact performs_pushValue read same .nothing
  | clone =>
      rcases Exec.bind_eq_ok.mp done with ⟨this, _, read⟩
      rcases Exec.bind_eq_ok.mp read with ⟨own, _, known⟩
      rcases Exec.bind_eq_ok.mp known with ⟨cloneable, _, loaded⟩
      split at loaded
      · cases loaded
        exact performs_self current
      · exact performs_pushValue loaded same .nothing
  | getPrimitiveClass =>
      rcases Exec.bind_eq_ok.mp done with ⟨name, _, read⟩
      rcases Exec.bind_eq_ok.mp read with ⟨klass, _, loaded⟩
      exact performs_pushValue loaded same .nothing
  | getName0 =>
      cases done
      exact performs_self current
  | desiredAssertionStatus0 => exact performs_pushValue done same .nothing
  | arrayCopy =>
      rcases Exec.bind_eq_ok.mp done with ⟨src, _, readSrc⟩
      rcases Exec.bind_eq_ok.mp readSrc with ⟨_, _, readSrcPos⟩
      rcases Exec.bind_eq_ok.mp readSrcPos with ⟨dest, _, readDest⟩
      rcases Exec.bind_eq_ok.mp readDest with ⟨_, _, readDestPos⟩
      rcases Exec.bind_eq_ok.mp readDestPos with ⟨_, _, readLength⟩
      split at readLength
      · cases readLength
      · rcases Exec.bind_eq_ok.mp readLength with ⟨compatible, _, checked⟩
        split at checked
        · cases checked
          exact performs_self current
        · cases checked
  | doubleToRawLongBits =>
      rcases Exec.bind_eq_ok.mp done with ⟨value, _, read⟩
      exact performs_pushValue read same .nothing
  | longBitsToDouble =>
      rcases Exec.bind_eq_ok.mp done with ⟨bits, _, read⟩
      exact performs_pushValue read same .nothing
  | floatToRawIntBits =>
      rcases Exec.bind_eq_ok.mp done with ⟨value, _, read⟩
      exact performs_pushValue read same .nothing
  | intern =>
      rcases Exec.bind_eq_ok.mp done with ⟨this, _, read⟩
      dsimp only at read
      split at read
      · exact performs_pushValue read same .nothing
      · next missing => exact performs_pushValue read same (.interns this missing)
  | vmInitialize => exact performs_initializeVm done
  | fillInStackTrace =>
      rcases Exec.bind_eq_ok.mp done with ⟨this, _, read⟩
      rcases Exec.bind_eq_ok.mp read with ⟨pushed, pushEq, known⟩
      rcases Exec.bind_eq_ok.mp known with ⟨_, _, whole⟩
      cases whole
      exact performs_pushValue pushEq same .nothing
  | empty =>
      cases done
      exact performs_self current

theorem performs_executeInvokeNative (current : vm.thread.frames = frame :: rest)
    (done : executeInvokeNative machine vm frame rest = .ok next) :
    Performs machine vm frame rest next := by
  unfold executeInvokeNative at done
  dsimp only at done
  split at done
  · cases done
  · exact performs_run current done

/-! ## Instructions that initialise classes -/

theorem stores_of_initClassFrom {fuel : Nat} {klass : ClassId}
    (returned : machine.initClassFrom fuel klass vm = .ok next) : next.stores = vm.stores := by
  induction fuel generalizing klass vm with
  | zero => cases returned
  | succ fuel ih =>
      rcases Exec.bind_eq_ok.mp returned with ⟨marked, scheduled, continued⟩
      obtain rfl : marked = Machine.markAndPush machine klass vm :=
        Machine.scheduleClinit_eq_ok scheduled
      have kept : (Machine.markAndPush machine klass vm).stores = vm.stores := rfl
      split at continued
      · cases continued
        exact kept
      · split at continued
        · cases continued
          exact kept
        · split at continued
          · cases continued
            exact kept
          · exact (ih continued).trans kept

/-- If `InitClass` pushes anything, the last frame was checked to fit. -/
theorem length_of_initClassFrom {fuel : Nat} {klass : ClassId}
    (returned : machine.initClassFrom fuel klass vm = .ok next) :
    next.thread.frames = vm.thread.frames ∨ next.thread.frames.length ≤ maxFrames := by
  induction fuel generalizing klass vm with
  | zero => cases returned
  | succ fuel ih =>
      rcases Exec.bind_eq_ok.mp returned with ⟨marked, scheduled, continued⟩
      have here : marked.thread.frames = vm.thread.frames ∨
          marked.thread.frames.length ≤ maxFrames := by
        unfold Machine.scheduleClinit at scheduled
        split at scheduled
        · split at scheduled
          · rcases Exec.bind_eq_ok.mp scheduled with ⟨thread, created, same⟩
            cases same
            right
            rw [Thread.createFrame_eq_ok created]
            exact lt_maxFrames_of_createFrame created
          · cases scheduled
            exact .inl rfl
        · cases scheduled
          exact .inl rfl
      split at continued
      · cases continued
        exact here
      · split at continued
        · cases continued
          exact here
        · split at continued
          · cases continued
            exact here
          · rcases ih continued with same | short
            · rw [same]
              exact here
            · exact .inr short

theorem wellFormed_of_mem_initializerFrames {table : ClassTable} {classes : List ClassId}
    (mem : frame ∈ table.initializerFrames classes) : frame.WellFormed := by
  rcases List.mem_map.mp mem with ⟨method, -, rfl⟩
  exact Frame.wellFormed_ofMethod method

theorem performs_triggerInit {klass : ClassId}
    (done : triggerInit machine vm frame rest klass = .ok next) :
    Performs machine vm frame rest next := by
  rcases Machine.frames_of_initClassFrom done with ⟨classes, -, frames⟩
  constructor
  · rw [frames]
    apply Moves.settles (Frame.keeps_setNextPc frame _)
    · intro fresh mem
      exact wellFormed_of_mem_initializerFrames (List.mem_reverse.mp mem)
    · rcases length_of_initClassFrom done with same | short
      · left
        rw [frames] at same
        exact List.append_left_eq_self.mp same
      · right
        rw [frames] at short
        exact short
  · rw [stores_of_initClassFrom done]
    exact .nothing

/-- What the assert of the source lets pass. -/
theorem unchecked_of_assertNull (passed : assertNull machine true = .ok ()) :
    machine.asserts = false := by
  unfold assertNull at passed
  cases asserts : machine.asserts with
  | false => rfl
  | true =>
      rw [asserts] at passed
      cases passed

theorem unchecked_of_resolveClassAt {index : Nat} {klass : ClassId}
    (resolved : resolveClassAt machine true frame index = .ok klass) : machine.asserts = false := by
  unfold resolveClassAt at resolved
  split at resolved
  · rcases Exec.bind_eq_ok.mp resolved with ⟨_, passed, -⟩
    exact unchecked_of_assertNull passed
  · cases resolved

theorem unchecked_of_resolveFieldAt {index : Nat} {field : Field}
    (resolved : resolveFieldAt machine true frame index = .ok field) : machine.asserts = false := by
  unfold resolveFieldAt at resolved
  split at resolved
  · rcases Exec.bind_eq_ok.mp resolved with ⟨_, passed, -⟩
    exact unchecked_of_assertNull passed
  · cases resolved

theorem performs_executeNew {index : BitVec 32}
    (done : executeNew machine index vm frame rest = .ok next) :
    Performs machine vm frame rest next := by
  rcases Exec.bind_eq_ok.mp done with ⟨klass, resolved, guarded⟩
  have unchecked := unchecked_of_resolveClassAt resolved
  split at guarded
  · exact performs_triggerInit guarded
  · dsimp only at guarded
    split at guarded
    · cases guarded
    · exact performs_pushValue guarded (.refl frame) (.allocates klass unchecked)

theorem performs_executeGetStatic {index : BitVec 32} (current : vm.thread.frames = frame :: rest)
    (done : executeGetStatic machine index vm frame rest = .ok next) :
    Performs machine vm frame rest next := by
  rcases Exec.bind_eq_ok.mp done with ⟨field, -, guarded⟩
  split at guarded
  · exact performs_triggerInit guarded
  · split at guarded
    · cases guarded
    · split at guarded
      · cases guarded
        exact performs_self current
      · split at guarded
        · cases guarded
        · rcases Exec.bind_eq_ok.mp guarded with ⟨value, _, pushed⟩
          exact performs_pushValue pushed (.refl frame) .nothing

theorem performs_executePutStatic {index : BitVec 32} (current : vm.thread.frames = frame :: rest)
    (done : executePutStatic machine index vm frame rest = .ok next) :
    Performs machine vm frame rest next := by
  rcases Exec.bind_eq_ok.mp done with ⟨field, resolved, guarded⟩
  have unchecked := unchecked_of_resolveFieldAt resolved
  split at guarded
  · exact performs_triggerInit guarded
  · split at guarded
    · cases guarded
    · split at guarded
      · cases guarded
      · split at guarded
        · cases guarded
          exact performs_self current
        · next kind _ =>
            rcases Exec.bind_eq_ok.mp guarded with ⟨⟨value, stack⟩, popped, written⟩
            have keeps := keeps_popped (OperandStack.lowers_pop kind) popped
            dsimp only at written
            split at written
            · cases written
            · next slots found =>
                rcases Exec.bind_eq_ok.mp written with ⟨after, stored, same⟩
                cases same
                exact ⟨moves_top keeps, .writesStatic unchecked found stored⟩

theorem performs_executeInvokeStatic {index : BitVec 32}
    (done : executeInvokeStatic machine index vm frame rest = .ok next) :
    Performs machine vm frame rest next := by
  rcases Exec.bind_eq_ok.mp done with ⟨⟨className, name, descriptor⟩, _, found⟩
  rcases Exec.bind_eq_ok.mp found with ⟨method, _, guarded⟩
  split at guarded
  · cases guarded
  · split at guarded
    · exact performs_triggerInit guarded
    · split at guarded
      · exact performs_hackPrintln guarded
      · exact performs_invokeMethod (.refl frame) guarded

/-! ## All instructions -/

theorem performs_execute {inst : Instruction} (current : vm.thread.frames = frame :: rest)
    (done : inst.execute machine vm frame rest = .ok next) :
    Performs machine vm frame rest next := by
  cases inst with
  | frame inst =>
      rcases Exec.bind_eq_ok.mp done with ⟨top, executed, same⟩
      cases same
      exact performs_setFrames (FrameInst.keeps_execute executed) .nothing
  | ldc index => exact performs_loadConstant done
  | ldcW index => exact performs_loadConstant done
  | ldc2W index => exact performs_executeLdc2W done
  | return_ kind => exact performs_executeReturn done
  | getStatic index => exact performs_executeGetStatic current done
  | putStatic index => exact performs_executePutStatic current done
  | getField index => exact performs_executeGetField done
  | putField index => exact performs_executePutField current done
  | invokeVirtual index => exact performs_executeInvokeVirtual done
  | invokeSpecial index => exact performs_executeInvokeSpecial done
  | invokeStatic index => exact performs_executeInvokeStatic done
  | invokeInterface index => exact performs_executeInvokeInterface done
  | invokeNative => exact performs_executeInvokeNative current done
  | new_ index => exact performs_executeNew done
  | newArray arrayType => exact performs_executeNewArray done
  | anewArray index => exact performs_executeAnewArray done
  | athrow => exact performs_executeAthrow done
  | checkCast index => exact performs_executeCheckCast done
  | instanceOf index => exact performs_executeInstanceOf done
  | multiAnewArray index dimensions => exact performs_executeMultiAnewArray done

/-- An iteration executes an instruction on the current frame, whose counter is
already at the next one. -/
theorem performs_iteration (done : iteration machine vm = .ok next) :
    ∃ frame rest nextPc, vm.thread.frames = frame :: rest ∧
      Performs machine vm (frame.setNextPc nextPc) rest next := by
  unfold iteration withFrame at done
  split at done
  · next frame rest frames =>
      rcases Exec.bind_eq_ok.mp done with ⟨code, codeEq, fetching⟩
      rcases Exec.bind_eq_ok.mp fetching with ⟨⟨inst, nextPc⟩, fetched, executed⟩
      have performs := performs_execute rfl executed
      refine ⟨frame, rest, nextPc, frames, ?_, performs.stores⟩
      exact performs.frames.of_memory rfl
  · cases done

end JvmDemo.Interpreter
