import JvmDemo.Interpreter.Loop

/-!
# What an iteration can do to the frames

An instruction either triggers the initialisation of a class, or it leaves the
marks of the classes alone and changes the frames in one of three ways: it
empties the stack, it keeps some of the frames below and replaces the frame on
top of them, or it pushes a frame on its own.  Everything that is proved about
runs goes through this case analysis.
-/

namespace JvmDemo.Interpreter

open JvmDemo.Lib
open JvmDemo.Runtime
open JvmDemo.Instructions

variable (machine : Machine)

/-! ## Triggers -/

/-- The class that an instruction refers to statically: the class of a `new`,
or the one that declares the field or the method. -/
def initTarget (frame : Frame) : Instruction → Option ClassId
  | .new_ index => (resolveClassAt machine true frame index.toNat).toOption
  | .getStatic index =>
      (resolveFieldAt machine true frame index.toNat).toOption.map fun field => field.klass
  | .putStatic index =>
      (resolveFieldAt machine true frame index.toNat).toOption.map fun field => field.klass
  | .invokeStatic index => do
      let (className, name, descriptor) ← (methodRefAt machine frame index.toNat).toOption
      let method ←
        (machine.table.resolveMethod frame.method.klass className name descriptor).toOption
      if method.isStatic then some method.klass else none
  | _ => none

/-- The class whose initialisation an instruction triggers. -/
def triggerOf (vm : Vm) (frame : Frame) (inst : Instruction) : Option ClassId :=
  (initTarget machine frame inst).filter fun klass => !vm.clinitStarted klass

/-! ## Instructions that trigger nothing -/

/-- The frames that an instruction leaves which was executed on `frame`. -/
inductive Outcome (frame : Frame) (rest : List Frame) : List Frame → Prop
  | empties : Outcome frame rest []
  | settles {top : Frame} {below : List Frame} (kept : below <:+ rest) :
      Outcome frame rest (top :: below)
  | calls (callee : Frame) (stack : OperandStack) :
      Outcome frame rest (callee :: frame.setStack stack :: rest)

/-- The marks of the classes are as before. -/
structure Ordinary (vm : Vm) (frame : Frame) (rest : List Frame) (next : Vm) : Prop where
  started : next.clinitStarted = vm.clinitStarted
  log : next.initLog = vm.initLog
  frames : Outcome frame rest next.thread.frames

variable {machine} {vm next : Vm} {frame : Frame} {rest : List Frame}

/-- Nothing is changed. -/
theorem ordinary_self (current : vm.thread.frames = frame :: rest) : Ordinary vm frame rest vm where
  started := rfl
  log := rfl
  frames := by
    rw [current]
    exact .settles (List.suffix_refl rest)

theorem ordinary_pushValue {other : Vm} {top : Frame} {value : Value}
    (done : pushValue other top rest value = .ok next)
    (started : other.clinitStarted = vm.clinitStarted) (log : other.initLog = vm.initLog) :
    Ordinary vm frame rest next := by
  rcases Exec.bind_eq_ok.mp done with ⟨stack, _, same⟩
  cases same
  exact ⟨started, log, .settles (List.suffix_refl rest)⟩

theorem ordinary_invokeMethod {stack : OperandStack} {method : Method}
    (done : invokeMethod vm (frame.setStack stack) rest method = .ok next) :
    Ordinary vm frame rest next := by
  rcases Exec.bind_eq_ok.mp done with ⟨thread, _, copied⟩
  rcases Exec.bind_eq_ok.mp copied with ⟨⟨left, vars⟩, _, same⟩
  cases same
  exact ⟨rfl, rfl, .calls _ left⟩

theorem ordinary_invokeConcrete {target : Option Method}
    (done : invokeConcrete vm frame rest target = .ok next) : Ordinary vm frame rest next := by
  cases target with
  | none => cases done
  | some method =>
      simp only [invokeConcrete] at done
      split at done
      · cases done
      · exact @ordinary_invokeMethod vm next frame rest frame.operandStack method done

theorem ordinary_hackPrintln {method : Method}
    (done : hackPrintln vm frame rest method = .ok next) : Ordinary vm frame rest next := by
  simp only [hackPrintln] at done
  split at done
  · cases done
  · rcases Exec.bind_eq_ok.mp done with ⟨⟨value, stack⟩, _, popped⟩
    dsimp only at popped
    split at popped
    · cases popped
    · split at popped
      · cases popped
        exact ⟨rfl, rfl, .settles (List.suffix_refl rest)⟩
      · rcases Exec.bind_eq_ok.mp popped with ⟨⟨ref, below⟩, _, same⟩
        cases same
        exact ⟨rfl, rfl, .settles (List.suffix_refl rest)⟩

theorem ordinary_pushNewArray {top : Frame} {arrayClass : ClassId}
    (done : pushNewArray machine vm top rest arrayClass = .ok next) :
    Ordinary vm frame rest next := by
  rcases Exec.bind_eq_ok.mp done with ⟨⟨arr, made⟩, created, pushed⟩
  unfold newArray at created
  split at created
  · cases created
  · cases created
    exact ordinary_pushValue pushed rfl rfl

theorem ordinary_executeNewArray {arrayType : BitVec 8}
    (done : executeNewArray machine arrayType vm frame rest = .ok next) :
    Ordinary vm frame rest next := by
  rcases Exec.bind_eq_ok.mp done with ⟨⟨count, stack⟩, _, counted⟩
  dsimp only at counted
  split at counted
  · cases counted
  · rcases Exec.bind_eq_ok.mp counted with ⟨arrayClass, _, made⟩
    exact ordinary_pushNewArray made

theorem ordinary_executeAnewArray {index : BitVec 32}
    (done : executeAnewArray machine index vm frame rest = .ok next) :
    Ordinary vm frame rest next := by
  rcases Exec.bind_eq_ok.mp done with ⟨klass, _, resolved⟩
  rcases Exec.bind_eq_ok.mp resolved with ⟨⟨count, stack⟩, _, counted⟩
  dsimp only at counted
  split at counted
  · cases counted
  · rcases Exec.bind_eq_ok.mp counted with ⟨arrayClass, _, made⟩
    exact ordinary_pushNewArray made

theorem ordinary_executeMultiAnewArray {index : BitVec 16} {dimensions : BitVec 8}
    (done : executeMultiAnewArray machine index dimensions vm frame rest = .ok next) :
    Ordinary vm frame rest next := by
  rcases Exec.bind_eq_ok.mp done with ⟨klass, _, resolved⟩
  rcases Exec.bind_eq_ok.mp resolved with ⟨⟨counts, stack⟩, _, counted⟩
  rcases Exec.bind_eq_ok.mp counted with ⟨_, _, made⟩
  exact ordinary_pushNewArray made

theorem ordinary_executeGetField {index : BitVec 32}
    (done : executeGetField machine index vm frame rest = .ok next) :
    Ordinary vm frame rest next := by
  rcases Exec.bind_eq_ok.mp done with ⟨field, _, resolved⟩
  split at resolved
  · cases resolved
  · rcases Exec.bind_eq_ok.mp resolved with ⟨⟨ref, stack⟩, _, popped⟩
    dsimp only at popped
    split at popped
    · cases popped
    · split at popped
      · cases popped
        exact ⟨rfl, rfl, .settles (List.suffix_refl rest)⟩
      · exact ordinary_pushValue popped rfl rfl

theorem ordinary_executePutField {index : BitVec 32} (current : vm.thread.frames = frame :: rest)
    (done : executePutField machine index vm frame rest = .ok next) :
    Ordinary vm frame rest next := by
  rcases Exec.bind_eq_ok.mp done with ⟨field, _, resolved⟩
  split at resolved
  · cases resolved
  · split at resolved
    · cases resolved
    · split at resolved
      · cases resolved
        exact ordinary_self current
      · rcases Exec.bind_eq_ok.mp resolved with ⟨⟨value, stack⟩, _, popped⟩
        rcases Exec.bind_eq_ok.mp popped with ⟨⟨ref, below⟩, _, written⟩
        dsimp only at written
        split at written
        · cases written
        · cases written
          exact ⟨rfl, rfl, .settles (List.suffix_refl rest)⟩

theorem ordinary_executeInstanceOf {index : BitVec 32}
    (done : executeInstanceOf machine index vm frame rest = .ok next) :
    Ordinary vm frame rest next := by
  rcases Exec.bind_eq_ok.mp done with ⟨klass, _, resolved⟩
  rcases Exec.bind_eq_ok.mp resolved with ⟨⟨ref, stack⟩, _, popped⟩
  dsimp only at popped
  split at popped
  · exact ordinary_pushValue popped rfl rfl
  · rcases Exec.bind_eq_ok.mp popped with ⟨result, _, pushed⟩
    exact ordinary_pushValue pushed rfl rfl

theorem ordinary_executeCheckCast {index : BitVec 32}
    (done : executeCheckCast machine index vm frame rest = .ok next) :
    Ordinary vm frame rest next := by
  rcases Exec.bind_eq_ok.mp done with ⟨klass, _, resolved⟩
  rcases Exec.bind_eq_ok.mp resolved with ⟨⟨ref, stack⟩, _, popped⟩
  dsimp only at popped
  split at popped
  · exact ordinary_pushValue popped rfl rfl
  · rcases Exec.bind_eq_ok.mp popped with ⟨passes, _, pushed⟩
    split at pushed
    · exact ordinary_pushValue pushed rfl rfl
    · cases pushed

theorem ordinary_loadConstant {index : BitVec 32}
    (done : loadConstant machine index vm frame rest = .ok next) :
    Ordinary vm frame rest next := by
  unfold loadConstant at done
  split at done
  · cases done
  · exact ordinary_pushValue done rfl rfl
  · exact ordinary_pushValue done rfl rfl
  · rcases Exec.bind_eq_ok.mp done with ⟨object, _, pushed⟩
    exact ordinary_pushValue pushed rfl rfl
  · rcases Exec.bind_eq_ok.mp done with ⟨klass, _, pushed⟩
    exact ordinary_pushValue pushed rfl rfl
  · cases done

theorem ordinary_executeLdc2W {index : BitVec 32}
    (done : executeLdc2W machine index vm frame rest = .ok next) :
    Ordinary vm frame rest next := by
  unfold executeLdc2W at done
  split at done
  · cases done
  · exact ordinary_pushValue done rfl rfl
  · exact ordinary_pushValue done rfl rfl
  · cases done

/-! ## Exceptions and returns -/

/-- Unwinding keeps some of the frames below the one that handles. -/
theorem suffix_of_findAndGotoExceptionHandler {exClass : Option ClassId} {ex : DWord}
    {frames left : List Frame}
    (done : findAndGotoExceptionHandler machine exClass ex frames = .ok left) :
    left = [] ∨ ∃ top below, left = top :: below ∧ below <:+ frames.tail := by
  induction frames with
  | nil =>
      cases done
      exact .inl rfl
  | cons frame rest ih =>
      rcases Exec.bind_eq_ok.mp done with ⟨handlerPc, _, found⟩
      split at found
      · rcases Exec.bind_eq_ok.mp found with ⟨stack, _, same⟩
        cases same
        exact .inr ⟨_, rest, rfl, List.suffix_refl rest⟩
      · rcases ih found with empty | ⟨top, below, same, kept⟩
        · exact .inl empty
        · exact .inr ⟨top, below, same, kept.trans (List.tail_suffix rest)⟩

theorem ordinary_executeAthrow (done : executeAthrow machine vm frame rest = .ok next) :
    Ordinary vm frame rest next := by
  rcases Exec.bind_eq_ok.mp done with ⟨⟨ex, stack⟩, _, popped⟩
  dsimp only at popped
  split at popped
  · cases popped
  · rcases Exec.bind_eq_ok.mp popped with ⟨exClass, _, known⟩
    rcases Exec.bind_eq_ok.mp known with ⟨left, unwound, handled⟩
    rcases suffix_of_findAndGotoExceptionHandler unwound with rfl | ⟨top, below, rfl, kept⟩
    · rcases Exec.bind_eq_ok.mp handled with ⟨_, _, same⟩
      cases same
      exact ⟨rfl, rfl, .empties⟩
    · cases handled
      exact ⟨rfl, rfl, .settles kept⟩

theorem ordinary_executeReturn {kind : Option Kind}
    (done : executeReturn kind vm frame rest = .ok next) : Ordinary vm frame rest next := by
  cases kind with
  | none =>
      cases done
      cases rest with
      | nil => exact ⟨rfl, rfl, .empties⟩
      | cons invoker below => exact ⟨rfl, rfl, .settles (List.suffix_cons invoker below)⟩
  | some kind =>
      rcases Exec.bind_eq_ok.mp done with ⟨⟨value, stack⟩, _, popped⟩
      cases rest with
      | nil => cases popped
      | cons invoker below =>
          rcases Exec.bind_eq_ok.mp popped with ⟨pushed, _, same⟩
          cases same
          exact ⟨rfl, rfl, .settles (List.suffix_cons invoker below)⟩

/-! ## Invocations and native methods -/

theorem ordinary_executeInvokeSpecial {index : BitVec 32}
    (done : executeInvokeSpecial machine index vm frame rest = .ok next) :
    Ordinary vm frame rest next := by
  rcases Exec.bind_eq_ok.mp done with ⟨⟨className, name, descriptor⟩, _, named⟩
  rcases Exec.bind_eq_ok.mp named with ⟨method, _, resolved⟩
  rcases Exec.bind_eq_ok.mp resolved with ⟨klass, _, checked⟩
  split at checked
  · cases checked
  · split at checked
    · cases checked
    · rcases Exec.bind_eq_ok.mp checked with ⟨ref, _, received⟩
      rcases Exec.bind_eq_ok.mp received with ⟨_, _, accessible⟩
      split at accessible
      · split at accessible
        · cases accessible
        · exact ordinary_invokeConcrete accessible
      · exact ordinary_invokeConcrete accessible

theorem ordinary_executeInvokeVirtual {index : BitVec 32}
    (done : executeInvokeVirtual machine index vm frame rest = .ok next) :
    Ordinary vm frame rest next := by
  rcases Exec.bind_eq_ok.mp done with ⟨⟨className, name, descriptor⟩, _, named⟩
  rcases Exec.bind_eq_ok.mp named with ⟨method, _, resolved⟩
  split at resolved
  · cases resolved
  · split at resolved
    · exact ordinary_hackPrintln resolved
    · rcases Exec.bind_eq_ok.mp resolved with ⟨ref, _, received⟩
      rcases Exec.bind_eq_ok.mp received with ⟨_, _, accessible⟩
      rcases Exec.bind_eq_ok.mp accessible with ⟨own, _, found⟩
      exact ordinary_invokeConcrete found

theorem ordinary_executeInvokeInterface {index : BitVec 32}
    (done : executeInvokeInterface machine index vm frame rest = .ok next) :
    Ordinary vm frame rest next := by
  unfold executeInvokeInterface at done
  split at done
  · rcases Exec.bind_eq_ok.mp done with ⟨method, _, resolved⟩
    split at resolved
    · cases resolved
    · rcases Exec.bind_eq_ok.mp resolved with ⟨ref, _, received⟩
      rcases Exec.bind_eq_ok.mp received with ⟨own, _, known⟩
      rcases Exec.bind_eq_ok.mp known with ⟨interface, _, implemented⟩
      split at implemented
      · cases implemented
      · split at implemented
        · cases implemented
        · next target _ =>
            split at implemented
            · cases implemented
            · split at implemented
              · cases implemented
              · exact @ordinary_invokeMethod vm next frame rest frame.operandStack target
                  implemented
  · cases done

theorem ordinary_initializeVm (done : initializeVm machine vm frame rest = .ok next) :
    Ordinary vm frame rest next := by
  rcases Exec.bind_eq_ok.mp done with ⟨vmClass, _, loaded⟩
  rcases Exec.bind_eq_ok.mp loaded with ⟨field, _, found⟩
  rcases Exec.bind_eq_ok.mp found with ⟨propClass, _, both⟩
  split at both
  · cases both
  · rcases Exec.bind_eq_ok.mp both with ⟨savedProps, _, read⟩
    rcases Exec.bind_eq_ok.mp read with ⟨key, _, keyed⟩
    rcases Exec.bind_eq_ok.mp keyed with ⟨val, _, valued⟩
    rcases Exec.bind_eq_ok.mp valued with ⟨stack, _, pushedProps⟩
    rcases Exec.bind_eq_ok.mp pushedProps with ⟨stack', _, pushedKey⟩
    rcases Exec.bind_eq_ok.mp pushedKey with ⟨stack'', _, pushedVal⟩
    split at pushedVal
    · cases pushedVal
    · exact ordinary_invokeMethod pushedVal

theorem ordinary_run {native : Native} (current : vm.thread.frames = frame :: rest)
    (done : native.run machine vm frame rest = .ok next) : Ordinary vm frame rest next := by
  cases native with
  | getClass =>
      rcases Exec.bind_eq_ok.mp done with ⟨this, _, read⟩
      split at read
      · cases read
      · exact ordinary_pushValue read rfl rfl
  | hashCode =>
      rcases Exec.bind_eq_ok.mp done with ⟨this, _, read⟩
      exact ordinary_pushValue read rfl rfl
  | clone =>
      rcases Exec.bind_eq_ok.mp done with ⟨this, _, read⟩
      rcases Exec.bind_eq_ok.mp read with ⟨own, _, known⟩
      rcases Exec.bind_eq_ok.mp known with ⟨cloneable, _, loaded⟩
      split at loaded
      · cases loaded
        exact ordinary_self current
      · exact ordinary_pushValue loaded rfl rfl
  | getPrimitiveClass =>
      rcases Exec.bind_eq_ok.mp done with ⟨name, _, read⟩
      rcases Exec.bind_eq_ok.mp read with ⟨klass, _, loaded⟩
      exact ordinary_pushValue loaded rfl rfl
  | getName0 =>
      cases done
      exact ordinary_self current
  | desiredAssertionStatus0 => exact ordinary_pushValue done rfl rfl
  | arrayCopy =>
      rcases Exec.bind_eq_ok.mp done with ⟨src, _, readSrc⟩
      rcases Exec.bind_eq_ok.mp readSrc with ⟨_, _, readSrcPos⟩
      rcases Exec.bind_eq_ok.mp readSrcPos with ⟨dest, _, readDest⟩
      rcases Exec.bind_eq_ok.mp readDest with ⟨_, _, readDestPos⟩
      rcases Exec.bind_eq_ok.mp readDestPos with ⟨_, _, readLength⟩
      split at readLength
      · cases readLength
      · rcases Exec.bind_eq_ok.mp readLength with ⟨compatible, _, checked⟩
        split at checked
        · cases checked
          exact ordinary_self current
        · cases checked
  | doubleToRawLongBits =>
      rcases Exec.bind_eq_ok.mp done with ⟨value, _, read⟩
      exact ordinary_pushValue read rfl rfl
  | longBitsToDouble =>
      rcases Exec.bind_eq_ok.mp done with ⟨bits, _, read⟩
      exact ordinary_pushValue read rfl rfl
  | floatToRawIntBits =>
      rcases Exec.bind_eq_ok.mp done with ⟨value, _, read⟩
      exact ordinary_pushValue read rfl rfl
  | intern =>
      rcases Exec.bind_eq_ok.mp done with ⟨this, _, read⟩
      dsimp only at read
      split at read
      · exact ordinary_pushValue read rfl rfl
      · exact ordinary_pushValue read rfl rfl
  | vmInitialize => exact ordinary_initializeVm done
  | fillInStackTrace =>
      rcases Exec.bind_eq_ok.mp done with ⟨this, _, read⟩
      rcases Exec.bind_eq_ok.mp read with ⟨pushed, pushEq, known⟩
      rcases Exec.bind_eq_ok.mp known with ⟨_, _, same⟩
      cases same
      exact ordinary_pushValue pushEq rfl rfl
  | empty =>
      cases done
      exact ordinary_self current

theorem ordinary_executeInvokeNative (current : vm.thread.frames = frame :: rest)
    (done : executeInvokeNative machine vm frame rest = .ok next) :
    Ordinary vm frame rest next := by
  unfold executeInvokeNative at done
  dsimp only at done
  split at done
  · cases done
  · exact ordinary_run current done

/-! ## Instructions that may trigger -/

/-- An instruction triggers the initialisation of a class, or does something
ordinary. -/
def TriggersOrOrdinary (machine : Machine) (vm : Vm) (frame : Frame) (rest : List Frame)
    (inst : Instruction) (next : Vm) : Prop :=
  (∃ klass, triggerOf machine vm frame inst = some klass ∧
    triggerInit machine vm frame rest klass = .ok next) ∨
  (triggerOf machine vm frame inst = none ∧ Ordinary vm frame rest next)

/-- The guard of the four instructions: the class is initialised first. -/
theorem triggersOrOrdinary_of_guard {inst : Instruction} {klass : ClassId} {otherwise : Exec Vm}
    (target : initTarget machine frame inst = some klass)
    (done : (if !vm.clinitStarted klass then triggerInit machine vm frame rest klass
      else otherwise) = .ok next)
    (ordinary : otherwise = .ok next → Ordinary vm frame rest next) :
    TriggersOrOrdinary machine vm frame rest inst next := by
  by_cases started : vm.clinitStarted klass = true
  · right
    constructor
    · simp [triggerOf, target, started]
    · apply ordinary
      simpa [started] using done
  · left
    refine ⟨klass, ?_, ?_⟩
    · simp [triggerOf, target, started]
    · simpa [started] using done

theorem executeNew_cases {index : BitVec 32}
    (done : executeNew machine index vm frame rest = .ok next) :
    TriggersOrOrdinary machine vm frame rest (.new_ index) next := by
  rcases Exec.bind_eq_ok.mp done with ⟨klass, resolved, guarded⟩
  apply triggersOrOrdinary_of_guard (by rw [initTarget, resolved]; rfl) guarded
  intro allocated
  split at allocated
  · cases allocated
  · exact ordinary_pushValue allocated rfl rfl

theorem executeGetStatic_cases {index : BitVec 32} (current : vm.thread.frames = frame :: rest)
    (done : executeGetStatic machine index vm frame rest = .ok next) :
    TriggersOrOrdinary machine vm frame rest (.getStatic index) next := by
  rcases Exec.bind_eq_ok.mp done with ⟨field, resolved, guarded⟩
  apply triggersOrOrdinary_of_guard (by rw [initTarget, resolved]; rfl) guarded
  intro read
  split at read
  · cases read
  · split at read
    · cases read
      exact ordinary_self current
    · split at read
      · cases read
      · rcases Exec.bind_eq_ok.mp read with ⟨value, _, pushed⟩
        exact ordinary_pushValue pushed rfl rfl

theorem executePutStatic_cases {index : BitVec 32} (current : vm.thread.frames = frame :: rest)
    (done : executePutStatic machine index vm frame rest = .ok next) :
    TriggersOrOrdinary machine vm frame rest (.putStatic index) next := by
  rcases Exec.bind_eq_ok.mp done with ⟨field, resolved, guarded⟩
  apply triggersOrOrdinary_of_guard (by rw [initTarget, resolved]; rfl) guarded
  intro written
  split at written
  · cases written
  · split at written
    · cases written
    · split at written
      · cases written
        exact ordinary_self current
      · rcases Exec.bind_eq_ok.mp written with ⟨⟨value, stack⟩, _, popped⟩
        dsimp only at popped
        split at popped
        · cases popped
        · rcases Exec.bind_eq_ok.mp popped with ⟨slots, _, same⟩
          cases same
          exact ⟨rfl, rfl, .settles (List.suffix_refl rest)⟩

theorem executeInvokeStatic_cases {index : BitVec 32}
    (done : executeInvokeStatic machine index vm frame rest = .ok next) :
    TriggersOrOrdinary machine vm frame rest (.invokeStatic index) next := by
  rcases Exec.bind_eq_ok.mp done with ⟨⟨className, name, descriptor⟩, named, found⟩
  rcases Exec.bind_eq_ok.mp found with ⟨method, resolved, guarded⟩
  by_cases isStatic : method.isStatic = true
  · simp only [isStatic, Bool.not_true, Bool.false_eq_true, ↓reduceIte] at guarded
    have target : initTarget machine frame (.invokeStatic index) = some method.klass := by
      have resolved' : machine.table.resolveMethod frame.method.klass className name descriptor =
          .ok method := resolved
      simp [initTarget, named, resolved', isStatic, Except.toOption]
    apply triggersOrOrdinary_of_guard target guarded
    intro invoked
    split at invoked
    · exact ordinary_hackPrintln invoked
    · exact @ordinary_invokeMethod vm next frame rest frame.operandStack method invoked
  · simp only [isStatic] at guarded
    cases guarded

/-! ## All instructions -/

/-- An instruction that checks for no class. -/
theorem triggersOrOrdinary_of_ordinary {inst : Instruction}
    (target : initTarget machine frame inst = none) (ordinary : Ordinary vm frame rest next) :
    TriggersOrOrdinary machine vm frame rest inst next := by
  right
  constructor
  · rw [triggerOf, target]
    rfl
  · exact ordinary

theorem execute_cases {inst : Instruction} (current : vm.thread.frames = frame :: rest)
    (done : inst.execute machine vm frame rest = .ok next) :
    TriggersOrOrdinary machine vm frame rest inst next := by
  cases inst with
  | frame inst =>
      apply triggersOrOrdinary_of_ordinary rfl
      rcases Exec.bind_eq_ok.mp done with ⟨top, _, same⟩
      cases same
      exact ⟨rfl, rfl, .settles (List.suffix_refl rest)⟩
  | ldc index => exact triggersOrOrdinary_of_ordinary rfl (ordinary_loadConstant done)
  | ldcW index => exact triggersOrOrdinary_of_ordinary rfl (ordinary_loadConstant done)
  | ldc2W index => exact triggersOrOrdinary_of_ordinary rfl (ordinary_executeLdc2W done)
  | return_ kind => exact triggersOrOrdinary_of_ordinary rfl (ordinary_executeReturn done)
  | getStatic index => exact executeGetStatic_cases current done
  | putStatic index => exact executePutStatic_cases current done
  | getField index => exact triggersOrOrdinary_of_ordinary rfl (ordinary_executeGetField done)
  | putField index =>
      exact triggersOrOrdinary_of_ordinary rfl (ordinary_executePutField current done)
  | invokeVirtual index =>
      exact triggersOrOrdinary_of_ordinary rfl (ordinary_executeInvokeVirtual done)
  | invokeSpecial index =>
      exact triggersOrOrdinary_of_ordinary rfl (ordinary_executeInvokeSpecial done)
  | invokeStatic index => exact executeInvokeStatic_cases done
  | invokeInterface index =>
      exact triggersOrOrdinary_of_ordinary rfl (ordinary_executeInvokeInterface done)
  | invokeNative =>
      exact triggersOrOrdinary_of_ordinary rfl (ordinary_executeInvokeNative current done)
  | new_ index => exact executeNew_cases done
  | newArray arrayType =>
      exact triggersOrOrdinary_of_ordinary rfl (ordinary_executeNewArray done)
  | anewArray index => exact triggersOrOrdinary_of_ordinary rfl (ordinary_executeAnewArray done)
  | athrow => exact triggersOrOrdinary_of_ordinary rfl (ordinary_executeAthrow done)
  | checkCast index => exact triggersOrOrdinary_of_ordinary rfl (ordinary_executeCheckCast done)
  | instanceOf index => exact triggersOrOrdinary_of_ordinary rfl (ordinary_executeInstanceOf done)
  | multiAnewArray index dimensions =>
      exact triggersOrOrdinary_of_ordinary rfl (ordinary_executeMultiAnewArray done)

/-! ## Iterations -/

/-- The next iteration executes `inst`, which ends before `nextPc`, in the
current frame. -/
structure Dispatches (vm : Vm) (frame : Frame) (rest : List Frame) (inst : Instruction)
    (nextPc : BitVec 32) : Prop where
  frames : vm.thread.frames = frame :: rest
  fetched : ∃ code, codesOf frame.method = .ok code ∧
    fetchAt code frame.nextPc = .ok (inst, nextPc)

/-- What an instruction refers to is a matter of the method it stands in. -/
theorem initTarget_congr {other : Frame} (same : other.method = frame.method)
    (inst : Instruction) : initTarget machine other inst = initTarget machine frame inst := by
  cases inst <;>
    simp only [initTarget, resolveClassAt, resolveFieldAt, methodRefAt, constantAt, same]

/-- An iteration dispatches an instruction.  If that triggers the
initialisation of a class, the frame is put back as it was; otherwise the
instruction does something ordinary. -/
theorem iteration_cases (done : iteration machine vm = .ok next) :
    ∃ frame rest inst nextPc, Dispatches vm frame rest inst nextPc ∧
      ((∃ klass, triggerOf machine vm frame inst = some klass ∧
          machine.initClass klass (vm.setPc frame.nextPc) = .ok next) ∨
        (triggerOf machine vm frame inst = none ∧
          Ordinary vm (frame.setNextPc nextPc) rest next)) := by
  unfold iteration withFrame at done
  split at done
  · next frame rest frames =>
      rcases Exec.bind_eq_ok.mp done with ⟨code, codeEq, fetching⟩
      rcases Exec.bind_eq_ok.mp fetching with ⟨⟨inst, nextPc⟩, fetched, executed⟩
      refine ⟨frame, rest, inst, nextPc, ⟨frames, code, codeEq, fetched⟩, ?_⟩
      have target := @initTarget_congr machine frame (frame.setNextPc nextPc) rfl inst
      rcases execute_cases rfl executed with ⟨klass, triggered, initialised⟩ | ⟨triggered, ordinary⟩
      · left
        refine ⟨klass, ?_, ?_⟩
        · rw [triggerOf, target] at triggered
          exact triggered
        · have restored : ((vm.setPc frame.nextPc).setFrames
              ((frame.setNextPc nextPc).setNextPc frame.nextPc :: rest)) =
                vm.setPc frame.nextPc := by
            have whole : (frame.setNextPc nextPc).setNextPc frame.nextPc = frame := rfl
            rw [whole, ← frames]
            rfl
          rw [← restored]
          exact initialised
      · right
        constructor
        · rw [triggerOf, target] at triggered
          exact triggered
        · exact ⟨ordinary.started, ordinary.log, ordinary.frames⟩
  · cases done

/-- A state dispatches one instruction. -/
theorem Dispatches.unique {frame' : Frame} {rest' : List Frame} {inst inst' : Instruction}
    {nextPc nextPc' : BitVec 32} (first : Dispatches vm frame rest inst nextPc)
    (second : Dispatches vm frame' rest' inst' nextPc') :
    frame' = frame ∧ rest' = rest ∧ inst' = inst ∧ nextPc' = nextPc := by
  rcases first with ⟨frames, code, codeEq, fetched⟩
  rcases second with ⟨frames', code', codeEq', fetched'⟩
  rw [frames] at frames'
  cases frames'
  rw [codeEq] at codeEq'
  cases codeEq'
  rw [fetched] at fetched'
  cases fetched'
  exact ⟨rfl, rfl, rfl, rfl⟩

theorem initClass_of_trigger {inst : Instruction} {nextPc : BitVec 32} {klass : ClassId}
    (dispatched : Dispatches vm frame rest inst nextPc)
    (triggered : triggerOf machine vm frame inst = some klass)
    (stepped : iteration machine vm = .ok next) :
    machine.initClass klass (vm.setPc frame.nextPc) = .ok next := by
  rcases iteration_cases stepped with ⟨frame', rest', inst', nextPc', dispatched', change⟩
  rcases dispatched.unique dispatched' with ⟨rfl, rfl, rfl, rfl⟩
  rcases change with ⟨klass', triggered', returned⟩ | ⟨untriggered, _⟩
  · rw [triggered] at triggered'
    cases triggered'
    exact returned
  · rw [triggered] at untriggered
    cases untriggered

end JvmDemo.Interpreter
