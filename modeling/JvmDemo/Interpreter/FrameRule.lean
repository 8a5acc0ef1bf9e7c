import JvmDemo.Interpreter.TypeSoundness

/-!
# A run does not depend on the frames below it

An instruction works on the current frame and on the stores that the frames
share.  The frames below matter to it in three ways only: the depth of the stack
decides whether a new frame fits, a return goes to the next one, and an exception
is searched for in all of them.  So what a method does, with everything that it
calls, is the same under any callers, as long as it has not ended and the stack
has room.
-/

namespace JvmDemo.Runtime

/-- More frames at the bottom of the stack. -/
def Thread.under (thread : Thread) (below : List Frame) : Thread :=
  { thread with frames := thread.frames ++ below }

def Vm.under (vm : Vm) (below : List Frame) : Vm := { vm with thread := vm.thread.under below }

@[simp]
theorem Vm.under_staticVars (vm : Vm) (below : List Frame) :
    (vm.under below).staticVars = vm.staticVars := rfl

@[simp]
theorem Vm.under_stringPool (vm : Vm) (below : List Frame) :
    (vm.under below).stringPool = vm.stringPool := rfl

end JvmDemo.Runtime

namespace JvmDemo.Interpreter

open JvmDemo.Lib
open JvmDemo.Lib.Refinement
open JvmDemo.Runtime
open JvmDemo.Instructions

/-- Both computations agree, but for the frames at the bottom, unless these leave no
room on the stack. -/
abbrev Framed (below : List Frame) : Exec Vm → Exec Vm → Prop :=
  Embeds (fun vm => vm.under below) Exhausted

section FrameRule

variable {machine : Machine} (vm : Vm) (frame : Frame) (rest below : List Frame)

theorem framed_setFrames (frames : List Frame) :
    Framed below (pure (vm.setFrames frames))
      (pure ((vm.under below).setFrames (frames ++ below))) :=
  Embeds.ok (vm.setFrames frames)

theorem framed_fault (failure : Fault) (second : Exec Vm) :
    Framed below (.error failure) second := Embeds.error failure second

/-! ## Frames -/

/-- More frames at the bottom leave less room. -/
theorem embeds_createFrame (thread : Thread) (method : Method) :
    Embeds (fun thread => thread.under below) Exhausted (thread.createFrame method)
      ((thread.under below).createFrame method) := by
  intro next created
  rw [Thread.createFrame_eq_ok created]
  by_cases room : Thread.HasRoom (thread.under below).frames.length method
  · left
    exact Thread.createFrame_of_hasRoom room
  · right
    exact exhausted_of_not_hasRoom room

theorem framed_createFrame (method : Method) :
    Framed below (vm.createFrame method) ((vm.under below).createFrame method) :=
  (embeds_createFrame below vm.thread method).andThen fun thread => .ok { vm with thread := thread }

theorem framed_scheduleClinit (klass : ClassId) :
    Framed below (machine.scheduleClinit klass vm)
      (machine.scheduleClinit klass (vm.under below)) := by
  unfold Machine.scheduleClinit
  cases machine.table.getClinitMethod klass with
  | none => exact .ok vm
  | some method => exact .ite (framed_createFrame vm below method) (.ok vm)

theorem framed_initClassFrom (fuel : Nat) (klass : ClassId) :
    Framed below (machine.initClassFrom fuel klass vm)
      (machine.initClassFrom fuel klass (vm.under below)) := by
  induction fuel generalizing klass vm with
  | zero => exact framed_fault below _ _
  | succ fuel ih =>
      rw [Machine.initClassFrom, Machine.initClassFrom]
      apply Embeds.andThen (framed_scheduleClinit (vm.startClinit klass) below klass)
      intro marked
      apply Embeds.ite (.ok marked)
      cases (machine.table.info klass).superClass with
      | none => exact .ok marked
      | some super => exact .ite (.ok marked) (ih marked super)

theorem framed_triggerInit (klass : ClassId) :
    Framed below (triggerInit machine vm frame rest klass)
      (triggerInit machine (vm.under below) frame (rest ++ below) klass) :=
  framed_initClassFrom (vm.setFrames (frame.setNextPc vm.thread.pc :: rest)) below _ klass

theorem framed_pushValue (value : Value) :
    Framed below (pushValue vm frame rest value)
      (pushValue (vm.under below) frame (rest ++ below) value) :=
  Embeds.bind fun stack => framed_setFrames vm below (frame.setStack stack :: rest)

/-! ## Calls and returns -/

theorem framed_invokeMethod (method : Method) :
    Framed below (invokeMethod vm frame rest method)
      (invokeMethod (vm.under below) frame (rest ++ below) method) := by
  apply Embeds.andThen
    (embeds_createFrame below { vm.thread with frames := frame :: rest } method)
  intro thread
  apply Embeds.bind
  rintro ⟨stack, vars⟩
  exact framed_setFrames { vm with thread := thread } below
    ((Frame.ofMethod method).setVars vars :: frame.setStack stack :: rest)

theorem framed_invokeConcrete (target : Option Method) :
    Framed below (invokeConcrete vm frame rest target)
      (invokeConcrete (vm.under below) frame (rest ++ below) target) := by
  cases target with
  | none => exact framed_fault below _ _
  | some method =>
      exact .ite (framed_fault below _ _) (framed_invokeMethod vm frame rest below method)

theorem framed_hackPrintln (method : Method) :
    Framed below (hackPrintln vm frame rest method)
      (hackPrintln (vm.under below) frame (rest ++ below) method) := by
  unfold hackPrintln
  dsimp only
  split
  · exact framed_fault below _ _
  · apply Embeds.bind
    rintro ⟨printed, stack⟩
    apply Embeds.ite (framed_fault below _ _)
    apply Embeds.ite (framed_setFrames vm below (frame.setStack stack :: rest))
    apply Embeds.bind
    rintro ⟨receiver, left⟩
    exact framed_setFrames vm below (frame.setStack left :: rest)

theorem framed_executeInvokeStatic (index : BitVec 32) :
    Framed below (executeInvokeStatic machine index vm frame rest)
      (executeInvokeStatic machine index (vm.under below) frame (rest ++ below)) := by
  apply Embeds.bind
  rintro ⟨className, name, descriptor⟩
  apply Embeds.bind
  intro method
  apply Embeds.ite (framed_fault below _ _)
  apply Embeds.ite (framed_triggerInit vm frame rest below method.klass)
  exact .ite (framed_hackPrintln vm frame rest below method)
    (framed_invokeMethod vm frame rest below method)

theorem framed_executeInvokeSpecial (index : BitVec 32) :
    Framed below (executeInvokeSpecial machine index vm frame rest)
      (executeInvokeSpecial machine index (vm.under below) frame (rest ++ below)) := by
  apply Embeds.bind
  rintro ⟨className, name, descriptor⟩
  apply Embeds.bind
  intro method
  apply Embeds.bind
  intro klass
  apply Embeds.ite (framed_fault below _ _)
  apply Embeds.ite (framed_fault below _ _)
  apply Embeds.bind
  intro ref
  apply Embeds.bind
  intro _
  apply Embeds.ite
  · cases (machine.table.info frame.method.klass).superClass with
    | none => exact framed_fault below _ _
    | some super => exact framed_invokeConcrete vm frame rest below _
  · exact framed_invokeConcrete vm frame rest below (some method)

theorem framed_executeInvokeVirtual (index : BitVec 32) :
    Framed below (executeInvokeVirtual machine index vm frame rest)
      (executeInvokeVirtual machine index (vm.under below) frame (rest ++ below)) := by
  apply Embeds.bind
  rintro ⟨className, name, descriptor⟩
  apply Embeds.bind
  intro method
  apply Embeds.ite (framed_fault below _ _)
  apply Embeds.ite (framed_hackPrintln vm frame rest below method)
  apply Embeds.bind
  intro ref
  apply Embeds.bind
  intro _
  apply Embeds.bind
  intro own
  exact framed_invokeConcrete vm frame rest below _

theorem framed_executeInvokeInterface (index : BitVec 32) :
    Framed below (executeInvokeInterface machine index vm frame rest)
      (executeInvokeInterface machine index (vm.under below) frame (rest ++ below)) := by
  unfold executeInvokeInterface
  split
  · next className name descriptor _ =>
      apply Embeds.bind
      intro method
      apply Embeds.ite (framed_fault below _ _)
      apply Embeds.bind
      intro ref
      apply Embeds.bind
      intro own
      apply Embeds.bind
      intro interface
      apply Embeds.ite (framed_fault below _ _)
      cases machine.table.lookupMethodInClass own name descriptor with
      | none => exact framed_fault below _ _
      | some target =>
          apply Embeds.ite (framed_fault below _ _)
          exact .ite (framed_fault below _ _) (framed_invokeMethod vm frame rest below target)
  · exact framed_fault below _ _

/-- Without a frame that takes the value, the return has no result. -/
theorem framed_executeReturn (kind : Option Kind) :
    Framed below (executeReturn kind vm frame rest)
      (executeReturn kind (vm.under below) frame (rest ++ below)) := by
  cases kind with
  | none => exact framed_setFrames vm below rest
  | some kind =>
      apply Embeds.bind
      rintro ⟨value, stack⟩
      cases rest with
      | nil => exact framed_fault below _ _
      | cons invoker others => exact framed_pushValue vm invoker others below value

/-! ## Objects and fields -/

theorem framed_executeNew (index : BitVec 32) :
    Framed below (executeNew machine index vm frame rest)
      (executeNew machine index (vm.under below) frame (rest ++ below)) := by
  apply Embeds.bind
  intro klass
  apply Embeds.ite (framed_triggerInit vm frame rest below klass)
  apply Embeds.ite (framed_fault below _ _)
  exact framed_pushValue _ frame rest below _

theorem framed_pushNewArray (arrayClass : ClassId) :
    Framed below (pushNewArray machine vm frame rest arrayClass)
      (pushNewArray machine (vm.under below) frame (rest ++ below) arrayClass) := by
  unfold pushNewArray newArray
  split
  · exact framed_fault below _ _
  · exact framed_pushValue (vm.newObject machine).2 frame rest below _

theorem framed_executeNewArray (arrayType : BitVec 8) :
    Framed below (executeNewArray machine arrayType vm frame rest)
      (executeNewArray machine arrayType (vm.under below) frame (rest ++ below)) := by
  apply Embeds.bind
  rintro ⟨count, stack⟩
  apply Embeds.ite (framed_fault below _ _)
  apply Embeds.bind
  intro arrayClass
  exact framed_pushNewArray vm (frame.setStack stack) rest below arrayClass

theorem framed_executeAnewArray (index : BitVec 32) :
    Framed below (executeAnewArray machine index vm frame rest)
      (executeAnewArray machine index (vm.under below) frame (rest ++ below)) := by
  apply Embeds.bind
  intro klass
  apply Embeds.bind
  rintro ⟨count, stack⟩
  apply Embeds.ite (framed_fault below _ _)
  apply Embeds.bind
  intro arrayClass
  exact framed_pushNewArray vm (frame.setStack stack) rest below arrayClass

theorem framed_executeMultiAnewArray (index : BitVec 16) (dimensions : BitVec 8) :
    Framed below (executeMultiAnewArray machine index dimensions vm frame rest)
      (executeMultiAnewArray machine index dimensions (vm.under below) frame (rest ++ below)) := by
  apply Embeds.bind
  intro klass
  apply Embeds.bind
  rintro ⟨counts, stack⟩
  apply Embeds.bind
  intro _
  exact framed_pushNewArray vm (frame.setStack stack) rest below klass

theorem framed_executePutStatic (index : BitVec 32) :
    Framed below (executePutStatic machine index vm frame rest)
      (executePutStatic machine index (vm.under below) frame (rest ++ below)) := by
  apply Embeds.bind
  intro field
  apply Embeds.ite (framed_triggerInit vm frame rest below field.klass)
  apply Embeds.ite (framed_fault below _ _)
  apply Embeds.ite (framed_fault below _ _)
  cases fieldKind field.descriptor with
  | none => exact .ok vm
  | some kind =>
      apply Embeds.bind
      rintro ⟨value, stack⟩
      simp only [Vm.under_staticVars]
      cases vm.staticVars field.klass with
      | none => exact framed_fault below _ _
      | some slots =>
          apply Embeds.bind
          intro written
          exact framed_setFrames (vm.setStaticVars field.klass written) below
            (frame.setStack stack :: rest)

theorem framed_executeGetStatic (index : BitVec 32) :
    Framed below (executeGetStatic machine index vm frame rest)
      (executeGetStatic machine index (vm.under below) frame (rest ++ below)) := by
  apply Embeds.bind
  intro field
  apply Embeds.ite (framed_triggerInit vm frame rest below field.klass)
  apply Embeds.ite (framed_fault below _ _)
  cases fieldKind field.descriptor with
  | none => exact .ok vm
  | some kind =>
      simp only [Vm.under_staticVars]
      cases vm.staticVars field.klass with
      | none => exact framed_fault below _ _
      | some slots =>
          apply Embeds.bind
          intro value
          exact framed_pushValue vm frame rest below value

theorem framed_executeGetField (index : BitVec 32) :
    Framed below (executeGetField machine index vm frame rest)
      (executeGetField machine index (vm.under below) frame (rest ++ below)) := by
  apply Embeds.bind
  intro field
  apply Embeds.ite (framed_fault below _ _)
  apply Embeds.bind
  rintro ⟨ref, stack⟩
  apply Embeds.ite (framed_fault below _ _)
  cases fieldKind field.descriptor with
  | none => exact framed_setFrames vm below (frame.setStack stack :: rest)
  | some kind => exact framed_pushValue vm (frame.setStack stack) rest below _

theorem framed_executePutField (index : BitVec 32) :
    Framed below (executePutField machine index vm frame rest)
      (executePutField machine index (vm.under below) frame (rest ++ below)) := by
  apply Embeds.bind
  intro field
  apply Embeds.ite (framed_fault below _ _)
  apply Embeds.ite (framed_fault below _ _)
  cases fieldKind field.descriptor with
  | none => exact .ok vm
  | some kind =>
      apply Embeds.bind
      rintro ⟨value, popped⟩
      apply Embeds.bind
      rintro ⟨ref, stack⟩
      apply Embeds.ite (framed_fault below _ _)
      exact framed_setFrames
        { vm with memory := DataObject.setField vm.memory ref field.slotId value } below
        (frame.setStack stack :: rest)

theorem framed_executeInstanceOf (index : BitVec 32) :
    Framed below (executeInstanceOf machine index vm frame rest)
      (executeInstanceOf machine index (vm.under below) frame (rest ++ below)) := by
  apply Embeds.bind
  intro klass
  apply Embeds.bind
  rintro ⟨ref, stack⟩
  apply Embeds.ite
  · exact framed_pushValue vm (frame.setStack stack) rest below _
  · exact Embeds.bind fun result => framed_pushValue vm (frame.setStack stack) rest below _

theorem framed_executeCheckCast (index : BitVec 32) :
    Framed below (executeCheckCast machine index vm frame rest)
      (executeCheckCast machine index (vm.under below) frame (rest ++ below)) := by
  apply Embeds.bind
  intro klass
  apply Embeds.bind
  rintro ⟨ref, stack⟩
  have checked (passes : Bool) : Framed below
      (if passes then pushValue vm (frame.setStack stack) rest (.ref ref)
        else thrown "java.lang.ClassCastException")
      (if passes then pushValue (vm.under below) (frame.setStack stack) (rest ++ below) (.ref ref)
        else thrown "java.lang.ClassCastException") :=
    .ite (framed_pushValue vm (frame.setStack stack) rest below _) (framed_fault below _ _)
  exact .ite (checked true) (Embeds.bind checked)

theorem framed_loadConstant (index : BitVec 32) :
    Framed below (loadConstant machine index vm frame rest)
      (loadConstant machine index (vm.under below) frame (rest ++ below)) := by
  unfold loadConstant
  split
  · exact framed_fault below _ _
  · exact framed_pushValue vm frame rest below _
  · exact framed_pushValue vm frame rest below _
  · exact Embeds.bind fun object => framed_pushValue vm frame rest below _
  · exact Embeds.bind fun klass => framed_pushValue vm frame rest below _
  · exact framed_fault below _ _

theorem framed_executeLdc2W (index : BitVec 32) :
    Framed below (executeLdc2W machine index vm frame rest)
      (executeLdc2W machine index (vm.under below) frame (rest ++ below)) := by
  unfold executeLdc2W
  split
  · exact framed_fault below _ _
  · exact framed_pushValue vm frame rest below _
  · exact framed_pushValue vm frame rest below _
  · exact framed_fault below _ _

/-! ## Native methods -/

theorem framed_initializeVm :
    Framed below (initializeVm machine vm frame rest)
      (initializeVm machine (vm.under below) frame (rest ++ below)) := by
  apply Embeds.bind
  intro vmClass
  apply Embeds.bind
  intro field
  apply Embeds.bind
  intro propClass
  simp only [Vm.under_staticVars]
  cases vm.staticVars vmClass with
  | none => exact framed_fault below _ _
  | some slots =>
      apply Embeds.bind
      intro savedProps
      apply Embeds.bind
      intro key
      apply Embeds.bind
      intro val
      apply Embeds.bind
      intro first
      apply Embeds.bind
      intro second
      apply Embeds.bind
      intro stack
      split
      · exact framed_fault below _ _
      · exact framed_invokeMethod vm (frame.setStack stack) rest below _

theorem framed_run (native : Native) :
    Framed below (native.run machine vm frame rest)
      (native.run machine (vm.under below) frame (rest ++ below)) := by
  cases native with
  | getClass =>
      apply Embeds.bind
      intro this
      exact .ite (framed_fault below _ _) (framed_pushValue vm frame rest below _)
  | hashCode => exact Embeds.bind fun this => framed_pushValue vm frame rest below _
  | clone =>
      apply Embeds.bind
      intro this
      apply Embeds.bind
      intro own
      apply Embeds.bind
      intro cloneable
      exact .ite (.ok vm) (framed_pushValue vm frame rest below _)
  | getPrimitiveClass =>
      apply Embeds.bind
      intro name
      apply Embeds.bind
      intro klass
      exact framed_pushValue vm frame rest below _
  | getName0 => exact .ok vm
  | desiredAssertionStatus0 => exact framed_pushValue vm frame rest below _
  | arrayCopy =>
      apply Embeds.bind
      intro src
      apply Embeds.bind
      intro _
      apply Embeds.bind
      intro dest
      apply Embeds.bind
      intro _
      apply Embeds.bind
      intro _
      apply Embeds.ite (framed_fault below _ _)
      apply Embeds.bind
      intro fits
      exact .ite (.ok vm) (framed_fault below _ _)
  | doubleToRawLongBits => exact Embeds.bind fun value => framed_pushValue vm frame rest below _
  | longBitsToDouble => exact Embeds.bind fun bits => framed_pushValue vm frame rest below _
  | floatToRawIntBits => exact Embeds.bind fun value => framed_pushValue vm frame rest below _
  | intern =>
      apply Embeds.bind
      intro this
      simp only [Vm.under_stringPool]
      split
      · exact framed_pushValue vm frame rest below _
      · exact framed_pushValue _ frame rest below _
  | vmInitialize => exact framed_initializeVm vm frame rest below
  | fillInStackTrace =>
      apply Embeds.bind
      intro this
      apply Embeds.andThen (framed_pushValue vm frame rest below (.ref this))
      intro pushed
      apply Embeds.bind
      intro _
      exact .ok pushed
  | empty => exact .ok vm

theorem framed_executeInvokeNative :
    Framed below (executeInvokeNative machine vm frame rest)
      (executeInvokeNative machine (vm.under below) frame (rest ++ below)) := by
  unfold executeInvokeNative
  dsimp only
  split
  · exact framed_fault below _ _
  · exact framed_run vm frame rest below _

/-! ## Exceptions -/

variable {vm frame rest}

/-- A handler in the upper frames is found before the lower ones are searched. -/
theorem findAndGotoExceptionHandler_under {exClass : Option ClassId} {ex : DWord}
    {frames caught : List Frame}
    (found : findAndGotoExceptionHandler machine exClass ex frames = .ok caught)
    (handled : caught ≠ []) :
    findAndGotoExceptionHandler machine exClass ex (frames ++ below) = .ok (caught ++ below) := by
  induction frames with
  | nil =>
      cases found
      exact absurd rfl handled
  | cons frame rest ih =>
      rw [findAndGotoExceptionHandler] at found
      rcases Exec.bind_eq_ok.mp found with ⟨handlerPc, looked, searched⟩
      rw [List.cons_append, findAndGotoExceptionHandler, looked, Exec.bind_ok]
      split at searched
      · next here =>
          rcases Exec.bind_eq_ok.mp searched with ⟨stack, pushed, same⟩
          cases same
          rw [if_pos here, pushed]
          rfl
      · next other =>
          rw [if_neg other]
          exact ih searched

theorem executeAthrow_under {next : Vm}
    (done : executeAthrow machine vm frame rest = .ok next) (busy : isStackEmpty next = false) :
    executeAthrow machine (vm.under below) frame (rest ++ below) = .ok (next.under below) := by
  rcases Exec.bind_eq_ok.mp done with ⟨⟨ex, stack⟩, popped, thrown⟩
  dsimp only at thrown
  split at thrown
  · cases thrown
  · next notNull =>
      rcases Exec.bind_eq_ok.mp thrown with ⟨exClass, classEq, searched⟩
      rcases Exec.bind_eq_ok.mp searched with ⟨caught, found, same⟩
      have classBelow : machine.classOf (vm.under below) ex = .ok exClass := classEq
      cases caught with
      | nil =>
          rcases Exec.bind_eq_ok.mp same with ⟨own, -, ended⟩
          cases ended
          cases busy
      | cons top others =>
          cases same
          have foundBelow := findAndGotoExceptionHandler_under below found (List.cons_ne_nil _ _)
          rw [executeAthrow, popped, Exec.bind_ok]
          dsimp only
          rw [if_neg notNull, classBelow, Exec.bind_ok, ← List.cons_append, foundBelow]
          rfl

/-! ## Runs -/

theorem execute_under {inst : Instruction} {next : Vm}
    (done : inst.execute machine vm frame rest = .ok next) (busy : isStackEmpty next = false) :
    inst.execute machine (vm.under below) frame (rest ++ below) = .ok (next.under below) ∨
      ∃ failure, inst.execute machine (vm.under below) frame (rest ++ below) = .error failure ∧
        Exhausted failure := by
  cases inst with
  | frame inst =>
      have framed : Framed below (Instruction.execute machine vm frame rest (.frame inst))
          (Instruction.execute machine (vm.under below) frame (rest ++ below) (.frame inst)) :=
        Embeds.bind fun executed => framed_setFrames vm below (executed :: rest)
      exact framed next done
  | ldc index => exact framed_loadConstant vm frame rest below index next done
  | ldcW index => exact framed_loadConstant vm frame rest below index next done
  | ldc2W index => exact framed_executeLdc2W vm frame rest below index next done
  | return_ kind => exact framed_executeReturn vm frame rest below kind next done
  | getStatic index => exact framed_executeGetStatic vm frame rest below index next done
  | putStatic index => exact framed_executePutStatic vm frame rest below index next done
  | getField index => exact framed_executeGetField vm frame rest below index next done
  | putField index => exact framed_executePutField vm frame rest below index next done
  | invokeVirtual index => exact framed_executeInvokeVirtual vm frame rest below index next done
  | invokeSpecial index => exact framed_executeInvokeSpecial vm frame rest below index next done
  | invokeStatic index => exact framed_executeInvokeStatic vm frame rest below index next done
  | invokeInterface index =>
      exact framed_executeInvokeInterface vm frame rest below index next done
  | invokeNative => exact framed_executeInvokeNative vm frame rest below next done
  | new_ index => exact framed_executeNew vm frame rest below index next done
  | newArray arrayType => exact framed_executeNewArray vm frame rest below arrayType next done
  | anewArray index => exact framed_executeAnewArray vm frame rest below index next done
  | athrow => exact .inl (executeAthrow_under below done busy)
  | checkCast index => exact framed_executeCheckCast vm frame rest below index next done
  | instanceOf index => exact framed_executeInstanceOf vm frame rest below index next done
  | multiAnewArray index dimensions =>
      exact framed_executeMultiAnewArray vm frame rest below index dimensions next done

theorem iteration_under {next : Vm} (done : iteration machine vm = .ok next)
    (busy : isStackEmpty next = false) :
    iteration machine (vm.under below) = .ok (next.under below) ∨
      ∃ failure, iteration machine (vm.under below) = .error failure ∧ Exhausted failure := by
  unfold iteration withFrame at done
  split at done
  · next frame rest frames =>
      rcases Exec.bind_eq_ok.mp done with ⟨code, codeEq, fetched⟩
      rcases Exec.bind_eq_ok.mp fetched with ⟨⟨inst, nextPc⟩, fetchEq, executed⟩
      have framesBelow : (vm.under below).thread.frames = frame :: (rest ++ below) := by
        rw [Vm.under, Thread.under, frames]
        rfl
      rw [iteration, withFrame, framesBelow]
      dsimp only
      rw [codeEq, Exec.bind_ok, fetchEq, Exec.bind_ok]
      exact execute_under below executed busy
  · cases done

/-- What a run of some frames does, it does above any other frames: every state of it
that still has a frame is the same but for the frames at the bottom, unless the stack
of the thread is exhausted there. -/
theorem loopExecute_under {count : Nat} {last : Vm} (run : loopExecute machine count vm = .ok last)
    (busy : isStackEmpty last = false) :
    loopExecute machine count (vm.under below) = .ok (last.under below) ∨
      ∃ failure, loopExecute machine count (vm.under below) = .error failure ∧
        Exhausted failure := by
  apply loop_embeds (iteration_under below) _ run busy
  intro state running
  rw [isStackEmpty, List.isEmpty_eq_false_iff] at running ⊢
  exact List.append_ne_nil_of_left_ne_nil running below

end FrameRule

/-- The main method calls `sum`, above another frame as without it. -/
theorem loopExecute_under_sum : ∃ last,
    loopExecute (.ofTable sumTable) 2 (sumVm [.ofMethod sumMain]) = .ok last ∧
      last.thread.frames.length = 2 ∧
      (loopExecute (.ofTable sumTable) 2 ((sumVm [.ofMethod sumMain]).under [.ofMethod sumMethod]) =
          .ok (last.under [.ofMethod sumMethod]) ∨
        ∃ failure, loopExecute (.ofTable sumTable) 2
            ((sumVm [.ofMethod sumMain]).under [.ofMethod sumMethod]) = .error failure ∧
          Exhausted failure) :=
  ⟨_, rfl, rfl, loopExecute_under [.ofMethod sumMethod] rfl rfl⟩

end JvmDemo.Interpreter
