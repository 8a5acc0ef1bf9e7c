import JvmDemo.Instructions.Invoke
import JvmDemo.Runtime.Descriptor
import Mathlib.Data.List.Induction

/-!
# Passing arguments to a method

The caller pushes the receiver and the arguments with typed pushes, and
`InvokeMethod` moves as many single slots as the method counts to the local
variables of the callee.  The typed pushes give a reference two slots, the count
gives it one, and `PopSlot` refuses to read the last slot of a full stack.  This
module determines when the arguments arrive.
-/

namespace JvmDemo.Instructions

open JvmDemo.Lib
open JvmDemo.Runtime

/-! ## Pushing arguments -/

/-- The kinds of the receiver and the parameters. -/
def argKinds (isStatic : Bool) (params : List ParamType) : List Kind :=
  (if isStatic then [] else [.ref]) ++ params.map ParamType.kind

/-- Typed pushes from left to right. -/
def pushAll : OperandStack → List Value → Exec OperandStack
  | stack, [] => pure stack
  | stack, value :: values => do
      let stack ← stack.push value
      pushAll stack values

/-- The words of values in the order in which they are pushed. -/
def argWords (values : List Value) : List Word := values.flatMap Value.words

/-- The slots that values take on the operand stack. -/
def argWidth (values : List Value) : Nat := (values.map fun value => value.kind.width).sum

/-- The local variable indices that values take. -/
def argIndex (values : List Value) : Nat := (values.map fun value => value.kind.indices).sum

theorem length_argWords (values : List Value) : (argWords values).length = argWidth values := by
  simp [argWords, argWidth, List.length_flatMap]

/-- Pushes that return leave the words of the values on top. -/
theorem holds_of_pushAll {values : List Value} {stack next : OperandStack} {words : List Word}
    (holds : stack.Holds words) (pushed : pushAll stack values = .ok next) :
    next.Holds (words ++ argWords values) ∧ next.slots.getSize = stack.slots.getSize := by
  induction values generalizing stack words with
  | nil =>
      cases pushed
      exact ⟨by simpa [argWords] using holds, rfl⟩
  | cons value values ih =>
      rcases Exec.bind_eq_ok.mp pushed with ⟨middle, first, rest⟩
      rcases OperandStack.push_eq_ok first with ⟨room, rfl⟩
      have middleHolds : (stack.pushed value.words).Holds (words ++ value.words) := by
        apply holds.pushed
        rw [Value.length_words, ← holds.top_eq]
        exact room
      rcases ih middleHolds rest with ⟨nextHolds, size⟩
      refine ⟨by simpa [argWords] using nextHolds, ?_⟩
      rw [size, OperandStack.getSize_pushed]

/-- Pushes return when all the values fit. -/
theorem pushAll_of_le (values : List Value) {stack : OperandStack} {words : List Word}
    (holds : stack.Holds words) (room : words.length + argWidth values ≤ stack.slots.getSize) :
    ∃ next, pushAll stack values = .ok next := by
  induction values generalizing stack words with
  | nil => exact ⟨stack, rfl⟩
  | cons value values ih =>
      have sum : argWidth (value :: values) = value.kind.width + argWidth values := by
        simp [argWidth]
      rw [sum] at room
      have first : stack.push value = .ok (stack.pushed value.words) :=
        OperandStack.push_eq value (by rw [holds.top_eq]; omega)
      have middleHolds : (stack.pushed value.words).Holds (words ++ value.words) :=
        holds.pushed (by rw [Value.length_words]; omega)
      rcases ih middleHolds (by
        rw [List.length_append, Value.length_words, OperandStack.getSize_pushed]
        omega) with ⟨next, rest⟩
      exact ⟨next, by rw [pushAll, first, Exec.bind_ok, rest]⟩

/-! ## The copy loop -/

/-- The loop moves a block from the top of the stack to the first variables,
unless the stack is full. -/
theorem copyArgs_eq {block words : List Word} {stack : OperandStack} {vars : Slots}
    (holds : stack.Holds (words ++ block))
    (spare : block = [] ∨ words.length + block.length < stack.slots.getSize)
    (fits : block.length ≤ vars.getSize) (small : vars.getSize < 2 ^ 16) :
    copyArgs block.length stack vars =
      .ok (stack.popped block.length, ⟨block ++ vars.slots.drop block.length⟩) := by
  induction block using List.reverseRecOn generalizing stack vars with
  | nil => rfl
  | append_singleton block last ih =>
      rw [← List.append_assoc] at holds
      simp only [List.length_append, List.length_singleton] at fits spare ⊢
      have room : words.length + (block.length + 1) < stack.slots.getSize := by
        rcases spare with empty | room
        · simp at empty
        · exact room
      have popped := holds.popSlot_eq (by rw [List.length_append]; omega)
      have index : block.length % 2 ^ 16 = block.length := Nat.mod_eq_of_lt (by omega)
      have stored : vars.setSlot block.length last = .ok ⟨vars.slots.set block.length last⟩ :=
        Slots.setOne_of_lt _ (by omega) last
      have rest := @ih (stack.popped 1) ⟨vars.slots.set block.length last⟩ holds.popped
        (Or.inr (by rw [OperandStack.getSize_popped]; omega))
        (by simp only [Slots.getSize, List.length_set] at fits ⊢; omega)
        (by simpa [Slots.getSize] using small)
      simp only [copyArgs, popped, index, Exec.bind_ok, stored, rest]
      have inside : block.length < vars.slots.length := Nat.lt_of_succ_le fits
      have tail : (vars.slots.set block.length last).drop block.length =
          last :: vars.slots.drop (block.length + 1) := by
        rw [List.drop_eq_getElem_cons (by rw [List.length_set]; exact inside),
          List.getElem_set_self, List.drop_set_of_lt (Nat.lt_succ_self _)]
      rw [tail, List.append_assoc, List.singleton_append]
      have top : (stack.popped 1).popped block.length = stack.popped (block.length + 1) := by
        simp only [OperandStack.popped, Nat.sub_sub, Nat.add_comm 1]
      rw [top]

/-- On a full stack the loop does not get through its first round. -/
theorem copyArgs_ne_ok {words : List Word} {stack : OperandStack} {vars : Slots} {count : Nat}
    (holds : stack.Holds words) (full : words.length = stack.slots.getSize) (some : 0 < count)
    (result : OperandStack × Slots) : copyArgs count stack vars ≠ .ok result := by
  intro copied
  cases count with
  | zero => exact absurd some (Nat.lt_irrefl 0)
  | succ count =>
      rcases Exec.bind_eq_ok.mp copied with ⟨⟨slot, next⟩, popped, -⟩
      have positive := (OperandStack.popSlot_eq_ok popped).2
      rw [holds.top_eq] at positive
      rcases holds.popSlot_aborts positive full with ⟨message, aborted⟩
      rw [aborted] at popped
      cases popped

/-- Every round lowers the top by one. -/
theorem top_of_copyArgs {count : Nat} {stack next : OperandStack} {vars final : Slots}
    (copied : copyArgs count stack vars = .ok (next, final)) : next.top + count = stack.top := by
  induction count generalizing stack vars with
  | zero =>
      cases copied
      rfl
  | succ count ih =>
      rcases Exec.bind_eq_ok.mp copied with ⟨⟨slot, middle⟩, popped, rest⟩
      rcases Exec.bind_eq_ok.mp rest with ⟨set, -, later⟩
      rcases OperandStack.popSlot_eq_ok popped with ⟨rfl, positive⟩
      have here := ih later
      simp only [OperandStack.popped] at here
      omega

/-! ## Passing arguments -/

/-- After the arguments were pushed on the stack `before` of a frame,
`InvokeMethod` returns, the caller's stack is as it was before the pushes, and
the callee reads every argument at its local variable index. -/
def PassesArguments (vm : Vm) (caller : Frame) (rest : List Frame) (method : Method)
    (before pushed : OperandStack) (args : List Value) : Prop :=
  ∃ next callee stack, invokeMethod vm (caller.setStack pushed) rest method = .ok next ∧
    next.thread.frames = callee :: caller.setStack stack :: rest ∧
    stack.top = before.top ∧ stack.slots.getSize = before.slots.getSize ∧
    stack.slots.slots.take before.top = before.slots.slots.take before.top ∧
    ∀ earlier value later, args = earlier ++ value :: later →
      callee.localVars.getValue (argIndex earlier) value.kind = .ok value

/-- What `InvokeMethod` does when the frame fits and the slots are copied. -/
theorem invokeMethod_eq {vm : Vm} {frame : Frame} {rest : List Frame} {method : Method}
    {stack : OperandStack} {vars : Slots}
    (room : Thread.HasRoom (rest.length + 1) method)
    (copied : copyArgs method.argSlotCount frame.operandStack (Frame.ofMethod method).localVars =
      .ok (stack, vars)) :
    ∃ next, invokeMethod vm frame rest method = .ok next ∧
      next.thread.frames =
        (Frame.ofMethod method).setVars vars :: frame.setStack stack :: rest := by
  refine ⟨({ vm with thread := ⟨vm.thread.pc, Frame.ofMethod method :: frame :: rest⟩ }).setFrames
    ((Frame.ofMethod method).setVars vars :: frame.setStack stack :: rest), ?_, rfl⟩
  have created := @Thread.createFrame_of_hasRoom ⟨vm.thread.pc, frame :: rest⟩ _ room
  simp only [invokeMethod, created, Exec.bind_ok, copied]
  rfl

/-- An `InvokeMethod` that returns had room for the frame, and copied. -/
theorem invokeMethod_eq_ok {vm next : Vm} {frame : Frame} {rest : List Frame} {method : Method}
    (invoked : invokeMethod vm frame rest method = .ok next) :
    Thread.HasRoom (rest.length + 1) method ∧
      ∃ stack vars, copyArgs method.argSlotCount frame.operandStack
          (Frame.ofMethod method).localVars = .ok (stack, vars) ∧
        next.thread.frames =
          (Frame.ofMethod method).setVars vars :: frame.setStack stack :: rest := by
  rcases Exec.bind_eq_ok.mp invoked with ⟨thread, created, later⟩
  rcases Exec.bind_eq_ok.mp later with ⟨⟨stack, vars⟩, copied, same⟩
  cases same
  exact ⟨Thread.hasRoom_of_createFrame created, stack, vars, copied, rfl⟩

theorem argIndex_le_argWidth (values : List Value) : argIndex values ≤ argWidth values := by
  induction values with
  | nil => exact Nat.le_refl _
  | cons value values ih =>
      simp only [argIndex, argWidth, List.map_cons, List.sum_cons] at ih ⊢
      exact Nat.add_le_add value.kind.indices_le_width ih

theorem argIndex_pos {values : List Value} (nonempty : values ≠ []) : 0 < argIndex values := by
  cases values with
  | nil => exact absurd rfl nonempty
  | cons value values =>
      have here : 0 < value.kind.indices := by cases value.kind <;> decide
      rw [argIndex, List.map_cons, List.sum_cons]
      exact Nat.lt_of_lt_of_le here (Nat.le_add_right _ _)

/-- Values take as many indices as slots exactly when none is a reference. -/
theorem argIndex_eq_argWidth_iff {values : List Value} :
    argIndex values = argWidth values ↔ ∀ value ∈ values, value.kind ≠ .ref := by
  induction values with
  | nil => simp [argIndex, argWidth]
  | cons value values ih =>
      have below := argIndex_le_argWidth values
      have here := value.kind.indices_le_width
      rw [List.forall_mem_cons, ← ih, ← Kind.indices_eq_width_iff]
      simp only [argIndex, argWidth, List.map_cons, List.sum_cons] at below ⊢
      omega

section Kinds

variable {isStatic : Bool} {params : List ParamType} {args : List Value}

theorem argIndex_eq_argIndices (kinds : args.map Value.kind = argKinds isStatic params) :
    argIndex args = argIndices isStatic params := by
  have sum : argIndex args = ((args.map Value.kind).map Kind.indices).sum := by
    rw [argIndex, List.map_map]
    rfl
  rw [sum, kinds, argKinds, argIndices]
  cases isStatic with
  | true => simp [Function.comp_def]
  | false => simp [Function.comp_def, Kind.indices, Nat.add_comm]

/-- No argument is a reference exactly when the method is static and no parameter
is a class or an array. -/
theorem no_ref_iff (kinds : args.map Value.kind = argKinds isStatic params) :
    (∀ value ∈ args, value.kind ≠ .ref) ↔
      isStatic = true ∧ ∀ type ∈ params, type.kind ≠ .ref := by
  have moved : (∀ value ∈ args, value.kind ≠ .ref) ↔ ∀ kind ∈ args.map Value.kind, kind ≠ .ref := by
    simp
  rw [moved, kinds, argKinds]
  cases isStatic with
  | true => simp
  | false => simp

end Kinds

/-- The words of one of several values are where the values before it end. -/
theorem slice_argWords (earlier later : List Value) (value : Value) (others : List Word) :
    Cells.slice (argWords (earlier ++ value :: later) ++ others) (argWidth earlier)
      value.kind.width = value.words := by
  have split : argWords (earlier ++ value :: later) ++ others =
      argWords earlier ++ (value.words ++ (argWords later ++ others)) := by
    simp [argWords]
  rw [split, ← length_argWords, ← Value.length_words, Cells.slice, List.drop_left, List.take_left]

section Passing

variable {vm : Vm} {caller : Frame} {rest : List Frame} {method : Method}
  {before pushed : OperandStack} {args : List Value} {words : List Word}

/-- Arguments without references arrive, unless the stack is full or the frame
does not fit. -/
theorem passesArguments_of_no_ref (count : method.argSlotCount = argIndex args)
    (locals : argIndex args ≤ method.maxLocals) (small : method.maxLocals < 2 ^ 16)
    (holds : before.Holds words) (pushedEq : pushAll before args = .ok pushed)
    (noRef : ∀ value ∈ args, value.kind ≠ .ref)
    (spare : args = [] ∨ before.top + argWidth args < before.slots.getSize)
    (room : Thread.HasRoom (rest.length + 1) method) :
    PassesArguments vm caller rest method before pushed args := by
  rcases holds_of_pushAll holds pushedEq with ⟨pushedHolds, size⟩
  have widths := argIndex_eq_argWidth_iff.mpr noRef
  have varsSize : (Frame.ofMethod method).localVars.getSize = method.maxLocals := by
    rw [Frame.ofMethod, Slots.getSize_ofCount]
    exact Nat.mod_eq_of_lt small
  have length : (argWords args).length = method.argSlotCount := by
    rw [length_argWords, count, widths]
  have notFull : argWords args = [] ∨
      words.length + (argWords args).length < pushed.slots.getSize := by
    rcases spare with rfl | spare
    · exact Or.inl rfl
    · right
      rw [size, length_argWords, ← holds.top_eq]
      exact spare
  have fits : (argWords args).length ≤ (Frame.ofMethod method).localVars.getSize := by
    rw [varsSize, length, count]
    exact locals
  have copied := copyArgs_eq pushedHolds notFull fits (by rw [varsSize]; exact small)
  rw [length] at copied
  rcases @invokeMethod_eq vm (caller.setStack pushed) rest method _ _ room copied with
    ⟨next, invoked, frames⟩
  refine ⟨next, _, _, invoked, frames, ?_, ?_, ?_, ?_⟩
  · rw [OperandStack.popped, pushedHolds.top_eq, List.length_append, length, holds.top_eq]
    exact Nat.add_sub_cancel _ _
  · exact size
  · have live := congrArg (List.take before.top) pushedHolds.held
    rw [List.take_take, holds.top_eq, List.length_append, Nat.min_eq_left (Nat.le_add_right _ _),
      List.take_left] at live
    rw [holds.top_eq]
    exact live.trans holds.held.symm
  · rintro earlier value later rfl
    have earlierNoRef : ∀ other ∈ earlier, other.kind ≠ .ref :=
      fun other mem => noRef other (List.mem_append_left _ mem)
    rw [argIndex_eq_argWidth_iff.mpr earlierNoRef]
    apply Slots.getValue_of_slice_eq
    · have total : (argWords (earlier ++ value :: later)).length =
          argWidth earlier + (value.kind.width + argWidth later) := by
        rw [length_argWords]
        simp [argWidth]
      rw [Frame.setVars_localVars, Slots.getSize, List.length_append, total]
      omega
    · exact slice_argWords earlier later value _

/-- Where the arguments arrive, none is a reference, the stack was not full, and
the frame fitted. -/
theorem no_ref_of_passesArguments (count : method.argSlotCount = argIndex args)
    (holds : before.Holds words) (pushedEq : pushAll before args = .ok pushed)
    (passes : PassesArguments vm caller rest method before pushed args) :
    (∀ value ∈ args, value.kind ≠ .ref) ∧
      (args = [] ∨ before.top + argWidth args < before.slots.getSize) ∧
      Thread.HasRoom (rest.length + 1) method := by
  rcases holds_of_pushAll holds pushedEq with ⟨pushedHolds, size⟩
  rcases passes with ⟨next, callee, stack, invoked, frames, top, -⟩
  rcases invokeMethod_eq_ok invoked with ⟨room, stack', vars, copied, frames'⟩
  have sameStack : stack' = stack := by
    rw [frames] at frames'
    injection frames' with _ below
    injection below with callerEq _
    exact (congrArg Frame.operandStack callerEq).symm
  have lowered := top_of_copyArgs copied
  have topPushed : pushed.top = before.top + argWidth args := by
    rw [pushedHolds.top_eq, List.length_append, length_argWords, holds.top_eq]
  -- the loop has to pop as many slots as were pushed
  have widths : argIndex args = argWidth args := by
    rw [sameStack, top, Frame.setStack_operandStack, topPushed, count] at lowered
    omega
  refine ⟨argIndex_eq_argWidth_iff.mp widths, ?_, room⟩
  by_contra full
  rw [not_or] at full
  have wholeStack : (words ++ argWords args).length = pushed.slots.getSize := by
    have fits := pushedHolds.fits
    rw [List.length_append, length_argWords, ← holds.top_eq, size] at fits ⊢
    omega
  exact absurd copied (copyArgs_ne_ok pushedHolds wholeStack
    (by rw [count]; exact argIndex_pos full.1) _)

end Passing

/-- For every method and every list of parameter types, every caller and every
operand stack on which the receiver and the arguments fit: they are passed to
the callee if and only if the method is static, no parameter is a class or an
array, the arguments do not fill the stack to its last slot, and the new frame
passes the check of the thread and ends inside its buffer. -/
theorem passesArguments_iff {vm : Vm} {caller : Frame} {rest : List Frame} {member : ClassMember}
    {code : Option CodeInfo} {method : Method} {params : List ParamType} {returnType : Str}
    {before pushed : OperandStack} {args : List Value} (named : ∀ type ∈ params, type.Named)
    (descriptor : member.descriptor = renderDescriptor params returnType)
    (created : Method.ofMember member code = .ok method)
    (locals : argIndices member.isStatic params ≤ method.maxLocals)
    (small : method.maxLocals < 2 ^ 16) (inside : before.top ≤ before.slots.getSize)
    (sized : before.slots.getSize < 2 ^ 16)
    (kinds : args.map Value.kind = argKinds member.isStatic params)
    (pushedEq : pushAll before args = .ok pushed) :
    PassesArguments vm caller rest method before pushed args ↔
      member.isStatic = true ∧ (∀ type ∈ params, type.kind ≠ .ref) ∧
        (args = [] ∨ before.top + argWidth args < before.slots.getSize) ∧
        Thread.HasRoom (rest.length + 1) method := by
  have count : method.argSlotCount = argIndex args := by
    rw [(argSlotCount_ofMember named descriptor created).1, argIndex_eq_argIndices kinds]
  have holds := OperandStack.holds_take inside sized
  rw [← argIndex_eq_argIndices kinds] at locals
  constructor
  · intro passes
    rcases no_ref_of_passesArguments count holds pushedEq passes with ⟨noRef, spare, room⟩
    rcases (no_ref_iff kinds).mp noRef with ⟨isStatic, noRefParam⟩
    exact ⟨isStatic, noRefParam, spare, room⟩
  · rintro ⟨isStatic, noRefParam, spare, room⟩
    exact passesArguments_of_no_ref count locals small holds pushedEq
      ((no_ref_iff kinds).mpr ⟨isStatic, noRefParam⟩) spare room

/-- `static void f(int, long)`. -/
def twoArguments : Method where
  accessFlags := 0x0008
  name := str "f"
  descriptor := renderDescriptor [⟨0, .prim .int⟩, ⟨0, .prim .long⟩] (str "V")
  codes := some (padded [0xb1])
  maxLocals := 3
  argSlotCount := 3
  exceptionTable := some [emptyHandler]

theorem passesArguments_iff_twoArguments :
    Method.ofMember twoArguments.toClassMember
        (some ⟨0, 3, padded [0xb1], [emptyHandler]⟩) = .ok twoArguments ∧
      ∃ pushed, pushAll (.ofSize 4) [.int 7, .long 5] = .ok pushed ∧
        PassesArguments (.ofFrames []) (.ofMethod {}) [] twoArguments (.ofSize 4) pushed
          [.int 7, .long 5] := by
  have created : Method.ofMember twoArguments.toClassMember
    (some ⟨0, 3, padded [0xb1], [emptyHandler]⟩) = .ok twoArguments := rfl
  have named : ∀ type ∈ [ParamType.mk 0 (.prim .int), ⟨0, .prim .long⟩], type.Named := by
    simp [ParamType.Named]
  have returns : ∃ pushed, pushAll (.ofSize 4) [.int 7, .long 5] = .ok pushed := ⟨_, rfl⟩
  rcases returns with ⟨pushed, pushedEq⟩
  refine ⟨created, pushed, pushedEq, ?_⟩
  exact (passesArguments_iff named rfl created (by decide) (by decide) (by decide) (by decide)
    rfl pushedEq).mpr ⟨by decide, by decide, Or.inr (by decide), by decide⟩

/-- The receiver of `void g()` takes two slots of the caller's stack, of which
one is popped. -/
theorem receiver_not_passed :
    ∃ method pushed,
      Method.ofMember { name := str "g", descriptor := renderDescriptor [] (str "V") }
        (some ⟨0, 1, padded [0xb1], [emptyHandler]⟩) = .ok method ∧
      pushAll (.ofSize 3) [.ref 0x10] = .ok pushed ∧
      ¬ PassesArguments (.ofFrames []) (.ofMethod {}) [] method (.ofSize 3) pushed
        [.ref 0x10] := by
  refine ⟨_, _, rfl, rfl, ?_⟩
  intro passes
  have noRef := (no_ref_of_passesArguments rfl (OperandStack.holds_ofSize (by decide)) rfl passes).1
  exact noRef (.ref 0x10) List.mem_cons_self rfl

/-! ## The receiver -/

/-- The receiver is found below its arguments: the pushes return, and
`GetRefFromTop` of the slots of the arguments returns it.  The function reads
the stack and leaves it as it is. -/
def FindsReceiver (stack : OperandStack) (ref : DWord) (args : List Value) : Prop :=
  ∃ called, pushAll stack (.ref ref :: args) = .ok called ∧
    called.getRefFromTop (BitVec.ofNat 32 (argWidth args)) = .ok ref

/-- The check of `GetRefFromTop` refuses a reference that starts at the bottom
of the stack. -/
theorem getRefFromTop_eq {stack : OperandStack} {words block : List Word} {ref : DWord}
    (holds : stack.Holds (words ++ ref.words ++ block)) :
    stack.getRefFromTop (BitVec.ofNat 32 block.length) =
      if words = [] then
        fatal ("GetRefFromTop operand_stack_ size less than " ++ toString block.length)
      else .ok ref := by
  have below := holds.popped
  have fits := holds.fits
  have sized := holds.sized
  have top : stack.top = words.length + 2 + block.length := by
    rw [holds.top_eq, List.length_append, List.length_append, DWord.length_words]
  simp only [List.length_append, DWord.length_words] at fits
  have lengthEq : (BitVec.ofNat 32 block.length).toNat = block.length := by
    rw [BitVec.toNat_ofNat]
    exact Nat.mod_eq_of_lt (by omega)
  have guard : BitVec.ofNat 32 stack.top ≤ BitVec.ofNat 32 block.length + 2#32 ↔ words = [] := by
    rw [BitVec.le_def, BitVec.toNat_add, lengthEq, BitVec.toNat_ofNat, BitVec.toNat_ofNat,
      ← List.length_eq_zero_iff, top]
    omega
  have index : (BitVec.ofNat 32 stack.top - BitVec.ofNat 32 block.length - 2#32).toNat % 2 ^ 16 =
      words.length := by
    rw [BitVec.toNat_sub, BitVec.toNat_sub, lengthEq, BitVec.toNat_ofNat, BitVec.toNat_ofNat, top]
    omega
  have held : Cells.slice stack.slots.slots words.length 2 = ref.words := by
    have block := below.slice_eq
    rwa [below.top_eq, List.length_append, DWord.length_words, Nat.add_sub_cancel] at block
  rw [OperandStack.getRefFromTop, if_congr guard rfl rfl, lengthEq, index, Slots.getRef,
    Slots.getLong_of_slice_eq (by omega) held]

/-- For every operand stack, every reference and all arguments that fit: the
receiver is found exactly when it is not the lowest value on the stack. -/
theorem findsReceiver_iff {stack : OperandStack} {ref : DWord} {args : List Value}
    (sized : stack.slots.getSize < 2 ^ 16)
    (room : stack.top + 2 + argWidth args ≤ stack.slots.getSize) :
    FindsReceiver stack ref args ↔ 0 < stack.top := by
  have holds := OperandStack.holds_take (show stack.top ≤ stack.slots.getSize by omega) sized
  have sum : argWidth (.ref ref :: args) = 2 + argWidth args := by
    simp [argWidth, Value.kind, Kind.width]
  rcases pushAll_of_le (.ref ref :: args) holds (by rw [← holds.top_eq, sum]; omega) with
    ⟨called, pushed⟩
  have calledHolds := (holds_of_pushAll holds pushed).1
  have words : argWords (.ref ref :: args) = ref.words ++ argWords args := rfl
  rw [words, ← List.append_assoc] at calledHolds
  have found := getRefFromTop_eq calledHolds
  rw [length_argWords] at found
  have empty : stack.slots.slots.take stack.top = [] ↔ stack.top = 0 := by
    rw [← List.length_eq_zero_iff, ← holds.top_eq]
  constructor
  · rintro ⟨other, otherPushed, otherFound⟩
    rw [pushed] at otherPushed
    cases otherPushed
    rw [Nat.pos_iff_ne_zero]
    intro bottom
    rw [found, if_pos (empty.mpr bottom)] at otherFound
    cases otherFound
  · intro above
    refine ⟨called, pushed, ?_⟩
    rw [found, if_neg fun bottom => Nat.ne_of_gt above (empty.mp bottom)]

/-- An `int` below the receiver, and a `long` argument. -/
theorem findsReceiver_above_int :
    ∃ stack, pushAll (.ofSize 5) [.int 7] = .ok stack ∧
      FindsReceiver stack 0x10 [.long 5] := by
  have returns : ∃ stack, pushAll (.ofSize 5) [.int 7] = .ok stack ∧ 0 < stack.top ∧
      stack.slots.getSize < 2 ^ 16 ∧ stack.top + 2 + argWidth [.long 5] ≤ stack.slots.getSize :=
    ⟨_, rfl, by decide, by decide, by decide⟩
  rcases returns with ⟨stack, pushed, above, sized, room⟩
  exact ⟨stack, pushed, (findsReceiver_iff sized room).mpr above⟩

/-- The receiver of a call without arguments on an otherwise empty stack. -/
theorem lowest_receiver_not_found :
    (∃ called, pushAll (.ofSize 2) [.ref 0x10] = .ok called ∧ Aborts (called.getRefFromTop 0)) ∧
      ¬ FindsReceiver (.ofSize 2) 0x10 [] := by
  have aborts : ∃ called, pushAll (.ofSize 2) [.ref 0x10] = .ok called ∧
      Aborts (called.getRefFromTop 0) := ⟨_, rfl, _, rfl⟩
  refine ⟨aborts, ?_⟩
  rintro ⟨called, pushed, found⟩
  rcases aborts with ⟨same, samePushed, message, aborted⟩
  rw [pushed] at samePushed
  cases samePushed
  have none : BitVec.ofNat 32 (argWidth []) = 0 := rfl
  rw [none, aborted] at found
  cases found

end JvmDemo.Instructions
