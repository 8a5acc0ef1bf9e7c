import JvmDemo.Instructions.FrameExecution
import JvmDemo.Runtime.FrameShape

/-!
# Frame-local instructions keep the shape of their frame

Every instruction is made of pops, pushes and stores into local variables.  Each
shape of instruction inherits from them that the method and the sizes of the
slot arrays stay, whatever the operands are.
-/

namespace JvmDemo.Instructions

open JvmDemo.Lib
open JvmDemo.Runtime
open JvmDemo.Runtime.OperandStack

variable {frame next : Frame}

/-! ## Shapes -/

section Shapes

variable {α β : Type} {pop : OperandStack → Exec (α × OperandStack)}

theorem keeps_binary {push : OperandStack → α → Exec OperandStack} {op : α → α → Exec α}
    (lowers : Lowers pop) (raises : Raises push) (done : binary pop push op frame = .ok next) :
    frame.Keeps next := by
  rcases Exec.bind_eq_ok.mp done with ⟨⟨value1, first⟩, popped1, rest1⟩
  rcases Exec.bind_eq_ok.mp rest1 with ⟨⟨value2, second⟩, popped2, rest2⟩
  rcases Exec.bind_eq_ok.mp rest2 with ⟨result, -, rest3⟩
  rcases Exec.bind_eq_ok.mp rest3 with ⟨stack, pushed, same⟩
  cases same
  exact Frame.keeps_setStack (((lowers popped1).trans (lowers popped2)).trans (raises pushed))

theorem keeps_shift {push : OperandStack → α → Exec OperandStack} {op : α → Word → Exec α}
    (lowers : Lowers pop) (raises : Raises push) (done : shift pop push op frame = .ok next) :
    frame.Keeps next := by
  rcases Exec.bind_eq_ok.mp done with ⟨⟨amount, first⟩, popped1, rest1⟩
  rcases Exec.bind_eq_ok.mp rest1 with ⟨⟨value, second⟩, popped2, rest2⟩
  rcases Exec.bind_eq_ok.mp rest2 with ⟨result, -, rest3⟩
  rcases Exec.bind_eq_ok.mp rest3 with ⟨stack, pushed, same⟩
  cases same
  have amountPopped := lowers_popInt popped1
  exact Frame.keeps_setStack ((amountPopped.trans (lowers popped2)).trans (raises pushed))

theorem keeps_unary {push : OperandStack → β → Exec OperandStack} {op : α → β}
    (lowers : Lowers pop) (raises : Raises push) (done : unary pop push op frame = .ok next) :
    frame.Keeps next := by
  rcases Exec.bind_eq_ok.mp done with ⟨⟨value, first⟩, popped, rest⟩
  rcases Exec.bind_eq_ok.mp rest with ⟨stack, pushed, same⟩
  cases same
  exact Frame.keeps_setStack ((lowers popped).trans (raises pushed))

/-- The second push of an unordered comparison needs room, too. -/
theorem keeps_compare {unordered : α → α → Option Word} {lt eq : α → α → Bool}
    (lowers : Lowers pop) (done : compare pop unordered lt eq frame = .ok next) :
    frame.Keeps next := by
  rcases Exec.bind_eq_ok.mp done with ⟨⟨v1, first⟩, popped1, rest1⟩
  rcases Exec.bind_eq_ok.mp rest1 with ⟨⟨v2, second⟩, popped2, rest2⟩
  have popped := (lowers popped1).trans (lowers popped2)
  dsimp only at rest2
  split at rest2
  · rcases Exec.bind_eq_ok.mp rest2 with ⟨third, pushed1, rest3⟩
    rcases Exec.bind_eq_ok.mp rest3 with ⟨stack, pushed2, same⟩
    cases same
    exact Frame.keeps_setStack
      ((popped.trans (raises_pushInt pushed1)).trans (raises_pushInt pushed2))
  · rw [Exec.bind_pure] at rest2
    rcases Exec.bind_eq_ok.mp rest2 with ⟨stack, pushed, same⟩
    cases same
    exact Frame.keeps_setStack (popped.trans (raises_pushInt pushed))

theorem keeps_branchIf {pc offset : BitVec 32} {test : Word → Bool}
    (done : branchIf pc offset test frame = .ok next) : frame.Keeps next := by
  rcases Exec.bind_eq_ok.mp done with ⟨⟨val, stack⟩, popped, same⟩
  have kept := Frame.keeps_setStack (lowers_popInt popped)
  dsimp only at same
  split at same <;> cases same
  · exact kept.trans (Frame.keeps_setNextPc _ _)
  · exact kept

theorem keeps_branchIf2 {pc offset : BitVec 32} {test : Word → Word → Bool}
    (done : branchIf2 pc offset test frame = .ok next) : frame.Keeps next := by
  rcases Exec.bind_eq_ok.mp done with ⟨⟨val1, first⟩, popped1, rest⟩
  rcases Exec.bind_eq_ok.mp rest with ⟨⟨val2, stack⟩, popped2, same⟩
  have kept := Frame.keeps_setStack
    ((lowers_popInt popped1).trans (lowers_popInt popped2))
  dsimp only at same
  split at same <;> cases same
  · exact kept.trans (Frame.keeps_setNextPc _ _)
  · exact kept

theorem keeps_branchIfRef {pc offset : BitVec 32} {test : DWord → Bool}
    (done : branchIfRef pc offset test frame = .ok next) : frame.Keeps next := by
  rcases Exec.bind_eq_ok.mp done with ⟨⟨ref, stack⟩, popped, same⟩
  have kept := Frame.keeps_setStack (lowers_popRef popped)
  dsimp only at same
  split at same <;> cases same
  · exact kept.trans (Frame.keeps_setNextPc _ _)
  · exact kept

theorem keeps_branchIfRefs {pc offset : BitVec 32} {test : DWord → DWord → Bool}
    (done : branchIfRefs pc offset test frame = .ok next) : frame.Keeps next := by
  rcases Exec.bind_eq_ok.mp done with ⟨⟨ref1, first⟩, popped1, rest⟩
  rcases Exec.bind_eq_ok.mp rest with ⟨⟨ref2, stack⟩, popped2, same⟩
  have kept := Frame.keeps_setStack
    ((lowers_popRef popped1).trans (lowers_popRef popped2))
  dsimp only at same
  split at same <;> cases same
  · exact kept.trans (Frame.keeps_setNextPc _ _)
  · exact kept

end Shapes

/-! ## Loads, stores and shuffles -/

theorem keeps_pushConst {value : Value} (done : pushConst frame value = .ok next) :
    frame.Keeps next := by
  rcases Exec.bind_eq_ok.mp done with ⟨stack, pushed, same⟩
  cases same
  exact Frame.keeps_setStack (evolves_push pushed)

theorem keeps_executeLoad {kind : Kind} {index : BitVec 32}
    (done : executeLoad frame kind index = .ok next) : frame.Keeps next := by
  rcases Exec.bind_eq_ok.mp done with ⟨value, -, rest⟩
  exact keeps_pushConst rest

theorem keeps_executeStore {kind : Kind} {index : BitVec 32}
    (done : executeStore frame kind index = .ok next) : frame.Keeps next := by
  rcases Exec.bind_eq_ok.mp done with ⟨⟨value, stack⟩, popped, rest⟩
  rcases Exec.bind_eq_ok.mp rest with ⟨vars, stored, same⟩
  cases same
  have kept := Frame.keeps_setStack (lowers_pop kind popped)
  exact kept.trans (Frame.keeps_setVars (Slots.getSize_of_setValue stored))

theorem keeps_executeIinc {index const : BitVec 32}
    (done : executeIinc frame index const = .ok next) : frame.Keeps next := by
  rcases Exec.bind_eq_ok.mp done with ⟨val, -, rest⟩
  rcases Exec.bind_eq_ok.mp rest with ⟨vars, stored, same⟩
  cases same
  have typed : frame.localVars.setValue (index.toNat % 2 ^ 16) (.int (val + const)) = .ok vars :=
    stored
  exact Frame.keeps_setVars (Slots.getSize_of_setValue typed)

theorem keeps_wide {inst : WideInst} (done : inst.execute frame = .ok next) :
    frame.Keeps next := by
  cases inst with
  | load kind index => exact keeps_executeLoad done
  | store kind index => exact keeps_executeStore done
  | loadVoidPtr index =>
      cases done
      exact .refl frame
  | storeVoidPtr index =>
      cases done
      exact .refl frame
  | iinc index const => exact keeps_executeIinc done

theorem keeps_executeArrayLoad (done : executeArrayLoad frame = .ok next) : frame.Keeps next := by
  rcases Exec.bind_eq_ok.mp done with ⟨⟨index, first⟩, popped1, rest1⟩
  rcases Exec.bind_eq_ok.mp rest1 with ⟨⟨arrRef, stack⟩, popped2, rest2⟩
  dsimp only at rest2
  split at rest2
  · cases rest2
  · split at rest2
    · cases rest2
    · cases rest2
      exact Frame.keeps_setStack ((lowers_popInt popped1).trans (lowers_popRef popped2))

theorem keeps_executeArrayStore {elem : ElemTy} (done : executeArrayStore frame elem = .ok next) :
    frame.Keeps next := by
  rcases Exec.bind_eq_ok.mp done with ⟨⟨value, first⟩, popped1, rest1⟩
  rcases Exec.bind_eq_ok.mp rest1 with ⟨⟨index, second⟩, popped2, rest2⟩
  rcases Exec.bind_eq_ok.mp rest2 with ⟨⟨arrRef, stack⟩, popped3, rest3⟩
  have kept := Frame.keeps_setStack
    (((lowers_pop elem.kind popped1).trans (lowers_popInt popped2)).trans
      (lowers_popRef popped3))
  dsimp only at rest3
  split at rest3
  · cases rest3
    exact kept
  · split at rest3
    · cases rest3
    · cases rest3
      exact kept

theorem evolves_popSlots {count : Nat} {stack left : OperandStack} {slots : List Slot}
    (popped : popSlots count stack = .ok (slots, left)) : stack.Evolves left := by
  induction count generalizing stack slots with
  | zero =>
      cases popped
      exact .refl _
  | succ count ih =>
      rcases Exec.bind_eq_ok.mp popped with ⟨⟨slot, middle⟩, first, rest⟩
      rcases Exec.bind_eq_ok.mp rest with ⟨⟨others, last⟩, second, same⟩
      cases same
      exact (lowers_popSlot first).trans (ih second)

theorem evolves_pushSlots {slots : List Slot} {stack left : OperandStack}
    (pushed : pushSlots slots stack = .ok left) : stack.Evolves left := by
  induction slots generalizing stack with
  | nil =>
      cases pushed
      exact .refl _
  | cons slot slots ih =>
      rcases Exec.bind_eq_ok.mp pushed with ⟨middle, first, rest⟩
      exact (evolves_pushSlot first).trans (ih rest)

theorem keeps_shuffle {count : Nat} {order : List Nat}
    (done : shuffle count order frame = .ok next) : frame.Keeps next := by
  rcases Exec.bind_eq_ok.mp done with ⟨⟨slots, lowered⟩, popped, rest⟩
  rcases Exec.bind_eq_ok.mp rest with ⟨stack, pushed, same⟩
  cases same
  exact Frame.keeps_setStack ((evolves_popSlots popped).trans (evolves_pushSlots pushed))

/-! ## Instructions by type -/

section Types

variable {ops : FloatOps}

theorem keeps_arithmetic {int : (width : Nat) → BitVec width → BitVec width → BitVec width}
    {float : {α : Type} → FloatArith α → α → α → α} {type : NumTy}
    (done : arithmetic ops int float frame type = .ok next) : frame.Keeps next := by
  unfold arithmetic at done
  cases type with
  | int32 => exact keeps_binary lowers_popInt raises_pushInt done
  | int64 => exact keeps_binary lowers_popLong raises_pushLong done
  | float => exact keeps_binary lowers_popFloat raises_pushFloat done
  | double => exact keeps_binary lowers_popDouble raises_pushDouble done

theorem keeps_bitwise {int : (width : Nat) → BitVec width → BitVec width → BitVec width}
    {type : IntTy} (done : bitwise int frame type = .ok next) : frame.Keeps next := by
  unfold bitwise at done
  cases type with
  | int32 => exact keeps_binary lowers_popInt raises_pushInt done
  | int64 => exact keeps_binary lowers_popLong raises_pushLong done

theorem keeps_shiftInst {op : (width : Nat) → BitVec width → Nat → BitVec width} {type : IntTy}
    (done : shiftInst op frame type = .ok next) : frame.Keeps next := by
  unfold shiftInst at done
  cases type with
  | int32 => exact keeps_shift lowers_popInt raises_pushInt done
  | int64 => exact keeps_shift lowers_popLong raises_pushLong done

theorem keeps_convert {conversion : Conversion} (done : convert ops frame conversion = .ok next) :
    frame.Keeps next := by
  unfold convert at done
  cases conversion with
  | i2l => exact keeps_unary lowers_popInt raises_pushLong done
  | i2f => exact keeps_unary lowers_popInt raises_pushFloat done
  | i2d => exact keeps_unary lowers_popInt raises_pushDouble done
  | l2i => exact keeps_unary lowers_popLong raises_pushInt done
  | l2f => exact keeps_unary lowers_popLong raises_pushFloat done
  | l2d => exact keeps_unary lowers_popLong raises_pushDouble done
  | f2i => exact keeps_unary lowers_popFloat raises_pushInt done
  | f2l => exact keeps_unary lowers_popFloat raises_pushLong done
  | f2d => exact keeps_unary lowers_popFloat raises_pushDouble done
  | d2i => exact keeps_unary lowers_popDouble raises_pushInt done
  | d2l => exact keeps_unary lowers_popDouble raises_pushLong done
  | d2f => exact keeps_unary lowers_popDouble raises_pushFloat done

theorem keeps_floatCompare {result : Word} {type : FloatTy}
    (done : floatCompare ops result frame type = .ok next) : frame.Keeps next := by
  unfold floatCompare at done
  cases type with
  | float => exact keeps_compare lowers_popFloat done
  | double => exact keeps_compare lowers_popDouble done

theorem keeps_executeTableSwitch {pc low high : BitVec 32} {offsetTable : List (BitVec 32)}
    (done : executeTableSwitch pc low high offsetTable frame = .ok next) : frame.Keeps next := by
  rcases Exec.bind_eq_ok.mp done with ⟨⟨index, stack⟩, popped, rest⟩
  have kept := Frame.keeps_setStack (lowers_popInt popped)
  dsimp only at rest
  split at rest
  · split at rest
    · cases rest
      exact kept.trans (Frame.keeps_setNextPc _ _)
    · cases rest
  · cases rest
    exact kept.trans (Frame.keeps_setNextPc _ _)

theorem keeps_executeLookupSwitch {pc npairs : BitVec 32} {offsetTable : List (BitVec 32)}
    (done : executeLookupSwitch pc npairs offsetTable frame = .ok next) : frame.Keeps next := by
  rcases Exec.bind_eq_ok.mp done with ⟨⟨key, stack⟩, popped, rest⟩
  rcases Exec.bind_eq_ok.mp rest with ⟨found, -, same⟩
  cases same
  have kept := Frame.keeps_setStack (lowers_popInt popped)
  exact kept.trans (Frame.keeps_setNextPc _ _)

theorem keeps_executeArrayLength (done : executeArrayLength frame = .ok next) :
    frame.Keeps next := by
  rcases Exec.bind_eq_ok.mp done with ⟨⟨arrRef, stack⟩, popped, rest⟩
  dsimp only at rest
  split at rest
  · cases rest
  · cases rest
    exact Frame.keeps_setStack (lowers_popRef popped)

/-- A frame-local instruction keeps the shape of its frame. -/
theorem FrameInst.keeps_execute {pc : BitVec 32} {inst : FrameInst}
    (done : inst.execute ops pc frame = .ok next) : frame.Keeps next := by
  cases inst with
  | nop =>
      cases done
      exact .refl frame
  | aconstNull => exact keeps_pushConst done
  | iconst number => exact keeps_pushConst done
  | lconst number => exact keeps_pushConst done
  | fconst number => exact keeps_pushConst done
  | dconst number => exact keeps_pushConst done
  | bipush val => exact keeps_pushConst done
  | sipush val => exact keeps_pushConst done
  | load kind index => exact keeps_executeLoad done
  | loadN kind number => exact keeps_executeLoad done
  | arrayLoad elem => exact keeps_executeArrayLoad done
  | store kind index => exact keeps_executeStore done
  | storeN kind number => exact keeps_executeStore done
  | arrayStore elem => exact keeps_executeArrayStore done
  | pop | pop2 | dup | dupX1 | dupX2 | dup2 | dup2X1 | dup2X2 | swap => exact keeps_shuffle done
  | add type =>
      rw [FrameInst.execute] at done
      exact keeps_arithmetic done
  | sub type =>
      rw [FrameInst.execute] at done
      exact keeps_arithmetic done
  | mul type =>
      rw [FrameInst.execute] at done
      exact keeps_arithmetic done
  | div type =>
      cases type with
      | int32 => exact keeps_binary lowers_popInt raises_pushInt done
      | int64 => exact keeps_binary lowers_popLong raises_pushLong done
      | float => exact keeps_binary lowers_popFloat raises_pushFloat done
      | double => exact keeps_binary lowers_popDouble raises_pushDouble done
  | irem type =>
      cases type with
      | int32 => exact keeps_binary lowers_popInt raises_pushInt done
      | int64 => exact keeps_binary lowers_popLong raises_pushLong done
  | frem type =>
      cases type with
      | float => exact keeps_binary lowers_popFloat raises_pushFloat done
      | double => exact keeps_binary lowers_popDouble raises_pushDouble done
  | neg type =>
      cases type with
      | int32 => exact keeps_unary lowers_popInt raises_pushInt done
      | int64 => exact keeps_unary lowers_popLong raises_pushLong done
      | float => exact keeps_unary lowers_popFloat raises_pushFloat done
      | double => exact keeps_unary lowers_popDouble raises_pushDouble done
  | shl type =>
      rw [FrameInst.execute] at done
      exact keeps_shiftInst done
  | shr type =>
      rw [FrameInst.execute] at done
      exact keeps_shiftInst done
  | ushr type =>
      rw [FrameInst.execute] at done
      exact keeps_shiftInst done
  | and type =>
      rw [FrameInst.execute] at done
      exact keeps_bitwise done
  | or type =>
      rw [FrameInst.execute] at done
      exact keeps_bitwise done
  | xor type =>
      rw [FrameInst.execute] at done
      exact keeps_bitwise done
  | iinc index const => exact keeps_executeIinc done
  | t2r conversion => exact keeps_convert done
  | i2r result =>
      rw [FrameInst.execute] at done
      exact keeps_unary lowers_popInt raises_pushInt done
  | lcmp =>
      rw [FrameInst.execute] at done
      exact keeps_compare lowers_popInt done
  | fcmpl type => exact keeps_floatCompare done
  | fcmpg type => exact keeps_floatCompare done
  | if_ cond offset =>
      rw [FrameInst.execute] at done
      exact keeps_branchIf done
  | ifIcmp cond offset =>
      rw [FrameInst.execute] at done
      exact keeps_branchIf2 done
  | ifAcmpeq offset =>
      rw [FrameInst.execute] at done
      exact keeps_branchIfRefs done
  | ifAcmpne offset =>
      rw [FrameInst.execute] at done
      exact keeps_branchIfRefs done
  | goto offset =>
      cases done
      exact Frame.keeps_setNextPc _ _
  | tableSwitch defaultOffset low high offsetTable => exact keeps_executeTableSwitch done
  | lookupSwitch defaultOffset npairs offsetTable => exact keeps_executeLookupSwitch done
  | arrayLength => exact keeps_executeArrayLength done
  | wide modifiedIns =>
      cases modifiedIns with
      | none => cases done
      | some inst => exact keeps_wide done
  | ifnull offset =>
      rw [FrameInst.execute] at done
      exact keeps_branchIfRef done
  | ifnonnull offset =>
      rw [FrameInst.execute] at done
      exact keeps_branchIfRef done
  | gotoW offset =>
      cases done
      exact Frame.keeps_setNextPc _ _

end Types

end JvmDemo.Instructions
