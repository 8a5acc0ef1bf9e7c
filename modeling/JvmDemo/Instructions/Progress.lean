import JvmDemo.Instructions.Instruction

/-!
# Decoding moves forward

Whatever the bytes are, an instruction that was read ends behind the address it
was read from.
-/

namespace JvmDemo.Instructions

open JvmDemo.Lib
open JvmDemo.Runtime
open JvmDemo.Lib.Reader
open BytecodeReader

theorem advances_readUnsignedInt8 : Advances readUnsignedInt8 := advances_next _

theorem advances_readUnsignedInt16 : Advances readUnsignedInt16 :=
  advances_readUnsignedInt8.bind fun _ => advances_readUnsignedInt8.map _

theorem advances_readInt32 : Advances readInt32 :=
  advances_readUnsignedInt8.bind fun _ => advances_readUnsignedInt8.bind fun _ =>
    advances_readUnsignedInt8.bind fun _ => advances_readUnsignedInt8.map _

theorem advances_readInt32s (n : BitVec 32) : Advances (readInt32s n) :=
  advances_readInt32.times _

theorem advances_skipPaddingLoop (fuel : Nat) : Advances (skipPaddingLoop fuel) := by
  induction fuel with
  | zero => exact advances_pure ()
  | succ fuel ih =>
      apply advances_position.bind
      intro pc
      split
      · exact advances_pure ()
      · exact advances_readUnsignedInt8.bind fun _ => ih

theorem advances_fetchIndex8 : Advances fetchIndex8 := advances_readUnsignedInt8.map _

theorem advances_fetchIndex16 : Advances fetchIndex16 := advances_readUnsignedInt16.map _

theorem advances_fetchOffset : Advances fetchOffset := advances_readUnsignedInt16.map _

theorem advances_fetchWide : Advances fetchWide := by
  apply advances_readUnsignedInt8.bind
  intro opcode
  split
  all_goals first
    | exact advances_fetchIndex16.map _
    | exact advances_fetchIndex16.bind fun _ => advances_readUnsignedInt16.map _
    | exact advances_pure _

theorem FrameInst.advances_fetchOperands (inst : FrameInst) : Advances inst.fetchOperands := by
  cases inst with
  | bipush val => exact advances_readUnsignedInt8.map _
  | sipush val => exact advances_readUnsignedInt16.map _
  | load kind index => exact advances_fetchIndex8.map _
  | store kind index => exact advances_fetchIndex8.map _
  | iinc index const => exact advances_fetchIndex8.bind fun _ => advances_readUnsignedInt8.map _
  | if_ cond offset => exact advances_fetchOffset.map _
  | ifIcmp cond offset => exact advances_fetchOffset.map _
  | ifAcmpeq offset => exact advances_fetchOffset.map _
  | ifAcmpne offset => exact advances_fetchOffset.map _
  | goto offset => exact advances_fetchOffset.map _
  | tableSwitch defaultOffset low high offsetTable =>
      exact (advances_skipPaddingLoop 3).bind fun _ => advances_readInt32.bind fun _ =>
        advances_readInt32.bind fun _ => advances_readInt32.bind fun _ =>
          (advances_readInt32s _).map _
  | lookupSwitch defaultOffset npairs offsetTable =>
      exact (advances_skipPaddingLoop 3).bind fun _ => advances_readInt32.bind fun _ =>
        advances_readInt32.bind fun _ => (advances_readInt32s _).map _
  | wide inst => exact advances_fetchWide.map _
  | ifnull offset => exact advances_fetchOffset.map _
  | ifnonnull offset => exact advances_fetchOffset.map _
  | gotoW offset => exact advances_readInt32.map _
  | _ => exact advances_pure _

theorem Instruction.advances_fetchOperands (inst : Instruction) :
    Advances inst.fetchOperands := by
  cases inst with
  | frame inst => exact inst.advances_fetchOperands.map _
  | ldc index => exact advances_fetchIndex8.map _
  | invokeInterface index =>
      exact advances_fetchIndex16.bind fun _ => advances_readUnsignedInt8.bind fun _ =>
        advances_readUnsignedInt8.map _
  | newArray arrayType => exact advances_readUnsignedInt8.map _
  | multiAnewArray index dimensions =>
      exact advances_readUnsignedInt16.bind fun _ => advances_readUnsignedInt8.map _
  | return_ kind => exact advances_pure _
  | invokeNative => exact advances_pure _
  | athrow => exact advances_pure _
  | _ => exact advances_fetchIndex16.map _

/-- An instruction has at least its opcode. -/
theorem lt_of_fetch {code : List Byte} {pc : Nat} {inst : Instruction} {cursor : Cursor}
    (fetched : fetch.runAt code pc = .ok (inst, cursor)) : pc < cursor.pos := by
  rcases bind_eq_ok fetched with ⟨opcode, middle, opcodeEq, operands⟩
  have moved : middle.pos = pc + 1 := next_pos opcodeEq
  cases created : createInstruction opcode with
  | none =>
      rw [created] at operands
      cases operands
  | some blank =>
      rw [created] at operands
      have further := blank.advances_fetchOperands operands
      rw [moved] at further
      exact further

end JvmDemo.Instructions
