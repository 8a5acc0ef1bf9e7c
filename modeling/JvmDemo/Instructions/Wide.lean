import JvmDemo.Instructions.Decode
import JvmDemo.Instructions.FrameExecution

/-!
# The `wide` forms

`wide` precedes a load, a store or `iinc` and gives it a two-byte index and, for
`iinc`, a two-byte constant.  `WIDE::FetchOperands` has a case of its own for each
of the eleven opcodes.  This module compares every one of them with the plain
instruction at the same index.
-/

namespace JvmDemo.Instructions

open JvmDemo.Lib
open JvmDemo.Runtime
open JvmDemo.Lib.Reader (Reads)
open BytecodeReader

/-- The instructions that `wide` may precede, with their operands. -/
inductive WideForm where
  | load (kind : Kind) (index : BitVec 16)
  | store (kind : Kind) (index : BitVec 16)
  | iinc (index const : BitVec 16)
  deriving DecidableEq, Repr

namespace WideForm

/-- The instruction without `wide`, at any index. -/
def plain : WideForm → FrameInst
  | .load kind index => .load kind (index.setWidth 32)
  | .store kind index => .store kind (index.setWidth 32)
  | .iinc index const => .iinc (index.setWidth 32) (const.signExtend 32)

/-- The bytes behind the `wide` opcode: three, or five for `iinc`. -/
def operands (form : WideForm) : List Byte :=
  BitVec.ofNat 8 form.plain.opcode ::
    match form with
    | .load _ index | .store _ index => be16 index
    | .iinc index const => be16 index ++ be16 const

end WideForm

/-- At an address, the `wide` form is fetched from its bytes and does on the frame
what the plain instruction does; and if the operands fit in the narrow encoding,
that one is fetched as the plain instruction. -/
def AgreesWithPlain (ops : FloatOps) (form : WideForm) (address : Nat) (pc : BitVec 32)
    (frame : Frame) : Prop :=
  ∃ modifiedIns,
    Reads fetch address (0xc4 :: form.operands) (.frame (.wide modifiedIns)) ∧
    (FrameInst.wide modifiedIns).execute ops pc frame = form.plain.execute ops pc frame ∧
    (form.plain.Encodable → ∀ filler : Nat → Byte,
      Reads fetch address (encode filler address (.frame form.plain)) (.frame form.plain))

/-! ## Fetching -/

/-- The factory makes an empty `WIDE` for its opcode. -/
theorem reads_fetch_wide {address : Nat} {operands : List Byte} {modifiedIns : Option WideInst}
    (reads : Reads fetchWide (address + 1) operands modifiedIns) :
    Reads fetch address (0xc4 :: operands) (.frame (.wide modifiedIns)) := by
  have created : createInstruction (BitVec.ofNat 8 0xc4) = some (.frame (.wide none)) := rfl
  exact reads_fetch created ((reads.map FrameInst.wide).map Instruction.frame)

/-- A two-byte index, as each of the cases reads it. -/
theorem reads_index16 (address : Nat) (index : BitVec 16) :
    Reads fetchIndex16 address (be16 index) (index.setWidth 32) :=
  (reads_readUnsignedInt16 address index).map (BitVec.setWidth 32)

/-- The instruction that `WIDE` holds after a load; at `void*` for a reference. -/
def wideLoad (kind : Kind) (index : BitVec 32) : WideInst :=
  if kind = .ref then .loadVoidPtr index else .load kind index

/-- The instruction that `WIDE` holds after a store. -/
def wideStore (kind : Kind) (index : BitVec 32) : WideInst :=
  if kind = .ref then .storeVoidPtr index else .store kind index

theorem reads_fetchWide_load (address : Nat) (kind : Kind) (index : BitVec 16) :
    Reads fetchWide address (WideForm.load kind index).operands
      (some (wideLoad kind (index.setWidth 32))) := by
  have taken := (reads_index16 (address + 1) index).map fun index => some (wideLoad kind index)
  apply Reader.reads_next_bind
  cases kind <;> exact taken

theorem reads_fetchWide_store (address : Nat) (kind : Kind) (index : BitVec 16) :
    Reads fetchWide address (WideForm.store kind index).operands
      (some (wideStore kind (index.setWidth 32))) := by
  have taken := (reads_index16 (address + 1) index).map fun index => some (wideStore kind index)
  apply Reader.reads_next_bind
  cases kind <;> exact taken

/-- The opcode of `iinc` is 0x84, but the case is for 84: no operand is read. -/
theorem reads_fetchWide_iinc (address : Nat) : Reads fetchWide address [0x84] none :=
  Reader.reads_next_bind _ (Reader.reads_pure none (address + 1))

/-- The narrow encoding of the same instruction. -/
theorem reads_fetch_plain (form : WideForm) (address : Nat) (filler : Nat → Byte)
    (encodable : form.plain.Encodable) :
    Reads fetch address (encode filler address (.frame form.plain)) (.frame form.plain) := by
  have short : (form.plain.operands filler address).length < 2 ^ 31 := by
    cases form with
    | load kind index => exact (by decide : 1 < 2 ^ 31)
    | store kind index => exact (by decide : 1 < 2 ^ 31)
    | iinc index const => exact (by decide : 2 < 2 ^ 31)
  obtain ⟨blank, created, reads⟩ := FrameInst.exists_blank filler address encodable short
  exact reads_fetch created (reads.map Instruction.frame)

/-! ## Executing -/

/-- A load that returns has pushed two slots, or one. -/
theorem executeLoad_ne_pure (frame : Frame) (kind : Kind) (index : BitVec 32) :
    executeLoad frame kind index ≠ pure frame := by
  intro unchanged
  obtain ⟨value, -, rest⟩ := Exec.bind_eq_ok.mp unchanged
  obtain ⟨stack, pushed, same⟩ := Exec.bind_eq_ok.mp rest
  obtain ⟨-, rfl⟩ := OperandStack.push_eq_ok pushed
  have kept : frame.operandStack.pushed value.words = frame.operandStack :=
    congrArg Frame.operandStack (Except.ok.inj same)
  have top := congrArg OperandStack.top kept
  have width := value.kind.width_pos
  have narrow := value.kind.width_le_two
  simp only [OperandStack.pushed, Value.length_words] at top
  omega

/-- A store of a reference that returns has popped two slots. -/
theorem executeStore_ref_ne_pure (frame : Frame) (index : BitVec 32) :
    executeStore frame .ref index ≠ pure frame := by
  intro unchanged
  obtain ⟨⟨value, stack⟩, popped, rest⟩ := Exec.bind_eq_ok.mp unchanged
  obtain ⟨⟨address, next⟩, poppedRef, built⟩ := Exec.bind_eq_ok.mp popped
  obtain ⟨rfl, enough⟩ := OperandStack.popRef_eq_ok poppedRef
  cases built
  obtain ⟨vars, -, same⟩ := Exec.bind_eq_ok.mp rest
  have kept : frame.operandStack.popped 2 = frame.operandStack :=
    congrArg Frame.operandStack (Except.ok.inj same)
  have top : frame.operandStack.top - 2 = frame.operandStack.top :=
    congrArg OperandStack.top kept
  omega

/-! ## Which forms agree -/

/-- The forms whose case is right: no reference, and not `iinc`. -/
def WideForm.Supported : WideForm → Prop
  | .load kind _ | .store kind _ => kind ≠ .ref
  | .iinc _ _ => False

/-- At every address and on every frame, the loads and stores of numbers agree
with the plain instruction; `aload` and `astore`, which do nothing at `void*`,
and `iinc`, whose case is never reached, do not. -/
theorem agreesWithPlain_iff (ops : FloatOps) (form : WideForm) (address : Nat) (pc : BitVec 32)
    (frame : Frame) : AgreesWithPlain ops form address pc frame ↔ form.Supported := by
  constructor
  · rintro ⟨modifiedIns, reads, agrees, -⟩
    cases form with
    | load kind index =>
        obtain ⟨same, -⟩ :=
          reads.unique (reads_fetch_wide (reads_fetchWide_load _ kind index)) List.prefix_rfl
        cases same
        rintro rfl
        exact executeLoad_ne_pure frame .ref _ agrees.symm
    | store kind index =>
        obtain ⟨same, -⟩ :=
          reads.unique (reads_fetch_wide (reads_fetchWide_store _ kind index)) List.prefix_rfl
        cases same
        rintro rfl
        exact executeStore_ref_ne_pure frame _ agrees.symm
    | iinc index const =>
        have starts : [0xc4, 0x84] <+: 0xc4 :: (WideForm.iinc index const).operands :=
          ⟨be16 index ++ be16 const, rfl⟩
        obtain ⟨-, length⟩ := (reads_fetch_wide (reads_fetchWide_iinc _)).unique reads starts
        cases length
  · intro supported
    cases form with
    | load kind index =>
        refine ⟨_, reads_fetch_wide (reads_fetchWide_load _ kind index), ?_, ?_⟩
        · rw [wideLoad, if_neg supported]
          rfl
        · exact fun encodable filler => reads_fetch_plain _ address filler encodable
    | store kind index =>
        refine ⟨_, reads_fetch_wide (reads_fetchWide_store _ kind index), ?_, ?_⟩
        · rw [wideStore, if_neg supported]
          rfl
        · exact fun encodable filler => reads_fetch_plain _ address filler encodable
    | iinc index const => exact supported.elim

/-- `wide iinc 0 1` is fetched as two bytes without an instruction; `wide aload 0`
leaves the stack alone, where `aload 0` pushes the reference. -/
theorem wide_iinc_aload_not_plain :
    (¬ AgreesWithPlain .zero (.iinc 0 1) 0 0 ((Frame.ofMethod {}).setVars ⟨[5]⟩)) ∧
    ¬ AgreesWithPlain .zero (.load .ref 0) 0 0
      (((Frame.ofMethod {}).setVars ⟨[8, 0]⟩).setStack (OperandStack.ofSize 2)) := by
  constructor
  · rintro ⟨modifiedIns, reads, -⟩
    have fetched : fetch [0xc4, 0x84, 0, 0, 0, 1] ⟨0, 0⟩ = .ok (.frame (.wide none), ⟨2, 2⟩) := rfl
    obtain ⟨touched, returned, -⟩ := reads [0xc4, 0x84, 0, 0, 0, 1] 0 List.prefix_rfl
    rw [fetched] at returned
    cases returned
  · rintro ⟨modifiedIns, reads, agrees, -⟩
    have fetched : fetch [0xc4, 0x19, 0, 0] ⟨0, 0⟩ =
        .ok (.frame (.wide (some (.loadVoidPtr 0))), ⟨4, 4⟩) := rfl
    obtain ⟨touched, returned, -⟩ := reads [0xc4, 0x19, 0, 0] 0 List.prefix_rfl
    rw [fetched] at returned
    cases returned
    cases agrees

end JvmDemo.Instructions
