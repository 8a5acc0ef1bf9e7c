import JvmDemo.Instructions.Instruction

/-!
# The instruction format

The layout of instructions in a code array: an opcode, then the operands in
big-endian order.  The operands of the two switches start at the next multiple
of four from the start of the method.  The format leaves some bytes open (the
padding and the last two operand bytes of `invokeinterface`), and `filler`
stands for their values.  `Encodable` says that the operands of an instruction
are values that its format can carry.
-/

namespace JvmDemo.Instructions

open JvmDemo.Lib
open JvmDemo.Runtime
open JvmDemo.Lib.Reader (Reads)

/-! ## Opcodes -/

/-- The order of the kinds in the opcode table: `i`, `l`, `f`, `d`, `a`. -/
def kindOrder : Kind → Nat
  | .int => 0
  | .long => 1
  | .float => 2
  | .double => 3
  | .ref => 4

def NumTy.order : NumTy → Nat
  | .int32 => 0
  | .int64 => 1
  | .float => 2
  | .double => 3

def IntTy.order : IntTy → Nat
  | .int32 => 0
  | .int64 => 1

/-- The order of the array instructions: `i`, `l`, `f`, `d`, `a`, `b`, `c`, `s`. -/
def ElemTy.order : ElemTy → Nat
  | .int32 => 0
  | .int64 => 1
  | .float => 2
  | .double => 3
  | .objectPtr => 4
  | .int8 => 5
  | .char16 => 6
  | .int16 => 7

def Conversion.order : Conversion → Nat
  | .i2l => 0
  | .i2f => 1
  | .i2d => 2
  | .l2i => 3
  | .l2f => 4
  | .l2d => 5
  | .f2i => 6
  | .f2l => 7
  | .f2d => 8
  | .d2i => 9
  | .d2l => 10
  | .d2f => 11

def Cond.order : Cond → Nat
  | .eq => 0
  | .ne => 1
  | .lt => 2
  | .ge => 3
  | .gt => 4
  | .le => 5

def FrameInst.opcode : FrameInst → Nat
  | .nop => 0x00
  | .aconstNull => 0x01
  | .iconst number => 0x02 + number
  | .lconst number => 0x09 + number
  | .fconst number => 0x0b + number
  | .dconst number => 0x0e + number
  | .bipush _ => 0x10
  | .sipush _ => 0x11
  | .load kind _ => 0x15 + kindOrder kind
  | .loadN kind number => 0x1a + 4 * kindOrder kind + number
  | .arrayLoad elem => 0x2e + elem.order
  | .store kind _ => 0x36 + kindOrder kind
  | .storeN kind number => 0x3b + 4 * kindOrder kind + number
  | .arrayStore elem => 0x4f + elem.order
  | .pop => 0x57
  | .pop2 => 0x58
  | .dup => 0x59
  | .dupX1 => 0x5a
  | .dupX2 => 0x5b
  | .dup2 => 0x5c
  | .dup2X1 => 0x5d
  | .dup2X2 => 0x5e
  | .swap => 0x5f
  | .add type => 0x60 + type.order
  | .sub type => 0x64 + type.order
  | .mul type => 0x68 + type.order
  | .div type => 0x6c + type.order
  | .irem .int32 => 0x70
  | .irem .int64 => 0x71
  | .frem .float => 0x72
  | .frem .double => 0x73
  | .neg type => 0x74 + type.order
  | .shl type => 0x78 + type.order
  | .shr type => 0x7a + type.order
  | .ushr type => 0x7c + type.order
  | .and type => 0x7e + type.order
  | .or type => 0x80 + type.order
  | .xor type => 0x82 + type.order
  | .iinc _ _ => 0x84
  | .t2r conversion => 0x85 + conversion.order
  | .i2r .int8 => 0x91
  | .i2r .char16 => 0x92
  | .i2r .int16 => 0x93
  | .lcmp => 0x94
  | .fcmpl .float => 0x95
  | .fcmpg .float => 0x96
  | .fcmpl .double => 0x97
  | .fcmpg .double => 0x98
  | .if_ cond _ => 0x99 + cond.order
  | .ifIcmp cond _ => 0x9f + cond.order
  | .ifAcmpeq _ => 0xa5
  | .ifAcmpne _ => 0xa6
  | .goto _ => 0xa7
  | .tableSwitch _ _ _ _ => 0xaa
  | .lookupSwitch _ _ _ => 0xab
  | .arrayLength => 0xbe
  | .wide _ => 0xc4
  | .ifnull _ => 0xc6
  | .ifnonnull _ => 0xc7
  | .gotoW _ => 0xc8

def Instruction.opcode : Instruction → Nat
  | .frame inst => inst.opcode
  | .ldc _ => 0x12
  | .ldcW _ => 0x13
  | .ldc2W _ => 0x14
  | .return_ (some kind) => 0xac + kindOrder kind
  | .return_ none => 0xb1
  | .getStatic _ => 0xb2
  | .putStatic _ => 0xb3
  | .getField _ => 0xb4
  | .putField _ => 0xb5
  | .invokeVirtual _ => 0xb6
  | .invokeSpecial _ => 0xb7
  | .invokeStatic _ => 0xb8
  | .invokeInterface _ => 0xb9
  | .new_ _ => 0xbb
  | .newArray _ => 0xbc
  | .anewArray _ => 0xbd
  | .athrow => 0xbf
  | .checkCast _ => 0xc0
  | .instanceOf _ => 0xc1
  | .multiAnewArray _ _ => 0xc5
  | .invokeNative => 0xfe

/-! ## Operands -/

/-- An unsigned one-byte operand. -/
def index8 (index : BitVec 32) : List Byte := [index.setWidth 8]

/-- An unsigned two-byte operand. -/
def index16 (index : BitVec 32) : List Byte := be16 (index.setWidth 16)

/-- A signed two-byte operand. -/
def offset16 (offset : BitVec 32) : List Byte := be16 (offset.setWidth 16)

/-- The padding of a switch whose opcode is at `pc`. -/
def pad (filler : Nat → Byte) (pc : Nat) : List Byte :=
  (List.range (BytecodeReader.padding (pc + 1))).map filler

/-- The operand bytes of a frame-local instruction whose opcode is at `pc`. -/
def FrameInst.operands (filler : Nat → Byte) (pc : Nat) : FrameInst → List Byte
  | .bipush val => [val]
  | .sipush val => be16 val
  | .load _ index => index8 index
  | .store _ index => index8 index
  | .iinc index const => index8 index ++ [const.setWidth 8]
  | .if_ _ offset => offset16 offset
  | .ifIcmp _ offset => offset16 offset
  | .ifAcmpeq offset => offset16 offset
  | .ifAcmpne offset => offset16 offset
  | .goto offset => offset16 offset
  | .tableSwitch defaultOffset low high offsetTable =>
      pad filler pc ++ (be32 defaultOffset ++ (be32 low ++ (be32 high ++ offsetTable.flatMap be32)))
  | .lookupSwitch defaultOffset npairs offsetTable =>
      pad filler pc ++ (be32 defaultOffset ++ (be32 npairs ++ offsetTable.flatMap be32))
  | .ifnull offset => offset16 offset
  | .ifnonnull offset => offset16 offset
  | .gotoW offset => be32 offset
  | _ => []

/-- The operand bytes of an instruction whose opcode is at `pc`. -/
def Instruction.operands (filler : Nat → Byte) (pc : Nat) : Instruction → List Byte
  | .frame inst => inst.operands filler pc
  | .ldc index => index8 index
  | .ldcW index => index16 index
  | .ldc2W index => index16 index
  | .getStatic index => index16 index
  | .putStatic index => index16 index
  | .getField index => index16 index
  | .putField index => index16 index
  | .invokeVirtual index => index16 index
  | .invokeSpecial index => index16 index
  | .invokeStatic index => index16 index
  | .invokeInterface index => index16 index ++ [filler 0, filler 1]
  | .new_ index => index16 index
  | .newArray arrayType => [arrayType]
  | .anewArray index => index16 index
  | .checkCast index => index16 index
  | .instanceOf index => index16 index
  | .multiAnewArray index dimensions => be16 index ++ [dimensions]
  | .return_ _ => []
  | .invokeNative => []
  | .athrow => []

/-- The bytes of an instruction at `pc`. -/
def encode (filler : Nat → Byte) (pc : Nat) (inst : Instruction) : List Byte :=
  BitVec.ofNat 8 inst.opcode :: inst.operands filler pc

/-! ## Operands in range -/

/-- The value survives a truncation to `width` bits and back. -/
def FitsSigned (width : Nat) (value : BitVec 32) : Prop :=
  (value.setWidth width).signExtend 32 = value

instance (width : Nat) (value : BitVec 32) : Decidable (FitsSigned width value) :=
  inferInstanceAs (Decidable (_ = _))

/-- The operands of a frame-local instruction are values of its format; `wide`
has none. -/
def FrameInst.Encodable : FrameInst → Prop
  | .load _ index => index.toNat < 2 ^ 8
  | .store _ index => index.toNat < 2 ^ 8
  | .iinc index const => index.toNat < 2 ^ 8 ∧ FitsSigned 8 const
  | .if_ _ offset => FitsSigned 16 offset
  | .ifIcmp _ offset => FitsSigned 16 offset
  | .ifAcmpeq offset => FitsSigned 16 offset
  | .ifAcmpne offset => FitsSigned 16 offset
  | .goto offset => FitsSigned 16 offset
  | .tableSwitch _ low high offsetTable =>
      low.toInt ≤ high.toInt ∧ (offsetTable.length : Int) = high.toInt - low.toInt + 1
  | .lookupSwitch _ npairs offsetTable => (offsetTable.length : Int) = 2 * npairs.toInt
  | .wide _ => False
  | .ifnull offset => FitsSigned 16 offset
  | .ifnonnull offset => FitsSigned 16 offset
  | _ => True

/-- The operands of an instruction are values of its format. -/
def Instruction.Encodable : Instruction → Prop
  | .frame inst => inst.Encodable
  | .ldc index => index.toNat < 2 ^ 8
  | .ldcW index => index.toNat < 2 ^ 16
  | .ldc2W index => index.toNat < 2 ^ 16
  | .getStatic index => index.toNat < 2 ^ 16
  | .putStatic index => index.toNat < 2 ^ 16
  | .getField index => index.toNat < 2 ^ 16
  | .putField index => index.toNat < 2 ^ 16
  | .invokeVirtual index => index.toNat < 2 ^ 16
  | .invokeSpecial index => index.toNat < 2 ^ 16
  | .invokeStatic index => index.toNat < 2 ^ 16
  | .invokeInterface index => index.toNat < 2 ^ 16
  | .new_ index => index.toNat < 2 ^ 16
  | .anewArray index => index.toNat < 2 ^ 16
  | .checkCast index => index.toNat < 2 ^ 16
  | .instanceOf index => index.toNat < 2 ^ 16
  | _ => True

instance : DecidablePred FrameInst.Encodable := fun inst => by
  cases inst <;> dsimp only [FrameInst.Encodable] <;> infer_instance

instance : DecidablePred Instruction.Encodable := fun inst => by
  cases inst <;> dsimp only [Instruction.Encodable] <;> infer_instance

/-! ## Code arrays -/

/-- The bytes of a sequence of instructions, the first at `pc`. -/
def encodeAll (filler : Nat → Byte) : Nat → List Instruction → List Byte
  | _, [] => []
  | pc, inst :: insts =>
      encode filler pc inst ++ encodeAll filler (pc + (encode filler pc inst).length) insts

/-- The instructions of a sequence with their addresses, the first at `pc`. -/
def listing (filler : Nat → Byte) : Nat → List Instruction → List (Nat × Instruction)
  | _, [] => []
  | pc, inst :: insts =>
      (pc, inst) :: listing filler (pc + (encode filler pc inst).length) insts

theorem length_encode_pos (filler : Nat → Byte) (pc : Nat) (inst : Instruction) :
    0 < (encode filler pc inst).length := by
  simp [encode]

/-- There are at most as many instructions as bytes. -/
theorem length_le_length_encodeAll (filler : Nat → Byte) (pc : Nat) (insts : List Instruction) :
    insts.length ≤ (encodeAll filler pc insts).length := by
  induction insts generalizing pc with
  | nil => simp
  | cons inst insts ih =>
      have tail := ih (pc + (encode filler pc inst).length)
      have head := length_encode_pos filler pc inst
      simp only [encodeAll, List.length_cons, List.length_append]
      omega

end JvmDemo.Instructions
