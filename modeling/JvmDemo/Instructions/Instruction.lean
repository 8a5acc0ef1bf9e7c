import JvmDemo.Instructions.BytecodeReader
import JvmDemo.Runtime.Slots

/-!
# Instructions

One value of `Instruction` is one object of the source's class hierarchy with
the operands it carries.  The classes are templates over C++ types; the type
arguments are enumerations here.  `FrameInst` collects the instructions whose
`Execute` works on its own frame only.

`createInstruction` is the factory's switch, which makes an instruction with
default operands, and `fetchOperands` is the virtual method that fills them in.
-/

namespace JvmDemo.Instructions

open JvmDemo.Lib
open JvmDemo.Runtime

/-! ## Type arguments -/

/-- The integer type arguments. -/
inductive IntTy where
  | int32 | int64
  deriving DecidableEq, Repr

/-- The floating-point type arguments. -/
inductive FloatTy where
  | float | double
  deriving DecidableEq, Repr

/-- The type arguments of `PopOperandStack` and `PushOperandStack`. -/
inductive NumTy where
  | int32 | int64 | float | double
  deriving DecidableEq, Repr

/-- The type arguments of the array instructions. -/
inductive ElemTy where
  | int8 | char16 | int16 | int32 | int64 | float | double | objectPtr
  deriving DecidableEq, Repr

/-- The result types of `I2R`. -/
inductive NarrowTy where
  | int8 | char16 | int16
  deriving DecidableEq, Repr

/-- The instances of `T2R`. -/
inductive Conversion where
  | i2l | i2f | i2d | l2i | l2f | l2d | f2i | f2l | f2d | d2i | d2l | d2f
  deriving DecidableEq, Repr

/-- The comparisons of the conditional branches. -/
inductive Cond where
  | eq | ne | lt | ge | gt | le
  deriving DecidableEq, Repr

/-! ## Instructions -/

/-- What `WIDE` may hold in `modified_ins_`.  Its reference forms instantiate
`LOAD` and `STORE` at `void*`. -/
inductive WideInst where
  | load (kind : Kind) (index : BitVec 32)
  | store (kind : Kind) (index : BitVec 32)
  | loadVoidPtr (index : BitVec 32)
  | storeVoidPtr (index : BitVec 32)
  | iinc (index const : BitVec 32)
  deriving DecidableEq, Repr

/-- The instructions that work on their own frame only. -/
inductive FrameInst where
  | nop
  | aconstNull
  /-- `ICONST_M1` to `ICONST_5`, numbered from zero. -/
  | iconst (number : Fin 7)
  | lconst (number : Fin 2)
  | fconst (number : Fin 3)
  | dconst (number : Fin 2)
  | bipush (val : BitVec 8)
  | sipush (val : BitVec 16)
  | load (kind : Kind) (index : BitVec 32)
  /-- `LOAD_0` to `LOAD_3`. -/
  | loadN (kind : Kind) (number : Fin 4)
  /-- `ALOAD<T>`, the load from an array. -/
  | arrayLoad (elem : ElemTy)
  | store (kind : Kind) (index : BitVec 32)
  | storeN (kind : Kind) (number : Fin 4)
  | arrayStore (elem : ElemTy)
  | pop | pop2 | dup | dupX1 | dupX2 | dup2 | dup2X1 | dup2X2 | swap
  | add (type : NumTy)
  | sub (type : NumTy)
  | mul (type : NumTy)
  | div (type : NumTy)
  | irem (type : IntTy)
  | frem (type : FloatTy)
  | neg (type : NumTy)
  | shl (type : IntTy)
  | shr (type : IntTy)
  | ushr (type : IntTy)
  | and (type : IntTy)
  | or (type : IntTy)
  | xor (type : IntTy)
  | iinc (index const : BitVec 32)
  | t2r (conversion : Conversion)
  | i2r (result : NarrowTy)
  | lcmp
  | fcmpl (type : FloatTy)
  | fcmpg (type : FloatTy)
  /-- `IFEQ` to `IFLE`. -/
  | if_ (cond : Cond) (offset : BitVec 32)
  /-- `IF_ICMPEQ` to `IF_ICMPLE`. -/
  | ifIcmp (cond : Cond) (offset : BitVec 32)
  | ifAcmpeq (offset : BitVec 32)
  | ifAcmpne (offset : BitVec 32)
  | goto (offset : BitVec 32)
  | tableSwitch (defaultOffset low high : BitVec 32) (offsetTable : List (BitVec 32))
  | lookupSwitch (defaultOffset npairs : BitVec 32) (offsetTable : List (BitVec 32))
  | arrayLength
  | wide (modifiedIns : Option WideInst)
  | ifnull (offset : BitVec 32)
  | ifnonnull (offset : BitVec 32)
  | gotoW (offset : BitVec 32)
  deriving DecidableEq, Repr

/-- An instruction with its operands. -/
inductive Instruction where
  | frame (inst : FrameInst)
  | ldc (index : BitVec 32)
  | ldcW (index : BitVec 32)
  | ldc2W (index : BitVec 32)
  /-- `RETURN` and its typed variants. -/
  | return_ (kind : Option Kind)
  | getStatic (index : BitVec 32)
  | putStatic (index : BitVec 32)
  | getField (index : BitVec 32)
  | putField (index : BitVec 32)
  | invokeVirtual (index : BitVec 32)
  | invokeSpecial (index : BitVec 32)
  | invokeStatic (index : BitVec 32)
  | invokeInterface (index : BitVec 32)
  | invokeNative
  | new_ (index : BitVec 32)
  | newArray (arrayType : BitVec 8)
  | anewArray (index : BitVec 32)
  | athrow
  | checkCast (index : BitVec 32)
  | instanceOf (index : BitVec 32)
  | multiAnewArray (index : BitVec 16) (dimensions : BitVec 8)
  deriving DecidableEq, Repr

/-! ## The factory -/

/-- `CreateInstruction`; `none` stands for `InstNotFoundException`. -/
def createInstruction (opcode : Byte) : Option Instruction :=
  match opcode.toNat with
  | 0x00 => some (.frame .nop)
  | 0x01 => some (.frame .aconstNull)
  | 0x02 => some (.frame (.iconst 0))
  | 0x03 => some (.frame (.iconst 1))
  | 0x04 => some (.frame (.iconst 2))
  | 0x05 => some (.frame (.iconst 3))
  | 0x06 => some (.frame (.iconst 4))
  | 0x07 => some (.frame (.iconst 5))
  | 0x08 => some (.frame (.iconst 6))
  | 0x09 => some (.frame (.lconst 0))
  | 0x0a => some (.frame (.lconst 1))
  | 0x0b => some (.frame (.fconst 0))
  | 0x0c => some (.frame (.fconst 1))
  | 0x0d => some (.frame (.fconst 2))
  | 0x0e => some (.frame (.dconst 0))
  | 0x0f => some (.frame (.dconst 1))
  | 0x10 => some (.frame (.bipush 0))
  | 0x11 => some (.frame (.sipush 0))
  | 0x12 => some (.ldc 0)
  | 0x13 => some (.ldcW 0)
  | 0x14 => some (.ldc2W 0)
  | 0x15 => some (.frame (.load .int 0))
  | 0x16 => some (.frame (.load .long 0))
  | 0x17 => some (.frame (.load .float 0))
  | 0x18 => some (.frame (.load .double 0))
  | 0x19 => some (.frame (.load .ref 0))
  | 0x1a => some (.frame (.loadN .int 0))
  | 0x1b => some (.frame (.loadN .int 1))
  | 0x1c => some (.frame (.loadN .int 2))
  | 0x1d => some (.frame (.loadN .int 3))
  | 0x1e => some (.frame (.loadN .long 0))
  | 0x1f => some (.frame (.loadN .long 1))
  | 0x20 => some (.frame (.loadN .long 2))
  | 0x21 => some (.frame (.loadN .long 3))
  | 0x22 => some (.frame (.loadN .float 0))
  | 0x23 => some (.frame (.loadN .float 1))
  | 0x24 => some (.frame (.loadN .float 2))
  | 0x25 => some (.frame (.loadN .float 3))
  | 0x26 => some (.frame (.loadN .double 0))
  | 0x27 => some (.frame (.loadN .double 1))
  | 0x28 => some (.frame (.loadN .double 2))
  | 0x29 => some (.frame (.loadN .double 3))
  | 0x2a => some (.frame (.loadN .ref 0))
  | 0x2b => some (.frame (.loadN .ref 1))
  | 0x2c => some (.frame (.loadN .ref 2))
  | 0x2d => some (.frame (.loadN .ref 3))
  | 0x2e => some (.frame (.arrayLoad .int32))
  | 0x2f => some (.frame (.arrayLoad .int64))
  | 0x30 => some (.frame (.arrayLoad .float))
  | 0x31 => some (.frame (.arrayLoad .double))
  | 0x32 => some (.frame (.arrayLoad .objectPtr))
  | 0x33 => some (.frame (.arrayLoad .int8))
  | 0x34 => some (.frame (.arrayLoad .char16))
  | 0x35 => some (.frame (.arrayLoad .int16))
  | 0x36 => some (.frame (.store .int 0))
  | 0x37 => some (.frame (.store .long 0))
  | 0x38 => some (.frame (.store .float 0))
  | 0x39 => some (.frame (.store .double 0))
  | 0x3a => some (.frame (.store .ref 0))
  | 0x3b => some (.frame (.storeN .int 0))
  | 0x3c => some (.frame (.storeN .int 1))
  | 0x3d => some (.frame (.storeN .int 2))
  | 0x3e => some (.frame (.storeN .int 3))
  | 0x3f => some (.frame (.storeN .long 0))
  | 0x40 => some (.frame (.storeN .long 1))
  | 0x41 => some (.frame (.storeN .long 2))
  | 0x42 => some (.frame (.storeN .long 3))
  | 0x43 => some (.frame (.storeN .float 0))
  | 0x44 => some (.frame (.storeN .float 1))
  | 0x45 => some (.frame (.storeN .float 2))
  | 0x46 => some (.frame (.storeN .float 3))
  | 0x47 => some (.frame (.storeN .double 0))
  | 0x48 => some (.frame (.storeN .double 1))
  | 0x49 => some (.frame (.storeN .double 2))
  | 0x4a => some (.frame (.storeN .double 3))
  | 0x4b => some (.frame (.storeN .ref 0))
  | 0x4c => some (.frame (.storeN .ref 1))
  | 0x4d => some (.frame (.storeN .ref 2))
  | 0x4e => some (.frame (.storeN .ref 3))
  | 0x4f => some (.frame (.arrayStore .int32))
  | 0x50 => some (.frame (.arrayStore .int64))
  | 0x51 => some (.frame (.arrayStore .float))
  | 0x52 => some (.frame (.arrayStore .double))
  | 0x53 => some (.frame (.arrayStore .objectPtr))
  | 0x54 => some (.frame (.arrayStore .int8))
  | 0x55 => some (.frame (.arrayStore .char16))
  | 0x56 => some (.frame (.arrayStore .int16))
  | 0x57 => some (.frame .pop)
  | 0x58 => some (.frame .pop2)
  | 0x59 => some (.frame .dup)
  | 0x5a => some (.frame .dupX1)
  | 0x5b => some (.frame .dupX2)
  | 0x5c => some (.frame .dup2)
  | 0x5d => some (.frame .dup2X1)
  | 0x5e => some (.frame .dup2X2)
  | 0x5f => some (.frame .swap)
  | 0x60 => some (.frame (.add .int32))
  | 0x61 => some (.frame (.add .int64))
  | 0x62 => some (.frame (.add .float))
  | 0x63 => some (.frame (.add .double))
  | 0x64 => some (.frame (.sub .int32))
  | 0x65 => some (.frame (.sub .int64))
  | 0x66 => some (.frame (.sub .float))
  | 0x67 => some (.frame (.sub .double))
  | 0x68 => some (.frame (.mul .int32))
  | 0x69 => some (.frame (.mul .int64))
  | 0x6a => some (.frame (.mul .float))
  | 0x6b => some (.frame (.mul .double))
  | 0x6c => some (.frame (.div .int32))
  | 0x6d => some (.frame (.div .int64))
  | 0x6e => some (.frame (.div .float))
  | 0x6f => some (.frame (.div .double))
  | 0x70 => some (.frame (.irem .int32))
  | 0x71 => some (.frame (.irem .int64))
  | 0x72 => some (.frame (.frem .float))
  | 0x73 => some (.frame (.frem .double))
  | 0x74 => some (.frame (.neg .int32))
  | 0x75 => some (.frame (.neg .int64))
  | 0x76 => some (.frame (.neg .float))
  | 0x77 => some (.frame (.neg .double))
  | 0x78 => some (.frame (.shl .int32))
  | 0x79 => some (.frame (.shl .int64))
  | 0x7a => some (.frame (.shr .int32))
  | 0x7b => some (.frame (.shr .int64))
  | 0x7c => some (.frame (.ushr .int32))
  | 0x7d => some (.frame (.ushr .int64))
  | 0x7e => some (.frame (.and .int32))
  | 0x7f => some (.frame (.and .int64))
  | 0x80 => some (.frame (.or .int32))
  | 0x81 => some (.frame (.or .int64))
  | 0x82 => some (.frame (.xor .int32))
  | 0x83 => some (.frame (.xor .int64))
  | 0x84 => some (.frame (.iinc 0 0))
  | 0x85 => some (.frame (.t2r .i2l))
  | 0x86 => some (.frame (.t2r .i2f))
  | 0x87 => some (.frame (.t2r .i2d))
  | 0x88 => some (.frame (.t2r .l2i))
  | 0x89 => some (.frame (.t2r .l2f))
  | 0x8a => some (.frame (.t2r .l2d))
  | 0x8b => some (.frame (.t2r .f2i))
  | 0x8c => some (.frame (.t2r .f2l))
  | 0x8d => some (.frame (.t2r .f2d))
  | 0x8e => some (.frame (.t2r .d2i))
  | 0x8f => some (.frame (.t2r .d2l))
  | 0x90 => some (.frame (.t2r .d2f))
  | 0x91 => some (.frame (.i2r .int8))
  | 0x92 => some (.frame (.i2r .char16))
  | 0x93 => some (.frame (.i2r .int16))
  | 0x94 => some (.frame .lcmp)
  | 0x95 => some (.frame (.fcmpl .float))
  | 0x96 => some (.frame (.fcmpg .float))
  | 0x97 => some (.frame (.fcmpl .double))
  | 0x98 => some (.frame (.fcmpg .double))
  | 0x99 => some (.frame (.if_ .eq 0))
  | 0x9a => some (.frame (.if_ .ne 0))
  | 0x9b => some (.frame (.if_ .lt 0))
  | 0x9c => some (.frame (.if_ .ge 0))
  | 0x9d => some (.frame (.if_ .gt 0))
  | 0x9e => some (.frame (.if_ .le 0))
  | 0x9f => some (.frame (.ifIcmp .eq 0))
  | 0xa0 => some (.frame (.ifIcmp .ne 0))
  | 0xa1 => some (.frame (.ifIcmp .lt 0))
  | 0xa2 => some (.frame (.ifIcmp .ge 0))
  | 0xa3 => some (.frame (.ifIcmp .gt 0))
  | 0xa4 => some (.frame (.ifIcmp .le 0))
  | 0xa5 => some (.frame (.ifAcmpeq 0))
  | 0xa6 => some (.frame (.ifAcmpne 0))
  | 0xa7 => some (.frame (.goto 0))
  | 0xaa => some (.frame (.tableSwitch 0 0 0 []))
  | 0xab => some (.frame (.lookupSwitch 0 0 []))
  | 0xac => some (.return_ (some .int))
  | 0xad => some (.return_ (some .long))
  | 0xae => some (.return_ (some .float))
  | 0xaf => some (.return_ (some .double))
  | 0xb0 => some (.return_ (some .ref))
  | 0xb1 => some (.return_ none)
  | 0xb2 => some (.getStatic 0)
  | 0xb3 => some (.putStatic 0)
  | 0xb4 => some (.getField 0)
  | 0xb5 => some (.putField 0)
  | 0xb6 => some (.invokeVirtual 0)
  | 0xb7 => some (.invokeSpecial 0)
  | 0xb8 => some (.invokeStatic 0)
  | 0xb9 => some (.invokeInterface 0)
  | 0xbb => some (.new_ 0)
  | 0xbc => some (.newArray 0)
  | 0xbd => some (.anewArray 0)
  | 0xbe => some (.frame .arrayLength)
  | 0xbf => some .athrow
  | 0xc0 => some (.checkCast 0)
  | 0xc1 => some (.instanceOf 0)
  | 0xc4 => some (.frame (.wide none))
  | 0xc5 => some (.multiAnewArray 0 0)
  | 0xc6 => some (.frame (.ifnull 0))
  | 0xc7 => some (.frame (.ifnonnull 0))
  | 0xc8 => some (.frame (.gotoW 0))
  | 0xfe => some .invokeNative
  | _ => none

/-! ## Operands -/

open BytecodeReader

/-- `Index8Instruction::FetchOperands`. -/
def fetchIndex8 : BytecodeReader (BitVec 32) := do
  let index ← readUnsignedInt8
  pure (index.setWidth 32)

/-- `Index16Instruction::FetchOperands`. -/
def fetchIndex16 : BytecodeReader (BitVec 32) := do
  let index ← readUnsignedInt16
  pure (index.setWidth 32)

/-- `BranchInstruction::FetchOperands`. -/
def fetchOffset : BytecodeReader (BitVec 32) := do
  let offset ← readInt16
  pure (offset.signExtend 32)

/-- `WIDE::FetchOperands`.  The `iinc` case has the decimal label 84, and an
unknown opcode leaves `modified_ins_` null. -/
def fetchWide : BytecodeReader (Option WideInst) := do
  let opcode ← readUnsignedInt8
  match opcode.toNat with
  | 0x15 => return some (.load .int (← fetchIndex16))
  | 0x16 => return some (.load .long (← fetchIndex16))
  | 0x17 => return some (.load .float (← fetchIndex16))
  | 0x18 => return some (.load .double (← fetchIndex16))
  | 0x19 => return some (.loadVoidPtr (← fetchIndex16))
  | 0x36 => return some (.store .int (← fetchIndex16))
  | 0x37 => return some (.store .long (← fetchIndex16))
  | 0x38 => return some (.store .float (← fetchIndex16))
  | 0x39 => return some (.store .double (← fetchIndex16))
  | 0x3a => return some (.storeVoidPtr (← fetchIndex16))
  | 84 => do
      let index ← fetchIndex16
      let const ← readInt16
      return some (.iinc index (const.signExtend 32))
  | _ => return none

/-- `FetchOperands` of the frame-local instructions. -/
def FrameInst.fetchOperands : FrameInst → BytecodeReader FrameInst
  | .bipush _ => return .bipush (← readInt8)
  | .sipush _ => return .sipush (← readInt16)
  | .load kind _ => return .load kind (← fetchIndex8)
  | .store kind _ => return .store kind (← fetchIndex8)
  | .iinc _ _ => do
      let index ← fetchIndex8
      let const ← readInt8
      return .iinc index (const.signExtend 32)
  | .if_ cond _ => return .if_ cond (← fetchOffset)
  | .ifIcmp cond _ => return .ifIcmp cond (← fetchOffset)
  | .ifAcmpeq _ => return .ifAcmpeq (← fetchOffset)
  | .ifAcmpne _ => return .ifAcmpne (← fetchOffset)
  | .goto _ => return .goto (← fetchOffset)
  | .tableSwitch _ _ _ _ => do
      skipPadding
      let defaultOffset ← readInt32
      let low ← readInt32
      let high ← readInt32
      let offsetTable ← readInt32s (high - low + 1)
      return .tableSwitch defaultOffset low high offsetTable
  | .lookupSwitch _ _ _ => do
      skipPadding
      let defaultOffset ← readInt32
      let npairs ← readInt32
      let offsetTable ← readInt32s (npairs * 2)
      return .lookupSwitch defaultOffset npairs offsetTable
  | .wide _ => return .wide (← fetchWide)
  | .ifnull _ => return .ifnull (← fetchOffset)
  | .ifnonnull _ => return .ifnonnull (← fetchOffset)
  | .gotoW _ => return .gotoW (← readInt32)
  -- `NoOperandsInstruction`
  | inst => return inst

/-- `FetchOperands`. -/
def Instruction.fetchOperands : Instruction → BytecodeReader Instruction
  | .frame inst => return .frame (← inst.fetchOperands)
  | .ldc _ => return .ldc (← fetchIndex8)
  | .ldcW _ => return .ldcW (← fetchIndex16)
  | .ldc2W _ => return .ldc2W (← fetchIndex16)
  | .getStatic _ => return .getStatic (← fetchIndex16)
  | .putStatic _ => return .putStatic (← fetchIndex16)
  | .getField _ => return .getField (← fetchIndex16)
  | .putField _ => return .putField (← fetchIndex16)
  | .invokeVirtual _ => return .invokeVirtual (← fetchIndex16)
  | .invokeSpecial _ => return .invokeSpecial (← fetchIndex16)
  | .invokeStatic _ => return .invokeStatic (← fetchIndex16)
  | .invokeInterface _ => do
      let index ← fetchIndex16
      let _ ← readUnsignedInt8
      let _ ← readUnsignedInt8
      return .invokeInterface index
  | .new_ _ => return .new_ (← fetchIndex16)
  | .newArray _ => return .newArray (← readUnsignedInt8)
  | .anewArray _ => return .anewArray (← fetchIndex16)
  | .checkCast _ => return .checkCast (← fetchIndex16)
  | .instanceOf _ => return .instanceOf (← fetchIndex16)
  | .multiAnewArray _ _ => do
      let index ← readUnsignedInt16
      let dimensions ← readUnsignedInt8
      return .multiAnewArray index dimensions
  | .return_ kind => return .return_ kind
  | .invokeNative => return .invokeNative
  | .athrow => return .athrow

/-- An opcode as `std::hex` prints it. -/
def hex (opcode : Byte) : String := String.ofList (Nat.toDigits 16 opcode.toNat)

/-- The reading half of one iteration of the interpreter loop: the opcode, the
factory, the operands. -/
def fetch : BytecodeReader Instruction := do
  let opcode ← readUnsignedInt8
  match createInstruction opcode with
  | none => Reader.fail (.fatal ("Unsupported OpCode: 0x" ++ hex opcode))
  | some inst => inst.fetchOperands

end JvmDemo.Instructions
