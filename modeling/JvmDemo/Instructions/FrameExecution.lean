import JvmDemo.Instructions.Instruction
import JvmDemo.Runtime.Thread

/-!
# Execution of the frame-local instructions

`FrameInst.execute` is the virtual method `Execute` of the instructions that
read and write their own frame only.  Integer arithmetic wraps around, as the
configured debug build does it; a division that traps and a shift by the width
or more are undefined.  Floating-point arithmetic is a parameter: the model
moves the bit patterns and leaves their meaning to `FloatOps`.
-/

namespace JvmDemo.Instructions

open JvmDemo.Lib
open JvmDemo.Runtime

/-! ## Floating-point operations -/

/-- The operations of one floating-point format, on bit patterns. -/
structure FloatArith (α : Type) where
  add : α → α → α
  sub : α → α → α
  mul : α → α → α
  div : α → α → α
  fmod : α → α → α
  neg : α → α
  isZero : α → Bool
  isNaN : α → Bool
  lt : α → α → Bool
  eq : α → α → Bool
  text : α → String

/-- What the machine does with floating-point values. -/
structure FloatOps where
  float : FloatArith Word
  double : FloatArith DWord
  i2f : Word → Word
  i2d : Word → DWord
  l2f : DWord → Word
  l2d : DWord → DWord
  f2i : Word → Word
  f2l : Word → DWord
  f2d : Word → DWord
  d2i : DWord → Word
  d2l : DWord → DWord
  d2f : DWord → Word

/-- A stand-in for programs without floating-point instructions: every result
is zero. -/
def FloatArith.zero {width : Nat} : FloatArith (BitVec width) where
  add _ _ := 0
  sub _ _ := 0
  mul _ _ := 0
  div _ _ := 0
  fmod _ _ := 0
  neg _ := 0
  isZero _ := true
  isNaN _ := false
  lt _ _ := false
  eq _ _ := true
  text _ := "0"

def FloatOps.zero : FloatOps where
  float := .zero
  double := .zero
  i2f _ := 0
  i2d _ := 0
  l2f _ := 0
  l2d _ := 0
  f2i _ := 0
  f2l _ := 0
  f2d _ := 0
  d2i _ := 0
  d2l _ := 0
  d2f _ := 0

/-! ## Shapes of instructions -/

section Shapes

variable {α β : Type}

/-- Two pops, an operation on them in the order in which they were pushed, and
a push. -/
def binary (pop : OperandStack → Exec (α × OperandStack))
    (push : OperandStack → α → Exec OperandStack) (op : α → α → Exec α) (frame : Frame) :
    Exec Frame := do
  let (value1, stack) ← pop frame.operandStack
  let (value2, stack) ← pop stack
  let result ← op value2 value1
  let stack ← push stack result
  pure (frame.setStack stack)

/-- A pop of an `int` shift operand, a pop of the value, and a push. -/
def shift (pop : OperandStack → Exec (α × OperandStack))
    (push : OperandStack → α → Exec OperandStack) (op : α → Word → Exec α) (frame : Frame) :
    Exec Frame := do
  let (value1, stack) ← frame.operandStack.popInt
  let (value2, stack) ← pop stack
  let result ← op value2 value1
  let stack ← push stack result
  pure (frame.setStack stack)

/-- A pop, an operation and a push. -/
def unary (pop : OperandStack → Exec (α × OperandStack))
    (push : OperandStack → β → Exec OperandStack) (op : α → β) (frame : Frame) : Exec Frame := do
  let (value, stack) ← pop frame.operandStack
  let stack ← push stack (op value)
  pure (frame.setStack stack)

/-- `_cmp`: the `unordered` result is pushed in addition to the other one. -/
def compare (pop : OperandStack → Exec (α × OperandStack)) (unordered : α → α → Option Word)
    (lt eq : α → α → Bool) (frame : Frame) : Exec Frame := do
  let (v1, stack) ← pop frame.operandStack
  let (v2, stack) ← pop stack
  let stack ← match unordered v1 v2 with
    | some result => stack.pushInt result
    | none => pure stack
  let stack ← stack.pushInt (if lt v1 v2 then 1 else if eq v2 v1 then 0 else -1)
  pure (frame.setStack stack)

end Shapes

/-- `Branch`: the offset is added to the address of the running instruction. -/
def branch (pc offset : BitVec 32) (frame : Frame) : Frame := frame.setNextPc (pc + offset)

/-- A signed comparison of two values. -/
def Cond.holds {width : Nat} (left right : BitVec width) : Cond → Bool
  | .eq => left == right
  | .ne => left != right
  | .lt => left.slt right
  | .ge => right.sle left
  | .gt => right.slt left
  | .le => left.sle right

/-! ## Loads and stores -/

/-- `Load<T>` for the types that it knows. -/
def executeLoad (frame : Frame) (kind : Kind) (index : BitVec 32) : Exec Frame := do
  let value ← frame.localVars.getValue (index.toNat % 2 ^ 16) kind
  let stack ← frame.operandStack.push value
  pure (frame.setStack stack)

/-- `Store<T>` for the types that it knows. -/
def executeStore (frame : Frame) (kind : Kind) (index : BitVec 32) : Exec Frame := do
  let (value, stack) ← frame.operandStack.pop kind
  let vars ← frame.localVars.setValue (index.toNat % 2 ^ 16) value
  pure ((frame.setStack stack).setVars vars)

/-- `ArrayLoad`: the element itself is never pushed. -/
def executeArrayLoad (frame : Frame) : Exec Frame := do
  let (index, stack) ← frame.operandStack.popInt
  let (arrRef, stack) ← stack.popRef
  if arrRef = 0 then thrown "java.lang.NullPointerException"
  else if index.slt 0 then thrown "ArrayIndexOutOfBoundsException"
  else pure (frame.setStack stack)

/-- The kind of the value that an array store pops. -/
def ElemTy.kind : ElemTy → Kind
  | .int8 | .char16 | .int16 | .int32 => .int
  | .int64 => .long
  | .float => .float
  | .double => .double
  | .objectPtr => .ref

/-- `ArrayStore` with `SetElement`: a null array is only logged, and the element
is never written. -/
def executeArrayStore (frame : Frame) (elem : ElemTy) : Exec Frame := do
  let (_, stack) ← frame.operandStack.pop elem.kind
  let (index, stack) ← stack.popInt
  let (arrRef, stack) ← stack.popRef
  if arrRef = 0 then pure (frame.setStack stack)
  else if index.slt 0 then fatal "ArrayIndexOutOfBoundsException"
  else pure (frame.setStack stack)

/-- `IINC::Execute`. -/
def executeIinc (frame : Frame) (index const : BitVec 32) : Exec Frame := do
  let val ← frame.localVars.getInt (index.toNat % 2 ^ 16)
  let vars ← frame.localVars.setInt (index.toNat % 2 ^ 16) (val + const)
  pure (frame.setVars vars)

/-- `WIDE::Execute`; `Load` and `Store` do nothing at `void*`. -/
def WideInst.execute (frame : Frame) : WideInst → Exec Frame
  | .load kind index => executeLoad frame kind index
  | .store kind index => executeStore frame kind index
  | .loadVoidPtr _ => pure frame
  | .storeVoidPtr _ => pure frame
  | .iinc index const => executeIinc frame index const

/-! ## Stack shuffles -/

/-- Pop `count` slots; the first popped comes first. -/
def popSlots : Nat → OperandStack → Exec (List Slot × OperandStack)
  | 0, stack => pure ([], stack)
  | count + 1, stack => do
      let (slot, stack) ← stack.popSlot
      let (slots, stack) ← popSlots count stack
      pure (slot :: slots, stack)

/-- Push slots in order. -/
def pushSlots : List Slot → OperandStack → Exec OperandStack
  | [], stack => pure stack
  | slot :: slots, stack => do
      let stack ← stack.pushSlot slot
      pushSlots slots stack

/-- Pop `count` slots and push a rearrangement of them; `order` names them by
the order in which they were popped. -/
def shuffle (count : Nat) (order : List Nat) (frame : Frame) : Exec Frame := do
  let (slots, stack) ← popSlots count frame.operandStack
  let stack ← pushSlots (order.map fun i => slots.getD i 0) stack
  pure (frame.setStack stack)

/-! ## Integer operations with checks -/

/-- `DIV` on integers; the one overflowing quotient traps. -/
def intDiv {width : Nat} (dividend divisor : BitVec width) : Exec (BitVec width) :=
  if divisor = 0 then
    fatal ("ArithmeticException " ++ toString dividend.toInt ++ " / " ++ toString divisor.toInt)
  else if dividend = BitVec.intMin width ∧ divisor = -1 then undefined "overflow in a division"
  else pure (dividend.sdiv divisor)

/-- `IREM`. -/
def intRem {width : Nat} (dividend divisor : BitVec width) : Exec (BitVec width) :=
  if divisor = 0 then
    fatal ("ArithmeticException " ++ toString dividend.toInt ++ " / " ++ toString divisor.toInt)
  else if dividend = BitVec.intMin width ∧ divisor = -1 then undefined "overflow in a division"
  else pure (dividend.srem divisor)

/-- `DIV` and `FREM` on floating-point values: a zero divisor is fatal, too. -/
def floatDiv {α : Type} (arith : FloatArith α) (op : α → α → α) (dividend divisor : α) : Exec α :=
  if arith.isZero divisor then
    fatal ("ArithmeticException " ++ arith.text dividend ++ " / " ++ arith.text divisor)
  else pure (op dividend divisor)

/-- A shift by an unsigned amount. -/
def shiftBy {width : Nat} (op : BitVec width → Nat → BitVec width) (value : BitVec width)
    (amount : Word) : Exec (BitVec width) :=
  if amount.toNat < width then pure (op value amount.toNat)
  else undefined "shift by the width or more"

/-- `static_cast` to a narrow type and back to `int32_t`. -/
def NarrowTy.narrow (value : Word) : NarrowTy → Word
  | .int8 => (value.setWidth 8).signExtend 32
  | .char16 => (value.setWidth 16).setWidth 32
  | .int16 => (value.setWidth 16).signExtend 32

/-! ## The instructions -/

open OperandStack

/-- A binary operation without checks, by type. -/
def arithmetic (ops : FloatOps) (int : (width : Nat) → BitVec width → BitVec width → BitVec width)
    (float : {α : Type} → FloatArith α → α → α → α) (frame : Frame) : NumTy → Exec Frame
  | .int32 => binary popInt pushInt (fun left right => pure (int 32 left right)) frame
  | .int64 => binary popLong pushLong (fun left right => pure (int 64 left right)) frame
  | .float => binary popFloat pushFloat (fun left right => pure (float ops.float left right)) frame
  | .double =>
      binary popDouble pushDouble (fun left right => pure (float ops.double left right)) frame

/-- A bitwise operation, by type. -/
def bitwise (int : (width : Nat) → BitVec width → BitVec width → BitVec width) (frame : Frame) :
    IntTy → Exec Frame
  | .int32 => binary popInt pushInt (fun left right => pure (int 32 left right)) frame
  | .int64 => binary popLong pushLong (fun left right => pure (int 64 left right)) frame

/-- A shift, by type. -/
def shiftInst (op : (width : Nat) → BitVec width → Nat → BitVec width) (frame : Frame) :
    IntTy → Exec Frame
  | .int32 => shift popInt pushInt (shiftBy (op 32)) frame
  | .int64 => shift popLong pushLong (shiftBy (op 64)) frame

/-- `T2R<T, R>::Execute`. -/
def convert (ops : FloatOps) (frame : Frame) : Conversion → Exec Frame
  | .i2l => unary popInt pushLong (BitVec.signExtend 64) frame
  | .i2f => unary popInt pushFloat ops.i2f frame
  | .i2d => unary popInt pushDouble ops.i2d frame
  | .l2i => unary popLong pushInt (BitVec.setWidth 32) frame
  | .l2f => unary popLong pushFloat ops.l2f frame
  | .l2d => unary popLong pushDouble ops.l2d frame
  | .f2i => unary popFloat pushInt ops.f2i frame
  | .f2l => unary popFloat pushLong ops.f2l frame
  | .f2d => unary popFloat pushDouble ops.f2d frame
  | .d2i => unary popDouble pushInt ops.d2i frame
  | .d2l => unary popDouble pushLong ops.d2l frame
  | .d2f => unary popDouble pushFloat ops.d2f frame

/-- `FCMPL` and `FCMPG` differ in the result for unordered operands. -/
def floatCompare (ops : FloatOps) (result : Word) (frame : Frame) : FloatTy → Exec Frame
  | .float =>
      compare popFloat
        (fun v1 v2 => if ops.float.isNaN v1 || ops.float.isNaN v2 then some result else none)
        ops.float.lt ops.float.eq frame
  | .double =>
      compare popDouble
        (fun v1 v2 => if ops.double.isNaN v1 || ops.double.isNaN v2 then some result else none)
        ops.double.lt ops.double.eq frame

/-- The values of `FCONST_0` to `FCONST_2`. -/
def fconstBits (number : Fin 3) : Word :=
  match number with
  | 0 => 0x00000000
  | 1 => 0x3f800000
  | 2 => 0x40000000

/-- The values of `DCONST_0` and `DCONST_1`. -/
def dconstBits (number : Fin 2) : DWord :=
  match number with
  | 0 => 0x0000000000000000
  | 1 => 0x3ff0000000000000

/-- A push of a constant. -/
def pushConst (frame : Frame) (value : Value) : Exec Frame := do
  let stack ← frame.operandStack.push value
  pure (frame.setStack stack)

/-- A pop of an `int` and a branch on it. -/
def branchIf (pc offset : BitVec 32) (test : Word → Bool) (frame : Frame) : Exec Frame := do
  let (val, stack) ← frame.operandStack.popInt
  let frame := frame.setStack stack
  pure (if test val then branch pc offset frame else frame)

/-- A pop of two `int`s and a branch on them. -/
def branchIf2 (pc offset : BitVec 32) (test : Word → Word → Bool) (frame : Frame) :
    Exec Frame := do
  let (val1, stack) ← frame.operandStack.popInt
  let (val2, stack) ← stack.popInt
  let frame := frame.setStack stack
  pure (if test val2 val1 then branch pc offset frame else frame)

/-- A pop of two references and a branch on them. -/
def branchIfRefs (pc offset : BitVec 32) (test : DWord → DWord → Bool) (frame : Frame) :
    Exec Frame := do
  let (ref1, stack) ← frame.operandStack.popRef
  let (ref2, stack) ← stack.popRef
  let frame := frame.setStack stack
  pure (if test ref2 ref1 then branch pc offset frame else frame)

/-- A pop of a reference and a branch on it. -/
def branchIfRef (pc offset : BitVec 32) (test : DWord → Bool) (frame : Frame) : Exec Frame := do
  let (ref, stack) ← frame.operandStack.popRef
  let frame := frame.setStack stack
  pure (if test ref then branch pc offset frame else frame)

/-- `TABLE_SWITCH::Execute`.  The selected offset is stored in a local variable,
while `Branch` uses `offset_`, which is zero. -/
def executeTableSwitch (pc low high : BitVec 32) (offsetTable : List (BitVec 32)) (frame : Frame) :
    Exec Frame := do
  let (index, stack) ← frame.operandStack.popInt
  if low.sle index && index.sle high then
    match offsetTable[(index - low).toNat]? with
    | some _ => pure (branch pc 0 (frame.setStack stack))
    | none => undefined "read past the end of offset_table_"
  else pure (branch pc 0 (frame.setStack stack))

/-- The loop of `LOOKUP_SWITCH::Execute` from index `i`, for the rounds that are
left: the offset of the first pair with the key, if there is one. -/
def lookupLoop (key : Word) (offsetTable : List (BitVec 32)) :
    Nat → Nat → Exec (Option (BitVec 32))
  | _, 0 => pure none
  | i, rounds + 1 =>
      match offsetTable[i]? with
      | none => undefined "read past the end of offset_table_"
      | some value =>
          if value = key then
            match offsetTable[i + 1]? with
            | none => undefined "read past the end of offset_table_"
            | some offset => pure (some offset)
          else lookupLoop key offsetTable (i + 2) rounds

/-- `LOOKUP_SWITCH::Execute`.  The offset that the loop finds, or the default
one, is stored in a local variable; both ends of the loop branch by `offset_`,
which is zero. -/
def executeLookupSwitch (pc npairs : BitVec 32) (offsetTable : List (BitVec 32)) (frame : Frame) :
    Exec Frame := do
  let (key, stack) ← frame.operandStack.popInt
  -- `i` takes the even values below `npairs_ * 2`
  let _ ← lookupLoop key offsetTable 0 (((npairs * 2).toInt.toNat + 1) / 2)
  pure (branch pc 0 (frame.setStack stack))

/-- `ARRAY_LENGTH::Execute`: the length is not pushed. -/
def executeArrayLength (frame : Frame) : Exec Frame := do
  let (arrRef, stack) ← frame.operandStack.popRef
  if arrRef = 0 then thrown "java.lang.NullPointerException"
  else pure (frame.setStack stack)

/-- `Execute` of a frame-local instruction; `pc` is the thread's program
counter. -/
def FrameInst.execute (ops : FloatOps) (pc : BitVec 32) (frame : Frame) : FrameInst → Exec Frame
  | .nop => pure frame
  | .aconstNull => pushConst frame (.ref 0)
  | .iconst number => pushConst frame (.int (BitVec.ofInt 32 (number.val - 1)))
  | .lconst number => pushConst frame (.long (BitVec.ofNat 64 number))
  | .fconst number => pushConst frame (.float (fconstBits number))
  | .dconst number => pushConst frame (.double (dconstBits number))
  | .bipush val => pushConst frame (.int (val.signExtend 32))
  | .sipush val => pushConst frame (.int (val.signExtend 32))
  | .load kind index => executeLoad frame kind index
  | .loadN kind number => executeLoad frame kind (BitVec.ofNat 32 number)
  | .arrayLoad _ => executeArrayLoad frame
  | .store kind index => executeStore frame kind index
  | .storeN kind number => executeStore frame kind (BitVec.ofNat 32 number)
  | .arrayStore elem => executeArrayStore frame elem
  | .pop => shuffle 1 [] frame
  | .pop2 => shuffle 2 [] frame
  | .dup => shuffle 1 [0, 0] frame
  | .dupX1 => shuffle 2 [0, 1, 0] frame
  | .dupX2 => shuffle 3 [0, 2, 1, 0] frame
  | .dup2 => shuffle 2 [1, 0, 1, 0] frame
  | .dup2X1 => shuffle 3 [1, 0, 2, 1, 0] frame
  | .dup2X2 => shuffle 4 [1, 0, 3, 2, 1, 0] frame
  | .swap => shuffle 2 [0, 1] frame
  | .add type => arithmetic ops (fun _ left right => left + right) FloatArith.add frame type
  | .sub type => arithmetic ops (fun _ left right => left - right) FloatArith.sub frame type
  | .mul type => arithmetic ops (fun _ left right => left * right) FloatArith.mul frame type
  | .div .int32 => binary popInt pushInt intDiv frame
  | .div .int64 => binary popLong pushLong intDiv frame
  | .div .float => binary popFloat pushFloat (floatDiv ops.float ops.float.div) frame
  | .div .double => binary popDouble pushDouble (floatDiv ops.double ops.double.div) frame
  | .irem .int32 => binary popInt pushInt intRem frame
  | .irem .int64 => binary popLong pushLong intRem frame
  | .frem .float => binary popFloat pushFloat (floatDiv ops.float ops.float.fmod) frame
  | .frem .double => binary popDouble pushDouble (floatDiv ops.double ops.double.fmod) frame
  | .neg .int32 => unary popInt pushInt (fun value => -value) frame
  | .neg .int64 => unary popLong pushLong (fun value => -value) frame
  | .neg .float => unary popFloat pushFloat ops.float.neg frame
  | .neg .double => unary popDouble pushDouble ops.double.neg frame
  | .shl type => shiftInst (fun _ value amount => value <<< amount) frame type
  | .shr type => shiftInst (fun _ value amount => value.sshiftRight amount) frame type
  | .ushr type => shiftInst (fun _ value amount => value >>> amount) frame type
  | .and type => bitwise (fun _ left right => right &&& left) frame type
  | .or type => bitwise (fun _ left right => right ||| left) frame type
  | .xor type => bitwise (fun _ left right => right ^^^ left) frame type
  | .iinc index const => executeIinc frame index const
  | .t2r conversion => convert ops frame conversion
  | .i2r result => unary popInt pushInt result.narrow frame
  -- `_cmp<int32_t>`: the operands are popped as `int`s
  | .lcmp => compare popInt (fun _ _ => none) BitVec.slt (· == ·) frame
  | .fcmpl type => floatCompare ops (-1) frame type
  | .fcmpg type => floatCompare ops 1 frame type
  | .if_ cond offset => branchIf pc offset (fun val => cond.holds val 0) frame
  | .ifIcmp cond offset => branchIf2 pc offset (fun val2 val1 => cond.holds val2 val1) frame
  | .ifAcmpeq offset => branchIfRefs pc offset (fun ref2 ref1 => ref2 == ref1) frame
  | .ifAcmpne offset => branchIfRefs pc offset (fun ref2 ref1 => ref2 != ref1) frame
  | .goto offset => pure (branch pc offset frame)
  | .tableSwitch _ low high offsetTable => executeTableSwitch pc low high offsetTable frame
  | .lookupSwitch _ npairs offsetTable => executeLookupSwitch pc npairs offsetTable frame
  | .arrayLength => executeArrayLength frame
  | .wide none => undefined "call through a null modified_ins_"
  | .wide (some inst) => inst.execute frame
  | .ifnull offset => branchIfRef pc offset (· == 0) frame
  | .ifnonnull offset => branchIfRef pc offset (· != 0) frame
  | .gotoW offset => pure (branch pc offset frame)

end JvmDemo.Instructions
