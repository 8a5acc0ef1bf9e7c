import JvmDemo.Instructions.Encoding
import JvmDemo.Runtime.TypedStack

/-!
# Small-step semantics of the integer fragment

The meaning of the `int` and `long` instructions that stay inside a method,
stated on typed values and independently of the slot arrays: arithmetic is done
on integers and wrapped to the width, a `long` takes two adjacent local
variables, and branch offsets count from the address of the branching opcode.

A frame has the code array as bytes; the instruction at an address is the one
whose encoding stands there.  A step is undefined when the operand stack or the
local variables would be exceeded, when an operand has the wrong type, or when
a branch leaves the code.
-/

namespace JvmDemo.Interpreter.Specification

open JvmDemo.Lib
open JvmDemo.Runtime
open JvmDemo.Instructions

/-- The content of one local variable. -/
inductive Cell where
  | unusable
  | int (val : Word)
  /-- The first variable of a `long`, with its value. -/
  | long (val : DWord)
  /-- The second variable of a `long`. -/
  | second
  deriving DecidableEq, Repr

/-- A frame; the operand stack is newest first. -/
structure SpecFrame where
  code : List Byte
  maxStack : Nat
  locals : List Cell
  stack : List Value
  pc : Nat
  deriving DecidableEq, Repr

namespace SpecFrame

/-- Push a value if there is room for it. -/
def push (frame : SpecFrame) (value : Value) : Option SpecFrame :=
  if TypedStack.used frame.stack + value.kind.width ≤ frame.maxStack then
    some { frame with stack := value :: frame.stack }
  else none

/-- An operation on the two topmost `int`s. -/
def intOp (frame : SpecFrame) (op : Word → Word → Word) : Option SpecFrame :=
  match frame.stack with
  | .int right :: .int left :: below => ({ frame with stack := below }).push (.int (op left right))
  | _ => none

/-- An operation on the two topmost `long`s. -/
def longOp (frame : SpecFrame) (op : DWord → DWord → DWord) : Option SpecFrame :=
  match frame.stack with
  | .long right :: .long left :: below =>
      ({ frame with stack := below }).push (.long (op left right))
  | _ => none

/-- An operation on the topmost `int`. -/
def intMap (frame : SpecFrame) (op : Word → Value) : Option SpecFrame :=
  match frame.stack with
  | .int val :: below => ({ frame with stack := below }).push (op val)
  | _ => none

/-- An operation on the topmost `long`. -/
def longMap (frame : SpecFrame) (op : DWord → Value) : Option SpecFrame :=
  match frame.stack with
  | .long val :: below => ({ frame with stack := below }).push (op val)
  | _ => none

/-- Push the `int` in a local variable. -/
def loadInt (frame : SpecFrame) (index : Nat) : Option SpecFrame :=
  match frame.locals[index]? with
  | some (.int val) => frame.push (.int val)
  | _ => none

/-- Push the `long` in two local variables. -/
def loadLong (frame : SpecFrame) (index : Nat) : Option SpecFrame :=
  match frame.locals[index]?, frame.locals[index + 1]? with
  | some (.long val), some .second => frame.push (.long val)
  | _, _ => none

/-- Pop an `int` into a local variable. -/
def storeInt (frame : SpecFrame) (index : Nat) : Option SpecFrame :=
  match frame.stack with
  | .int val :: below =>
      if index < frame.locals.length then
        some { frame with stack := below, locals := frame.locals.set index (.int val) }
      else none
  | _ => none

/-- Pop a `long` into two local variables. -/
def storeLong (frame : SpecFrame) (index : Nat) : Option SpecFrame :=
  match frame.stack with
  | .long val :: below =>
      if index + 1 < frame.locals.length then
        some { frame with
          stack := below
          locals := (frame.locals.set index (.long val)).set (index + 1) .second }
      else none
  | _ => none

/-- Add a constant to the `int` in a local variable. -/
def increment (frame : SpecFrame) (index : Nat) (const : Int) : Option SpecFrame :=
  match frame.locals[index]? with
  | some (.int val) =>
      some { frame with
        locals := frame.locals.set index (.int (BitVec.ofInt 32 (val.toInt + const))) }
  | _ => none

/-- Continue at an offset from the address `origin`. -/
def jump (frame : SpecFrame) (origin : Nat) (offset : Int) : Option SpecFrame :=
  if 0 ≤ origin + offset ∧ origin + offset < frame.code.length then
    some { frame with pc := (origin + offset).toNat }
  else none

/-- Pop an `int` and jump if a test on it holds. -/
def jumpIf (frame : SpecFrame) (origin : Nat) (offset : Int) (test : Int → Prop)
    [DecidablePred test] : Option SpecFrame :=
  match frame.stack with
  | .int val :: below =>
      let popped := { frame with stack := below }
      if test val.toInt then popped.jump origin offset else some popped
  | _ => none

/-- Pop two `int`s and jump if a test on them holds. -/
def jumpIf2 (frame : SpecFrame) (origin : Nat) (offset : Int) (test : Int → Int → Prop)
    [∀ left, DecidablePred (test left)] : Option SpecFrame :=
  match frame.stack with
  | .int right :: .int left :: below =>
      let popped := { frame with stack := below }
      if test left.toInt right.toInt then popped.jump origin offset else some popped
  | _ => none

end SpecFrame

/-- A comparison of integers. -/
def Compares (left right : Int) : Cond → Prop
  | .eq => left = right
  | .ne => left ≠ right
  | .lt => left < right
  | .ge => left ≥ right
  | .gt => left > right
  | .le => left ≤ right

instance (left right : Int) : DecidablePred (Compares left right) := fun cond => by
  cases cond <;> dsimp only [Compares] <;> infer_instance

instance (cond : Cond) (left : Int) : DecidablePred fun right => Compares left right cond :=
  fun _ => inferInstance

/-- The effect of an instruction on its frame, whose program counter has already
moved behind it; `origin` is its address. -/
def effect (origin : Nat) (frame : SpecFrame) : FrameInst → Option SpecFrame
  | .nop => some frame
  | .iconst number => frame.push (.int (BitVec.ofInt 32 ((number : Int) - 1)))
  | .lconst number => frame.push (.long (BitVec.ofInt 64 number))
  | .bipush val => frame.push (.int (BitVec.ofInt 32 val.toInt))
  | .sipush val => frame.push (.int (BitVec.ofInt 32 val.toInt))
  | .load .int index => frame.loadInt index.toNat
  | .load .long index => frame.loadLong index.toNat
  | .loadN .int number => frame.loadInt number
  | .loadN .long number => frame.loadLong number
  | .store .int index => frame.storeInt index.toNat
  | .store .long index => frame.storeLong index.toNat
  | .storeN .int number => frame.storeInt number
  | .storeN .long number => frame.storeLong number
  | .iinc index const => frame.increment index.toNat const.toInt
  | .add .int32 => frame.intOp fun left right => BitVec.ofInt 32 (left.toInt + right.toInt)
  | .add .int64 => frame.longOp fun left right => BitVec.ofInt 64 (left.toInt + right.toInt)
  | .sub .int32 => frame.intOp fun left right => BitVec.ofInt 32 (left.toInt - right.toInt)
  | .sub .int64 => frame.longOp fun left right => BitVec.ofInt 64 (left.toInt - right.toInt)
  | .mul .int32 => frame.intOp fun left right => BitVec.ofInt 32 (left.toInt * right.toInt)
  | .mul .int64 => frame.longOp fun left right => BitVec.ofInt 64 (left.toInt * right.toInt)
  | .neg .int32 => frame.intMap fun val => .int (BitVec.ofInt 32 (-val.toInt))
  | .neg .int64 => frame.longMap fun val => .long (BitVec.ofInt 64 (-val.toInt))
  | .and .int32 => frame.intOp fun left right => left &&& right
  | .and .int64 => frame.longOp fun left right => left &&& right
  | .or .int32 => frame.intOp fun left right => left ||| right
  | .or .int64 => frame.longOp fun left right => left ||| right
  | .xor .int32 => frame.intOp fun left right => left ^^^ right
  | .xor .int64 => frame.longOp fun left right => left ^^^ right
  | .t2r .i2l => frame.intMap fun val => .long (BitVec.ofInt 64 val.toInt)
  | .t2r .l2i => frame.longMap fun val => .int (BitVec.ofInt 32 val.toInt)
  | .i2r .int8 => frame.intMap fun val => .int (BitVec.ofInt 32 (val.toInt.bmod (2 ^ 8)))
  | .i2r .char16 => frame.intMap fun val => .int (BitVec.ofInt 32 (val.toInt % 2 ^ 16))
  | .i2r .int16 => frame.intMap fun val => .int (BitVec.ofInt 32 (val.toInt.bmod (2 ^ 16)))
  | .if_ cond offset => frame.jumpIf origin offset.toInt fun val => Compares val 0 cond
  | .ifIcmp cond offset =>
      frame.jumpIf2 origin offset.toInt fun left right => Compares left right cond
  | .goto offset => frame.jump origin offset.toInt
  | .gotoW offset => frame.jump origin offset.toInt
  | _ => none

/-- An instruction stands at an address of a code array, followed by the address
`next`. -/
def StandsAt (code : List Byte) (pc : Nat) (inst : Instruction) (next : Nat) : Prop :=
  inst.Encodable ∧ ∃ filler, encode filler pc inst <+: code.drop pc ∧
    next = pc + (encode filler pc inst).length

/-- One step of a stack of frames, newest first. -/
inductive SpecStep : List SpecFrame → List SpecFrame → Prop where
  | frame {frame after : SpecFrame} {rest : List SpecFrame} {inst : FrameInst} {next : Nat} :
      StandsAt frame.code frame.pc (.frame inst) next →
      effect frame.pc { frame with pc := next } inst = some after →
      SpecStep (frame :: rest) (after :: rest)
  | return_ {frame : SpecFrame} {rest : List SpecFrame} {next : Nat} :
      StandsAt frame.code frame.pc (.return_ none) next →
      SpecStep (frame :: rest) rest

end JvmDemo.Interpreter.Specification
