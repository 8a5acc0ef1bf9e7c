import JvmDemo.Instructions.TypedOperands

/-!
# Integer division, remainder and shifts

`DIV` and `IREM` apply the C++ operators, which have no result for the smallest
integer and the divisor -1.  `SHL`, `SHR` and `USHR` use the whole shift operand
as the distance, where Java takes it modulo the width.  Everywhere else the
instructions push what Java prescribes.
-/

namespace JvmDemo.Instructions

open JvmDemo.Lib
open JvmDemo.Runtime
open JvmDemo.Runtime.TypedStack

/-! ## Integer types -/

namespace IntTy

def width : IntTy → Nat
  | .int32 => 32
  | .int64 => 64

/-- The value that an integer is on the operand stack. -/
def wrap : (type : IntTy) → BitVec type.width → Value
  | .int32 => .int
  | .int64 => .long

/-- `PopOperandStack<T>`. -/
def pop : (type : IntTy) → OperandStack → Exec (BitVec type.width × OperandStack)
  | .int32 => OperandStack.popInt
  | .int64 => OperandStack.popLong

/-- `PushOperandStack<T>`. -/
def push : (type : IntTy) → OperandStack → BitVec type.width → Exec OperandStack
  | .int32 => OperandStack.pushInt
  | .int64 => OperandStack.pushLong

theorem pops (type : IntTy) : Pops type.pop type.wrap := by
  cases type with
  | int32 => exact pops_popInt
  | int64 => exact pops_popLong

theorem push_eq (type : IntTy) (stack : OperandStack) (value : BitVec type.width) :
    type.push stack value = stack.push (type.wrap value) := by
  cases type <;> rfl

/-- Integers of a type take the same number of slots. -/
theorem width_wrap (type : IntTy) (first second : BitVec type.width) :
    (type.wrap first).kind.width = (type.wrap second).kind.width := by
  cases type <;> rfl

end IntTy

/-! ## Division and remainder -/

/-- The two operations that divide. -/
inductive DivOp where
  | div | rem
  deriving DecidableEq, Repr

namespace DivOp

/-- `idiv`, `ldiv`, `irem` and `lrem`. -/
def inst : DivOp → IntTy → FrameInst
  | .div, .int32 => .div .int32
  | .div, .int64 => .div .int64
  | .rem, type => .irem type

/-- What the instruction computes. -/
def run {width : Nat} : DivOp → BitVec width → BitVec width → Exec (BitVec width)
  | .div => intDiv
  | .rem => intRem

/-- The result that Java prescribes: the quotient truncated towards zero and
wrapped to the width, the remainder with the sign of the dividend. -/
def java {width : Nat} (op : DivOp) (dividend divisor : BitVec width) : BitVec width :=
  BitVec.ofInt width (match op with
    | .div => dividend.toInt.tdiv divisor.toInt
    | .rem => dividend.toInt.tmod divisor.toInt)

end DivOp

/-- The instruction stops with an `ArithmeticException`. -/
def RaisesArithmeticException (result : Exec Frame) : Prop :=
  ∃ operands, result = .error (.fatal ("ArithmeticException " ++ operands))

/-- The instruction divides as Java does: for a divisor other than zero it leaves
the prescribed result, and a zero divisor is what raises the exception. -/
structure DividesAsJava (op : DivOp) (type : IntTy) (capacity : Nat) (below : List Value)
    (frame : Frame) (dividend divisor : BitVec type.width) (result : Exec Frame) : Prop where
  computes : divisor ≠ 0 → Leaves capacity (type.wrap (op.java dividend divisor) :: below) frame
    result
  raises : RaisesArithmeticException result ↔ divisor = 0
  identity : dividend = divisor * DivOp.div.java dividend divisor + DivOp.rem.java dividend divisor
  sign : (0 ≤ dividend.toInt → 0 ≤ (DivOp.rem.java dividend divisor).toInt) ∧
    (dividend.toInt ≤ 0 → (DivOp.rem.java dividend divisor).toInt ≤ 0)

namespace DivOp

variable {width : Nat} (dividend divisor : BitVec width)

theorem java_div : DivOp.div.java dividend divisor = dividend.sdiv divisor := by
  apply BitVec.eq_of_toInt_eq
  rw [java, BitVec.toInt_ofInt, BitVec.toInt_sdiv]

theorem java_rem : DivOp.rem.java dividend divisor = dividend.srem divisor := by
  rw [java, ← BitVec.toInt_srem, BitVec.ofInt_toInt]

/-- Quotient and remainder give back the dividend, modulo the width. -/
theorem mul_java_add_java :
    divisor * DivOp.div.java dividend divisor + DivOp.rem.java dividend divisor = dividend := by
  have whole := Int.mul_tdiv_add_tmod dividend.toInt divisor.toInt
  calc divisor * DivOp.div.java dividend divisor + DivOp.rem.java dividend divisor
      = BitVec.ofInt width (divisor.toInt * dividend.toInt.tdiv divisor.toInt +
          dividend.toInt.tmod divisor.toInt) := by
        rw [BitVec.ofInt_add, BitVec.ofInt_mul, BitVec.ofInt_toInt]
        rfl
    _ = dividend := by rw [whole, BitVec.ofInt_toInt]

theorem sign_java_rem :
    (0 ≤ dividend.toInt → 0 ≤ (DivOp.rem.java dividend divisor).toInt) ∧
      (dividend.toInt ≤ 0 → (DivOp.rem.java dividend divisor).toInt ≤ 0) := by
  rw [java_rem, BitVec.toInt_srem]
  constructor
  · intro positive
    exact Int.tmod_nonneg _ positive
  · intro negative
    have opposite := Int.tmod_nonneg divisor.toInt (Int.neg_nonneg_of_nonpos negative)
    rw [Int.neg_tmod] at opposite
    exact Int.nonpos_of_neg_nonneg opposite

/-- What the C++ operators do, by operands. -/
theorem run_eq (op : DivOp) :
    (divisor = 0 → ∃ operands, op.run dividend divisor =
      .error (.fatal ("ArithmeticException " ++ operands))) ∧
    (divisor ≠ 0 → dividend = BitVec.intMin width ∧ divisor = -1 →
      op.run dividend divisor = undefined "overflow in a division") ∧
    (divisor ≠ 0 → ¬ (dividend = BitVec.intMin width ∧ divisor = -1) →
      op.run dividend divisor = .ok (op.java dividend divisor)) := by
  have message : "ArithmeticException " ++ toString dividend.toInt ++ " / " ++
      toString divisor.toInt =
      "ArithmeticException " ++ (toString dividend.toInt ++ (" / " ++ toString divisor.toInt)) := by
    rw [String.append_assoc, String.append_assoc]
  refine ⟨?_, ?_, ?_⟩
  · intro zero
    cases op with
    | div => exact ⟨_, by rw [run, intDiv, if_pos zero, message]; rfl⟩
    | rem => exact ⟨_, by rw [run, intRem, if_pos zero, message]; rfl⟩
  · intro nonzero overflow
    cases op with
    | div => rw [run, intDiv, if_neg nonzero, if_pos overflow]
    | rem => rw [run, intRem, if_neg nonzero, if_pos overflow]
  · intro nonzero fits
    cases op with
    | div =>
        rw [run, intDiv, if_neg nonzero, if_neg fits, java_div]
        rfl
    | rem =>
        rw [run, intRem, if_neg nonzero, if_neg fits, java_rem]
        rfl

end DivOp

section Division

variable {op : DivOp} {type : IntTy} {capacity : Nat} {below : List Value} {frame : Frame}

theorem execute_divOp (ops : FloatOps) (pc : BitVec 32) (op : DivOp) (type : IntTy)
    (frame : Frame) :
    (op.inst type).execute ops pc frame = binary type.pop type.push op.run frame := by
  cases op <;> cases type <;> rfl

/-- The result of a binary operation takes the place of its operands. -/
theorem leaves_divOp (ops : FloatOps) (pc : BitVec 32)
    {dividend divisor result : BitVec type.width}
    (represents : Represents capacity (type.wrap divisor :: type.wrap dividend :: below)
      frame.operandStack)
    (computed : op.run dividend divisor = .ok result) :
    Leaves capacity (type.wrap result :: below) frame ((op.inst type).execute ops pc frame) := by
  obtain ⟨rest, representsRest, executed⟩ := binary_eq type.pops op.run represents
  rw [execute_divOp, executed, computed]
  simp only [Exec.bind_ok, IntTy.push_eq]
  apply Leaves.of_push representsRest
  have fits := represents.used_le
  have same := type.width_wrap result divisor
  simp only [used] at fits
  omega

theorem error_divOp (ops : FloatOps) (pc : BitVec 32) {dividend divisor : BitVec type.width}
    {fault : Fault}
    (represents : Represents capacity (type.wrap divisor :: type.wrap dividend :: below)
      frame.operandStack)
    (stopped : op.run dividend divisor = .error fault) :
    (op.inst type).execute ops pc frame = .error fault := by
  obtain ⟨rest, -, executed⟩ := binary_eq type.pops op.run represents
  rw [execute_divOp, executed, stopped]
  rfl

/-- For both widths, every dividend and divisor, on every operand stack: the
instruction divides as Java does unless the dividend is the smallest integer and
the divisor -1. -/
theorem dividesAsJava_iff (ops : FloatOps) (pc : BitVec 32) (op : DivOp) (type : IntTy)
    {dividend divisor : BitVec type.width}
    (represents : Represents capacity (type.wrap divisor :: type.wrap dividend :: below)
      frame.operandStack) :
    DividesAsJava op type capacity below frame dividend divisor
        ((op.inst type).execute ops pc frame) ↔
      ¬ (dividend = BitVec.intMin type.width ∧ divisor = -1) := by
  obtain ⟨onZero, onOverflow, otherwise⟩ := DivOp.run_eq dividend divisor op
  constructor
  · rintro divides ⟨least, minusOne⟩
    have nonzero : divisor ≠ 0 := by
      rw [minusOne]
      cases type <;> decide
    have leaves := divides.computes nonzero
    rw [error_divOp ops pc represents (onOverflow nonzero ⟨least, minusOne⟩)] at leaves
    exact Leaves.not_error leaves
  · intro fits
    constructor
    · intro nonzero
      exact leaves_divOp ops pc represents (otherwise nonzero fits)
    · constructor
      · rintro ⟨operands, raised⟩
        by_contra nonzero
        have leaves := leaves_divOp ops pc represents (otherwise nonzero fits)
        rw [raised] at leaves
        exact Leaves.not_error leaves
      · intro zero
        obtain ⟨operands, stopped⟩ := onZero zero
        exact ⟨operands, error_divOp ops pc represents stopped⟩
    · exact (DivOp.mul_java_add_java dividend divisor).symm
    · exact DivOp.sign_java_rem dividend divisor

end Division

/-- `-7 / 2` and `-7 % 2`. -/
theorem dividesAsJava_minus_seven :
    DividesAsJava .div .int32 2 [] (frameHolding 2 [.int 2, .int (-7)]) (-7#32) (2#32)
        ((FrameInst.div .int32).execute .zero 0 (frameHolding 2 [.int 2, .int (-7)])) ∧
      DivOp.div.java (-7#32) 2#32 = -3#32 ∧ DivOp.rem.java (-7#32) 2#32 = -1#32 := by
  have represents : Represents 2 [.int 2, .int (-7)]
      (frameHolding 2 [.int 2, .int (-7)]).operandStack :=
    represents_ofValues (by decide) (by decide)
  have fits : ¬ (-7#32 = BitVec.intMin 32 ∧ 2#32 = -1#32) := by decide
  have divides := (dividesAsJava_iff .zero 0 .div .int32 represents).mpr fits
  exact ⟨divides, by decide, by decide⟩

/-- The smallest `int` divided by -1. -/
theorem least_int_not_divided :
    ¬ DividesAsJava .div .int32 2 [] (frameHolding 2 [.int (-1), .int 0x80000000]) 0x80000000#32
      (-1#32) ((FrameInst.div .int32).execute .zero 0
        (frameHolding 2 [.int (-1), .int 0x80000000])) := by
  intro divides
  have stopped : (FrameInst.div .int32).execute .zero 0
      (frameHolding 2 [.int (-1), .int 0x80000000]) = undefined "overflow in a division" := rfl
  have nonzero : -1#32 ≠ 0#32 := by decide
  have leaves := divides.computes nonzero
  rw [stopped] at leaves
  exact Leaves.not_error leaves

/-! ## Shifts -/

/-- The three shifts. -/
inductive ShiftOp where
  | shl | shr | ushr
  deriving DecidableEq, Repr

namespace ShiftOp

/-- `ishl`, `lshl`, `ishr`, `lshr`, `iushr` and `lushr`. -/
def inst : ShiftOp → IntTy → FrameInst
  | .shl => .shl
  | .shr => .shr
  | .ushr => .ushr

/-- A shift by a distance: `shr` keeps the sign, `ushr` fills with zeros. -/
def run {width : Nat} : ShiftOp → BitVec width → Nat → BitVec width
  | .shl => fun value distance => value <<< distance
  | .shr => BitVec.sshiftRight
  | .ushr => fun value distance => value >>> distance

/-- The result that Java prescribes: the distance is taken modulo the width. -/
def java {width : Nat} (op : ShiftOp) (value : BitVec width) (amount : Word) : BitVec width :=
  op.run value (amount.toNat % width)

end ShiftOp

/-- The instruction shifts as Java does. -/
def ShiftsAsJava (op : ShiftOp) (type : IntTy) (capacity : Nat) (below : List Value)
    (frame : Frame) (value : BitVec type.width) (amount : Word) (result : Exec Frame) : Prop :=
  Leaves capacity (type.wrap (op.java value amount) :: below) frame result

section Shift

variable {capacity : Nat} {below : List Value} {frame : Frame}

theorem execute_shiftOp (ops : FloatOps) (pc : BitVec 32) (op : ShiftOp) (type : IntTy)
    (frame : Frame) :
    (op.inst type).execute ops pc frame =
      shift type.pop type.push (shiftBy op.run) frame := by
  cases op <;> cases type <;> rfl

/-- For both widths, every value and every shift operand, on every operand
stack: the instruction shifts as Java does exactly when the operand, read as
unsigned, is below the width. -/
theorem shiftsAsJava_iff (ops : FloatOps) (pc : BitVec 32) (op : ShiftOp) (type : IntTy)
    {value : BitVec type.width} {amount : Word}
    (represents : Represents capacity (.int amount :: type.wrap value :: below)
      frame.operandStack) :
    ShiftsAsJava op type capacity below frame value amount
        ((op.inst type).execute ops pc frame) ↔
      amount.toNat < type.width := by
  obtain ⟨rest, representsRest, executed⟩ := shift_eq type.pops (shiftBy op.run) represents
  rw [execute_shiftOp, executed, shiftBy]
  by_cases small : amount.toNat < type.width
  · rw [if_pos small]
    simp only [small, iff_true, Exec.bind_pure, IntTy.push_eq]
    have distance : op.java value amount = op.run value amount.toNat := by
      rw [ShiftOp.java, Nat.mod_eq_of_lt small]
    rw [ShiftsAsJava, distance]
    apply Leaves.of_push representsRest
    have fits := represents.used_le
    have same := type.width_wrap (op.run value amount.toNat) value
    simp only [used] at fits
    omega
  · rw [if_neg small]
    simp only [small, iff_false]
    exact Leaves.not_error

end Shift

/-- `-8 >>> 1` on a `long`. -/
theorem shiftsAsJava_ushr_one :
    ShiftsAsJava .ushr .int64 3 [] (frameHolding 3 [.int 1, .long (-8)]) (-8#64) 1
        ((FrameInst.ushr .int64).execute .zero 0 (frameHolding 3 [.int 1, .long (-8)])) ∧
      ShiftOp.ushr.java (-8#64) 1 = 0x7ffffffffffffffc#64 := by
  have represents : Represents 3 [.int 1, .long (-8)]
      (frameHolding 3 [.int 1, .long (-8)]).operandStack :=
    represents_ofValues (by decide) (by decide)
  have shifts := (shiftsAsJava_iff .zero 0 .ushr .int64 represents).mpr (by decide)
  exact ⟨shifts, by decide⟩

/-- `1 << 32`, which is 1 in Java. -/
theorem shift_by_width_not_taken :
    ¬ ShiftsAsJava .shl .int32 2 [] (frameHolding 2 [.int 32, .int 1]) 1#32 32
      ((FrameInst.shl .int32).execute .zero 0 (frameHolding 2 [.int 32, .int 1])) := by
  have stopped : (FrameInst.shl .int32).execute .zero 0 (frameHolding 2 [.int 32, .int 1]) =
    undefined "shift by the width or more" := rfl
  rw [stopped]
  exact Leaves.not_error

end JvmDemo.Instructions
