import JvmDemo.Instructions.TypedOperands

/-!
# Three-way comparisons

`_cmp` serves `lcmp` and the four floating-point comparisons.  `LCMP`
instantiates it at `int32_t`, so it compares the halves of its second operand.
For a NaN, `_cmp` pushes the unordered result and then goes on to push another
one.  Of the five instructions, the floating-point ones are right on numbers.

Floating-point values are opaque: of their operations only the order, the
equality and the test for NaN are used, and of two numbers exactly one is less
or they are equal.
-/

namespace JvmDemo.Instructions

open JvmDemo.Lib
open JvmDemo.Runtime
open JvmDemo.Runtime.TypedStack

/-! ## Floating-point types -/

namespace FloatTy

def width : FloatTy → Nat
  | .float => 32
  | .double => 64

/-- The value that a floating-point number is on the operand stack. -/
def wrap : (type : FloatTy) → BitVec type.width → Value
  | .float => .float
  | .double => .double

/-- `PopOperandStack<T>`. -/
def pop : (type : FloatTy) → OperandStack → Exec (BitVec type.width × OperandStack)
  | .float => OperandStack.popFloat
  | .double => OperandStack.popDouble

/-- The operations of the type. -/
def arith (ops : FloatOps) : (type : FloatTy) → FloatArith (BitVec type.width)
  | .float => ops.float
  | .double => ops.double

theorem pops (type : FloatTy) : Pops type.pop type.wrap := by
  cases type with
  | float => exact pops_popFloat
  | double => exact pops_popDouble

theorem width_wrap_pos (type : FloatTy) (value : BitVec type.width) :
    0 < (type.wrap value).kind.width :=
  Kind.width_pos _

end FloatTy

/-- Two numbers are ordered: one is less than the other, or they are equal, and
only one of these is the case. -/
def FloatArith.Ordered {α : Type} (arith : FloatArith α) : Prop :=
  ∀ x y, arith.isNaN x = false → arith.isNaN y = false →
    (arith.lt x y = true ∧ arith.eq x y = false ∧ arith.lt y x = false) ∨
      (arith.lt x y = false ∧ arith.eq x y = true ∧ arith.lt y x = false) ∨
      (arith.lt x y = false ∧ arith.eq x y = false ∧ arith.lt y x = true)

/-! ## The comparisons -/

/-- The three-way comparisons. -/
inductive Comparison where
  | lcmp
  | fcmpl (type : FloatTy)
  | fcmpg (type : FloatTy)
  deriving DecidableEq, Repr

/-- The result for two floating-point values. -/
def IsOrdering {α : Type} (arith : FloatArith α) (unordered : Word) (value1 value2 : α)
    (result : Word) : Prop :=
  if arith.isNaN value1 || arith.isNaN value2 then result = unordered
  else (arith.lt value2 value1 = true → result = 1) ∧
    (arith.eq value1 value2 = true → result = 0) ∧
    (arith.lt value1 value2 = true → result = -1)

namespace Comparison

def inst : Comparison → FrameInst
  | .lcmp => .lcmp
  | .fcmpl type => .fcmpl type
  | .fcmpg type => .fcmpg type

/-- The width of the operands. -/
def width : Comparison → Nat
  | .lcmp => 64
  | .fcmpl type => type.width
  | .fcmpg type => type.width

def wrap : (comparison : Comparison) → BitVec comparison.width → Value
  | .lcmp => .long
  | .fcmpl type => type.wrap
  | .fcmpg type => type.wrap

/-- The result that the instruction is to push. -/
def Prescribes (ops : FloatOps) :
    (comparison : Comparison) → BitVec comparison.width → BitVec comparison.width → Word → Prop
  | .lcmp, value1, value2, result =>
      result = BitVec.ofInt 32 (value1.toInt - value2.toInt).sign
  | .fcmpl type, value1, value2, result => IsOrdering (type.arith ops) (-1) value1 value2 result
  | .fcmpg type, value1, value2, result => IsOrdering (type.arith ops) 1 value1 value2 result

/-- A floating-point comparison of two numbers. -/
def OfNumbers (ops : FloatOps) :
    (comparison : Comparison) → BitVec comparison.width → BitVec comparison.width → Prop
  | .lcmp, _, _ => False
  | .fcmpl type, value1, value2 | .fcmpg type, value1, value2 =>
      (type.arith ops).isNaN value1 = false ∧ (type.arith ops).isNaN value2 = false

end Comparison

/-- The instruction replaces its two operands by the prescribed result. -/
def ComparesAsJava (ops : FloatOps) (comparison : Comparison) (capacity : Nat) (below : List Value)
    (frame : Frame) (value1 value2 : BitVec comparison.width) (result : Exec Frame) : Prop :=
  ∃ ordering, comparison.Prescribes ops value1 value2 ordering ∧
    Leaves capacity (.int ordering :: below) frame result

section Compare

variable {ops : FloatOps} {capacity : Nat} {below : List Value} {frame : Frame}

theorem floatCompare_eq (unordered : Word) (type : FloatTy) :
    floatCompare ops unordered frame type =
      compare type.pop
        (fun v1 v2 => if (type.arith ops).isNaN v1 || (type.arith ops).isNaN v2 then
          some unordered else none)
        (type.arith ops).lt (type.arith ops).eq frame := by
  cases type <;> rfl

/-- `LCMP` leaves its first operand on the stack. -/
theorem leaves_lcmp (pc : BitVec 32) {value1 value2 : DWord}
    (represents : Represents capacity (.long value2 :: .long value1 :: below)
      frame.operandStack) :
    ∃ ordering, Leaves capacity (.int ordering :: .long value1 :: below) frame
      (FrameInst.lcmp.execute ops pc frame) := by
  have halves : Represents capacity
      (.int value2.high :: .int value2.low :: .long value1 :: below) frame.operandStack := by
    apply represents.retype
    simp [words, Value.words, DWord.words]
  obtain ⟨rest, representsRest, executed⟩ :=
    compare_eq pops_popInt (fun _ _ => none) BitVec.slt (· == ·) halves
  have fits := represents.used_le
  simp only [used, Value.kind, Kind.width] at fits
  rw [FrameInst.execute, executed]
  refine ⟨_, Leaves.of_push representsRest _ ?_⟩
  simp only [used, Value.kind, Kind.width]
  omega

/-- Of two numbers, `_cmp` pushes the ordering. -/
theorem leaves_floatCompare (unordered : Word) (type : FloatTy)
    (ordered : (type.arith ops).Ordered) {value1 value2 : BitVec type.width}
    (first : (type.arith ops).isNaN value1 = false)
    (second : (type.arith ops).isNaN value2 = false)
    (represents : Represents capacity (type.wrap value2 :: type.wrap value1 :: below)
      frame.operandStack) :
    ∃ ordering, IsOrdering (type.arith ops) unordered value1 value2 ordering ∧
      Leaves capacity (.int ordering :: below) frame (floatCompare ops unordered frame type) := by
  obtain ⟨rest, representsRest, executed⟩ := compare_eq type.pops
    (fun v1 v2 => if (type.arith ops).isNaN v1 || (type.arith ops).isNaN v2 then
      some unordered else none) (type.arith ops).lt (type.arith ops).eq represents
  have fits := represents.used_le
  have width2 := type.width_wrap_pos value2
  simp only [used] at fits
  simp only [first, second, Bool.or_self, Bool.false_eq_true, if_false] at executed
  rw [floatCompare_eq, executed]
  refine ⟨_, ?_, Leaves.of_push representsRest _ (by simp only [Value.kind, Kind.width]; omega)⟩
  simp only [IsOrdering, first, second, Bool.or_self, Bool.false_eq_true, if_false]
  rcases ordered value1 value2 first second with
    ⟨less, different, notMore⟩ | ⟨notLess, same, notMore⟩ | ⟨notLess, different, more⟩
  · simp [less, different, notMore]
  · simp [notLess, same, notMore]
  · simp [notLess, different, more]

/-- With a NaN, `_cmp` pushes two results. -/
theorem leaves_floatCompare_nan (unordered : Word) (type : FloatTy)
    {value1 value2 : BitVec type.width}
    (nan : ¬ ((type.arith ops).isNaN value1 = false ∧ (type.arith ops).isNaN value2 = false))
    (represents : Represents capacity (type.wrap value2 :: type.wrap value1 :: below)
      frame.operandStack) :
    ∃ ordering, Leaves capacity (.int ordering :: .int unordered :: below) frame
      (floatCompare ops unordered frame type) := by
  obtain ⟨rest, representsRest, executed⟩ := compare_eq type.pops
    (fun v1 v2 => if (type.arith ops).isNaN v1 || (type.arith ops).isNaN v2 then
      some unordered else none) (type.arith ops).lt (type.arith ops).eq represents
  have some : ((type.arith ops).isNaN value2 || (type.arith ops).isNaN value1) = true := by
    rw [Bool.or_eq_true]
    by_contra neither
    rw [not_or, Bool.not_eq_true, Bool.not_eq_true] at neither
    exact nan ⟨neither.2, neither.1⟩
  have fits := represents.used_le
  have width1 := type.width_wrap_pos value1
  have width2 := type.width_wrap_pos value2
  simp only [used] at fits
  obtain ⟨middle, pushed, representsMiddle⟩ := representsRest.push (.int unordered)
    (by simp only [Value.kind, Kind.width]; omega)
  simp only [some, if_true, pushed, Exec.bind_ok] at executed
  rw [floatCompare_eq, executed]
  refine ⟨_, Leaves.of_push representsMiddle _ ?_⟩
  simp only [used, Value.kind, Kind.width]
  omega

/-- The instructions other than `lcmp`. -/
theorem floatCompares_iff (unordered : Word) (type : FloatTy)
    (ordered : (type.arith ops).Ordered) {value1 value2 : BitVec type.width}
    (represents : Represents capacity (type.wrap value2 :: type.wrap value1 :: below)
      frame.operandStack) :
    (∃ ordering, IsOrdering (type.arith ops) unordered value1 value2 ordering ∧
      Leaves capacity (.int ordering :: below) frame (floatCompare ops unordered frame type)) ↔
      (type.arith ops).isNaN value1 = false ∧ (type.arith ops).isNaN value2 = false := by
  constructor
  · rintro ⟨ordering, -, leaves⟩
    by_contra nan
    obtain ⟨second, leavesTwo⟩ := leaves_floatCompare_nan unordered type nan represents
    have count := leaves.used_eq leavesTwo
    simp only [used, Value.kind, Kind.width] at count
    omega
  · rintro ⟨first, second⟩
    exact leaves_floatCompare unordered type ordered first second represents

/-- For every pair of operands on every operand stack: the instruction replaces
them by the prescribed result exactly when it is a floating-point comparison and
both operands are numbers. -/
theorem comparesAsJava_iff (pc : BitVec 32) (comparison : Comparison)
    (ordered : ∀ type : FloatTy, (type.arith ops).Ordered)
    {value1 value2 : BitVec comparison.width}
    (represents : Represents capacity (comparison.wrap value2 :: comparison.wrap value1 :: below)
      frame.operandStack) :
    ComparesAsJava ops comparison capacity below frame value1 value2
        (comparison.inst.execute ops pc frame) ↔
      comparison.OfNumbers ops value1 value2 := by
  cases comparison with
  | lcmp =>
      constructor
      · rintro ⟨ordering, -, leaves⟩
        obtain ⟨other, leavesOperand⟩ := leaves_lcmp pc represents
        have count := leaves.used_eq leavesOperand
        simp only [used, Value.kind, Kind.width] at count
        omega
      · exact False.elim
  | fcmpl type => exact floatCompares_iff (-1) type (ordered type) represents
  | fcmpg type => exact floatCompares_iff 1 type (ordered type) represents

end Compare

/-! ## The comparisons of IEEE 754 -/

/-- The bits below the sign. -/
def magnitude {width : Nat} (bits : BitVec width) : Nat := bits.toNat % 2 ^ (width - 1)

/-- Numbers in the order of these integers; both zeros are 0. -/
def signedMagnitude {width : Nat} (bits : BitVec width) : Int :=
  if bits.msb then -(magnitude bits : Int) else magnitude bits

/-- A format with the magnitude of its infinity, which the NaNs exceed.  Only the
comparisons are those of the format. -/
def FloatArith.ieee {width : Nat} (infinity : Nat) : FloatArith (BitVec width) :=
  { FloatArith.zero with
    isNaN := fun bits => infinity < magnitude bits
    lt := fun x y => magnitude x ≤ infinity && magnitude y ≤ infinity &&
      signedMagnitude x < signedMagnitude y
    eq := fun x y => magnitude x ≤ infinity && magnitude y ≤ infinity &&
      signedMagnitude x == signedMagnitude y }

/-- Single and double precision. -/
def FloatOps.ieee : FloatOps :=
  { FloatOps.zero with
    float := .ieee 0x7f800000
    double := .ieee 0x7ff0000000000000 }

theorem ordered_ieee {width : Nat} (infinity : Nat) :
    (FloatArith.ieee infinity : FloatArith (BitVec width)).Ordered := by
  intro x y first second
  simp only [FloatArith.ieee, decide_eq_false_iff_not, Nat.not_lt] at first second
  simp only [FloatArith.ieee, first, second, decide_true, Bool.true_and, Bool.and_self,
    decide_eq_true_eq, decide_eq_false_iff_not, beq_iff_eq, beq_eq_false_iff_ne]
  omega

theorem ordered_floatOps_ieee (type : FloatTy) : (type.arith .ieee).Ordered := by
  cases type with
  | float => exact ordered_ieee _
  | double => exact ordered_ieee _

/-- `fcmpl` of 1.0 and 2.0. -/
theorem comparesAsJava_one_two :
    ComparesAsJava .ieee (.fcmpl .float) 2 []
      (frameHolding 2 [.float 0x40000000, .float 0x3f800000])
      0x3f800000#32 0x40000000#32 ((FrameInst.fcmpl .float).execute .ieee 0
        (frameHolding 2 [.float 0x40000000, .float 0x3f800000])) := by
  have represents : Represents 2 [.float 0x40000000, .float 0x3f800000]
      (frameHolding 2 [.float 0x40000000, .float 0x3f800000]).operandStack :=
    represents_ofValues (by decide) (by decide)
  have numbers : (Comparison.fcmpl .float).OfNumbers .ieee 0x3f800000#32 0x40000000#32 := by
    constructor <;> decide
  exact (comparesAsJava_iff 0 (.fcmpl .float) ordered_floatOps_ieee represents).mpr numbers

/-- `lcmp` of 5 and 3, and `fcmpg` of two NaNs. -/
theorem comparisons_leave_more :
    ¬ ComparesAsJava .ieee .lcmp 4 [] (frameHolding 4 [.long 3, .long 5]) 5#64 3#64
        (FrameInst.lcmp.execute .ieee 0 (frameHolding 4 [.long 3, .long 5])) ∧
      ¬ ComparesAsJava .ieee (.fcmpg .float) 2 []
        (frameHolding 2 [.float 0x7fc00000, .float 0x7fc00000])
        0x7fc00000#32 0x7fc00000#32 ((FrameInst.fcmpg .float).execute .ieee 0
          (frameHolding 2 [.float 0x7fc00000, .float 0x7fc00000])) := by
  constructor
  · rintro ⟨ordering, -, leaves⟩
    have represents : Represents 4 [.long 3, .long 5]
        (frameHolding 4 [.long 3, .long 5]).operandStack :=
      represents_ofValues (by decide) (by decide)
    obtain ⟨other, leavesOperand⟩ := leaves_lcmp 0 represents
    exact absurd (leaves.used_eq leavesOperand) (by simp [used, Value.kind, Kind.width])
  · rintro ⟨ordering, -, leaves⟩
    have represents : Represents 2 [.float 0x7fc00000, .float 0x7fc00000]
        (frameHolding 2 [.float 0x7fc00000, .float 0x7fc00000]).operandStack :=
      represents_ofValues (by decide) (by decide)
    have nan : ¬ ((FloatTy.float.arith .ieee).isNaN 0x7fc00000#32 = false ∧
        (FloatTy.float.arith .ieee).isNaN 0x7fc00000#32 = false) := by decide
    obtain ⟨second, leavesTwo⟩ := leaves_floatCompare_nan 1 .float nan represents
    exact absurd (leaves.used_eq leavesTwo) (by simp [used, Value.kind, Kind.width])

end JvmDemo.Instructions
