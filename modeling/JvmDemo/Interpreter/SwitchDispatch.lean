import JvmDemo.Instructions.TypedOperands
import JvmDemo.Interpreter.Simulation

/-!
# Switches

A switch pops its key and selects an offset from its table.  `TABLE_SWITCH` and
`LOOKUP_SWITCH` keep the offset in a local variable, while `Branch` adds the field
`offset_`, which the constructor sets to zero and `FetchOperands` leaves alone.
The selection itself is right: the table is read inside its bounds and the search
ends at the first pair with the key.
-/

namespace JvmDemo.Interpreter

open JvmDemo.Lib
open JvmDemo.Runtime
open JvmDemo.Runtime.TypedStack (Represents)
open JvmDemo.Instructions
open Specification

/-! ## What a switch selects -/

/-- A switch with its operands. -/
inductive Switch where
  | table (defaultOffset low high : BitVec 32) (offsets : List (BitVec 32))
  | lookup (defaultOffset : BitVec 32) (pairs : List (BitVec 32 × BitVec 32))
  deriving DecidableEq, Repr

/-- Keys and offsets in the order in which they stand in the code. -/
def flatten (pairs : List (BitVec 32 × BitVec 32)) : List (BitVec 32) :=
  pairs.flatMap fun pair => [pair.1, pair.2]

theorem length_flatten (pairs : List (BitVec 32 × BitVec 32)) :
    (flatten pairs).length = 2 * pairs.length := by
  simp [flatten, List.length_flatMap, Nat.mul_comm]

namespace Switch

def inst : Switch → FrameInst
  | .table defaultOffset low high offsets => .tableSwitch defaultOffset low high offsets
  | .lookup defaultOffset pairs =>
      .lookupSwitch defaultOffset (BitVec.ofNat 32 pairs.length) (flatten pairs)

/-- The offset that the JVM specification selects for a key. -/
def offset (key : Word) : Switch → BitVec 32
  | .table defaultOffset low high offsets =>
      if low.toInt ≤ key.toInt ∧ key.toInt ≤ high.toInt then
        offsets.getD (key.toInt - low.toInt).toNat defaultOffset
      else defaultOffset
  | .lookup defaultOffset pairs => (pairs.lookup key).getD defaultOffset

end Switch

/-- The current frame is about to execute the switch at address `pc` of its code,
with the key on top of its operand stack. -/
structure AtSwitch (vm : Vm) (frame : Frame) (rest : List Frame) (switch : Switch) (pc : Nat)
    (key : Word) (capacity : Nat) (below : List Value) : Prop where
  frames : vm.thread.frames = frame :: rest
  nextPc : frame.nextPc = BitVec.ofNat 32 pc
  stands : ∃ code next, frame.method.codes = some code ∧ code.length < 2 ^ 31 ∧
    StandsAt code pc (.frame switch.inst) next
  represents : Represents capacity (.int key :: below) frame.operandStack

/-- The iteration pops the key, continues at the selected offset from the opcode,
and changes nothing else. -/
def SwitchDispatches (machine : Machine) (vm : Vm) (frame : Frame) (rest : List Frame)
    (switch : Switch) (pc : Nat) (key : Word) (capacity : Nat) (below : List Value) : Prop :=
  ∃ stack, Represents capacity below stack ∧
    iteration machine vm = .ok ((vm.setPc (BitVec.ofNat 32 pc)).setFrames
      ((frame.setStack stack).setNextPc (BitVec.ofNat 32 pc + switch.offset key) :: rest))

/-! ## The selection in the code -/

/-- A key between the bounds is read inside the table. -/
theorem toNat_sub_lt {low high key : BitVec 32} {count : Nat}
    (length : (count : Int) = high.toInt - low.toInt + 1) (above : low.toInt ≤ key.toInt)
    (upTo : key.toInt ≤ high.toInt) : (key - low).toNat < count := by
  simp only [BitVec.toInt_eq_toNat_cond] at length above upTo
  rw [BitVec.toNat_sub]
  omega

/-- The search returns the offset of the first pair with the key. -/
theorem lookupLoop_eq (key : Word) (before : List (BitVec 32))
    (pairs : List (BitVec 32 × BitVec 32)) :
    lookupLoop key (before ++ flatten pairs) before.length pairs.length =
      pure (pairs.lookup key) := by
  induction pairs generalizing before with
  | nil => rfl
  | cons pair pairs ih =>
      obtain ⟨first, offset⟩ := pair
      have split : before ++ flatten ((first, offset) :: pairs) =
          (before ++ [first, offset]) ++ flatten pairs := by
        simp [flatten]
      have atKey : (before ++ flatten ((first, offset) :: pairs))[before.length]? = some first := by
        simp [flatten]
      have atOffset : (before ++ flatten ((first, offset) :: pairs))[before.length + 1]? =
          some offset := by
        simp [flatten]
      have later := ih (before ++ [first, offset])
      rw [List.length_append, ← split] at later
      rw [List.length_cons, lookupLoop, atKey]
      dsimp only
      by_cases found : first = key
      · have equal : (key == first) = true := beq_iff_eq.mpr found.symm
        rw [if_pos found, atOffset, List.lookup_cons, equal]
      · have differs : (key == first) = false := beq_eq_false_iff_ne.mpr (Ne.symm found)
        rw [if_neg found, List.lookup_cons, differs]
        exact later

section Execution

variable {capacity : Nat} {key : Word} {below : List Value} {frame : Frame}

theorem executeTableSwitch_eq (pc : BitVec 32) {low high : BitVec 32} {offsets : List (BitVec 32)}
    (length : (offsets.length : Int) = high.toInt - low.toInt + 1)
    (represents : Represents capacity (.int key :: below) frame.operandStack) :
    ∃ stack, Represents capacity below stack ∧
      executeTableSwitch pc low high offsets frame = .ok ((frame.setStack stack).setNextPc pc) := by
  obtain ⟨stack, popped, representsNext⟩ := TypedStack.pops_popInt key represents
  refine ⟨stack, representsNext, ?_⟩
  rw [executeTableSwitch, popped, Exec.bind_ok]
  dsimp only
  split
  · rename_i between
    rw [Bool.and_eq_true, BitVec.sle_iff_toInt_le, BitVec.sle_iff_toInt_le] at between
    have inside := toNat_sub_lt length between.1 between.2
    rw [List.getElem?_eq_getElem inside]
    simp [branch, pure, Except.pure]
  · simp [branch, pure, Except.pure]

theorem executeLookupSwitch_eq (pc : BitVec 32) {pairs : List (BitVec 32 × BitVec 32)}
    (few : 2 * pairs.length < 2 ^ 31)
    (represents : Represents capacity (.int key :: below) frame.operandStack) :
    ∃ stack, Represents capacity below stack ∧
      executeLookupSwitch pc (BitVec.ofNat 32 pairs.length) (flatten pairs) frame =
        .ok ((frame.setStack stack).setNextPc pc) := by
  obtain ⟨stack, popped, representsNext⟩ := TypedStack.pops_popInt key represents
  refine ⟨stack, representsNext, ?_⟩
  have npairs : (BitVec.ofNat 32 pairs.length).toInt = pairs.length := by
    rw [BitVec.toInt_ofNat', bmod_of_lt (by omega)]
  have doubled : (BitVec.ofNat 32 pairs.length * 2).toInt = (2 * pairs.length : Nat) :=
    toInt_pairCount few (by rw [npairs]; rfl)
  have rounds : ((BitVec.ofNat 32 pairs.length * 2).toInt.toNat + 1) / 2 = pairs.length := by
    rw [doubled]
    omega
  have searched := lookupLoop_eq key [] pairs
  rw [List.nil_append, List.length_nil] at searched
  rw [executeLookupSwitch, popped, Exec.bind_ok]
  dsimp only
  rw [rounds, searched]
  simp [branch, pure, Except.pure]

end Execution

/-! ## When a switch dispatches -/

/-- The table of a `lookupswitch` is shorter than the code that has it. -/
theorem length_flatten_lt {code : List Byte} {pc next : Nat} {defaultOffset : BitVec 32}
    {pairs : List (BitVec 32 × BitVec 32)} (short : code.length < 2 ^ 31)
    (stands : StandsAt code pc (.frame (Switch.lookup defaultOffset pairs).inst) next) :
    2 * pairs.length < 2 ^ 31 := by
  obtain ⟨-, filler, laidOut, -⟩ := stands
  have inside := laidOut.length_le
  have table := length_le_length_flatMap_be32 (flatten pairs)
  simp only [encode, Switch.inst, Instruction.operands, FrameInst.operands, List.length_cons,
    List.length_append, List.length_drop] at inside
  rw [length_flatten] at table
  omega

section Dispatch

variable {vm : Vm} {frame : Frame} {rest : List Frame} {switch : Switch} {pc : Nat} {key : Word}
  {capacity : Nat} {below : List Value}

/-- Whatever the switch selects, the iteration stays at the opcode. -/
theorem AtSwitch.iteration_eq (atSwitch : AtSwitch vm frame rest switch pc key capacity below)
    (machine : Machine) :
    ∃ stack, Represents capacity below stack ∧
      iteration machine vm = .ok ((vm.setPc (BitVec.ofNat 32 pc)).setFrames
        ((frame.setStack stack).setNextPc (BitVec.ofNat 32 pc) :: rest)) := by
  obtain ⟨code, next, codes, short, stands⟩ := atSwitch.stands
  have executed : ∃ stack, Represents capacity below stack ∧
      switch.inst.execute machine.floatOps (BitVec.ofNat 32 pc)
        (frame.setNextPc (BitVec.ofNat 32 next)) =
          .ok (((frame.setNextPc (BitVec.ofNat 32 next)).setStack stack).setNextPc
            (BitVec.ofNat 32 pc)) := by
    cases switch with
    | table defaultOffset low high offsets =>
        exact executeTableSwitch_eq _ stands.1.2 atSwitch.represents
    | lookup defaultOffset pairs =>
        exact executeLookupSwitch_eq _ (length_flatten_lt short stands) atSwitch.represents
  obtain ⟨stack, represents, returned⟩ := executed
  refine ⟨stack, represents, ?_⟩
  rw [iteration_of_standsAt machine atSwitch.frames codes short atSwitch.nextPc stands]
  simp only [Instruction.execute, Vm.setFrames_pc, Vm.setPc_pc, returned]
  rfl

theorem AtSwitch.offset_eq_zero (atSwitch : AtSwitch vm frame rest switch pc key capacity below)
    {machine : Machine}
    (dispatches : SwitchDispatches machine vm frame rest switch pc key capacity below) :
    switch.offset key = 0 := by
  obtain ⟨stack, -, returned⟩ := atSwitch.iteration_eq machine
  obtain ⟨other, -, dispatched⟩ := dispatches
  rw [returned, Except.ok.injEq] at dispatched
  have frames := congrArg (fun vm : Vm => vm.thread.frames) dispatched
  have newest := (List.cons.inj frames).1
  have counter : BitVec.ofNat 32 pc = BitVec.ofNat 32 pc + switch.offset key :=
    congrArg Frame.nextPc newest
  exact BitVec.self_eq_add_right.mp counter

/-- `Branch` ignores the selected offset and adds zero: a switch dispatches
exactly when it selects the offset zero. -/
theorem switchDispatches_iff (machine : Machine)
    (atSwitch : AtSwitch vm frame rest switch pc key capacity below) :
    SwitchDispatches machine vm frame rest switch pc key capacity below ↔
      switch.offset key = 0 := by
  constructor
  · exact atSwitch.offset_eq_zero
  · intro zero
    obtain ⟨stack, represents, returned⟩ := atSwitch.iteration_eq machine
    exact ⟨stack, represents, by simp [returned, zero]⟩

end Dispatch

/-- A method with a `tableswitch` that selects 20 for the key 1, 0 for the key 2 and
24 by default. -/
def switchMethod : Method where
  codes := some [0xaa, 0, 0, 0, 0, 0, 0, 24, 0, 0, 0, 1, 0, 0, 0, 2, 0, 0, 0, 20, 0, 0, 0, 0]
  maxStack := 1
  exceptionTable := some [emptyHandler]

def sampleSwitch : Switch := .table 24 1 2 [20, 0]

/-- A frame of the method with a key on its stack. -/
def switchFrame (key : Word) : Frame :=
  (Frame.ofMethod switchMethod).setStack (TypedStack.ofValues 1 [.int key])

theorem atSwitch_switchFrame (key : Word) :
    AtSwitch (.ofFrames [switchFrame key]) (switchFrame key) [] sampleSwitch 0 key 1 [] where
  frames := rfl
  nextPc := rfl
  stands := ⟨_, 24, rfl, by decide, by decide, fun _ => 0, by decide, rfl⟩
  represents := TypedStack.represents_ofValues (Nat.le_refl 1) (by decide)

theorem switchDispatches_key_two :
    AtSwitch (.ofFrames [switchFrame 2]) (switchFrame 2) [] sampleSwitch 0 2 1 [] ∧
      SwitchDispatches (.ofTable .empty) (.ofFrames [switchFrame 2]) (switchFrame 2) [] sampleSwitch
        0 2 1 [] :=
  ⟨atSwitch_switchFrame 2,
    (switchDispatches_iff (.ofTable .empty) (atSwitch_switchFrame 2)).mpr (by decide)⟩

/-- The key 1 selects the offset 20, but the next address is 0 again. -/
theorem key_one_not_dispatched :
    AtSwitch (.ofFrames [switchFrame 1]) (switchFrame 1) [] sampleSwitch 0 1 1 [] ∧
      sampleSwitch.offset 1 = 20 ∧
      ¬ SwitchDispatches (.ofTable .empty) (.ofFrames [switchFrame 1]) (switchFrame 1) []
        sampleSwitch 0 1 1 [] := by
  refine ⟨atSwitch_switchFrame 1, by decide, ?_⟩
  intro dispatches
  exact absurd ((atSwitch_switchFrame 1).offset_eq_zero dispatches) (by decide)

end JvmDemo.Interpreter
