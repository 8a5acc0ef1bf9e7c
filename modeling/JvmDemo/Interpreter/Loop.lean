import JvmDemo.Instructions.Invoke
import JvmDemo.Lib.Refinement

/-!
# The interpreter loop

One iteration of `LoopExecute`: read an instruction at the current frame's next
program counter, move the counter behind it, and execute.  The loop ends when
the frame stack is empty after an iteration.
-/

namespace JvmDemo.Interpreter

open JvmDemo.Lib
open JvmDemo.Runtime
open JvmDemo.Instructions

/-- The instruction at a program counter, and the counter behind it.  A negative
counter fails in the first `vector::at`; one behind the range of `int32_t` has
overflowed. -/
def fetchAt (code : List Byte) (pc : BitVec 32) : Exec (Instruction × BitVec 32) :=
  if pc.slt 0 then .error BytecodeReader.outOfRange
  else do
    let (inst, cursor) ← fetch.runAt code pc.toNat
    if cursor.pos < 2 ^ 31 then pure (inst, BitVec.ofNat 32 cursor.pos)
    else undefined "overflow of pc_"

/-- The code of a method, if `codes_` leads to a vector. -/
def codesOf (method : Method) : Exec (List Byte) :=
  match method.codes with
  | some code => pure code
  | none => undefined "read through an invalid codes_"

/-- One iteration of `LoopExecute`. -/
def iteration (machine : Machine) (vm : Vm) : Exec Vm :=
  withFrame vm fun frame rest => do
    let pc := frame.nextPc
    let code ← codesOf frame.method
    let (inst, nextPc) ← fetchAt code pc
    let frame := frame.setNextPc nextPc
    inst.execute machine ((vm.setPc pc).setFrames (frame :: rest)) frame rest

/-- `IsStackEmpty`, the exit condition of the loop. -/
def isStackEmpty (vm : Vm) : Bool := vm.thread.frames.isEmpty

/-- The first `count` iterations of `LoopExecute`, or fewer if the loop ends
before. -/
def loopExecute (machine : Machine) : Nat → Vm → Exec Vm :=
  Refinement.loop (iteration machine) isStackEmpty

end JvmDemo.Interpreter
