import JvmDemo.Runtime.Class
import JvmDemo.Runtime.OperandStack

/-!
# Frames and the thread stack

The frames of a thread are a list, newest first: following `prev_fp_` from the
current frame.  The stack pointer is the number of frames times the size of a
frame above the base of the buffer.
-/

namespace JvmDemo.Runtime

open JvmDemo.Lib

structure Frame where
  localVars : Slots
  operandStack : OperandStack
  method : Method
  nextPc : BitVec 32
  deriving DecidableEq, Repr

namespace Frame

/-- `GetHeaderSize`: two pointers and an `int32_t`. -/
def headerSize : Nat := 20

/-- `sizeof(Frame)`. -/
def size : Nat := 80

/-- The constructor; the counts are converted to `uint16_t`. -/
def ofMethod (method : Method) : Frame where
  localVars := Slots.ofCount (method.maxLocals % 2 ^ 16)
  operandStack := OperandStack.ofSize (method.maxStack % 2 ^ 16)
  method := method
  nextPc := 0

def setNextPc (frame : Frame) (nextPc : BitVec 32) : Frame := { frame with nextPc := nextPc }

def setStack (frame : Frame) (stack : OperandStack) : Frame := { frame with operandStack := stack }

def setVars (frame : Frame) (vars : Slots) : Frame := { frame with localVars := vars }

variable (frame : Frame) (nextPc : BitVec 32) (stack : OperandStack) (vars : Slots)

@[simp]
theorem setNextPc_nextPc : (frame.setNextPc nextPc).nextPc = nextPc := rfl

@[simp]
theorem setNextPc_method : (frame.setNextPc nextPc).method = frame.method := rfl

@[simp]
theorem setNextPc_operandStack : (frame.setNextPc nextPc).operandStack = frame.operandStack := rfl

@[simp]
theorem setNextPc_localVars : (frame.setNextPc nextPc).localVars = frame.localVars := rfl

@[simp]
theorem setStack_nextPc : (frame.setStack stack).nextPc = frame.nextPc := rfl

@[simp]
theorem setStack_method : (frame.setStack stack).method = frame.method := rfl

@[simp]
theorem setStack_operandStack : (frame.setStack stack).operandStack = stack := rfl

@[simp]
theorem setStack_localVars : (frame.setStack stack).localVars = frame.localVars := rfl

@[simp]
theorem setVars_nextPc : (frame.setVars vars).nextPc = frame.nextPc := rfl

@[simp]
theorem setVars_method : (frame.setVars vars).method = frame.method := rfl

@[simp]
theorem setVars_operandStack : (frame.setVars vars).operandStack = frame.operandStack := rfl

@[simp]
theorem setVars_localVars : (frame.setVars vars).localVars = vars := rfl

end Frame

structure Thread where
  pc : BitVec 32
  frames : List Frame
  deriving DecidableEq, Repr

namespace Thread

/-- The capacity of the stack buffer that the constructor asks for. -/
def maxSize : Nat := 1024

/-- `CheckStackOverflow` for a frame of the method on top of `depth` frames;
the requested size is a `uint32_t`. -/
def overflows (depth : Nat) (method : Method) : Bool :=
  maxSize < depth * Frame.size +
    (method.maxStack + method.maxLocals + Frame.headerSize) % 2 ^ 32

/-- A frame on top of `depth` frames ends behind the buffer. -/
def oversteps (depth : Nat) : Bool := maxSize < (depth + 1) * Frame.size

/-- A frame is constructed over the end of the buffer. -/
def behindBuffer : Fault := .undefined "frame behind the stack buffer"

/-- `CreateFrame`.  The check asks for less than the frame takes, so that the frame
may end behind the buffer. -/
def createFrame (thread : Thread) (method : Method) : Exec Thread :=
  if overflows thread.frames.length method then fatal "java.lang.StackOverflowError"
  else if oversteps thread.frames.length then .error behindBuffer
  else .ok { thread with frames := Frame.ofMethod method :: thread.frames }

/-- The check passes for a frame of the method on top of `depth` frames, and the
frame ends inside the buffer. -/
def HasRoom (depth : Nat) (method : Method) : Prop :=
  overflows depth method = false ∧ oversteps depth = false

instance (depth : Nat) (method : Method) : Decidable (HasRoom depth method) :=
  inferInstanceAs (Decidable (_ ∧ _))

variable {thread next : Thread} {method : Method}

theorem createFrame_of_hasRoom (room : HasRoom thread.frames.length method) :
    thread.createFrame method =
      .ok { thread with frames := Frame.ofMethod method :: thread.frames } := by
  rw [createFrame, room.1, room.2]
  rfl

/-- A frame that was created had room. -/
theorem hasRoom_of_createFrame (created : thread.createFrame method = .ok next) :
    HasRoom thread.frames.length method := by
  unfold createFrame at created
  split at created
  · cases created
  · next passed =>
      split at created
      · cases created
      · next inside => exact ⟨by simpa using passed, by simpa using inside⟩

/-- A frame that was created lies on top of the earlier ones. -/
theorem createFrame_eq_ok (created : thread.createFrame method = .ok next) :
    next = { thread with frames := Frame.ofMethod method :: thread.frames } := by
  rw [createFrame_of_hasRoom (hasRoom_of_createFrame created)] at created
  cases created
  rfl

end Thread

end JvmDemo.Runtime
