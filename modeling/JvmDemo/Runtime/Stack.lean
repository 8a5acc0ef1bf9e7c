import JvmDemo.Lib.Refinement
import JvmDemo.Runtime.Thread
import Mathlib.Data.List.Induction

/-!
# The frame stack in its buffer

`Stack` carves frames out of one allocation: a frame is constructed where `sp_`
points, `sp_` moves on by the size of a frame, and popping moves it back to the
address of the popped frame.  The frames are linked by the pointers that they
hold themselves.

The model keeps the addresses, with zero for null.  The memory has a frame at every
address where one was constructed; constructing another one over a part of it
destroys it.
-/

namespace JvmDemo.Runtime

open JvmDemo.Lib
open JvmDemo.Lib.Refinement

/-- A frame with its `prev_fp_`. -/
structure StoredFrame where
  frame : Frame
  prevFp : Nat
  deriving DecidableEq, Repr

/-- The frames in memory, by the address at which they begin. -/
abbrev FrameMemory := Nat → Option StoredFrame

/-- Two frames at these addresses share no byte. -/
def Apart (first second : Nat) : Prop :=
  first + Frame.size ≤ second ∨ second + Frame.size ≤ first

instance (first second : Nat) : Decidable (Apart first second) :=
  inferInstanceAs (Decidable (_ ∨ _))

/-- Construct a frame at an address, over whatever is there. -/
def FrameMemory.place (memory : FrameMemory) (address : Nat) (stored : StoredFrame) :
    FrameMemory := fun other =>
  if other = address then some stored
  else if Apart other address then memory other
  else none

/-- A `Stack` and the memory that its frames lie in. -/
structure Stack where
  base : Nat
  sp : Nat
  fp : Nat
  maxSize : Nat
  memory : FrameMemory

namespace Stack

/-- The constructor, with the address that `malloc` returned. -/
def ofMaxSize (base : Nat) (maxSize : Nat) : Stack where
  base := base
  sp := base
  fp := 0
  maxSize := maxSize
  memory _ := none

/-- `CheckStackOverflow` fails: the difference of the pointers is signed. -/
def overflows (stack : Stack) (size : Nat) : Bool :=
  (stack.maxSize : Int) < (stack.sp : Int) - stack.base + size

def isEmpty (stack : Stack) : Bool := stack.fp = 0

def clear (stack : Stack) : Stack := { stack with fp := 0, sp := stack.base }

def pushFrame (stack : Stack) (frame : Nat) : Stack :=
  { stack with sp := stack.sp + Frame.size, fp := frame }

/-- `PopFrame`, which reads through `fp_`. -/
def popFrame (stack : Stack) : Exec (Nat × Stack) :=
  match stack.memory stack.fp with
  | some stored => .ok (stack.fp, { stack with sp := stack.fp, fp := stored.prevFp })
  | none => undefined "GetPrevFrame of no frame"

/-- The argument of `CheckStackOverflow`, a `uint32_t`. -/
def requestedSize (method : Method) : Nat :=
  (method.maxStack + method.maxLocals + Frame.headerSize) % 2 ^ 32

/-- The placement `new` of `CreateFrame`. -/
def construct (stack : Stack) (method : Method) : Stack :=
  { stack with memory := stack.memory.place stack.sp ⟨Frame.ofMethod method, stack.fp⟩ }

/-- `Thread::CreateFrame`. -/
def createFrame (stack : Stack) (method : Method) : Exec (Nat × Stack) :=
  if stack.overflows (requestedSize method) then fatal "java.lang.StackOverflowError"
  else if stack.sp = 0 then undefined "construction of a frame at a null pointer"
  else .ok (stack.sp, (stack.construct method).pushFrame stack.sp)

/-- What following `GetPrevFrame` from an address passes through. -/
inductive Chain (memory : FrameMemory) : Nat → List Nat → Prop where
  | nil : Chain memory 0 []
  | cons {address : Nat} {stored : StoredFrame} {rest : List Nat} (notNull : address ≠ 0)
      (found : memory address = some stored) (next : Chain memory stored.prevFp rest) :
      Chain memory address (address :: rest)

end Stack

/-! ## Sequences of operations -/

/-- The operations of a thread on its stack. -/
inductive StackOp where
  | createFrame (method : Method)
  | popFrame
  | clearStack

/-- A stack with the frames that were created and neither popped nor cleared,
newest first. -/
structure TrackedStack where
  stack : Stack
  live : List (Nat × Frame)

/-- One operation, with the pointer it returns, if any. -/
def stackStep : StackOp → TrackedStack → Exec (Option Nat × TrackedStack)
  | .createFrame method, state => do
      let (frame, stack) ← state.stack.createFrame method
      pure (some frame, ⟨stack, (frame, Frame.ofMethod method) :: state.live⟩)
  | .popFrame, state => do
      let (frame, stack) ← state.stack.popFrame
      pure (some frame, ⟨stack, state.live.tail⟩)
  | .clearStack, state => pure (none, ⟨state.stack.clear, []⟩)

/-- A sequence of operations on a new stack. -/
def stackRun (base : Nat) (maxSize : Nat) (ops : List StackOp) : Exec TrackedStack :=
  (implRun stackStep ops ⟨Stack.ofMaxSize base maxSize, []⟩).2

/-! ## The invariant -/

/-- The address of the newest frame. -/
def topAddress (live : List (Nat × Frame)) : Nat := (live.head?.map Prod.fst).getD 0

/-- The frames lie one behind the other from the base, each with the address of
the one below it. -/
inductive LaidOut (memory : FrameMemory) (base : Nat) : List (Nat × Frame) → Prop where
  | nil : LaidOut memory base []
  | cons {frame : Frame} {rest : List (Nat × Frame)}
      (found : memory (base + rest.length * Frame.size) = some ⟨frame, topAddress rest⟩)
      (below : LaidOut memory base rest) :
      LaidOut memory base ((base + rest.length * Frame.size, frame) :: rest)

/-- How `fp_`, `sp_` and the frames in memory belong together. -/
structure StackInvariant (state : TrackedStack) : Prop where
  laidOut : LaidOut state.stack.memory state.stack.base state.live
  fp_eq : state.stack.fp = topAddress state.live
  sp_eq : state.stack.sp = state.stack.base + state.live.length * Frame.size
  base_ne : state.live ≠ [] → state.stack.base ≠ 0
  null_free : state.stack.memory 0 = none

namespace LaidOut

variable {memory : FrameMemory} {base : Nat} {live : List (Nat × Frame)}

/-- Every frame ends before the place of the next one. -/
theorem address_le (laid : LaidOut memory base live) {entry : Nat × Frame}
    (mem : entry ∈ live) :
    base ≤ entry.1 ∧ entry.1 + Frame.size ≤ base + live.length * Frame.size := by
  induction laid with
  | nil => cases mem
  | @cons frame rest found below ih =>
      have size : (rest.length + 1) * Frame.size = rest.length * Frame.size + Frame.size :=
        Nat.succ_mul _ _
      rcases List.mem_cons.mp mem with rfl | older
      · simp only [List.length_cons, size]
        omega
      · have bounds := ih older
        simp only [List.length_cons, size]
        omega

/-- The content of a live frame is the one it was constructed with. -/
theorem content (laid : LaidOut memory base live) {entry : Nat × Frame} (mem : entry ∈ live) :
    ∃ prevFp, memory entry.1 = some ⟨entry.2, prevFp⟩ := by
  induction laid with
  | nil => cases mem
  | cons found below ih =>
      rcases List.mem_cons.mp mem with rfl | older
      · exact ⟨_, found⟩
      · exact ih older

/-- Construction behind the newest frame leaves the others alone. -/
theorem place (laid : LaidOut memory base live) {address : Nat}
    (behind : base + live.length * Frame.size ≤ address) (stored : StoredFrame) :
    LaidOut (memory.place address stored) base live := by
  induction laid with
  | nil => exact .nil
  | @cons frame rest found below ih =>
      have size : (rest.length + 1) * Frame.size = rest.length * Frame.size + Frame.size :=
        Nat.succ_mul _ _
      have positive : 0 < Frame.size := by decide
      rw [List.length_cons, size] at behind
      refine .cons ?_ (ih (by omega))
      have differs : base + rest.length * Frame.size ≠ address := by omega
      have apart : Apart (base + rest.length * Frame.size) address := Or.inl (by omega)
      rw [FrameMemory.place, if_neg differs, if_pos apart, found]

theorem chain (laid : LaidOut memory base live) (notNull : live ≠ [] → base ≠ 0) :
    Stack.Chain memory (topAddress live) (live.map Prod.fst) := by
  induction laid with
  | nil => exact .nil
  | cons found below ih =>
      have baseNotNull := notNull (List.cons_ne_nil _ _)
      exact .cons (by simp [topAddress]; omega) found (ih fun _ => baseNotNull)

theorem pairwise_apart (laid : LaidOut memory base live) :
    (live.map Prod.fst).Pairwise Apart := by
  induction laid with
  | nil => exact .nil
  | cons found below ih =>
      refine List.pairwise_cons.mpr ⟨?_, ih⟩
      intro address mem
      rcases List.mem_map.mp mem with ⟨entry, inside, rfl⟩
      exact Or.inr (below.address_le inside).2

end LaidOut

/-! ## Operations keep the invariant -/

namespace StackInvariant

variable {state next : TrackedStack}

theorem start (base : Nat) (maxSize : Nat) :
    StackInvariant ⟨Stack.ofMaxSize base maxSize, []⟩ where
  laidOut := .nil
  fp_eq := rfl
  sp_eq := by simp [Stack.ofMaxSize]
  base_ne nonempty := absurd rfl nonempty
  null_free := rfl

theorem fp_eq_zero_iff (holds : StackInvariant state) : state.stack.fp = 0 ↔ state.live = [] := by
  rw [holds.fp_eq]
  have laid := holds.laidOut
  cases live : state.live with
  | nil => simp [topAddress]
  | cons entry rest =>
      have notNull := holds.base_ne (by simp [live])
      have inside : entry ∈ state.live := by simp [live]
      have above := (laid.address_le inside).1
      simp [topAddress]
      omega

/-- What `CreateFrame` does when it returns. -/
theorem createFrame (holds : StackInvariant state) {method : Method} {frame : Nat}
    {stack : Stack} (created : state.stack.createFrame method = .ok (frame, stack)) :
    frame = state.stack.sp ∧ stack.base = state.stack.base ∧
      stack.maxSize = state.stack.maxSize ∧
      StackInvariant ⟨stack, (frame, Frame.ofMethod method) :: state.live⟩ := by
  unfold Stack.createFrame at created
  split at created
  · cases created
  split at created
  · cases created
  next notNull =>
    cases created
    refine ⟨rfl, rfl, rfl, ?_⟩
    have place := holds.sp_eq
    constructor
    · dsimp only [Stack.pushFrame, Stack.construct]
      rw [place]
      refine .cons ?_ (holds.laidOut.place (Nat.le_refl _) _)
      rw [FrameMemory.place, if_pos rfl, holds.fp_eq]
    · rfl
    · simp only [Stack.pushFrame, Stack.construct, List.length_cons, Nat.succ_mul]
      omega
    · intro _ baseNull
      have laid := holds.laidOut
      cases live : state.live with
      | nil =>
          rw [live] at place
          simp at place baseNull
          exact notNull (place.trans baseNull)
      | cons entry rest =>
          exact holds.base_ne (by simp [live]) baseNull
    · dsimp only [Stack.pushFrame, Stack.construct]
      rw [FrameMemory.place, if_neg (Ne.symm notNull)]
      split
      · exact holds.null_free
      · rfl

/-- `PopFrame` on a non-empty stack. -/
theorem popFrame_cons (holds : StackInvariant state) {top : Nat × Frame}
    {rest : List (Nat × Frame)} (live : state.live = top :: rest) :
    state.stack.popFrame =
      .ok (top.1, { state.stack with sp := top.1, fp := topAddress rest }) := by
  have laid := holds.laidOut
  have fp := holds.fp_eq
  rw [live] at laid fp
  cases laid with
  | cons found below =>
      rw [Stack.popFrame, fp]
      simp only [topAddress, List.head?_cons, Option.map_some, Option.getD_some, found]

/-- What `PopFrame` does when it returns: it removes the newest frame. -/
theorem popFrame (holds : StackInvariant state) {frame : Nat} {stack : Stack}
    (popped : state.stack.popFrame = .ok (frame, stack)) :
    state.live.head?.map Prod.fst = some frame ∧ stack.base = state.stack.base ∧
      stack.maxSize = state.stack.maxSize ∧ StackInvariant ⟨stack, state.live.tail⟩ := by
  cases live : state.live with
  | nil =>
      have empty := holds.fp_eq_zero_iff.mpr live
      rw [Stack.popFrame, empty, holds.null_free] at popped
      cases popped
  | cons top rest =>
      rw [holds.popFrame_cons live] at popped
      cases popped
      have laid := holds.laidOut
      have notNull := holds.base_ne (by simp [live])
      rw [live] at laid
      refine ⟨rfl, rfl, rfl, ?_⟩
      cases laid with
      | cons found below =>
          exact ⟨below, rfl, rfl, fun _ => notNull, holds.null_free⟩

theorem clear (holds : StackInvariant state) : StackInvariant ⟨state.stack.clear, []⟩ where
  laidOut := .nil
  fp_eq := rfl
  sp_eq := by simp [Stack.clear]
  base_ne nonempty := absurd rfl nonempty
  null_free := holds.null_free

/-- Every operation keeps the invariant and the buffer. -/
theorem step (holds : StackInvariant state) {op : StackOp} {out : Option Nat}
    (stepped : stackStep op state = .ok (out, next)) :
    StackInvariant next ∧ next.stack.base = state.stack.base ∧
      next.stack.maxSize = state.stack.maxSize := by
  cases op with
  | createFrame method =>
      rcases Exec.bind_eq_ok.mp stepped with ⟨⟨frame, stack⟩, created, built⟩
      cases built
      rcases holds.createFrame created with ⟨-, base, maxSize, kept⟩
      exact ⟨kept, base, maxSize⟩
  | popFrame =>
      rcases Exec.bind_eq_ok.mp stepped with ⟨⟨frame, stack⟩, popped, built⟩
      cases built
      rcases holds.popFrame popped with ⟨-, base, maxSize, kept⟩
      exact ⟨kept, base, maxSize⟩
  | clearStack =>
      cases stepped
      exact ⟨holds.clear, rfl, rfl⟩

/-- The invariant in every state of every sequence of operations. -/
theorem run {base maxSize : Nat} {ops : List StackOp}
    (ran : stackRun base maxSize ops = .ok state) :
    StackInvariant state ∧ state.stack.base = base ∧ state.stack.maxSize = maxSize := by
  have preserved : ∀ {op : StackOp} {state : TrackedStack} {out : Option Nat}
      {next : TrackedStack},
      (StackInvariant state ∧ state.stack.base = base ∧ state.stack.maxSize = maxSize) →
      stackStep op state = .ok (out, next) →
      StackInvariant next ∧ next.stack.base = base ∧ next.stack.maxSize = maxSize := by
    rintro op state out next ⟨holds, baseEq, maxSizeEq⟩ stepped
    rcases holds.step stepped with ⟨kept, sameBase, sameMaxSize⟩
    exact ⟨kept, sameBase.trans baseEq, sameMaxSize.trans maxSizeEq⟩
  exact implRun_invariant preserved ⟨start base maxSize, rfl, rfl⟩ ran

end StackInvariant

/-! ## The discipline -/

/-- After every sequence of operations that does not stop the process: the chain
from the current frame passes through the live frames, newest first, and each of
them is as it was constructed; `PopFrame` returns the newest one; `sp_` lies one
frame size above the base for each of them; the stack is empty when there is
none; and no two of them share a byte. -/
theorem stack_discipline {base maxSize : Nat} {ops : List StackOp} {state : TrackedStack}
    (ran : stackRun base maxSize ops = .ok state) :
    Stack.Chain state.stack.memory state.stack.fp (state.live.map Prod.fst) ∧
    (∀ entry ∈ state.live, ∃ prevFp, state.stack.memory entry.1 = some ⟨entry.2, prevFp⟩) ∧
    (state.live ≠ [] → ∃ frame next, stackStep .popFrame state = .ok (some frame, next) ∧
      state.live.head?.map Prod.fst = some frame ∧ next.live = state.live.tail) ∧
    state.stack.sp = base + state.live.length * Frame.size ∧
    (state.stack.isEmpty = true ↔ state.live = []) ∧
    (state.live.map Prod.fst).Pairwise Apart := by
  rcases StackInvariant.run ran with ⟨holds, rfl, -⟩
  refine ⟨?_, ?_, ?_, holds.sp_eq, ?_, holds.laidOut.pairwise_apart⟩
  · rw [holds.fp_eq]
    exact holds.laidOut.chain holds.base_ne
  · intro entry mem
    exact holds.laidOut.content mem
  · intro nonempty
    rcases List.exists_cons_of_ne_nil nonempty with ⟨top, rest, live⟩
    have popped : stackStep .popFrame state = .ok (some top.1,
        ⟨{ state.stack with sp := top.1, fp := topAddress rest }, state.live.tail⟩) := by
      rw [stackStep, holds.popFrame_cons live]
      rfl
    exact ⟨top.1, _, popped, by simp [live], rfl⟩
  · rw [Stack.isEmpty, decide_eq_true_eq]
    exact holds.fp_eq_zero_iff

/-! ## The list of frames that instructions see -/

/-- The frames of a thread whose stack this is. -/
def TrackedStack.frames (state : TrackedStack) : List Frame := state.live.map Prod.snd

theorem overflows_eq {state : TrackedStack} (holds : StackInvariant state) (method : Method) :
    state.stack.overflows (Stack.requestedSize method) =
      decide (state.stack.maxSize < state.live.length * Frame.size +
        Stack.requestedSize method) := by
  rw [Stack.overflows, holds.sp_eq, decide_eq_decide]
  omega

/-! ## The overflow check -/

/-- All of the frames lie in the buffer. -/
def Stack.InBounds (stack : Stack) : Prop :=
  stack.base ≤ stack.sp ∧ stack.sp ≤ stack.base + stack.maxSize

/-- The buffer has no room for another whole frame, but what is left of it is as
large as the check asks for. -/
def Oversteps (maxSize : Nat) (live : List (Nat × Frame)) (method : Method) : Prop :=
  live.length = maxSize / Frame.size ∧ Stack.requestedSize method ≤ maxSize % Frame.size

theorem StackInvariant.inBounds_iff {state : TrackedStack} (holds : StackInvariant state) :
    state.stack.InBounds ↔ state.live.length * Frame.size ≤ state.stack.maxSize := by
  rw [Stack.InBounds, holds.sp_eq]
  omega

/-- `CreateFrame` in the buffer is `CreateFrame` on the list of frames, where the frame
lies in the buffer; a frame that ends behind it has no meaning on the list. -/
theorem createFrame_refines {state : TrackedStack} (holds : StackInvariant state)
    (size : state.stack.maxSize = Thread.maxSize) (allocated : state.stack.base ≠ 0)
    (method : Method) (pc : BitVec 32) :
    (∃ message, stackStep (.createFrame method) state = .error (.fatal message) ∧
      Thread.createFrame ⟨pc, state.frames⟩ method = .error (.fatal message)) ∨
    ∃ frame next, stackStep (.createFrame method) state = .ok (some frame, next) ∧
      (next.stack.InBounds →
        Thread.createFrame ⟨pc, state.frames⟩ method = .ok ⟨pc, next.frames⟩) ∧
      (¬ next.stack.InBounds →
        ∃ why, Thread.createFrame ⟨pc, state.frames⟩ method = .error (.undefined why)) := by
  have depth : state.frames.length = state.live.length := List.length_map _
  have same : Thread.overflows state.frames.length method =
      state.stack.overflows (Stack.requestedSize method) := by
    rw [overflows_eq holds, size, Thread.overflows, Stack.requestedSize, depth]
  have notNull : state.stack.sp ≠ 0 := by
    rw [holds.sp_eq]
    omega
  by_cases full : state.stack.overflows (Stack.requestedSize method) = true
  · left
    refine ⟨"java.lang.StackOverflowError", ?_, ?_⟩
    · rw [stackStep, Stack.createFrame, if_pos full]
      rfl
    · rw [Thread.createFrame, same, if_pos full]
      rfl
  · right
    have stepped : stackStep (.createFrame method) state = .ok (some state.stack.sp,
        ⟨(state.stack.construct method).pushFrame state.stack.sp,
          (state.stack.sp, Frame.ofMethod method) :: state.live⟩) := by
      rw [stackStep, Stack.createFrame, if_neg full, if_neg notNull]
      rfl
    have inside : (Stack.pushFrame (state.stack.construct method) state.stack.sp).InBounds ↔
        Thread.oversteps state.frames.length = false := by
      have top := holds.sp_eq
      rw [Thread.oversteps, depth, decide_eq_false_iff_not, Stack.InBounds, ← size]
      simp only [Stack.pushFrame, Stack.construct, Nat.succ_mul]
      omega
    refine ⟨_, _, stepped, ?_, ?_⟩
    · intro inBounds
      exact Thread.createFrame_of_hasRoom ⟨by simpa [same] using full, inside.mp inBounds⟩
    · intro outOfBounds
      have behind : Thread.oversteps state.frames.length = true := by
        simpa using inside.not.mp outOfBounds
      rw [Thread.createFrame, same, if_neg full, if_pos behind]
      exact ⟨_, rfl⟩

/-- When the check lets a frame through, it lies in the buffer except in that one
case. -/
theorem createFrame_inBounds_iff {state next : TrackedStack} (holds : StackInvariant state)
    {method : Method} {out : Option Nat}
    (stepped : stackStep (.createFrame method) state = .ok (out, next)) :
    next.stack.InBounds ↔ ¬ Oversteps state.stack.maxSize state.live method := by
  rcases Exec.bind_eq_ok.mp stepped with ⟨⟨frame, stack⟩, created, built⟩
  cases built
  rcases holds.createFrame created with ⟨-, base, maxSize, kept⟩
  have passed : state.live.length * Frame.size + Stack.requestedSize method ≤
      state.stack.maxSize := by
    rw [Stack.createFrame] at created
    split at created
    · cases created
    · next fits => simpa [overflows_eq holds] using fits
  have room : (state.live.length + 1) * Frame.size ≤ state.stack.maxSize ↔
      ¬ Oversteps state.stack.maxSize state.live method := by
    simp only [Oversteps, Frame.size] at passed ⊢
    omega
  rw [← room, kept.inBounds_iff, maxSize, List.length_cons]

/-- A state that a sequence of operations passes through. -/
theorem stackRun_of_append {base maxSize : Nat} {before after : List StackOp}
    {last : TrackedStack} (ran : stackRun base maxSize (before ++ after) = .ok last) :
    ∃ state, stackRun base maxSize before = .ok state ∧
      (implRun stackStep after state).2 = .ok last := by
  rw [stackRun, implRun_append] at ran
  exact Exec.bind_eq_ok.mp ran

/-- In every sequence of operations on every stack: all states that it passes
through keep `sp_` in the buffer if and only if no frame is created in the one
case in which the check asks for less than a frame takes. -/
theorem inBounds_iff_not_oversteps {base maxSize : Nat} {ops : List StackOp} {last : TrackedStack}
    (ran : stackRun base maxSize ops = .ok last) :
    (∀ before after state, ops = before ++ after → stackRun base maxSize before = .ok state →
      state.stack.InBounds) ↔
    ∀ before method after state, ops = before ++ .createFrame method :: after →
      stackRun base maxSize before = .ok state → ¬ Oversteps maxSize state.live method := by
  constructor
  · rintro inBounds before method after state rfl reached
    rcases StackInvariant.run reached with ⟨holds, -, maxSizeEq⟩
    rw [← List.singleton_append, ← List.append_assoc] at ran inBounds
    rcases stackRun_of_append ran with ⟨next, created, -⟩
    rcases stackRun_of_append created with ⟨state', reached', single⟩
    obtain rfl : state = state' := Except.ok.inj (reached.symm.trans reached')
    rcases implRun_singleton.mp single with ⟨out, stepped⟩
    rw [← maxSizeEq]
    exact (createFrame_inBounds_iff holds stepped).mp (inBounds _ after next rfl created)
  · intro sound before
    -- along the run: only `CreateFrame` adds a frame
    induction before using List.reverseRecOn with
    | nil =>
        rintro after state - reached
        cases reached
        exact ⟨Nat.le_refl _, Nat.le_add_right _ _⟩
    | append_singleton before op ih =>
        intro after state split reached
        rw [List.append_assoc] at split
        rcases stackRun_of_append reached with ⟨previous, reachedPrevious, single⟩
        rcases implRun_singleton.mp single with ⟨out, stepped⟩
        rcases StackInvariant.run reachedPrevious with ⟨holds, -, maxSizeEq⟩
        rcases StackInvariant.run reached with ⟨kept, -, maxSizeEq'⟩
        have inside := holds.inBounds_iff.mp (ih _ _ split reachedPrevious)
        cases op with
        | createFrame method =>
            rw [createFrame_inBounds_iff holds stepped, maxSizeEq]
            exact sound before method after previous split reachedPrevious
        | popFrame =>
            rcases Exec.bind_eq_ok.mp stepped with ⟨⟨frame, stack⟩, popped, built⟩
            cases built
            rw [kept.inBounds_iff, maxSizeEq', ← maxSizeEq, List.length_tail]
            exact Nat.le_trans (Nat.mul_le_mul_right _ (Nat.sub_le _ _)) inside
        | clearStack =>
            cases stepped
            exact ⟨Nat.le_refl _, Nat.le_add_right _ _⟩

/-! ## A recursion without operands or locals -/

/-- `static void f() { f(); }`. -/
def recursiveMethod : Method where
  name := str "f"
  descriptor := str "()V"
  accessFlags := 0x0008
  codes := some (padded [0xB8, 0, 1, 0xB1])
  exceptionTable := some [emptyHandler]

/-- In the buffer of a thread, the check lets a thirteenth frame through, which
ends sixteen bytes behind the buffer. -/
theorem thirteenth_frame_out_of_bounds : ∃ state,
    stackRun 4096 Thread.maxSize (List.replicate 13 (.createFrame recursiveMethod)) = .ok state ∧
      state.stack.sp = 4096 + Thread.maxSize + 16 ∧ ¬ state.stack.InBounds := by
  refine ⟨_, rfl, rfl, ?_⟩
  rintro ⟨-, above⟩
  exact absurd above (by decide)

/-- Two frames, of which one is popped and one cleared, and a third. -/
def sampleOps : List StackOp :=
  [.createFrame recursiveMethod, .createFrame recursiveMethod, .popFrame, .clearStack,
    .createFrame recursiveMethod]

theorem stack_discipline_sampleOps : ∃ state,
    stackRun 4096 Thread.maxSize sampleOps = .ok state ∧
      state.live = [(4096, Frame.ofMethod recursiveMethod)] ∧
      Stack.Chain state.stack.memory state.stack.fp [4096] := by
  have ran : stackRun 4096 Thread.maxSize sampleOps = .ok _ := rfl
  exact ⟨_, ran, rfl, (stack_discipline ran).1⟩

/-- Every `CreateFrame` adds a frame. -/
theorem length_live_replicate {base maxSize count : Nat} {method : Method} {state : TrackedStack}
    (reached : stackRun base maxSize (List.replicate count (.createFrame method)) = .ok state) :
    state.live.length = count := by
  induction count generalizing state with
  | zero =>
      cases reached
      rfl
  | succ count ih =>
      rw [List.replicate_succ'] at reached
      rcases stackRun_of_append reached with ⟨previous, reachedPrevious, single⟩
      rcases implRun_singleton.mp single with ⟨out, stepped⟩
      rcases Exec.bind_eq_ok.mp stepped with ⟨⟨frame, stack⟩, -, built⟩
      cases built
      rw [List.length_cons, ih reachedPrevious]

/-- As many frames as fit: the last one ends 64 bytes before the end of the buffer. -/
theorem inBounds_iff_not_oversteps_full : ∃ state,
    stackRun 4096 Thread.maxSize (List.replicate 12 (.createFrame recursiveMethod)) = .ok state ∧
      state.stack.sp + 64 = 4096 + Thread.maxSize ∧
      ∀ before after state, List.replicate 12 (.createFrame recursiveMethod) = before ++ after →
        stackRun 4096 Thread.maxSize before = .ok state → state.stack.InBounds := by
  have ran : stackRun 4096 Thread.maxSize (List.replicate 12 (.createFrame recursiveMethod)) =
    .ok _ := rfl
  refine ⟨_, ran, rfl, (inBounds_iff_not_oversteps ran).mpr ?_⟩
  intro before method after state split reached
  have parts := (List.append_eq_replicate_iff.mp split.symm).1
  have first := (List.append_eq_replicate_iff.mp split.symm).2.1
  rw [first] at reached
  rintro ⟨depth, -⟩
  rw [length_live_replicate reached] at depth
  rw [depth] at parts
  simp [Thread.maxSize, Frame.size] at parts

end JvmDemo.Runtime
