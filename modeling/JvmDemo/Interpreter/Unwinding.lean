import JvmDemo.Interpreter.ClassInitialization
import JvmDemo.Instructions.Progress
import Mathlib.Data.List.Forall2

/-!
# Which instruction an exception is attributed to

`FindAndGotoExceptionHandler` looks a frame up by the program counter before its
next one.  Whether that lies in the instruction which the frame is executing
depends on how the frame was left.  To say so, a run is tracked with an activity
for each frame: which instruction was dispatched there last, and whether that
one triggered a class initialisation.

A frame that has called lies behind its instruction, so the lookup is right.  A
frame that has triggered was rewound to the start of its instruction, and the
frame of an initializer that waits for one above it has not begun: there the
lookup is wrong.
-/

namespace JvmDemo.Interpreter

open JvmDemo.Lib
open JvmDemo.Lib.Refinement
open JvmDemo.Runtime
open JvmDemo.Instructions

variable (machine : Machine)

/-! ## Tracking -/

/-- What a frame is doing. -/
inductive Activity where
  /-- No instruction was dispatched yet. -/
  | notBegun
  /-- The instruction at `pc` was dispatched last. -/
  | executing (pc : BitVec 32)
  /-- The instruction at `pc` was dispatched last, and triggered. -/
  | initializing (pc : BitVec 32)
  deriving DecidableEq, Repr

namespace Activity

/-- The address of the instruction that the frame is executing. -/
def address : Activity → Option (BitVec 32)
  | notBegun => none
  | executing pc => some pc
  | initializing pc => some pc

/-- The frame waits for a class initialisation. -/
def waiting : Activity → Bool
  | executing _ => false
  | _ => true

end Activity

/-- A state with the activities of its frames, newest first. -/
structure Tracked where
  vm : Vm
  activities : List Activity

/-- Whether the current frame is at an instruction that triggers. -/
def triggers (vm : Vm) (frame : Frame) : Bool :=
  match codesOf frame.method with
  | .ok code =>
      match fetchAt code frame.nextPc with
      | .ok (inst, _) => (triggerOf machine vm frame inst).isSome
      | .error _ => false
  | .error _ => false

/-- The activities when the current frame has dispatched. -/
def dispatched (state : Tracked) : List Activity :=
  match state.vm.thread.frames with
  | [] => state.activities
  | frame :: _ =>
      (if triggers machine state.vm frame then .initializing frame.nextPc
        else .executing frame.nextPc) :: state.activities.tail

/-- The activities of the `count` lowest frames; those that are new have not
begun. -/
def realign (count : Nat) (activities : List Activity) : List Activity :=
  (List.replicate count Activity.notBegun ++ activities).drop activities.length

/-- An iteration, with the activities of the frames that are left. -/
def trackedIteration (state : Tracked) : Exec Tracked := do
  let next ← iteration machine state.vm
  pure ⟨next, realign next.thread.frames.length (dispatched machine state)⟩

/-- `loopExecute`, tracked. -/
def trackedLoop : Nat → Tracked → Exec Tracked :=
  loop (trackedIteration machine) fun state => isStackEmpty state.vm

/-! ## Attribution -/

/-- A range of addresses that starts and ends outside the instruction or at its
boundaries. -/
def AlignedOn (startPc endPc pc nextPc : BitVec 32) : Prop :=
  (startPc.sle pc ∨ nextPc.sle startPc) ∧ (endPc.sle pc ∨ nextPc.sle endPc)

/-- The lookup counter lies inside the instruction that the frame is executing,
and every aligned range covers the counter if and only if it covers the
instruction. -/
def Attributed (frame : Frame) (activity : Activity) : Prop :=
  ∃ pc code inst nextPc, activity.address = some pc ∧ codesOf frame.method = .ok code ∧
    fetchAt code pc = .ok (inst, nextPc) ∧
    (pc.sle (lookupPc frame) ∧ (lookupPc frame).slt nextPc) ∧
    ∀ startPc endPc, AlignedOn startPc endPc pc nextPc →
      ((startPc.sle (lookupPc frame) ∧ (lookupPc frame).slt endPc) ↔
        (startPc.sle pc ∧ nextPc.sle endPc))

/-- The frames that unwinding looks up, down to the one that handles. -/
def inspected (exClass : Option ClassId) : List (Frame × Activity) → List (Frame × Activity)
  | [] => []
  | entry :: below =>
      entry :: match handlerOf machine exClass entry.1 with
        | .ok handlerPc => if (0#32).slt handlerPc then [] else inspected exClass below
        | .error _ => []

variable {machine}

/-- An instruction that was fetched has a nonnegative address, and ends behind
it. -/
theorem toInt_lt_of_fetchAt {code : List Byte} {pc nextPc : BitVec 32} {inst : Instruction}
    (fetched : fetchAt code pc = .ok (inst, nextPc)) :
    0 ≤ pc.toInt ∧ pc.toInt < nextPc.toInt := by
  unfold fetchAt at fetched
  split at fetched
  · cases fetched
  · next nonnegative =>
      rcases Exec.bind_eq_ok.mp fetched with ⟨⟨read, cursor⟩, readEq, checked⟩
      dsimp only at checked
      split at checked
      · next small =>
          cases checked
          have forward := lt_of_fetch readEq
          rw [BitVec.slt_iff_toInt_lt] at nonnegative
          have positive : 0 ≤ pc.toInt := by simpa using nonnegative
          have address : pc.toInt = pc.toNat := by
            rw [BitVec.toInt_eq_toNat_cond] at positive ⊢
            have bound := pc.isLt
            split at positive
            · next half => rw [if_pos half]
            · omega
          have behind : (BitVec.ofNat 32 cursor.pos).toInt = cursor.pos := by
            rw [BitVec.toInt_ofNat']
            apply Int.bmod_eq_of_le <;> omega
          rw [address, behind]
          omega
      · cases checked

theorem toInt_lookupPc {frame : Frame} (nonnegative : 0 ≤ frame.nextPc.toInt) :
    (lookupPc frame).toInt = frame.nextPc.toInt - 1 := by
  have upper := @BitVec.toInt_lt 32 frame.nextPc
  have one : (1 : BitVec 32).toInt = 1 := rfl
  rw [lookupPc, BitVec.toInt_sub, one]
  apply Int.bmod_eq_of_le <;> omega

/-- A frame that lies behind its instruction is looked up inside it. -/
theorem attributed_of_behind {frame : Frame} {pc : BitVec 32} {code : List Byte}
    {inst : Instruction} (codeEq : codesOf frame.method = .ok code)
    (fetched : fetchAt code pc = .ok (inst, frame.nextPc)) :
    Attributed frame (.executing pc) := by
  rcases toInt_lt_of_fetchAt fetched with ⟨nonnegative, forward⟩
  have lookup := toInt_lookupPc (Int.le_trans nonnegative (Int.le_of_lt forward))
  refine ⟨pc, code, inst, frame.nextPc, rfl, codeEq, fetched, ?_, ?_⟩
  · rw [BitVec.sle_iff_toInt_le, BitVec.slt_iff_toInt_lt, lookup]
    omega
  · intro startPc endPc aligned
    simp only [AlignedOn, BitVec.sle_iff_toInt_le, BitVec.slt_iff_toInt_lt, lookup] at aligned ⊢
    omega

/-- A frame that was rewound to its instruction is looked up before it. -/
theorem not_attributed_of_rewound {frame : Frame} {pc : BitVec 32} (rewound : frame.nextPc = pc) :
    ¬ Attributed frame (.initializing pc) := by
  rintro ⟨address, code, inst, nextPc, addressEq, _, fetched, ⟨lower, _⟩, _⟩
  cases addressEq
  rcases toInt_lt_of_fetchAt fetched with ⟨nonnegative, _⟩
  rw [← rewound] at lower nonnegative
  rw [BitVec.sle_iff_toInt_le, toInt_lookupPc nonnegative] at lower
  omega

theorem not_attributed_notBegun (frame : Frame) : ¬ Attributed frame .notBegun := by
  rintro ⟨pc, code, inst, nextPc, addressEq, _⟩
  cases addressEq

/-! ## The invariant -/

/-- How a frame that is not the current one was left. -/
def LeftAt (frame : Frame) : Activity → Prop
  | .notBegun => True
  | .executing pc => ∃ code inst, codesOf frame.method = .ok code ∧
      fetchAt code pc = .ok (inst, frame.nextPc)
  | .initializing pc => frame.nextPc = pc

/-- A frame that is not the current one is looked up inside its instruction if
and only if it waits for no class initialisation. -/
theorem LeftAt.attributed_iff {frame : Frame} {activity : Activity}
    (left : LeftAt frame activity) : Attributed frame activity ↔ activity.waiting = false := by
  cases activity with
  | notBegun => simp [not_attributed_notBegun, Activity.waiting]
  | executing pc =>
      rcases left with ⟨code, inst, codeEq, fetched⟩
      simp [attributed_of_behind codeEq fetched, Activity.waiting]
  | initializing pc => simp [not_attributed_of_rewound left, Activity.waiting]

/-- Every frame has an activity, and those below the current one were left as
the activity says. -/
structure TrackInvariant (state : Tracked) : Prop where
  length_eq : state.activities.length = state.vm.thread.frames.length
  left : List.Forall₂ LeftAt state.vm.thread.frames.tail state.activities.tail

theorem realign_add (count : Nat) (activities : List Activity) :
    realign (count + activities.length) activities =
      List.replicate count .notBegun ++ activities := by
  have shorter : (List.replicate (count + activities.length) Activity.notBegun).drop
      activities.length = List.replicate count .notBegun := by
    simp
  rw [realign, List.drop_append_of_le_length (by simp), shorter]

theorem realign_of_le {count : Nat} {activities : List Activity}
    (fewer : count ≤ activities.length) :
    realign count activities = activities.drop (activities.length - count) := by
  have past : (List.replicate count Activity.notBegun).length ≤ activities.length := by
    simpa using fewer
  rw [realign, List.drop_append, List.drop_eq_nil_of_le past, List.nil_append,
    List.length_replicate]

theorem leftAt_notBegun (frames : List Frame) :
    List.Forall₂ LeftAt frames (List.replicate frames.length .notBegun) := by
  induction frames with
  | nil => exact .nil
  | cons frame frames ih => exact .cons trivial ih

/-- Frames pushed on a frame that was left as its activity says. -/
theorem trackInvariant_push {vm : Vm} {pushed rest : List Frame} {frame : Frame}
    {activity : Activity} {activities : List Activity}
    (frames : vm.thread.frames = pushed ++ frame :: rest) (top : LeftAt frame activity)
    (below : List.Forall₂ LeftAt rest activities) :
    TrackInvariant ⟨vm, realign vm.thread.frames.length (activity :: activities)⟩ := by
  have count : vm.thread.frames.length = pushed.length + (activity :: activities).length := by
    simp [frames, below.length_eq]
  rw [count, realign_add]
  constructor
  · simp [frames, below.length_eq]
  · cases pushed with
    | nil => simpa [frames] using below
    | cons first others =>
        simpa [frames, List.replicate_succ] using
          List.rel_append (leftAt_notBegun others) (.cons top below)

/-- Frames popped, with any frame on top of those that are left. -/
theorem trackInvariant_pop {vm : Vm} {rest kept : List Frame} {top : Frame} {activity : Activity}
    {activities : List Activity} (frames : vm.thread.frames = top :: kept) (suffix : kept <:+ rest)
    (below : List.Forall₂ LeftAt rest activities) :
    TrackInvariant ⟨vm, realign vm.thread.frames.length (activity :: activities)⟩ := by
  have shorter := suffix.length_le
  have same := below.length_eq
  have fewer : vm.thread.frames.length ≤ (activity :: activities).length := by
    simp only [frames, List.length_cons]
    omega
  rw [realign_of_le fewer]
  constructor
  · simp only [List.length_drop]
    omega
  · have dropped := List.forall₂_drop (rest.length - kept.length) below
    rw [← List.suffix_iff_eq_drop.mp suffix] at dropped
    have popped : (activity :: activities).length - vm.thread.frames.length =
        rest.length - kept.length := by
      simp only [frames, List.length_cons]
      omega
    change List.Forall₂ LeftAt vm.thread.frames.tail
      ((activity :: activities).drop (_ - vm.thread.frames.length)).tail
    rw [popped, frames, List.tail_cons, List.tail_drop, List.drop_succ_cons]
    exact dropped

theorem trackInvariant_empty {vm : Vm} {activities : List Activity}
    (frames : vm.thread.frames = []) :
    TrackInvariant ⟨vm, realign vm.thread.frames.length activities⟩ := by
  have none : realign vm.thread.frames.length activities = [] := by
    rw [frames]
    simp [realign]
  rw [none]
  exact ⟨by simp [frames], by simp [frames]⟩

theorem triggers_of_dispatches {vm : Vm} {frame : Frame} {rest : List Frame} {inst : Instruction}
    {nextPc : BitVec 32} (dispatches : Dispatches vm frame rest inst nextPc) :
    triggers machine vm frame = (triggerOf machine vm frame inst).isSome := by
  rcases dispatches.fetched with ⟨code, codeEq, fetched⟩
  simp [triggers, codeEq, fetched]

/-- Tracking keeps its invariant: a frame is left behind its instruction by a
call, and on it by a trigger. -/
theorem TrackInvariant.iteration {state next : Tracked} (holds : TrackInvariant state)
    (stepped : trackedIteration machine state = .ok next) : TrackInvariant next := by
  rcases Exec.bind_eq_ok.mp stepped with ⟨vm, iterated, same⟩
  cases same
  rcases iteration_cases iterated with ⟨frame, rest, inst, nextPc, dispatches, change⟩
  have frames := dispatches.frames
  have below : List.Forall₂ LeftAt rest state.activities.tail := by
    simpa [frames] using holds.left
  have recorded : dispatched machine state =
      (if triggers machine state.vm frame then .initializing frame.nextPc
        else .executing frame.nextPc) :: state.activities.tail := by
    simp [dispatched, frames]
  rw [recorded, triggers_of_dispatches dispatches]
  rcases change with ⟨klass, triggered, returned⟩ | ⟨untriggered, ordinary⟩
  · rcases Machine.suffix_of_initClassFrom returned with ⟨pushed, pushedEq⟩
    rw [Vm.setPc_frames, frames] at pushedEq
    rw [triggered]
    exact trackInvariant_push pushedEq.symm rfl below
  · rw [untriggered]
    rcases dispatches.fetched with ⟨code, codeEq, fetched⟩
    have outcome := ordinary.frames
    generalize left : vm.thread.frames = frames' at outcome
    cases outcome with
    | empties => simpa [left] using trackInvariant_empty left
    | settles kept => simpa [left] using trackInvariant_pop left kept below
    | calls callee stack =>
        have suspended : LeftAt ((frame.setNextPc nextPc).setStack stack)
            (.executing frame.nextPc) := ⟨code, inst, codeEq, fetched⟩
        have pushed : vm.thread.frames =
            [callee] ++ (frame.setNextPc nextPc).setStack stack :: rest := left
        simpa [left] using trackInvariant_push pushed suspended below

/-! ## Runs -/

/-- Every run can be tracked. -/
theorem trackedLoop_of_loopExecute {start vm : Vm} {count : Nat} (activities : List Activity)
    (run : loopExecute machine count start = .ok vm) :
    ∃ left, trackedLoop machine count ⟨start, activities⟩ = .ok ⟨vm, left⟩ := by
  have lifts : ∀ {state : Tracked} {next : Vm}, iteration machine state.vm = .ok next →
      ∃ tracked, trackedIteration machine state = .ok tracked ∧ tracked.vm = next := by
    intro state next stepped
    exact ⟨_, by rw [trackedIteration, stepped]; rfl, rfl⟩
  have projected : loop (iteration machine) isStackEmpty count
      (Tracked.vm ⟨start, activities⟩) = .ok vm := run
  rcases loop_lift Tracked.vm lifts (fun _ => rfl) projected with ⟨⟨last, left⟩, tracked, rfl⟩
  exact ⟨left, tracked⟩

/-- The frames with their activities as `ATHROW` finds them: its own frame has
moved behind it. -/
def atThrow (frame : Frame) (rest : List Frame) (nextPc : BitVec 32)
    (activities : List Activity) : List (Frame × Activity) :=
  (frame.setNextPc nextPc, .executing frame.nextPc) :: rest.zip activities.tail

theorem mem_of_mem_inspected {exClass : Option ClassId} {entry : Frame × Activity}
    {entries : List (Frame × Activity)} (mem : entry ∈ inspected machine exClass entries) :
    entry ∈ entries := by
  induction entries with
  | nil => exact mem
  | cons first below ih =>
      rcases List.mem_cons.mp mem with rfl | rest
      · exact List.mem_cons_self
      · split at rest
        · split at rest
          · cases rest
          · exact List.mem_cons_of_mem first (ih rest)
        · cases rest

theorem attributed_iff_of_mem_atThrow {vm : Vm} {activities : List Activity}
    (holds : TrackInvariant ⟨vm, activities⟩) {frame : Frame} {rest : List Frame}
    {inst : Instruction} {nextPc : BitVec 32} (dispatches : Dispatches vm frame rest inst nextPc)
    {entry : Frame × Activity} (mem : entry ∈ atThrow frame rest nextPc activities) :
    Attributed entry.1 entry.2 ↔ entry.2.waiting = false := by
  rcases List.mem_cons.mp mem with rfl | below
  · rcases dispatches.fetched with ⟨code, codeEq, fetched⟩
    apply LeftAt.attributed_iff
    exact ⟨code, inst, codeEq, fetched⟩
  · apply LeftAt.attributed_iff
    have left := holds.left
    rw [dispatches.frames] at left
    exact List.forall₂_zip left below

/-- In every state of every run in which `ATHROW` is executed, whatever the class
of the exception: all frames that unwinding looks up are looked up inside the
instruction they are executing, if and only if none of them waits for a class
initialisation. -/
theorem attributed_iff_none_waiting {start vm : Vm} {main : Frame}
    (single : start.thread.frames = [main]) {count : Nat}
    (run : loopExecute machine count start = .ok vm) {frame : Frame} {rest : List Frame}
    {nextPc : BitVec 32} (throws : Dispatches vm frame rest .athrow nextPc)
    (exClass : Option ClassId) :
    ∃ activities, trackedLoop machine count ⟨start, [.notBegun]⟩ = .ok ⟨vm, activities⟩ ∧
      ((∀ entry ∈ inspected machine exClass (atThrow frame rest nextPc activities),
          Attributed entry.1 entry.2) ↔
        ∀ entry ∈ inspected machine exClass (atThrow frame rest nextPc activities),
          entry.2.waiting = false) := by
  rcases trackedLoop_of_loopExecute [.notBegun] run with ⟨activities, tracked⟩
  have begins : TrackInvariant ⟨start, [.notBegun]⟩ := ⟨by simp [single], by simp [single]⟩
  have holds : TrackInvariant ⟨vm, activities⟩ :=
    loop_invariant (fun holds stepped => holds.iteration stepped) begins tracked
  refine ⟨activities, tracked, ?_⟩
  constructor
  · intro attributed entry mem
    exact (attributed_iff_of_mem_atThrow holds throws (mem_of_mem_inspected mem)).mp
      (attributed entry mem)
  · intro idle entry mem
    exact (attributed_iff_of_mem_atThrow holds throws (mem_of_mem_inspected mem)).mpr
      (idle entry mem)

/-! ## An exception during class initialisation -/

/-- An initializer that throws: `new Oops; athrow`. -/
def brokenClinit : Method where
  name := str "<clinit>"
  descriptor := str "()V"
  accessFlags := 0x0008
  klass := 2
  codes := some (padded [0xBB, 0, 1, 0xBF])
  maxStack := 4
  exceptionTable := some [emptyHandler]

/-- `getstatic Broken.f; return`, with a handler for everything that the
`getstatic` throws. -/
def guardedMain : Method where
  name := str "main"
  descriptor := str "([Ljava/lang/String;)V"
  accessFlags := 0x0009
  klass := 3
  codes := some (padded [0xB2, 0, 1, 0xB1, 0xB1])
  maxStack := 4
  exceptionTable := some [⟨0, 3, 4, none⟩]

def brokenClasses : List ClassInfo :=
  [{ name := str "java/lang/Object", accessFlags := 0x0021 },
    { name := str "Oops", accessFlags := 0x0020, superClass := some 0 },
    { name := str "Broken", accessFlags := 0x0020, superClass := some 0
      fields := [{ name := str "f", descriptor := str "I", accessFlags := 0x0008, klass := 2 }]
      methods := [brokenClinit], constantPool := [none, some (.classRef (str "Oops"))] },
    { name := str "Main", accessFlags := 0x0020, superClass := some 0, methods := [guardedMain]
      constantPool := [none, some (.fieldRef (str "Broken") (str "f") (str "I"))] }]

def brokenMachine : Machine :=
  { Machine.ofTable (.ofClasses brokenClasses (by decide)) with asserts := false }

/-- The frame of `main` is looked up before its `getstatic`, and the handler that
covers the `getstatic` does not handle. -/
theorem trigger_not_attributed : ∃ vm activities frame rest nextPc,
    loopExecute brokenMachine 3 (Vm.ofFrames [.ofMethod guardedMain]) = .ok vm ∧
    trackedLoop brokenMachine 3 ⟨Vm.ofFrames [.ofMethod guardedMain], [.notBegun]⟩ =
      .ok ⟨vm, activities⟩ ∧
    Dispatches vm frame rest .athrow nextPc ∧
    (∃ entry ∈ inspected brokenMachine (some 1) (atThrow frame rest nextPc activities),
      entry.1.method = guardedMain ∧ ¬ Attributed entry.1 entry.2) ∧
    ∃ last, loopExecute brokenMachine 4 (Vm.ofFrames [.ofMethod guardedMain]) = .ok last ∧
      last.thread.frames = [] := by
  refine ⟨_, _, _, _, _, rfl, rfl, ⟨rfl, _, rfl, rfl⟩, ?_, _, rfl, rfl⟩
  exact ⟨(Frame.ofMethod guardedMain, .initializing 0), by decide +kernel, rfl,
    not_attributed_of_rewound rfl⟩

theorem attributed_iff_none_waiting_brokenClinit : ∃ vm activities frame rest nextPc,
    loopExecute brokenMachine 2 (Vm.ofFrames [.ofMethod brokenClinit]) = .ok vm ∧
    trackedLoop brokenMachine 2 ⟨Vm.ofFrames [.ofMethod brokenClinit], [.notBegun]⟩ =
      .ok ⟨vm, activities⟩ ∧
    Dispatches vm frame rest .athrow nextPc ∧
    ∀ entry ∈ inspected brokenMachine (some 1) (atThrow frame rest nextPc activities),
      Attributed entry.1 entry.2 := by
  have run : loopExecute brokenMachine 2 (Vm.ofFrames [.ofMethod brokenClinit]) = .ok _ := rfl
  rcases attributed_iff_none_waiting rfl run ⟨rfl, _, rfl, rfl⟩ (some 1) with
    ⟨activities, tracked, iff⟩
  refine ⟨_, activities, _, _, _, run, tracked, ⟨rfl, _, rfl, rfl⟩, iff.mpr ?_⟩
  cases tracked
  decide +kernel

end JvmDemo.Interpreter
