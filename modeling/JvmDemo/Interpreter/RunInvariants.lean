import JvmDemo.Interpreter.Effects
import JvmDemo.Interpreter.TypeSoundness

/-!
# What holds in every state of a run

Invariants of the interpreter loop that follow from the effects of a single
instruction: the shape of the frames, the frames below an activation, and the
stores that all frames share.
-/

namespace JvmDemo.Interpreter

open JvmDemo.Lib
open JvmDemo.Lib.Refinement
open JvmDemo.Runtime
open JvmDemo.Instructions

variable {machine : Machine} {vm next last : Vm} {count : Nat}

/-! ## The shape of the frames -/

/-- The frames have the shapes of their methods, and all of them lie inside the stack
of the thread. -/
structure SoundFrames (frames : List Frame) : Prop where
  wellFormed : ∀ frame ∈ frames, frame.WellFormed
  deep : frames.length ≤ maxFrames

/-- A frame that handles an exception keeps its shape. -/
theorem keeps_enterHandler {handler : Frame} (ex : DWord) (handlerPc : BitVec 32)
    (room : 2 ≤ handler.operandStack.slots.getSize) :
    handler.Keeps (enterHandler ex handler handlerPc) :=
  (Frame.keeps_setStack ((OperandStack.evolves_clear _).trans
    (OperandStack.raises_pushRef (pushRef_clear room)))).trans (Frame.keeps_setNextPc _ _)

theorem SoundFrames.of_moves {frame : Frame} {rest after : List Frame}
    (sound : SoundFrames (frame :: rest)) (moves : Moves machine vm frame rest after) :
    SoundFrames after := by
  have below : ∀ other ∈ rest, other.WellFormed :=
    fun other mem => sound.wellFormed other (List.mem_cons_of_mem _ mem)
  have here : frame.WellFormed := sound.wellFormed frame List.mem_cons_self
  have shallow : rest.length ≤ maxFrames := Nat.le_of_succ_le sound.deep
  cases moves with
  | @settles fresh top keeps wellFormed fits =>
      constructor
      · intro other mem
        rcases List.mem_append.mp mem with new | old
        · exact wellFormed other new
        · rcases List.mem_cons.mp old with rfl | mem
          · exact here.keeps keeps
          · exact below other mem
      · rcases fits with rfl | fits
        · exact sound.deep
        · exact fits
  | returns => exact ⟨below, shallow⟩
  | @returnsValue kind left stack invoker deeper value popped waiting pushed =>
      subst waiting
      constructor
      · intro other mem
        rcases List.mem_cons.mp mem with rfl | mem
        · exact (below invoker List.mem_cons_self).keeps
            (Frame.keeps_setStack (OperandStack.evolves_push pushed))
        · exact below other (List.mem_cons_of_mem _ mem)
      · exact shallow
  | @throws ex exClass stack handler passed deeper entry thrown split unhandled handled room =>
      have all : ∀ other ∈ frame.setStack stack :: rest, other.WellFormed := by
        intro other mem
        rcases List.mem_cons.mp mem with rfl | mem
        · exact here.keeps (Frame.keeps_setStack (OperandStack.lowers_popRef thrown.popped))
        · exact below other mem
      rw [split] at all
      constructor
      · intro other mem
        rcases List.mem_cons.mp mem with rfl | mem
        · have handles : handler.WellFormed := all handler (by simp)
          exact handles.keeps (keeps_enterHandler ex entry.handlerPc room)
        · exact all other (by simp [mem])
      · have whole : (frame.setStack stack :: rest).length =
            passed.length + (deeper.length + 1) := by
          rw [split, List.length_append, List.length_cons]
        have enough : (frame.setStack stack :: rest).length ≤ maxFrames := sound.deep
        rw [whole] at enough
        exact Nat.le_trans (Nat.le_add_left _ _) enough
  | uncaught =>
      constructor
      · intro other mem
        cases mem
      · exact Nat.zero_le _

theorem SoundFrames.setNextPc {frame : Frame} {rest : List Frame}
    (sound : SoundFrames (frame :: rest)) (pc : BitVec 32) :
    SoundFrames (frame.setNextPc pc :: rest) where
  wellFormed := by
    intro other mem
    rcases List.mem_cons.mp mem with rfl | mem
    · exact (sound.wellFormed frame List.mem_cons_self).keeps (Frame.keeps_setNextPc frame pc)
    · exact sound.wellFormed other (List.mem_cons_of_mem _ mem)
  deep := sound.deep

theorem soundFrames_iteration (sound : SoundFrames vm.thread.frames)
    (done : iteration machine vm = .ok next) : SoundFrames next.thread.frames := by
  rcases performs_iteration done with ⟨frame, rest, nextPc, frames, performs⟩
  rw [frames] at sound
  exact (sound.setNextPc nextPc).of_moves performs.frames

/-- Sound frames stay sound. -/
theorem soundFrames_loopExecute (sound : SoundFrames vm.thread.frames)
    (run : loopExecute machine count vm = .ok last) : SoundFrames last.thread.frames :=
  @loop_invariant _ _ _ _ (fun vm => SoundFrames vm.thread.frames) soundFrames_iteration _ _ _
    sound run

/-- In every state that the virtual machine gets to, the slot arrays of all frames
have the sizes that their methods ask for, the tops of the operand stacks are
inside, and there are no more frames than fit into the stack of the thread. -/
theorem soundFrames_of_jvmStart {className : Str} {start : Vm}
    {staticVars : ClassId → Option Slots} {heap : Heap} {memory : Memory}
    (started : jvmStart machine className (createdVm staticVars heap memory) = .ok (some start))
    (run : loopExecute machine count start = .ok last) : SoundFrames last.thread.frames := by
  apply soundFrames_loopExecute _ run
  rcases frames_of_jvmStart started with ⟨mainClass, mainMethod, vars, -, -, size, frames⟩
  rw [frames]
  constructor
  · intro frame mem
    cases List.mem_singleton.mp mem
    apply (Frame.wellFormed_ofMethod mainMethod).keeps (Frame.keeps_setVars _)
    rw [size]
    exact (Slots.getSize_ofCount _).symm
  · exact Nat.le_add_left _ _

/-- After four iterations the method that the main method calls is about to run, behind
the initializer of its class. -/
theorem soundFrames_of_jvmStart_called : ∃ start last,
    jvmStart typedMachine (str "Main")
      (createdVm (fun _ => none) (Heap.ofBlock (2 ^ 20) (2 ^ 16)) fun _ => 0) = .ok (some start) ∧
    loopExecute typedMachine 4 start = .ok last ∧
    last.thread.frames.map (·.method.name) = [str "sum", str "main"] ∧
    SoundFrames last.thread.frames := by
  obtain ⟨start, started⟩ : ∃ start, jvmStart typedMachine (str "Main") (createdVm (fun _ => none)
    (Heap.ofBlock (2 ^ 20) (2 ^ 16)) fun _ => 0) = .ok (some start) := ⟨_, rfl⟩
  have called : ((jvmStart typedMachine (str "Main")
      (createdVm (fun _ => none) (Heap.ofBlock (2 ^ 20) (2 ^ 16)) fun _ => 0)).toOption.join.bind
        fun start => (loopExecute typedMachine 4 start).toOption.map fun last =>
          last.thread.frames.map (·.method.name)) = some [str "sum", str "main"] := by
    decide +kernel
  rw [started] at called
  rcases Option.map_eq_some_iff.mp called with ⟨last, reached, names⟩
  have run : loopExecute typedMachine 4 start = .ok last := by
    cases result : loopExecute typedMachine 4 start with
    | error failure =>
        rw [result] at reached
        cases reached
    | ok other =>
        rw [result] at reached
        cases reached
        rfl
  exact ⟨start, last, started, run, names, soundFrames_of_jvmStart started run⟩

/-! ## The frames below an activation -/

/-- How the activations above `below` come to their end, with the instruction that
`frame` executes in the state `vm`. -/
inductive Leaves (machine : Machine) (vm : Vm) (frame : Frame) (below : List Frame) :
    List Frame → Prop where
  | returned : Leaves machine vm frame below below
  /-- The value on top of the operand stack is handed to the invoker. -/
  | received {kind : Kind} {left stack : OperandStack} {invoker : Frame} {deeper : List Frame}
      {value : Value} (popped : frame.operandStack.pop kind = .ok (value, left))
      (waiting : below = invoker :: deeper) (pushed : invoker.operandStack.push value = .ok stack) :
      Leaves machine vm frame below (invoker.setStack stack :: deeper)
  /-- The exception passed the frames up to the innermost one that handles it, which
  goes on at the handler of its first matching entry with the exception alone on its
  operand stack. -/
  | caught {ex : DWord} {exClass : Option ClassId} {stack : OperandStack} {handler : Frame}
      {passed deeper : List Frame} {entry : ExceptionHandler}
      (thrown : Throws machine vm frame ex exClass stack)
      (split : below = passed ++ handler :: deeper)
      (unhandled : ∀ other ∈ passed, Passed machine exClass other)
      (handled : HandledBy machine exClass handler entry)
      (room : 2 ≤ handler.operandStack.slots.getSize) :
      Leaves machine vm frame below (enterHandler ex handler entry.handlerPc :: deeper)
  | uncaught {ex : DWord} {exClass : Option ClassId} {stack : OperandStack}
      (thrown : Throws machine vm frame ex exClass stack)
      (unhandled : ∀ other ∈ below, Passed machine exClass other) :
      Leaves machine vm frame below []

/-- There are activations above `below`, which has not been touched. -/
def Above (below frames : List Frame) : Prop :=
  ∃ above, above ≠ [] ∧ frames = above ++ below

theorem Above.of_cons (frame : Frame) (above below : List Frame) :
    Above below (frame :: above ++ below) := ⟨frame :: above, List.cons_ne_nil _ _, rfl⟩

/-- An instruction of the current activation does not touch the frames below, or it
is its last one. -/
theorem above_or_leaves_of_moves {frame : Frame} {above below after : List Frame}
    (moves : Moves machine vm frame (above ++ below) after) :
    Above below after ∨ Leaves machine vm frame below after := by
  generalize others : above ++ below = rest at moves
  cases moves with
  | @settles fresh top keeps wellFormed fits =>
      left
      refine ⟨fresh ++ top :: above, by simp, ?_⟩
      simp [← others]
  | returns =>
      cases above with
      | nil =>
          cases others
          exact .inr .returned
      | cons invoker above =>
          cases others
          exact .inl (.of_cons invoker above below)
  | @returnsValue kind left stack invoker deeper value popped waiting pushed =>
      subst waiting
      cases above with
      | nil =>
          cases others
          exact .inr (.received popped rfl pushed)
      | cons first above =>
          cases others
          exact .inl (.of_cons _ above below)
  | @throws ex exClass stack handler passed deeper entry thrown split unhandled handled room =>
      rw [← others] at split
      have whole : (frame.setStack stack :: above) ++ below = passed ++ handler :: deeper := split
      rcases List.append_eq_append_iff.mp whole with
        ⟨middle, rfl, belowEq⟩ | ⟨middle, aboveEq, rest⟩
      · -- the handling frame lies below the activation
        have unhandledBelow : ∀ other ∈ middle, Passed machine exClass other :=
          fun other mem => unhandled other (List.mem_append_right _ mem)
        exact .inr (.caught thrown belowEq unhandledBelow handled room)
      · cases middle with
        | nil =>
            rw [List.nil_append] at rest
            have none : ∀ other ∈ ([] : List Frame), Passed machine exClass other :=
              fun other mem => absurd mem List.not_mem_nil
            exact .inr (@Leaves.caught _ _ _ _ _ _ _ _ [] _ _ thrown rest.symm none handled room)
        | cons first middle =>
            cases rest
            exact .inl (.of_cons _ middle below)
  | @uncaught ex exClass stack thrown unhandled =>
      right
      refine .uncaught thrown fun other mem => unhandled other ?_
      rw [← others]
      exact List.mem_cons_of_mem _ (List.mem_append_right _ mem)

/-- In one iteration, the current frame executes the last instruction of the
activations above `below`. -/
def LeavesIn (machine : Machine) (below : List Frame) (vm next : Vm) : Prop :=
  ∃ frame rest nextPc, vm.thread.frames = frame :: rest ∧
    Leaves machine vm (frame.setNextPc nextPc) below next.thread.frames

theorem above_or_leavesIn_iteration {below : List Frame} (inside : Above below vm.thread.frames)
    (done : iteration machine vm = .ok next) :
    Above below next.thread.frames ∨ LeavesIn machine below vm next := by
  rcases inside with ⟨above, nonempty, frames⟩
  rcases performs_iteration done with ⟨frame, rest, nextPc, current, performs⟩
  cases above with
  | nil => exact absurd rfl nonempty
  | cons first above =>
      have same := frames.symm.trans current
      cases same
      rcases above_or_leaves_of_moves performs.frames with stays | leaves
      · exact .inl stays
      · exact .inr ⟨_, above ++ below, nextPc, current, leaves⟩

/-- What an activation and the activations that it begins do to the frames below:
nothing while one of them runs, and in the iteration after that only what returning
and throwing do. -/
theorem loopExecute_above_or_leaves {below : List Frame} (inside : Above below vm.thread.frames)
    (run : loopExecute machine count vm = .ok last) :
    Above below last.thread.frames ∨
      ∃ turns < count, ∃ before after, loopExecute machine turns vm = .ok before ∧
        loopExecute machine (turns + 1) vm = .ok after ∧ LeavesIn machine below before after ∧
        ∀ fewer ≤ turns, ∃ middle, loopExecute machine fewer vm = .ok middle ∧
          Above below middle.thread.frames := by
  apply @loop_until _ _ _ _ (fun vm => Above below vm.thread.frames) (LeavesIn machine below)
    above_or_leavesIn_iteration _ _ _ _ inside run
  rintro state ⟨above, nonempty, frames⟩
  rw [isStackEmpty, frames]
  cases above with
  | nil => exact absurd rfl nonempty
  | cons first above => rfl

/-- A method throws, and the one that has called it catches. -/
def caughtVm : Vm := throwingVm [emptyHandler] [throwingFrame [catchAll 1]]

theorem loopExecute_above_or_leaves_caught : ∃ last,
    loopExecute throwingMachine 1 caughtVm = .ok last ∧
      (Above [throwingFrame [catchAll 1]] last.thread.frames ∨
        ∃ turns < 1, ∃ before after, loopExecute throwingMachine turns caughtVm = .ok before ∧
          loopExecute throwingMachine (turns + 1) caughtVm = .ok after ∧
          LeavesIn throwingMachine [throwingFrame [catchAll 1]] before after ∧
          ∀ fewer ≤ turns, ∃ middle, loopExecute throwingMachine fewer caughtVm = .ok middle ∧
            Above [throwingFrame [catchAll 1]] middle.thread.frames) :=
  ⟨_, rfl, @loopExecute_above_or_leaves throwingMachine caughtVm _ 1 [throwingFrame [catchAll 1]]
    (.of_cons _ [] _) rfl⟩

/-! ## The shared stores -/

/-- How the stores change in a run. -/
structure StoresEvolve (machine : Machine) (before after : Stores) : Prop where
  /-- The static variables of a class are neither made nor taken away. -/
  statics : ∀ klass, (after.staticVars klass).map Slots.getSize =
    (before.staticVars klass).map Slots.getSize
  /-- With asserts, nothing is ever stored in them, and nothing is allocated. -/
  unwritten : machine.asserts = true →
    after.staticVars = before.staticVars ∧ after.heap = before.heap
  /-- All strings are pooled as one. -/
  pool : after.stringPool = before.stringPool ∨
    before.stringPool.lookup (str "hello") = none ∧
      ∃ object, after.stringPool = (str "hello", object) :: before.stringPool
  created : before.newCount ≤ after.newCount

theorem StoresEvolve.refl (machine : Machine) (stores : Stores) :
    StoresEvolve machine stores stores where
  statics _ := rfl
  unwritten _ := ⟨rfl, rfl⟩
  pool := .inl rfl
  created := Nat.le_refl _

theorem StoresEvolve.trans {before middle after : Stores}
    (first : StoresEvolve machine before middle) (second : StoresEvolve machine middle after) :
    StoresEvolve machine before after where
  statics klass := (second.statics klass).trans (first.statics klass)
  unwritten asserts := by
    rcases first.unwritten asserts with ⟨staticVars, heap⟩
    rcases second.unwritten asserts with ⟨laterVars, laterHeap⟩
    exact ⟨laterVars.trans staticVars, laterHeap.trans heap⟩
  pool := by
    rcases first.pool with same | ⟨missing, object, added⟩
    · rw [← same]
      exact second.pool
    · right
      rcases second.pool with same | ⟨missingStill, -⟩
      · exact ⟨missing, object, same.trans added⟩
      · rw [added, List.lookup_cons_self] at missingStill
        cases missingStill
  created := Nat.le_trans first.created second.created

/-- A pooled string stays what it is. -/
theorem StoresEvolve.lookup {before after : Stores} (evolve : StoresEvolve machine before after)
    {key : Str} {object : DWord} (pooled : before.stringPool.lookup key = some object) :
    after.stringPool.lookup key = some object := by
  rcases evolve.pool with same | ⟨missing, other, added⟩
  · rw [same]
    exact pooled
  · rw [added, List.lookup_cons]
    by_cases hello : key = str "hello"
    · rw [hello, missing] at pooled
      cases pooled
    · rw [beq_false_of_ne hello]
      exact pooled

/-- What an instruction does to the stores. -/
theorem Touches.evolve {before after : Stores} (touches : Touches machine before after) :
    StoresEvolve machine before after := by
  have same := StoresEvolve.refl machine before
  cases touches with
  | nothing => exact same
  | allocates klass unchecked =>
      refine ⟨same.statics, ?_, same.pool, same.created⟩
      intro asserts
      rw [unchecked] at asserts
      cases asserts
  | makesArray => exact ⟨same.statics, same.unwritten, same.pool, Nat.le_succ _⟩
  | writesField object slotId value => exact ⟨same.statics, same.unwritten, same.pool, same.created⟩
  | @writesStatic klass slots written index value unchecked found stored =>
      refine ⟨?_, ?_, same.pool, same.created⟩
      · intro id
        by_cases here : id = klass
        · simp only [here, if_true, found, Option.map_some, Slots.getSize_of_setValue stored]
        · simp only [if_neg here]
      · intro asserts
        rw [unchecked] at asserts
        cases asserts
  | interns string missing =>
      exact ⟨same.statics, same.unwritten, .inr ⟨missing, string, rfl⟩, same.created⟩

/-- What a run in which no class is loaded does to the stores.  Loading one would make
its static variables, and take its object from the heap. -/
theorem storesEvolve_loopExecute (run : loopExecute machine count vm = .ok last) :
    StoresEvolve machine vm.stores last.stores := by
  apply @loop_invariant _ _ _ _ (fun state => StoresEvolve machine vm.stores state.stores) _ _ _ _
    (.refl machine vm.stores) run
  intro state next evolve done
  rcases performs_iteration done with ⟨frame, rest, nextPc, -, performs⟩
  exact evolve.trans performs.stores.evolve

end JvmDemo.Interpreter
