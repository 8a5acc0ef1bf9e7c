import JvmDemo.Interpreter.Steps

/-!
# Where an exception is handled

`FindExceptionHandler` searches one table in order, and returns the address of
the handler or `-1`.  `FindAndGotoExceptionHandler` applies it to one frame after
the other and pops the frames in which nothing was found.  It takes an address
for one that was found only if it is positive, so that a handler at the start of
the code of its method never runs.

Entries are compared in the order of the table, and the catch type of an entry
that covers the address is resolved before it is compared.  When that fails, the
process stops.
-/

namespace JvmDemo.Interpreter

open JvmDemo.Lib
open JvmDemo.Lib.Refinement
open JvmDemo.Runtime
open JvmDemo.Instructions

variable (machine : Machine)

/-! ## Matching entries -/

/-- The range of the entry covers the address by which the frame is looked up. -/
def Covers (frame : Frame) (entry : ExceptionHandler) : Prop :=
  entry.startPc.sle (lookupPc frame) = true ∧ (lookupPc frame).slt entry.endPc = true

instance (frame : Frame) (entry : ExceptionHandler) : Decidable (Covers frame entry) :=
  inferInstanceAs (Decidable (_ ∧ _))

/-- The entry catches everything, or the class of the exception or a superclass of
it. -/
def Catches (exClass : Option ClassId) (frame : Frame) (entry : ExceptionHandler) : Prop :=
  ∀ className, entry.catchType = some className → ∃ catchClass id,
    machine.table.resolveClass frame.method.klass className = .ok catchClass ∧
      exClass = some id ∧ catchClass ∈ machine.table.superChain id

/-- The entry is one for this exception in this frame. -/
def Matches (exClass : Option ClassId) (frame : Frame) (entry : ExceptionHandler) : Prop :=
  Covers frame entry ∧ Catches machine exClass frame entry

/-- The comparison with the entry does not stop the process: where the range
covers the address, the catch type resolves and the exception has a class. -/
def Comparable (exClass : Option ClassId) (frame : Frame) (entry : ExceptionHandler) : Prop :=
  Covers frame entry → ∀ className, entry.catchType = some className →
    (∃ catchClass, machine.table.resolveClass frame.method.klass className = .ok catchClass) ∧
      exClass.isSome = true

/-- The search passes over these entries. -/
def PassesOver (exClass : Option ClassId) (frame : Frame) (entries : List ExceptionHandler) :
    Prop :=
  ∀ entry ∈ entries, Comparable machine exClass frame entry ∧
    ¬ Matches machine exClass frame entry

/-- Nothing in the table of the frame matches. -/
def Unhandled (exClass : Option ClassId) (frame : Frame) : Prop :=
  ∃ handlers, frame.method.exceptionTable = some handlers ∧
    PassesOver machine exClass frame handlers

/-- The entry is the first in the table of the frame that matches. -/
def HandledBy (exClass : Option ClassId) (frame : Frame) (entry : ExceptionHandler) : Prop :=
  ∃ before after, frame.method.exceptionTable = some (before ++ entry :: after) ∧
    PassesOver machine exClass frame before ∧ Matches machine exClass frame entry

/-- Some entry in the table of the frame matches. -/
def HasMatch (exClass : Option ClassId) (frame : Frame) : Prop :=
  ∃ handlers, frame.method.exceptionTable = some handlers ∧
    ∃ entry ∈ handlers, Matches machine exClass frame entry

variable {machine} {exClass : Option ClassId} {frame : Frame}

theorem HandledBy.hasMatch {entry : ExceptionHandler}
    (handled : HandledBy machine exClass frame entry) : HasMatch machine exClass frame := by
  rcases handled with ⟨before, after, tableEq, -, matching⟩
  exact ⟨_, tableEq, entry, by simp, matching⟩

theorem Unhandled.not_hasMatch (unhandled : Unhandled machine exClass frame) :
    ¬ HasMatch machine exClass frame := by
  rcases unhandled with ⟨handlers, tableEq, passed⟩
  rintro ⟨handlers', tableEq', entry, mem, matching⟩
  obtain rfl : handlers = handlers' := Option.some.inj (tableEq.symm.trans tableEq')
  exact (passed entry mem).2 matching

/-! ## The search in one table -/

theorem mem_superChain_iff_match {catchClass id : ClassId} :
    (catchClass = id || machine.table.isSuperClassOf catchClass id) = true ↔
      catchClass ∈ machine.table.superChain id := by
  rw [ClassTable.isSuperClassOf, Bool.or_eq_true, decide_eq_true_eq, List.contains_iff_mem,
    machine.table.mem_superChain_iff]

/-- One step of the search: an entry is passed over, or it is the result, or the
comparison does not return. -/
theorem findExceptionHandler_cons (entry : ExceptionHandler) (handlers : List ExceptionHandler) :
    (Comparable machine exClass frame entry ∧ ¬ Matches machine exClass frame entry ∧
      findExceptionHandler machine frame.method.klass exClass (lookupPc frame) (entry :: handlers) =
        findExceptionHandler machine frame.method.klass exClass (lookupPc frame) handlers) ∨
    (Matches machine exClass frame entry ∧
      findExceptionHandler machine frame.method.klass exClass (lookupPc frame) (entry :: handlers) =
        .ok entry.handlerPc) ∨
    (¬ Comparable machine exClass frame entry ∧ ∃ fault,
      findExceptionHandler machine frame.method.klass exClass (lookupPc frame) (entry :: handlers) =
        .error fault) := by
  rw [findExceptionHandler]
  by_cases covers : Covers frame entry
  · rw [if_pos (by simpa [Covers] using covers)]
    cases catchTypeEq : entry.catchType with
    | none =>
        right
        left
        refine ⟨⟨covers, ?_⟩, rfl⟩
        intro className found
        rw [catchTypeEq] at found
        cases found
    | some className =>
        have comparable : Comparable machine exClass frame entry ↔
            (∃ catchClass, machine.table.resolveClass frame.method.klass className =
              .ok catchClass) ∧ exClass.isSome = true := by
          simp [Comparable, covers, catchTypeEq]
        dsimp only
        cases resolved : machine.table.resolveClass frame.method.klass className with
        | error fault =>
            right
            right
            refine ⟨?_, fault, rfl⟩
            rw [comparable]
            rintro ⟨⟨catchClass, resolves⟩, -⟩
            rw [resolved] at resolves
            cases resolves
        | ok catchClass =>
            rw [resolved] at comparable
            rw [Exec.bind_ok]
            cases exClass with
            | none =>
                right
                right
                exact ⟨by simp [comparable], _, rfl⟩
            | some id =>
                have matching : Matches machine (some id) frame entry ↔
                    catchClass ∈ machine.table.superChain id := by
                  simp [Matches, Catches, covers, catchTypeEq, resolved]
                dsimp only
                by_cases caught : catchClass ∈ machine.table.superChain id
                · right
                  left
                  rw [if_pos (mem_superChain_iff_match.mpr caught)]
                  exact ⟨matching.mpr caught, rfl⟩
                · left
                  rw [if_neg (mt mem_superChain_iff_match.mp caught)]
                  exact ⟨by simp [comparable], mt matching.mp caught, rfl⟩
  · rw [if_neg (by simpa [Covers] using covers)]
    left
    exact ⟨fun covered => absurd covered covers, fun matching => covers matching.1, rfl⟩

theorem findExceptionHandler_append {passed handlers : List ExceptionHandler}
    (passes : PassesOver machine exClass frame passed) :
    findExceptionHandler machine frame.method.klass exClass (lookupPc frame) (passed ++ handlers) =
      findExceptionHandler machine frame.method.klass exClass (lookupPc frame) handlers := by
  induction passed with
  | nil => rfl
  | cons entry passed ih =>
      rcases passes entry List.mem_cons_self with ⟨comparable, noMatch⟩
      have rest := ih fun entry mem => passes entry (List.mem_cons_of_mem _ mem)
      rw [List.cons_append]
      rcases findExceptionHandler_cons entry (passed ++ handlers) with
        ⟨-, -, next⟩ | ⟨matching, -⟩ | ⟨incomparable, -⟩
      · rw [next, rest]
      · exact absurd matching noMatch
      · exact absurd comparable incomparable

/-- A search that returns has passed over all entries, or stopped at the first one
that matches. -/
theorem findExceptionHandler_eq_ok {handlers : List ExceptionHandler} {handlerPc : BitVec 32}
    (found : findExceptionHandler machine frame.method.klass exClass (lookupPc frame) handlers =
      .ok handlerPc) :
    (PassesOver machine exClass frame handlers ∧ handlerPc = -1) ∨
    ∃ before entry after, handlers = before ++ entry :: after ∧
      PassesOver machine exClass frame before ∧ Matches machine exClass frame entry ∧
      handlerPc = entry.handlerPc := by
  induction handlers with
  | nil =>
      cases found
      exact .inl ⟨fun entry mem => absurd mem List.not_mem_nil, rfl⟩
  | cons entry handlers ih =>
      rcases @findExceptionHandler_cons machine exClass frame entry handlers with
        ⟨comparable, noMatch, next⟩ | ⟨matching, result⟩ | ⟨-, fault, failed⟩
      · rw [next] at found
        have first : ∀ entries, PassesOver machine exClass frame entries →
            PassesOver machine exClass frame (entry :: entries) := by
          intro entries passes other mem
          rcases List.mem_cons.mp mem with rfl | later
          · exact ⟨comparable, noMatch⟩
          · exact passes other later
        rcases ih found with
          ⟨passes, none⟩ | ⟨before, other, after, split, passes, matching, same⟩
        · exact .inl ⟨first handlers passes, none⟩
        · refine .inr ⟨entry :: before, other, after, ?_, first before passes, matching, same⟩
          rw [split]
          rfl
      · rw [result] at found
        cases found
        exact .inr ⟨[], entry, handlers, rfl, fun _ mem => absurd mem List.not_mem_nil, matching,
          rfl⟩
      · rw [failed] at found
        cases found

theorem Unhandled.handlerOf (unhandled : Unhandled machine exClass frame) :
    handlerOf machine exClass frame = .ok (-1) := by
  rcases unhandled with ⟨handlers, tableEq, passes⟩
  rw [Instructions.handlerOf, tableEq]
  dsimp only
  rw [← List.append_nil handlers, findExceptionHandler_append passes]
  rfl

theorem HandledBy.handlerOf {entry : ExceptionHandler}
    (handled : HandledBy machine exClass frame entry) :
    handlerOf machine exClass frame = .ok entry.handlerPc := by
  rcases handled with ⟨before, after, tableEq, passes, matching⟩
  rw [Instructions.handlerOf, tableEq]
  dsimp only
  rw [findExceptionHandler_append passes]
  rcases findExceptionHandler_cons entry after with
    ⟨-, noMatch, -⟩ | ⟨-, result⟩ | ⟨incomparable, -⟩
  · exact absurd matching noMatch
  · exact result
  · exfalso
    apply incomparable
    intro _ className catchTypeEq
    rcases matching.2 className catchTypeEq with ⟨catchClass, id, resolved, rfl, -⟩
    exact ⟨⟨catchClass, resolved⟩, rfl⟩

/-- The search in a frame that returns. -/
theorem handlerOf_eq_ok {handlerPc : BitVec 32}
    (found : handlerOf machine exClass frame = .ok handlerPc) :
    (Unhandled machine exClass frame ∧ handlerPc = -1) ∨
    ∃ entry, HandledBy machine exClass frame entry ∧ handlerPc = entry.handlerPc := by
  unfold handlerOf at found
  split at found
  · cases found
  · next handlers tableEq =>
      rcases findExceptionHandler_eq_ok found with
        ⟨passes, none⟩ | ⟨before, entry, after, rfl, passes, matching, rfl⟩
      · exact .inl ⟨⟨handlers, tableEq, passes⟩, none⟩
      · exact .inr ⟨entry, ⟨before, after, tableEq, passes, matching⟩, rfl⟩

/-! ## The frames -/

/-- The frame when control is transferred to the handler. -/
def enterHandler (ex : DWord) (frame : Frame) (handlerPc : BitVec 32) : Frame :=
  (frame.setStack (frame.operandStack.clear.pushed ex.words)).setNextPc handlerPc

/-- What `PushRef` on the cleared stack does. -/
theorem pushRef_clear {stack : OperandStack} {ex : DWord} (room : 2 ≤ stack.slots.getSize) :
    stack.clear.pushRef ex = .ok (stack.clear.pushed ex.words) := by
  have empty : stack.clear.top + (Value.ref ex).kind.width ≤ stack.clear.slots.getSize := by
    change 0 + 2 ≤ _
    rwa [Nat.zero_add]
  exact OperandStack.push_eq (.ref ex) empty

theorem pushRef_clear_eq_ok {stack next : OperandStack} {ex : DWord}
    (pushed : stack.clear.pushRef ex = .ok next) :
    2 ≤ stack.slots.getSize ∧ next = stack.clear.pushed ex.words := by
  have done : stack.clear.push (.ref ex) = .ok next := pushed
  rcases OperandStack.push_eq_ok done with ⟨room, same⟩
  change 0 + 2 ≤ _ at room
  rw [Nat.zero_add] at room
  exact ⟨room, same⟩

/-- Frames without a handler are popped. -/
theorem findAndGotoExceptionHandler_append {ex : DWord} {above frames : List Frame}
    (unhandled : ∀ frame ∈ above, Unhandled machine exClass frame) :
    findAndGotoExceptionHandler machine exClass ex (above ++ frames) =
      findAndGotoExceptionHandler machine exClass ex frames := by
  induction above with
  | nil => rfl
  | cons frame above ih =>
      rw [List.cons_append, findAndGotoExceptionHandler,
        (unhandled frame List.mem_cons_self).handlerOf, Exec.bind_ok, if_neg (by decide)]
      exact ih fun frame mem => unhandled frame (List.mem_cons_of_mem _ mem)

/-- Addresses in the code are positive as `int32_t`, apart from the first. -/
theorem slt_of_ne_zero {handlerPc : BitVec 32} (small : handlerPc.toNat < 2 ^ 16)
    (nonzero : handlerPc ≠ 0) : (0#32).slt handlerPc = true := by
  have positive : handlerPc.toNat ≠ 0 := fun zero => nonzero (BitVec.eq_of_toNat_eq zero)
  have value : handlerPc.toInt = handlerPc.toNat := BitVec.toInt_eq_toNat_of_lt (by omega)
  rw [BitVec.slt_iff_toInt_lt, value, BitVec.toInt_zero]
  omega

theorem ne_zero_of_slt {handlerPc : BitVec 32} (positive : (0#32).slt handlerPc = true) :
    handlerPc ≠ 0 := by
  rintro rfl
  cases positive

/-- Control is transferred to a handler that does not stand at the start of the
code, if there is room for the exception. -/
theorem findAndGotoExceptionHandler_handled {ex : DWord} {below : List Frame}
    {entry : ExceptionHandler} (handled : HandledBy machine exClass frame entry)
    (small : entry.handlerPc.toNat < 2 ^ 16) (nonzero : entry.handlerPc ≠ 0)
    (room : 2 ≤ frame.operandStack.slots.getSize) :
    findAndGotoExceptionHandler machine exClass ex (frame :: below) =
      .ok (enterHandler ex frame entry.handlerPc :: below) := by
  rw [findAndGotoExceptionHandler, handled.handlerOf, Exec.bind_ok,
    if_pos (slt_of_ne_zero small nonzero), pushRef_clear room, Exec.bind_ok]
  rfl

/-- The search in a frame does not find a handler, as the caller sees it. -/
def Passed (machine : Machine) (exClass : Option ClassId) (frame : Frame) : Prop :=
  Unhandled machine exClass frame ∨
    ∃ entry, HandledBy machine exClass frame entry ∧ ¬ (0#32).slt entry.handlerPc = true

/-- What unwinding that returns has done. -/
theorem findAndGotoExceptionHandler_eq_ok {ex : DWord} {frames result : List Frame}
    (done : findAndGotoExceptionHandler machine exClass ex frames = .ok result) :
    ((∀ frame ∈ frames, Passed machine exClass frame) ∧ result = []) ∨
    ∃ above frame below entry, frames = above ++ frame :: below ∧
      (∀ frame ∈ above, Passed machine exClass frame) ∧
      HandledBy machine exClass frame entry ∧ (0#32).slt entry.handlerPc = true ∧
      2 ≤ frame.operandStack.slots.getSize ∧
      result = enterHandler ex frame entry.handlerPc :: below := by
  induction frames with
  | nil =>
      cases done
      exact .inl ⟨fun frame mem => absurd mem List.not_mem_nil, rfl⟩
  | cons frame rest ih =>
      rcases Exec.bind_eq_ok.mp done with ⟨handlerPc, searched, found⟩
      have searchEnded := handlerOf_eq_ok searched
      split at found
      · next positive =>
          rcases Exec.bind_eq_ok.mp found with ⟨stack, pushed, same⟩
          rcases pushRef_clear_eq_ok pushed with ⟨room, rfl⟩
          cases same
          rcases searchEnded with ⟨-, rfl⟩ | ⟨entry, handled, rfl⟩
          · exact absurd positive (by decide)
          · exact .inr ⟨[], frame, rest, entry, rfl, fun _ mem => absurd mem List.not_mem_nil,
              handled, positive, room, rfl⟩
      · next notPositive =>
          have passed : Passed machine exClass frame := by
            rcases searchEnded with ⟨unhandled, -⟩ | ⟨entry, handled, rfl⟩
            · exact .inl unhandled
            · exact .inr ⟨entry, handled, notPositive⟩
          rcases ih found with ⟨all, rfl⟩ | ⟨above, caught, below, entry, rfl, all, transferred⟩
          · exact .inl ⟨List.forall_mem_cons.mpr ⟨passed, all⟩, rfl⟩
          · exact .inr ⟨frame :: above, caught, below, entry, rfl,
              List.forall_mem_cons.mpr ⟨passed, all⟩, transferred⟩

/-! ## Whether a matching handler catches -/

/-- Unwinding reports a handler if and only if some frame has a matching entry,
and control is then in the innermost of these frames, at a matching entry of it. -/
structure CaughtInnermost (machine : Machine) (exClass : Option ClassId) (ex : DWord)
    (frames result : List Frame) : Prop where
  reported : result ≠ [] ↔ ∃ frame ∈ frames, HasMatch machine exClass frame
  innermost : ∀ above frame below, frames = above ++ frame :: below →
    (∀ other ∈ above, ¬ HasMatch machine exClass other) → HasMatch machine exClass frame →
    ∃ entry, HandledBy machine exClass frame entry ∧
      result = enterHandler ex frame entry.handlerPc :: below

/-- Nothing matches in any frame; or the first matching entry of the innermost
frame that has one does not stand at the start of the code, and the operand stack
of this frame has room for the exception. -/
def Transferable (machine : Machine) (exClass : Option ClassId) (frames : List Frame) : Prop :=
  (∀ frame ∈ frames, Unhandled machine exClass frame) ∨
  ∃ above frame below entry, frames = above ++ frame :: below ∧
    (∀ other ∈ above, Unhandled machine exClass other) ∧
    HandledBy machine exClass frame entry ∧ entry.handlerPc ≠ 0 ∧
    2 ≤ frame.operandStack.slots.getSize

theorem Passed.unhandled (passed : Passed machine exClass frame)
    (noMatch : ¬ HasMatch machine exClass frame) : Unhandled machine exClass frame := by
  rcases passed with unhandled | ⟨entry, handled, -⟩
  · exact unhandled
  · exact absurd handled.hasMatch noMatch

/-- A list with an element that satisfies `p` has a first one. -/
theorem exists_first {α : Type} {p : α → Prop} {xs : List α} (found : ∃ x ∈ xs, p x) :
    ∃ before x after, xs = before ++ x :: after ∧ (∀ y ∈ before, ¬ p y) ∧ p x := by
  induction xs with
  | nil =>
      rcases found with ⟨x, mem, -⟩
      exact absurd mem List.not_mem_nil
  | cons x xs ih =>
      by_cases first : p x
      · exact ⟨[], x, xs, rfl, fun _ mem => absurd mem List.not_mem_nil, first⟩
      · have later : ∃ y ∈ xs, p y := by
          rcases found with ⟨y, mem, holds⟩
          rcases List.mem_cons.mp mem with rfl | mem
          · exact absurd holds first
          · exact ⟨y, mem, holds⟩
        rcases ih later with ⟨before, y, after, rfl, none, holds⟩
        exact ⟨x :: before, y, after, rfl, List.forall_mem_cons.mpr ⟨first, none⟩, holds⟩

/-- There is only one first element that satisfies `p`. -/
theorem first_unique {α : Type} {p : α → Prop} {before after before' after' : List α} {x x' : α}
    (same : before ++ x :: after = before' ++ x' :: after') (none : ∀ y ∈ before, ¬ p y)
    (holds : p x) (none' : ∀ y ∈ before', ¬ p y) (holds' : p x') :
    before = before' ∧ x = x' ∧ after = after' := by
  induction before generalizing before' with
  | nil =>
      cases before' with
      | nil =>
          cases same
          exact ⟨rfl, rfl, rfl⟩
      | cons y before' =>
          cases same
          exact absurd holds (none' x List.mem_cons_self)
  | cons y before ih =>
      cases before' with
      | nil =>
          cases same
          exact absurd holds' (none x' List.mem_cons_self)
      | cons y' before' =>
          rw [List.cons_append, List.cons_append] at same
          rcases List.cons.inj same with ⟨rfl, tails⟩
          rcases ih tails (List.forall_mem_cons.mp none).2 (List.forall_mem_cons.mp none').2 with
            ⟨rfl, rfl, rfl⟩
          exact ⟨rfl, rfl, rfl⟩

/-- Frames that were passed over because of a handler at the start of the code
are frames in which control was not transferred. -/
theorem CaughtInnermost.not_hasMatch {ex : DWord} {above below : List Frame} {top : Frame}
    (caught : CaughtInnermost machine exClass ex (above ++ frame :: below) (top :: below)) :
    ∀ other ∈ above, ¬ HasMatch machine exClass other := by
  intro other mem matching
  rcases exists_first ⟨other, mem, matching⟩ with ⟨higher, inner, lower, rfl, none, innerMatches⟩
  rcases caught.innermost higher inner (lower ++ frame :: below) (by simp) none innerMatches with
    ⟨entry, -, same⟩
  have lengths := congrArg List.length same
  simp only [List.length_cons, List.length_append] at lengths
  omega

theorem Transferable.caughtInnermost {ex : DWord} {frames : List Frame}
    (small : ∀ frame ∈ frames, ∀ entry, HandledBy machine exClass frame entry →
      entry.handlerPc.toNat < 2 ^ 16)
    (transferable : Transferable machine exClass frames) :
    ∃ result, findAndGotoExceptionHandler machine exClass ex frames = .ok result ∧
      CaughtInnermost machine exClass ex frames result := by
  rcases transferable with none | ⟨above, frame, below, entry, rfl, none, handled, nonzero, room⟩
  · have noMatch : ∀ frame ∈ frames, ¬ HasMatch machine exClass frame :=
      fun frame mem => (none frame mem).not_hasMatch
    refine ⟨[], ?_, ?_, ?_⟩
    · rw [← List.append_nil frames, findAndGotoExceptionHandler_append none]
      rfl
    · simpa using noMatch
    · rintro above frame below rfl - matching
      exact absurd matching (noMatch frame (by simp))
  · refine ⟨enterHandler ex frame entry.handlerPc :: below, ?_, ?_, ?_⟩
    · rw [findAndGotoExceptionHandler_append none]
      exact findAndGotoExceptionHandler_handled handled (small frame (by simp) entry handled)
        nonzero room
    · simp only [ne_eq, List.cons_ne_nil, not_false_iff, true_iff]
      exact ⟨frame, by simp, handled.hasMatch⟩
    · intro above' frame' below' split none' matching'
      rcases first_unique split (fun other mem => (none other mem).not_hasMatch) handled.hasMatch
        none' matching' with ⟨rfl, rfl, rfl⟩
      exact ⟨entry, handled, rfl⟩

theorem Transferable.of_caughtInnermost {ex : DWord} {frames result : List Frame}
    (done : findAndGotoExceptionHandler machine exClass ex frames = .ok result)
    (caught : CaughtInnermost machine exClass ex frames result) :
    Transferable machine exClass frames := by
  rcases findAndGotoExceptionHandler_eq_ok done with
    ⟨passed, rfl⟩ | ⟨above, frame, below, entry, rfl, passed, handled, positive, room, rfl⟩
  · left
    have noMatch : ¬ ∃ frame ∈ frames, HasMatch machine exClass frame :=
      fun found => caught.reported.mpr found rfl
    intro frame mem
    exact (passed frame mem).unhandled fun matching => noMatch ⟨frame, mem, matching⟩
  · right
    refine ⟨above, frame, below, entry, rfl, ?_, handled, ne_zero_of_slt positive, room⟩
    intro other mem
    exact (passed other mem).unhandled (caught.not_hasMatch other mem)

/-- The addresses of the handlers in the table of the frame are addresses of
code, which has less than 65536 bytes. -/
def InCode (frame : Frame) : Prop :=
  ∀ handlers, frame.method.exceptionTable = some handlers →
    ∀ entry ∈ handlers, entry.handlerPc.toNat < 2 ^ 16

/-- On every stack with a frame, whatever the addresses of the handlers: a
matching entry catches in the innermost frame that has one, and nothing else
catches, if and only if the transfer of control is possible. -/
theorem caughtInnermost_iff_transferable (rest : List Frame)
    (inCode : ∀ other ∈ frame :: rest, InCode other) (ex : DWord) :
    (∃ result, findAndGotoExceptionHandler machine exClass ex (frame :: rest) = .ok result ∧
      CaughtInnermost machine exClass ex (frame :: rest) result) ↔
    Transferable machine exClass (frame :: rest) := by
  constructor
  · rintro ⟨result, done, caught⟩
    exact .of_caughtInnermost done caught
  · intro transferable
    refine transferable.caughtInnermost fun other mem entry handled => ?_
    rcases handled with ⟨before, after, tableEq, -, -⟩
    exact inCode other mem _ tableEq entry (by simp)

def throwingClasses : List ClassInfo :=
  [{ name := str "java/lang/Object", accessFlags := 0x0021 },
    { name := str "Oops", accessFlags := 0x0020, superClass := some 0 }]

def throwingMachine : Machine := .ofTable (.ofClasses throwingClasses (by decide))

/-- `athrow; return`, with the given table. -/
def throwing (handlers : List ExceptionHandler) : Method where
  name := str "f"
  descriptor := str "()V"
  accessFlags := 0x0008
  klass := 0
  codes := some (padded [0xBF, 0xB1])
  maxStack := 2
  exceptionTable := some handlers

/-- A frame behind the `athrow`. -/
def throwingFrame (handlers : List ExceptionHandler) : Frame :=
  (Frame.ofMethod (throwing handlers)).setNextPc 1

theorem inCode_throwingFrame {handlers : List ExceptionHandler}
    (small : ∀ entry ∈ handlers, entry.handlerPc.toNat < 2 ^ 16) :
    InCode (throwingFrame handlers) := by
  intro table tableEq
  cases tableEq
  exact small

/-- Everything that the `athrow` throws is handled at an address. -/
def catchAll (handlerPc : BitVec 32) : ExceptionHandler := ⟨0, 1, handlerPc, none⟩

theorem handledBy_catchAll (handlerPc : BitVec 32) (after : List ExceptionHandler) :
    HandledBy throwingMachine (some 1) (throwingFrame (catchAll handlerPc :: after))
      (catchAll handlerPc) := by
  have covers : Covers (throwingFrame (catchAll handlerPc :: after)) (catchAll handlerPc) := by
    change (0#32).sle (1#32 - 1) = true ∧ (1#32 - 1).slt 1 = true
    decide
  refine ⟨[], after, rfl, fun _ mem => absurd mem List.not_mem_nil, covers, ?_⟩
  intro className absent
  cases absent

theorem unhandled_throwingFrame : Unhandled throwingMachine (some 1) (throwingFrame []) :=
  ⟨[], rfl, fun _ mem => absurd mem List.not_mem_nil⟩

/-- A handler at address 0 matches.  The frame is popped. -/
theorem first_address_not_caught :
    InCode (throwingFrame [catchAll 0]) ∧
    HasMatch throwingMachine (some 1) (throwingFrame [catchAll 0]) ∧
    findAndGotoExceptionHandler throwingMachine (some 1) 64 [throwingFrame [catchAll 0]] =
      .ok [] ∧
    ¬ ∃ result, findAndGotoExceptionHandler throwingMachine (some 1) 64
        [throwingFrame [catchAll 0]] = .ok result ∧
      CaughtInnermost throwingMachine (some 1) 64 [throwingFrame [catchAll 0]] result := by
  have matching := (handledBy_catchAll 0 []).hasMatch
  refine ⟨inCode_throwingFrame (by decide), matching, rfl, ?_⟩
  rintro ⟨result, done, caught⟩
  cases done
  exact caught.reported.mpr ⟨_, List.mem_singleton_self _, matching⟩ rfl

theorem caughtInnermost_second_frame :
    ∃ result, findAndGotoExceptionHandler throwingMachine (some 1) 64
        [throwingFrame [], throwingFrame [catchAll 1]] = .ok result ∧
      CaughtInnermost throwingMachine (some 1) 64
        [throwingFrame [], throwingFrame [catchAll 1]] result := by
  have inCode : ∀ other ∈ [throwingFrame [], throwingFrame [catchAll 1]], InCode other := by
    intro other mem
    rcases List.mem_pair.mp mem with rfl | rfl
    · exact inCode_throwingFrame (by decide)
    · exact inCode_throwingFrame (by decide)
  refine (caughtInnermost_iff_transferable _ inCode 64).mpr (.inr ?_)
  refine ⟨[throwingFrame []], throwingFrame [catchAll 1], [], catchAll 1, rfl, ?_,
    handledBy_catchAll 1 [], by decide, by decide⟩
  intro other mem
  cases List.mem_singleton.mp mem
  exact unhandled_throwingFrame

/-! ## What `ATHROW` does to the thread -/

/-- The frames that `ATHROW` sees: the program counter of the current one lies
behind the instruction, and the exception has been popped from it. -/
def framesAtThrow (frame : Frame) (rest : List Frame) (nextPc : BitVec 32)
    (stack : OperandStack) : List Frame :=
  (frame.setNextPc nextPc).setStack stack :: rest

theorem iteration_athrow {vm : Vm} {rest : List Frame} {nextPc : BitVec 32}
    (throws : Dispatches vm frame rest .athrow nextPc) :
    iteration machine vm =
      executeAthrow machine ((vm.setPc frame.nextPc).setFrames (frame.setNextPc nextPc :: rest))
        (frame.setNextPc nextPc) rest := by
  rcases throws with ⟨frames, code, codeEq, fetched⟩
  rw [iteration, withFrame, frames]
  dsimp only
  rw [codeEq, Exec.bind_ok, fetched, Exec.bind_ok]
  rfl

variable {vm : Vm} {rest : List Frame} {nextPc : BitVec 32} {ex : DWord} {stack : OperandStack}
  {exId : ClassId}

theorem executeAthrow_eq (popped : frame.operandStack.popRef = .ok (ex, stack))
    (nonnull : ex ≠ 0) (classed : machine.classOf vm ex = .ok (some exId)) {result : List Frame}
    (done : findAndGotoExceptionHandler machine (some exId) ex (frame.setStack stack :: rest) =
      .ok result) :
    executeAthrow machine vm frame rest = .ok (vm.setFrames result) := by
  rw [executeAthrow, popped, Exec.bind_ok]
  dsimp only
  rw [if_neg nonnull, classed, Exec.bind_ok, done, Exec.bind_ok]
  cases result with
  | nil =>
      dsimp only
      rw [Machine.classOf!, classed]
      rfl
  | cons top below => rfl

/-- What `ATHROW` does to the state, given what unwinding does to the frames. -/
theorem iteration_athrow_eq (throws : Dispatches vm frame rest .athrow nextPc)
    (popped : frame.operandStack.popRef = .ok (ex, stack)) (nonnull : ex ≠ 0)
    (classed : machine.classOf vm ex = .ok (some exId)) {result : List Frame}
    (done : findAndGotoExceptionHandler machine (some exId) ex
      (framesAtThrow frame rest nextPc stack) = .ok result) :
    iteration machine vm = .ok ((vm.setPc frame.nextPc).setFrames result) := by
  have behind : (frame.setNextPc nextPc).operandStack.popRef = .ok (ex, stack) := popped
  have known : machine.classOf ((vm.setPc frame.nextPc).setFrames
      (frame.setNextPc nextPc :: rest)) ex = .ok (some exId) := classed
  rw [iteration_athrow throws]
  exact executeAthrow_eq behind nonnull known done

/-- What the thread looks like when `frame` has caught the exception: the frames
below are the same, and in the frame itself only the operand stack and the next
program counter are new. -/
def CaughtIn (ex : DWord) (frame : Frame) (below : List Frame) (entry : ExceptionHandler)
    (frames : List Frame) : Prop :=
  ∃ top, frames = top :: below ∧ top.method = frame.method ∧ top.localVars = frame.localVars ∧
    top.nextPc = entry.handlerPc ∧ top.operandStack.top = 2 ∧
    top.operandStack.slots.slots.take 2 = ex.words ∧
    top.operandStack.slots.getSize = frame.operandStack.slots.getSize

theorem caughtIn_enterHandler {below : List Frame} {entry : ExceptionHandler}
    (room : 2 ≤ frame.operandStack.slots.getSize) :
    CaughtIn ex frame below entry (enterHandler ex frame entry.handlerPc :: below) := by
  refine ⟨_, rfl, rfl, rfl, rfl, rfl, ?_, OperandStack.getSize_pushed _⟩
  have fits : 0 + ex.words.length ≤ frame.operandStack.slots.slots.length := by
    rw [Nat.zero_add]
    exact room
  exact Cells.take_blit_add frame.operandStack.slots.slots 0 ex.words fits

/-- `ATHROW` of an exception that is not null, in every state.  If the frames
above `caught` have no matching entry and `entry` is the first one of `caught`
that matches, the exception is caught there and the rest of the state is as
before.  If no frame has a matching entry, no frame is left and the loop ends.
All catch types that are compared must resolve. -/
theorem athrow_unwinds (throws : Dispatches vm frame rest .athrow nextPc)
    (popped : frame.operandStack.popRef = .ok (ex, stack)) (nonnull : ex ≠ 0)
    (classed : machine.classOf vm ex = .ok (some exId)) :
    (∀ above caught below entry,
      framesAtThrow frame rest nextPc stack = above ++ caught :: below →
      (∀ other ∈ above, Unhandled machine (some exId) other) →
      HandledBy machine (some exId) caught entry →
      entry.handlerPc ≠ 0 → entry.handlerPc.toNat < 2 ^ 16 →
      2 ≤ caught.operandStack.slots.getSize →
      ∃ frames, iteration machine vm = .ok ((vm.setPc frame.nextPc).setFrames frames) ∧
        CaughtIn ex caught below entry frames) ∧
    ((∀ other ∈ framesAtThrow frame rest nextPc stack, Unhandled machine (some exId) other) →
      ∀ count, loopExecute machine (count + 1) vm =
        .ok ((vm.setPc frame.nextPc).setFrames [])) := by
  constructor
  · intro above caught below entry framesEq none handled nonzero small room
    refine ⟨_, iteration_athrow_eq throws popped nonnull classed ?_, caughtIn_enterHandler room⟩
    rw [framesEq, findAndGotoExceptionHandler_append none]
    exact findAndGotoExceptionHandler_handled handled small nonzero room
  · intro none count
    have unwound : findAndGotoExceptionHandler machine (some exId) ex
        (framesAtThrow frame rest nextPc stack) = .ok [] := by
      rw [← List.append_nil (framesAtThrow frame rest nextPc stack),
        findAndGotoExceptionHandler_append none]
      rfl
    rw [loopExecute, Refinement.loop,
      iteration_athrow_eq throws popped nonnull classed unwound]
    rfl

/-- A state that is about to execute the `athrow`, with an `Oops` at address 64. -/
def throwingVm (handlers : List ExceptionHandler) (rest : List Frame) : Vm :=
  let stack := (OperandStack.ofSize 2).pushed (64 : DWord).words
  let vm := Vm.ofFrames ((Frame.ofMethod (throwing handlers)).setStack stack :: rest)
  let header := vm.memory.write64 (64 + Object.klassOffset) (throwingMachine.classAddress 1)
  { vm with memory := header }

theorem athrow_unwinds_second_frame : ∃ frames,
    iteration throwingMachine (throwingVm [] [throwingFrame [catchAll 1]]) =
      .ok (((throwingVm [] [throwingFrame [catchAll 1]]).setPc 0).setFrames frames) ∧
    CaughtIn 64 (throwingFrame [catchAll 1]) [] (catchAll 1) frames := by
  have throws : Dispatches (throwingVm [] [throwingFrame [catchAll 1]]) _ _ .athrow 1 :=
    ⟨rfl, _, rfl, rfl⟩
  have classed : throwingMachine.classOf (throwingVm [] [throwingFrame [catchAll 1]]) 64 =
      .ok (some 1) := rfl
  refine (athrow_unwinds throws rfl (by decide) classed).1 [_] _ [] (catchAll 1) rfl ?_
    (handledBy_catchAll 1 []) (by decide) (by decide) (by decide)
  intro other mem
  cases List.mem_singleton.mp mem
  exact ⟨[], rfl, fun _ mem => absurd mem List.not_mem_nil⟩

/-- The first entry covers the `athrow`, but its catch type names a class that is
not there; the second one catches everything.  The process stops at the first. -/
theorem missing_catch_type_not_caught : ∃ vm frame stack missing,
    Dispatches vm frame [] .athrow 1 ∧
    frame.operandStack.popRef = .ok (64, stack) ∧
    throwingMachine.classOf vm 64 = .ok (some 1) ∧
    frame.method.exceptionTable = some [missing, catchAll 1] ∧
    Covers ((frame.setNextPc 1).setStack stack) missing ∧
    missing.catchType = some (str "Missing") ∧
    (∀ id ∈ throwingMachine.table.superChain 1,
      (throwingMachine.table.info id).name ≠ str "Missing") ∧
    Matches throwingMachine (some 1) ((frame.setNextPc 1).setStack stack) (catchAll 1) ∧
    frame.operandStack.slots.getSize = 2 ∧
    ¬ ∃ next, iteration throwingMachine vm = .ok next := by
  refine ⟨throwingVm [⟨0, 1, 1, some (str "Missing")⟩, catchAll 1] [], _, _,
    ⟨0, 1, 1, some (str "Missing")⟩, ⟨rfl, _, rfl, rfl⟩, rfl, rfl, rfl, by decide, rfl,
    by decide +kernel, ⟨by decide, ?_⟩, rfl, ?_⟩
  · intro className absent
    cases absent
  · rintro ⟨next, done⟩
    cases done

end JvmDemo.Interpreter
