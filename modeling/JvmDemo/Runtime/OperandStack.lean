import JvmDemo.Runtime.Slots

/-!
# The operand stack

`OperandStack` keeps a `uint16_t` top index into a slot array.  The typed
pushes check for room, store through `Slots` and advance the top; the typed
pops go the other way.  `PushSlot` and `PopSlot` move single slots without
regard to types.

`Holds` relates a stack to the words below its top.  Every operation has one
lemma in terms of it, which is what the rest of the development uses.
-/

namespace JvmDemo.Runtime

open JvmDemo.Lib
open JvmDemo.Lib.Cells (blit slice)

structure OperandStack where
  top : Nat
  slots : Slots
  deriving DecidableEq, Repr

namespace OperandStack

/-- `OperandStack(max_size)`. -/
def ofSize (maxSize : Nat) : OperandStack := ⟨0, Slots.ofCount maxSize⟩

def isEmpty (stack : OperandStack) : Bool := stack.top ≤ 0

def isFull (stack : OperandStack) : Bool := stack.slots.getSize ≤ stack.top

def isLongEmpty (stack : OperandStack) : Bool := stack.top ≤ 1

def isLongFull (stack : OperandStack) : Bool := stack.slots.sizeMinusOne ≤ stack.top

def clear (stack : OperandStack) : OperandStack := { stack with top := 0 }

/-- The pushes of one slot: `top_++` is `uint16_t` arithmetic. -/
def pushOne (what : String) (set : Slots → Nat → Word → Exec Slots) (stack : OperandStack)
    (val : Word) : Exec OperandStack := do
  if stack.isFull then fatal (what ++ " operand_stack_ overflow")
  else
    let slots ← set stack.slots stack.top val
    pure ⟨(stack.top + 1) % 2 ^ 16, slots⟩

/-- The pops of one slot. -/
def popOne (what : String) (get : Slots → Nat → Exec Word) (stack : OperandStack) :
    Exec (Word × OperandStack) := do
  if stack.isEmpty then fatal (what ++ " operand_stack_ empty")
  else
    let val ← get stack.slots (stack.top - 1)
    pure (val, { stack with top := stack.top - 1 })

/-- The pushes of two slots. -/
def pushTwo (what : String) (set : Slots → Nat → DWord → Exec Slots) (stack : OperandStack)
    (val : DWord) : Exec OperandStack := do
  if stack.isLongFull then fatal (what ++ " operand_stack_ overflow")
  else
    let slots ← set stack.slots stack.top val
    pure ⟨(stack.top + 2) % 2 ^ 16, slots⟩

/-- The pops of two slots. -/
def popTwo (what : String) (get : Slots → Nat → Exec DWord) (stack : OperandStack) :
    Exec (DWord × OperandStack) := do
  if stack.isLongEmpty then fatal (what ++ " operand_stack_ empty")
  else
    let val ← get stack.slots (stack.top - 2)
    pure (val, { stack with top := stack.top - 2 })

def pushInt := pushOne "PushInt" Slots.setInt

def popInt := popOne "PopInt" Slots.getInt

def pushFloat := pushOne "PushFloat" Slots.setFloat

def popFloat := popOne "PopFloat" Slots.getFloat

def pushLong := pushTwo "PushLong" Slots.setLong

def popLong := popTwo "PopLong" Slots.getLong

def pushDouble := pushTwo "PushDouble" Slots.setDouble

def popDouble := popTwo "PopDouble" Slots.getDouble

def pushRef := pushTwo "PushRef" Slots.setRef

def popRef := popTwo "PopRef" Slots.getRef

def pushSlot := pushOne "PushSlot" Slots.setSlot

def popSlot := popOne "PopSlot" Slots.getSlot

/-- `GetRefFromTop`; the index arithmetic is `uint32_t`, the access `uint16_t`. -/
def getRefFromTop (stack : OperandStack) (index : BitVec 32) : Exec DWord :=
  if BitVec.ofNat 32 stack.top ≤ index + 2#32 then
    fatal ("GetRefFromTop operand_stack_ size less than " ++ toString index.toNat)
  else stack.slots.getRef ((BitVec.ofNat 32 stack.top - index - 2#32).toNat % 2 ^ 16)

/-- The push of the value's kind. -/
def push (stack : OperandStack) : Value → Exec OperandStack
  | .int val => stack.pushInt val
  | .float bits => stack.pushFloat bits
  | .long val => stack.pushLong val
  | .double bits => stack.pushDouble bits
  | .ref address => stack.pushRef address

/-- The pop of a kind. -/
def pop (stack : OperandStack) : Kind → Exec (Value × OperandStack)
  | .int => do let (val, rest) ← stack.popInt; pure (.int val, rest)
  | .float => do let (bits, rest) ← stack.popFloat; pure (.float bits, rest)
  | .long => do let (val, rest) ← stack.popLong; pure (.long val, rest)
  | .double => do let (bits, rest) ← stack.popDouble; pure (.double bits, rest)
  | .ref => do let (address, rest) ← stack.popRef; pure (.ref address, rest)

/-! ## The words below the top -/

/-- The stack's live words, bottom to top; the slots above are unrestricted. -/
structure Holds (stack : OperandStack) (words : List Word) : Prop where
  top_eq : stack.top = words.length
  fits : words.length ≤ stack.slots.getSize
  sized : stack.slots.getSize < 2 ^ 16
  held : stack.slots.slots.take words.length = words

variable {stack : OperandStack} {words : List Word}

theorem holds_ofSize {maxSize : Nat} (sized : maxSize < 2 ^ 16) : Holds (ofSize maxSize) [] where
  top_eq := rfl
  fits := Nat.zero_le _
  sized := by simpa [ofSize, Slots.getSize_ofCount] using sized
  held := rfl

/-- The words below the top of any stack. -/
theorem holds_take (inside : stack.top ≤ stack.slots.getSize)
    (sized : stack.slots.getSize < 2 ^ 16) : Holds stack (stack.slots.slots.take stack.top) := by
  have length : (stack.slots.slots.take stack.top).length = stack.top := by
    rw [List.length_take]
    exact Nat.min_eq_left inside
  constructor
  · exact length.symm
  · rw [length]
    exact inside
  · exact sized
  · rw [length]

theorem Holds.clear (holds : Holds stack words) : Holds stack.clear [] where
  top_eq := rfl
  fits := Nat.zero_le _
  sized := holds.sized
  held := rfl

/-- The stack after a block is stored at the top. -/
def pushed (stack : OperandStack) (block : List Word) : OperandStack :=
  ⟨(stack.top + block.length) % 2 ^ 16, ⟨blit stack.slots.slots stack.top block⟩⟩

/-- The stack after the top is lowered. -/
def popped (stack : OperandStack) (count : Nat) : OperandStack :=
  { stack with top := stack.top - count }

@[simp]
theorem getSize_pushed (block : List Word) :
    (stack.pushed block).slots.getSize = stack.slots.getSize := by
  simp [pushed]

@[simp]
theorem getSize_popped (count : Nat) :
    (stack.popped count).slots.getSize = stack.slots.getSize := rfl

/-- Storing a block at the top and advancing the top appends the block. -/
theorem Holds.pushed (holds : Holds stack words) {block : List Word}
    (room : words.length + block.length ≤ stack.slots.getSize) :
    Holds (stack.pushed block) (words ++ block) where
  top_eq := by
    have sized := holds.sized
    simp only [OperandStack.pushed, holds.top_eq, List.length_append]
    omega
  fits := by simpa using room
  sized := by simpa using holds.sized
  held := by
    have written := Cells.take_blit_add stack.slots.slots words.length block room
    rw [holds.held] at written
    simpa [OperandStack.pushed, holds.top_eq] using written

/-- Lowering the top by a block removes it. -/
theorem Holds.popped {block : List Word} (holds : Holds stack (words ++ block)) :
    Holds (stack.popped block.length) words where
  top_eq := by simp [OperandStack.popped, holds.top_eq]
  fits := by
    have fits := holds.fits
    simp only [List.length_append] at fits
    exact Nat.le_trans (Nat.le_add_right _ _) fits
  sized := holds.sized
  held := by
    have shorter := congrArg (List.take words.length) holds.held
    simpa [List.take_take, OperandStack.popped] using shorter

/-- The block just below the top is where a pop looks for it. -/
theorem Holds.slice_eq {block : List Word} (holds : Holds stack (words ++ block)) :
    slice stack.slots.slots (stack.top - block.length) block.length = block := by
  have top : stack.top - block.length = words.length := by simp [holds.top_eq]
  have held : stack.slots.slots.take (words.length + block.length) = words ++ block := by
    simpa using holds.held
  rw [top]
  exact Cells.slice_of_take_eq held

/-! ## One lemma for each operation -/

theorem pushOne_eq {set : Slots → Nat → Word → Exec Slots} (what : String)
    (room : stack.top < stack.slots.getSize) {val : Word}
    (stored : set stack.slots stack.top val = .ok ⟨blit stack.slots.slots stack.top [val]⟩) :
    pushOne what set stack val = .ok (stack.pushed [val]) := by
  have notFull : stack.isFull = false := by
    simp only [isFull, decide_eq_false_iff_not]
    omega
  simp [pushOne, notFull, stored, OperandStack.pushed, pure, Except.pure]

theorem pushTwo_eq {set : Slots → Nat → DWord → Exec Slots} (what : String)
    (room : stack.top + 2 ≤ stack.slots.getSize) {val : DWord}
    (stored : set stack.slots stack.top val = .ok ⟨blit stack.slots.slots stack.top val.words⟩) :
    pushTwo what set stack val = .ok (stack.pushed val.words) := by
  have notFull : stack.isLongFull = false := by
    simp only [isLongFull, decide_eq_false_iff_not]
    exact Slots.not_sizeMinusOne_le room
  simp [pushTwo, notFull, stored, OperandStack.pushed, pure, Except.pure]

/-- A push with room stores the value's words at the top. -/
theorem push_eq (value : Value) (room : stack.top + value.kind.width ≤ stack.slots.getSize) :
    stack.push value = .ok (stack.pushed value.words) := by
  have stored := Slots.setValue_of_le value room
  cases value with
  | int val => exact pushOne_eq _ room stored
  | float bits => exact pushOne_eq _ room stored
  | long val => exact pushTwo_eq _ room stored
  | double bits => exact pushTwo_eq _ room stored
  | ref address => exact pushTwo_eq _ room stored

theorem pushOne_eq_ok {set : Slots → Nat → Word → Exec Slots} {what : String} {val : Word}
    {next : OperandStack} (pushed : pushOne what set stack val = .ok next) :
    ∃ slots, set stack.slots stack.top val = .ok slots := by
  unfold pushOne at pushed
  split at pushed
  · cases pushed
  · rcases Exec.bind_eq_ok.mp pushed with ⟨slots, stored, -⟩
    exact ⟨slots, stored⟩

theorem pushTwo_eq_ok {set : Slots → Nat → DWord → Exec Slots} {what : String} {val : DWord}
    {next : OperandStack} (pushed : pushTwo what set stack val = .ok next) :
    ∃ slots, set stack.slots stack.top val = .ok slots := by
  unfold pushTwo at pushed
  split at pushed
  · cases pushed
  · rcases Exec.bind_eq_ok.mp pushed with ⟨slots, stored, -⟩
    exact ⟨slots, stored⟩

/-- A push that returns had room. -/
theorem push_eq_ok {value : Value} {next : OperandStack} (pushed : stack.push value = .ok next) :
    stack.top + value.kind.width ≤ stack.slots.getSize ∧ next = stack.pushed value.words := by
  have stored : ∃ slots, stack.slots.setValue stack.top value = .ok slots := by
    cases value with
    | int val => exact pushOne_eq_ok pushed
    | float bits => exact pushOne_eq_ok pushed
    | long val => exact pushTwo_eq_ok pushed
    | double bits => exact pushTwo_eq_ok pushed
    | ref address => exact pushTwo_eq_ok pushed
  rcases stored with ⟨slots, storedEq⟩
  have room := (Slots.setValue_eq_ok storedEq).1
  rw [push_eq value room] at pushed
  cases pushed
  exact ⟨room, rfl⟩

/-- A push without room ends in its overflow message. -/
theorem push_aborts (value : Value) (nonempty : 0 < stack.slots.getSize)
    (full : stack.slots.getSize < stack.top + value.kind.width) : Aborts (stack.push value) := by
  have wide : stack.slots.getSize < stack.top + 2 → stack.isLongFull = true := by
    intro short
    simp only [isLongFull, decide_eq_true_eq, Slots.sizeMinusOne_eq nonempty]
    omega
  have narrow : stack.slots.getSize < stack.top + 1 → stack.isFull = true := by
    intro short
    simp only [isFull, decide_eq_true_eq]
    omega
  cases value with
  | int val => simp [push, pushInt, pushOne, narrow full]
  | float bits => simp [push, pushFloat, pushOne, narrow full]
  | long val => simp [push, pushLong, pushTwo, wide full]
  | double bits => simp [push, pushDouble, pushTwo, wide full]
  | ref address => simp [push, pushRef, pushTwo, wide full]

/-- A pop of as many slots as the stack has reads them through the getter of
its kind. -/
theorem pop_of_le (kind : Kind) (enough : kind.width ≤ stack.top) :
    stack.pop kind = (do
      let value ← stack.slots.getValue (stack.top - kind.width) kind
      pure (value, stack.popped kind.width)) := by
  have notEmpty : 1 ≤ stack.top → stack.isEmpty = false := by
    intro some
    simp only [isEmpty, decide_eq_false_iff_not]
    omega
  have notLongEmpty : 2 ≤ stack.top → stack.isLongEmpty = false := by
    intro two
    simp only [isLongEmpty, decide_eq_false_iff_not]
    omega
  cases kind with
  | int =>
      simp only [pop, popInt, popOne, notEmpty enough, Slots.getValue, Kind.width]
      cases stack.slots.getInt (stack.top - 1) <;> rfl
  | float =>
      simp only [pop, popFloat, popOne, notEmpty enough, Slots.getValue, Kind.width]
      cases stack.slots.getFloat (stack.top - 1) <;> rfl
  | long =>
      simp only [pop, popLong, popTwo, notLongEmpty enough, Slots.getValue, Kind.width]
      cases stack.slots.getLong (stack.top - 2) <;> rfl
  | double =>
      simp only [pop, popDouble, popTwo, notLongEmpty enough, Slots.getValue, Kind.width]
      cases stack.slots.getDouble (stack.top - 2) <;> rfl
  | ref =>
      simp only [pop, popRef, popTwo, notLongEmpty enough, Slots.getValue, Kind.width]
      cases stack.slots.getRef (stack.top - 2) <;> rfl

theorem popOne_eq_ok {what : String} {get : Slots → Nat → Exec Word} {val : Word}
    {next : OperandStack} (returned : popOne what get stack = .ok (val, next)) :
    next = stack.popped 1 ∧ 0 < stack.top := by
  unfold popOne at returned
  split at returned
  · cases returned
  · rename_i notEmpty
    rcases Exec.bind_eq_ok.mp returned with ⟨read, -, same⟩
    cases same
    simp only [isEmpty, decide_eq_true_eq] at notEmpty
    exact ⟨rfl, Nat.lt_of_not_le notEmpty⟩

theorem popTwo_eq_ok {what : String} {get : Slots → Nat → Exec DWord} {val : DWord}
    {next : OperandStack} (returned : popTwo what get stack = .ok (val, next)) :
    next = stack.popped 2 ∧ 2 ≤ stack.top := by
  unfold popTwo at returned
  split at returned
  · cases returned
  · rename_i notEmpty
    rcases Exec.bind_eq_ok.mp returned with ⟨read, -, same⟩
    cases same
    simp only [isLongEmpty, decide_eq_true_eq] at notEmpty
    exact ⟨rfl, Nat.lt_of_not_le notEmpty⟩

/-- `PopSlot` lowers the top by one. -/
theorem popSlot_eq_ok {slot : Slot} {next : OperandStack}
    (returned : stack.popSlot = .ok (slot, next)) : next = stack.popped 1 ∧ 0 < stack.top :=
  popOne_eq_ok returned

/-- `PopRef` lowers it by two. -/
theorem popRef_eq_ok {address : DWord} {next : OperandStack}
    (returned : stack.popRef = .ok (address, next)) : next = stack.popped 2 ∧ 2 ≤ stack.top :=
  popTwo_eq_ok returned

/-- A pop from an empty stack ends in its message. -/
theorem Holds.pop_aborts (holds : Holds stack []) (kind : Kind) : Aborts (stack.pop kind) := by
  have top : stack.top = 0 := holds.top_eq
  have empty : stack.isEmpty = true := by simp [isEmpty, top]
  have longEmpty : stack.isLongEmpty = true := by simp [isLongEmpty, top]
  cases kind with
  | int => simp [pop, popInt, popOne, empty, fatal, Aborts]
  | float => simp [pop, popFloat, popOne, empty, fatal, Aborts]
  | long => simp [pop, popLong, popTwo, longEmpty, fatal, Aborts]
  | double => simp [pop, popDouble, popTwo, longEmpty, fatal, Aborts]
  | ref => simp [pop, popRef, popTwo, longEmpty, fatal, Aborts]

/-- A pop of the kind of the value on top returns that value. -/
theorem Holds.pop_eq {value : Value} (holds : Holds stack (words ++ value.words)) :
    stack.pop value.kind = .ok (value, stack.popped value.kind.width) := by
  have top : stack.top = words.length + value.kind.width := by simpa using holds.top_eq
  have inside : stack.top - value.kind.width + value.kind.width ≤ stack.slots.getSize := by
    have fits := holds.fits
    simp only [List.length_append, Value.length_words] at fits
    omega
  have block : slice stack.slots.slots (stack.top - value.kind.width) value.kind.width =
      value.words := by
    simpa using holds.slice_eq
  rw [pop_of_le _ (by omega), Slots.getValue_of_slice_eq value inside block]
  rfl

/-! ## Single slots -/

/-- `PopSlot` returns the top slot, but only when the slot array is not full. -/
theorem Holds.popSlot_eq {slot : Slot} (holds : Holds stack (words ++ [slot]))
    (spare : words.length + 1 < stack.slots.getSize) :
    stack.popSlot = .ok (slot, stack.popped 1) := by
  have top : stack.top = words.length + 1 := by simpa using holds.top_eq
  have notEmpty : stack.isEmpty = false := by
    simp only [isEmpty, decide_eq_false_iff_not]
    omega
  have found : stack.slots.slots[stack.top - 1]? = some slot := by
    have block := holds.slice_eq
    simp only [List.length_singleton] at block
    have cell := Cells.getElem?_slice stack.slots.slots (stack.top - 1) 1 0
    rw [block] at cell
    simpa using cell.symm
  have inside : ¬ stack.slots.sizeMinusOne ≤ stack.top - 1 :=
    Slots.not_sizeMinusOne_le (by omega)
  have read : stack.slots.getSlot (stack.top - 1) = .ok slot := by
    rw [Slots.getSlot, if_neg inside, Slots.readAt_of_getElem?_eq found]
  simp [popSlot, popOne, notEmpty, read, OperandStack.popped, pure, Except.pure]

/-- `PopSlot` aborts on a stack whose slot array is full. -/
theorem Holds.popSlot_aborts (holds : Holds stack words) (nonempty : 0 < words.length)
    (full : words.length = stack.slots.getSize) : Aborts stack.popSlot := by
  have top : stack.top = stack.slots.getSize := holds.top_eq.trans full
  have notEmpty : stack.isEmpty = false := by
    simp only [isEmpty, decide_eq_false_iff_not]
    omega
  have outside : stack.slots.sizeMinusOne ≤ stack.top - 1 := by
    rw [Slots.sizeMinusOne_eq (by omega)]
    omega
  have read : stack.slots.getSlot (stack.top - 1) = fatal (Slots.outOfIndex
      "GetSlot out of index, long need two slots" (stack.top - 1) stack.slots) := by
    rw [Slots.getSlot, if_pos outside]
  simp [popSlot, popOne, notEmpty, read, fatal, Aborts]

end OperandStack

end JvmDemo.Runtime
