import JvmDemo.Runtime.Thread

/-!
# What stays the same about a frame

A frame keeps its method and the sizes of its two slot arrays for as long as it
exists, and the top index of its operand stack never leaves the array.  The
relations between the state before and after an operation compose, so that an
instruction inherits them from the operations it is made of.
-/

namespace JvmDemo.Runtime

open JvmDemo.Lib

/-! ## Operand stacks -/

namespace OperandStack

/-- The slot array keeps its size, and the top index stays inside. -/
structure Evolves (stack next : OperandStack) : Prop where
  size : next.slots.getSize = stack.slots.getSize
  inside : stack.top ≤ stack.slots.getSize → next.top ≤ next.slots.getSize

variable {stack middle next : OperandStack}

theorem Evolves.refl (stack : OperandStack) : stack.Evolves stack := ⟨rfl, id⟩

theorem Evolves.trans (first : stack.Evolves middle) (second : middle.Evolves next) :
    stack.Evolves next where
  size := second.size.trans first.size
  inside := fun inside => second.inside (first.inside inside)

/-- Lowering the top. -/
theorem evolves_popped (stack : OperandStack) (count : Nat) :
    stack.Evolves (stack.popped count) where
  size := rfl
  inside := fun inside => Nat.le_trans (Nat.sub_le _ _) inside

/-- Storing a block for which there is room. -/
theorem evolves_pushed {block : List Word}
    (room : stack.top + block.length ≤ stack.slots.getSize) :
    stack.Evolves (stack.pushed block) where
  size := getSize_pushed block
  inside := fun _ => by
    rw [getSize_pushed]
    exact Nat.le_trans (Nat.mod_le _ _) room

theorem evolves_clear (stack : OperandStack) : stack.Evolves stack.clear where
  size := rfl
  inside := fun _ => Nat.zero_le _

/-- A typed push. -/
theorem evolves_push {value : Value} (pushed : stack.push value = .ok next) :
    stack.Evolves next := by
  rcases push_eq_ok pushed with ⟨room, rfl⟩
  apply evolves_pushed
  rw [Value.length_words]
  exact room

/-- A push of a single slot. -/
theorem evolves_pushSlot {slot : Slot} (pushed : stack.pushSlot slot = .ok next) :
    stack.Evolves next := by
  rcases pushOne_eq_ok pushed with ⟨slots, stored⟩
  have room := Slots.setOne_eq_ok stored
  have stores := Slots.setOne_of_lt "SetSlot out of index" room slot
  have unique := (pushOne_eq "PushSlot" room stores).symm.trans pushed
  cases unique
  exact evolves_pushed room

/-- An operation that only lowers the top. -/
def Lowers {α : Type} (pop : OperandStack → Exec (α × OperandStack)) : Prop :=
  ∀ ⦃stack next : OperandStack⦄ ⦃value : α⦄, pop stack = .ok (value, next) → stack.Evolves next

theorem lowers_popOne (what : String) (get : Slots → Nat → Exec Word) :
    Lowers (popOne what get) := by
  intro stack next value returned
  rw [(popOne_eq_ok returned).1]
  exact evolves_popped stack 1

theorem lowers_popTwo (what : String) (get : Slots → Nat → Exec DWord) :
    Lowers (popTwo what get) := by
  intro stack next value returned
  rw [(popTwo_eq_ok returned).1]
  exact evolves_popped stack 2

theorem lowers_popInt : Lowers popInt := lowers_popOne _ _

theorem lowers_popFloat : Lowers popFloat := lowers_popOne _ _

theorem lowers_popLong : Lowers popLong := lowers_popTwo _ _

theorem lowers_popDouble : Lowers popDouble := lowers_popTwo _ _

theorem lowers_popRef : Lowers popRef := lowers_popTwo _ _

theorem lowers_popSlot : Lowers popSlot := lowers_popOne _ _

/-- A typed pop. -/
theorem lowers_pop (kind : Kind) : Lowers fun stack => stack.pop kind := by
  intro stack next value returned
  cases kind <;> rcases Exec.bind_eq_ok.mp returned with ⟨⟨val, rest⟩, popped, same⟩ <;> cases same
  · exact lowers_popInt popped
  · exact lowers_popFloat popped
  · exact lowers_popLong popped
  · exact lowers_popDouble popped
  · exact lowers_popRef popped

/-- An operation that pushes. -/
def Raises {α : Type} (push : OperandStack → α → Exec OperandStack) : Prop :=
  ∀ ⦃stack next : OperandStack⦄ ⦃value : α⦄, push stack value = .ok next → stack.Evolves next

theorem raises_pushInt : Raises pushInt :=
  fun _ _ value pushed => @evolves_push _ _ (.int value) pushed

theorem raises_pushFloat : Raises pushFloat :=
  fun _ _ bits pushed => @evolves_push _ _ (.float bits) pushed

theorem raises_pushLong : Raises pushLong :=
  fun _ _ value pushed => @evolves_push _ _ (.long value) pushed

theorem raises_pushDouble : Raises pushDouble :=
  fun _ _ bits pushed => @evolves_push _ _ (.double bits) pushed

theorem raises_pushRef : Raises pushRef :=
  fun _ _ address pushed => @evolves_push _ _ (.ref address) pushed

end OperandStack

/-! ## Frames -/

namespace Frame

/-- The method and the sizes of the slot arrays are kept. -/
structure Keeps (frame next : Frame) : Prop where
  method : next.method = frame.method
  localVars : next.localVars.getSize = frame.localVars.getSize
  stack : frame.operandStack.Evolves next.operandStack

variable {frame middle next : Frame}

theorem Keeps.refl (frame : Frame) : frame.Keeps frame := ⟨rfl, rfl, .refl _⟩

theorem Keeps.trans (first : frame.Keeps middle) (second : middle.Keeps next) :
    frame.Keeps next where
  method := second.method.trans first.method
  localVars := second.localVars.trans first.localVars
  stack := first.stack.trans second.stack

theorem keeps_setStack {stack : OperandStack} (evolves : frame.operandStack.Evolves stack) :
    frame.Keeps (frame.setStack stack) := ⟨rfl, rfl, evolves⟩

theorem keeps_setNextPc (frame : Frame) (nextPc : BitVec 32) :
    frame.Keeps (frame.setNextPc nextPc) :=
  ⟨rfl, rfl, .refl _⟩

theorem keeps_setVars {vars : Slots} (same : vars.getSize = frame.localVars.getSize) :
    frame.Keeps (frame.setVars vars) := ⟨rfl, same, .refl _⟩

/-- The slot arrays have the sizes that the method asks for, as far as
`uint16_t` goes, and the top index lies inside. -/
structure WellFormed (frame : Frame) : Prop where
  localVars : frame.localVars.getSize = frame.method.maxLocals % 2 ^ 16
  operandStack : frame.operandStack.slots.getSize = frame.method.maxStack % 2 ^ 16
  top_le : frame.operandStack.top ≤ frame.operandStack.slots.getSize

theorem wellFormed_ofMethod (method : Method) : (ofMethod method).WellFormed where
  localVars := Slots.getSize_ofCount _
  operandStack := Slots.getSize_ofCount _
  top_le := Nat.zero_le _

theorem WellFormed.keeps (wellFormed : frame.WellFormed) (keeps : frame.Keeps next) :
    next.WellFormed where
  localVars := by rw [keeps.localVars, keeps.method]; exact wellFormed.localVars
  operandStack := by rw [keeps.stack.size, keeps.method]; exact wellFormed.operandStack
  top_le := keeps.stack.inside wellFormed.top_le

end Frame

end JvmDemo.Runtime
