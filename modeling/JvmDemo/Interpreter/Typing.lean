import JvmDemo.Interpreter.Calls
import JvmDemo.Interpreter.Simulation

/-!
# Typing of code

A typing of a routine says what kinds of values lie on the operand stack and in
the local variables at the addresses that the routine reaches.  An instruction
takes the type of the frame before it to the type behind it, and the type at
every address where the routine may continue must be implied by that one.

The main result is type soundness of the small-step semantics: a stack of
activations that agrees with the typings always has a step to one that does,
except for a call that does not fit on the stack of the thread.
-/

namespace JvmDemo.Interpreter.Specification

open JvmDemo.Lib
open JvmDemo.Runtime
open JvmDemo.Instructions

/-! ## Types of frames -/

/-- What is known of a local variable. -/
inductive CellType where
  | unusable | int | long | second
  deriving DecidableEq, Repr

/-- What is known of a frame; the operand stack is newest first. -/
structure FrameType where
  stack : List Kind
  locals : List CellType
  deriving DecidableEq, Repr

def Cell.type : Cell → CellType
  | .unusable => .unusable
  | .int _ => .int
  | .long _ => .long
  | .second => .second

/-- Every variable may be taken for an unusable one. -/
def Cell.HasType (cell : Cell) (type : CellType) : Prop := type = .unusable ∨ cell.type = type

structure SpecFrame.HasType (frame : SpecFrame) (type : FrameType) : Prop where
  stack : frame.stack.map Value.kind = type.stack
  locals : List.Forall₂ Cell.HasType frame.locals type.locals

/-- What is known is enough for what is expected. -/
def CellType.Implies (known expected : CellType) : Prop := expected = .unusable ∨ known = expected

instance (known expected : CellType) : Decidable (known.Implies expected) :=
  inferInstanceAs (Decidable (_ ∨ _))

/-- A frame of one type is one of the other type. -/
structure FrameType.Implies (known expected : FrameType) : Prop where
  stack : known.stack = expected.stack
  locals : List.Forall₂ CellType.Implies known.locals expected.locals

theorem Cell.HasType.imp {cell : Cell} {known expected : CellType} (typed : cell.HasType known)
    (implies : known.Implies expected) : cell.HasType expected := by
  rcases implies with rfl | rfl
  · exact .inl rfl
  · exact typed

theorem SpecFrame.HasType.imp {frame : SpecFrame} {known expected : FrameType}
    (typed : frame.HasType known) (implies : known.Implies expected) :
    frame.HasType expected where
  stack := typed.stack.trans implies.stack
  locals := by
    rcases typed with ⟨-, locals⟩
    rcases implies with ⟨-, weaker⟩
    rw [List.forall₂_iff_get] at locals weaker ⊢
    refine ⟨locals.1.trans weaker.1, ?_⟩
    intro index inside insideExpected
    exact (locals.2 index inside (locals.1 ▸ inside)).imp
      (weaker.2 index (locals.1 ▸ inside) insideExpected)

/-! ## Values of a kind -/

theorem exists_int_of_kind {value : Value} (kind : value.kind = .int) :
    ∃ val, value = .int val := by
  cases value with
  | int val => exact ⟨val, rfl⟩
  | _ => cases kind

theorem exists_long_of_kind {value : Value} (kind : value.kind = .long) :
    ∃ val, value = .long val := by
  cases value with
  | long val => exact ⟨val, rfl⟩
  | _ => cases kind

theorem exists_int_of_hasType {cell : Cell} (typed : cell.HasType .int) :
    ∃ val, cell = .int val := by
  rcases typed with unusable | same
  · cases unusable
  · cases cell with
    | int val => exact ⟨val, rfl⟩
    | _ => cases same

theorem exists_long_of_hasType {cell : Cell} (typed : cell.HasType .long) :
    ∃ val, cell = .long val := by
  rcases typed with unusable | same
  · cases unusable
  · cases cell with
    | long val => exact ⟨val, rfl⟩
    | _ => cases same

theorem eq_second_of_hasType {cell : Cell} (typed : cell.HasType .second) : cell = .second := by
  rcases typed with unusable | same
  · cases unusable
  · cases cell with
    | second => rfl
    | _ => cases same

theorem used_eq_sum (values : List Value) :
    TypedStack.used values = ((values.map Value.kind).map Kind.width).sum := by
  induction values with
  | nil => rfl
  | cons value below ih =>
      rw [TypedStack.used, ih, List.map_cons, List.map_cons, List.sum_cons, Nat.add_comm]

namespace FrameType

variable (type : FrameType)

/-- The slots of the operand stack that are in use. -/
def used : Nat := (type.stack.map Kind.width).sum

/-- Push a value of a kind if there is room for it. -/
def push (capacity : Nat) (kind : Kind) : Option FrameType :=
  if type.used + kind.width ≤ capacity then some { type with stack := kind :: type.stack }
  else none

/-- Pop values of these kinds, the topmost first. -/
def pop (kinds : List Kind) : Option FrameType :=
  if type.stack.take kinds.length = kinds then
    some { type with stack := type.stack.drop kinds.length }
  else none

/-- Replace the topmost operands by a result. -/
def operate (capacity : Nat) (kinds : List Kind) (result : Kind) : Option FrameType :=
  (type.pop kinds).bind fun popped => popped.push capacity result

def loadInt (capacity index : Nat) : Option FrameType :=
  if type.locals[index]? = some .int then type.push capacity .int else none

def loadLong (capacity index : Nat) : Option FrameType :=
  if type.locals[index]? = some .long ∧ type.locals[index + 1]? = some .second then
    type.push capacity .long
  else none

def storeInt (index : Nat) : Option FrameType :=
  (type.pop [.int]).bind fun popped =>
    if index < popped.locals.length then
      some { popped with locals := popped.locals.set index .int }
    else none

def storeLong (index : Nat) : Option FrameType :=
  (type.pop [.long]).bind fun popped =>
    if index + 1 < popped.locals.length then
      some { popped with locals := (popped.locals.set index .long).set (index + 1) .second }
    else none

def increment (index : Nat) : Option FrameType :=
  if type.locals[index]? = some .int then some type else none

/-- The invoker takes the result of a call. -/
def receive (capacity : Nat) : Option Kind → Option FrameType
  | none => some type
  | some kind => type.push capacity kind

end FrameType

/-- The type behind an instruction. -/
def transfer (capacity : Nat) (type : FrameType) : FrameInst → Option FrameType
  | .nop => some type
  | .iconst _ => type.push capacity .int
  | .lconst _ => type.push capacity .long
  | .bipush _ => type.push capacity .int
  | .sipush _ => type.push capacity .int
  | .load .int index => type.loadInt capacity index.toNat
  | .load .long index => type.loadLong capacity index.toNat
  | .loadN .int number => type.loadInt capacity number
  | .loadN .long number => type.loadLong capacity number
  | .store .int index => type.storeInt index.toNat
  | .store .long index => type.storeLong index.toNat
  | .storeN .int number => type.storeInt number
  | .storeN .long number => type.storeLong number
  | .iinc index _ => type.increment index.toNat
  | .add .int32 => type.operate capacity [.int, .int] .int
  | .add .int64 => type.operate capacity [.long, .long] .long
  | .sub .int32 => type.operate capacity [.int, .int] .int
  | .sub .int64 => type.operate capacity [.long, .long] .long
  | .mul .int32 => type.operate capacity [.int, .int] .int
  | .mul .int64 => type.operate capacity [.long, .long] .long
  | .neg .int32 => type.operate capacity [.int] .int
  | .neg .int64 => type.operate capacity [.long] .long
  | .and .int32 => type.operate capacity [.int, .int] .int
  | .and .int64 => type.operate capacity [.long, .long] .long
  | .or .int32 => type.operate capacity [.int, .int] .int
  | .or .int64 => type.operate capacity [.long, .long] .long
  | .xor .int32 => type.operate capacity [.int, .int] .int
  | .xor .int64 => type.operate capacity [.long, .long] .long
  | .t2r .i2l => type.operate capacity [.int] .long
  | .t2r .l2i => type.operate capacity [.long] .int
  | .i2r _ => type.operate capacity [.int] .int
  | .if_ _ _ => type.pop [.int]
  | .ifIcmp _ _ => type.pop [.int, .int]
  | .goto _ => some type
  | .gotoW _ => some type
  | _ => none

/-- The addresses where a routine may continue behind an instruction at
`origin`. -/
def successors (origin next : Nat) : FrameInst → List Int
  | .if_ _ offset => [next, origin + offset.toInt]
  | .ifIcmp _ offset => [next, origin + offset.toInt]
  | .goto offset => [origin + offset.toInt]
  | .gotoW offset => [origin + offset.toInt]
  | _ => [next]

/-! ## Soundness of the types -/

/-- The instruction can be executed, the frame behind it has the type, and it
continues at one of the addresses. -/
def SpecFrame.Reaches (frame : SpecFrame) (after : FrameType) (targets : List Int)
    (outcome : Option SpecFrame) : Prop :=
  ∃ result, outcome = some result ∧ result.HasType after ∧ result.code = frame.code ∧
    result.maxStack = frame.maxStack ∧ (result.pc : Int) ∈ targets

namespace SpecFrame.HasType

variable {frame : SpecFrame} {type after : FrameType}

theorem used_eq (typed : frame.HasType type) : TypedStack.used frame.stack = type.used := by
  rw [used_eq_sum, typed.stack]
  rfl

theorem setStack (typed : frame.HasType type) {values : List Value} {kinds : List Kind}
    (same : values.map Value.kind = kinds) :
    ({ frame with stack := values } : SpecFrame).HasType { type with stack := kinds } where
  stack := same
  locals := typed.locals

theorem length_locals (typed : frame.HasType type) :
    frame.locals.length = type.locals.length :=
  typed.locals.length_eq

/-- A variable of which something is known. -/
theorem local_ (typed : frame.HasType type) {index : Nat} {known : CellType}
    (found : type.locals[index]? = some known) :
    ∃ cell, frame.locals[index]? = some cell ∧ cell.HasType known := by
  rcases List.getElem?_eq_some_iff.mp found with ⟨inside, rfl⟩
  have insideFrame : index < frame.locals.length := by rwa [typed.length_locals]
  exact ⟨frame.locals[index], List.getElem?_eq_getElem insideFrame,
    (List.forall₂_iff_get.mp typed.locals).2 index insideFrame inside⟩

theorem setLocal (typed : frame.HasType type) {cell : Cell} {known : CellType}
    (fits : cell.HasType known) (index : Nat) :
    ({ frame with locals := frame.locals.set index cell } : SpecFrame).HasType
      { type with locals := type.locals.set index known } where
  stack := typed.stack
  locals := by
    have locals := typed.locals
    rw [List.forall₂_iff_get] at locals ⊢
    refine ⟨by simp [locals.1], ?_⟩
    intro other inside insideType
    rw [List.length_set] at inside insideType
    rw [List.get_eq_getElem, List.get_eq_getElem, List.getElem_set, List.getElem_set]
    split
    · exact fits
    · exact locals.2 other inside insideType

/-- The topmost values have the kinds that can be popped. -/
theorem pop (typed : frame.HasType type) {kinds : List Kind}
    (popped : type.pop kinds = some after) :
    ∃ values below, frame.stack = values ++ below ∧ values.map Value.kind = kinds ∧
      ({ frame with stack := below } : SpecFrame).HasType after := by
  unfold FrameType.pop at popped
  split at popped
  · next taken =>
      cases popped
      refine ⟨frame.stack.take kinds.length, frame.stack.drop kinds.length,
        (List.take_append_drop ..).symm, ?_, typed.setStack ?_⟩
      · rw [List.map_take, typed.stack, taken]
      · rw [List.map_drop, typed.stack]
  · cases popped

theorem popInt (typed : frame.HasType type) (popped : type.pop [.int] = some after) :
    ∃ val below, frame.stack = .int val :: below ∧
      ({ frame with stack := below } : SpecFrame).HasType after := by
  rcases typed.pop popped with ⟨values, below, stack, kinds, typedBelow⟩
  rcases List.map_eq_singleton_iff.mp kinds with ⟨value, rfl, kind⟩
  rcases exists_int_of_kind kind with ⟨val, rfl⟩
  exact ⟨val, below, stack, typedBelow⟩

theorem popLong (typed : frame.HasType type) (popped : type.pop [.long] = some after) :
    ∃ val below, frame.stack = .long val :: below ∧
      ({ frame with stack := below } : SpecFrame).HasType after := by
  rcases typed.pop popped with ⟨values, below, stack, kinds, typedBelow⟩
  rcases List.map_eq_singleton_iff.mp kinds with ⟨value, rfl, kind⟩
  rcases exists_long_of_kind kind with ⟨val, rfl⟩
  exact ⟨val, below, stack, typedBelow⟩

theorem popInts (typed : frame.HasType type) (popped : type.pop [.int, .int] = some after) :
    ∃ right left below, frame.stack = .int right :: .int left :: below ∧
      ({ frame with stack := below } : SpecFrame).HasType after := by
  rcases typed.pop popped with ⟨values, below, stack, kinds, typedBelow⟩
  rcases List.map_eq_cons_iff.mp kinds with ⟨first, values, rfl, firstKind, kinds⟩
  rcases List.map_eq_singleton_iff.mp kinds with ⟨second, rfl, secondKind⟩
  rcases exists_int_of_kind firstKind with ⟨right, rfl⟩
  rcases exists_int_of_kind secondKind with ⟨left, rfl⟩
  exact ⟨right, left, below, stack, typedBelow⟩

theorem popLongs (typed : frame.HasType type) (popped : type.pop [.long, .long] = some after) :
    ∃ right left below, frame.stack = .long right :: .long left :: below ∧
      ({ frame with stack := below } : SpecFrame).HasType after := by
  rcases typed.pop popped with ⟨values, below, stack, kinds, typedBelow⟩
  rcases List.map_eq_cons_iff.mp kinds with ⟨first, values, rfl, firstKind, kinds⟩
  rcases List.map_eq_singleton_iff.mp kinds with ⟨second, rfl, secondKind⟩
  rcases exists_long_of_kind firstKind with ⟨right, rfl⟩
  rcases exists_long_of_kind secondKind with ⟨left, rfl⟩
  exact ⟨right, left, below, stack, typedBelow⟩

/-- There is room for what the types have room for. -/
theorem push (typed : frame.HasType type) {value : Value} {kind : Kind} (same : value.kind = kind)
    (pushed : type.push frame.maxStack kind = some after) :
    frame.push value = some { frame with stack := value :: frame.stack } ∧
      ({ frame with stack := value :: frame.stack } : SpecFrame).HasType after := by
  subst same
  unfold FrameType.push at pushed
  split at pushed
  · next room =>
      cases pushed
      rw [← typed.used_eq] at room
      exact ⟨if_pos room, typed.setStack (by rw [List.map_cons, typed.stack])⟩
  · cases pushed

theorem reaches_push (typed : frame.HasType type) {value : Value} {kind : Kind}
    (same : value.kind = kind) (pushed : type.push frame.maxStack kind = some after) :
    frame.Reaches after [frame.pc] (frame.push value) := by
  rcases typed.push same pushed with ⟨pushEq, typedAfter⟩
  exact ⟨_, pushEq, typedAfter, rfl, rfl, List.mem_singleton_self _⟩

theorem reaches_intOp (typed : frame.HasType type) {op : Word → Word → Word}
    (done : type.operate frame.maxStack [.int, .int] .int = some after) :
    frame.Reaches after [frame.pc] (frame.intOp op) := by
  rcases Option.bind_eq_some_iff.mp done with ⟨middle, popped, pushed⟩
  rcases typed.popInts popped with ⟨right, left, below, stack, typedBelow⟩
  rw [SpecFrame.intOp, stack]
  exact typedBelow.reaches_push rfl pushed

theorem reaches_longOp (typed : frame.HasType type) {op : DWord → DWord → DWord}
    (done : type.operate frame.maxStack [.long, .long] .long = some after) :
    frame.Reaches after [frame.pc] (frame.longOp op) := by
  rcases Option.bind_eq_some_iff.mp done with ⟨middle, popped, pushed⟩
  rcases typed.popLongs popped with ⟨right, left, below, stack, typedBelow⟩
  rw [SpecFrame.longOp, stack]
  exact typedBelow.reaches_push rfl pushed

theorem reaches_intMap (typed : frame.HasType type) {op : Word → Value} {kind : Kind}
    (kinds : ∀ val, (op val).kind = kind)
    (done : type.operate frame.maxStack [.int] kind = some after) :
    frame.Reaches after [frame.pc] (frame.intMap op) := by
  rcases Option.bind_eq_some_iff.mp done with ⟨middle, popped, pushed⟩
  rcases typed.popInt popped with ⟨val, below, stack, typedBelow⟩
  rw [SpecFrame.intMap, stack]
  exact typedBelow.reaches_push (kinds val) pushed

theorem reaches_longMap (typed : frame.HasType type) {op : DWord → Value} {kind : Kind}
    (kinds : ∀ val, (op val).kind = kind)
    (done : type.operate frame.maxStack [.long] kind = some after) :
    frame.Reaches after [frame.pc] (frame.longMap op) := by
  rcases Option.bind_eq_some_iff.mp done with ⟨middle, popped, pushed⟩
  rcases typed.popLong popped with ⟨val, below, stack, typedBelow⟩
  rw [SpecFrame.longMap, stack]
  exact typedBelow.reaches_push (kinds val) pushed

theorem reaches_loadInt (typed : frame.HasType type) {index : Nat}
    (done : type.loadInt frame.maxStack index = some after) :
    frame.Reaches after [frame.pc] (frame.loadInt index) := by
  unfold FrameType.loadInt at done
  split at done
  · next known =>
      rcases typed.local_ known with ⟨cell, found, typedCell⟩
      rcases exists_int_of_hasType typedCell with ⟨val, rfl⟩
      rw [SpecFrame.loadInt, found]
      exact typed.reaches_push rfl done
  · cases done

theorem reaches_loadLong (typed : frame.HasType type) {index : Nat}
    (done : type.loadLong frame.maxStack index = some after) :
    frame.Reaches after [frame.pc] (frame.loadLong index) := by
  unfold FrameType.loadLong at done
  split at done
  · next known =>
      rcases typed.local_ known.1 with ⟨lower, foundLower, typedLower⟩
      rcases typed.local_ known.2 with ⟨upper, foundUpper, typedUpper⟩
      rcases exists_long_of_hasType typedLower with ⟨val, rfl⟩
      obtain rfl := eq_second_of_hasType typedUpper
      rw [SpecFrame.loadLong, foundLower, foundUpper]
      exact typed.reaches_push rfl done
  · cases done

theorem reaches_storeInt (typed : frame.HasType type) {index : Nat}
    (done : type.storeInt index = some after) :
    frame.Reaches after [frame.pc] (frame.storeInt index) := by
  rcases Option.bind_eq_some_iff.mp done with ⟨middle, popped, stored⟩
  rcases typed.popInt popped with ⟨val, below, stack, typedBelow⟩
  split at stored
  · next inside =>
      cases stored
      rw [← typedBelow.length_locals] at inside
      rw [SpecFrame.storeInt, stack]
      exact ⟨_, if_pos inside, typedBelow.setLocal (.inr rfl) index, rfl, rfl,
        List.mem_singleton_self _⟩
  · cases stored

theorem reaches_storeLong (typed : frame.HasType type) {index : Nat}
    (done : type.storeLong index = some after) :
    frame.Reaches after [frame.pc] (frame.storeLong index) := by
  rcases Option.bind_eq_some_iff.mp done with ⟨middle, popped, stored⟩
  rcases typed.popLong popped with ⟨val, below, stack, typedBelow⟩
  split at stored
  · next inside =>
      cases stored
      rw [← typedBelow.length_locals] at inside
      rw [SpecFrame.storeLong, stack]
      exact ⟨_, if_pos inside,
        (typedBelow.setLocal (.inr rfl) index).setLocal (.inr rfl) (index + 1), rfl, rfl,
        List.mem_singleton_self _⟩
  · cases stored

theorem reaches_increment (typed : frame.HasType type) {index : Nat} {const : Int}
    (done : type.increment index = some after) :
    frame.Reaches after [frame.pc] (frame.increment index const) := by
  unfold FrameType.increment at done
  split at done
  · next known =>
      cases done
      rcases typed.local_ known with ⟨cell, found, typedCell⟩
      rcases exists_int_of_hasType typedCell with ⟨val, rfl⟩
      have same : type.locals.set index .int = type.locals := by
        rcases List.getElem?_eq_some_iff.mp known with ⟨inside, here⟩
        rw [← here, List.set_getElem_self]
      have typedAfter := typed.setLocal
        (.inr rfl : (Cell.int (BitVec.ofInt 32 (val.toInt + const))).HasType .int) index
      rw [same] at typedAfter
      rw [SpecFrame.increment, found]
      exact ⟨_, rfl, typedAfter, rfl, rfl, List.mem_singleton_self _⟩
  · cases done

/-- A jump to an address inside the code. -/
theorem reaches_jump (typed : frame.HasType type) {origin : Nat} {offset : Int}
    {targets : List Int} (target : origin + offset ∈ targets)
    (inside : ∀ target ∈ targets, 0 ≤ target ∧ target < frame.code.length) :
    frame.Reaches type targets (frame.jump origin offset) := by
  have here := inside _ target
  rw [SpecFrame.jump]
  refine ⟨_, if_pos here, ⟨typed.stack, typed.locals⟩, rfl, rfl, ?_⟩
  rw [Int.toNat_of_nonneg here.1]
  exact target

/-- Either the jump is made, or the routine continues behind the instruction. -/
theorem reaches_branch (typed : frame.HasType type) {origin : Nat} {offset : Int} {test : Prop}
    [Decidable test]
    (inside : ∀ target ∈ [(frame.pc : Int), origin + offset],
      0 ≤ target ∧ target < frame.code.length) :
    frame.Reaches type [frame.pc, origin + offset]
      (if test then frame.jump origin offset else some frame) := by
  split
  · exact typed.reaches_jump (by simp) inside
  · exact ⟨frame, rfl, typed, rfl, rfl, List.mem_cons_self⟩

theorem reaches_jumpIf (typed : frame.HasType type) (popped : type.pop [.int] = some after)
    {origin : Nat} {offset : Int} {test : Int → Prop} [DecidablePred test]
    (inside : ∀ target ∈ [(frame.pc : Int), origin + offset],
      0 ≤ target ∧ target < frame.code.length) :
    frame.Reaches after [frame.pc, origin + offset] (frame.jumpIf origin offset test) := by
  rcases typed.popInt popped with ⟨val, below, stack, typedBelow⟩
  rw [SpecFrame.jumpIf, stack]
  exact typedBelow.reaches_branch inside

theorem reaches_jumpIf2 (typed : frame.HasType type)
    (popped : type.pop [.int, .int] = some after) {origin : Nat} {offset : Int}
    {test : Int → Int → Prop} [∀ left, DecidablePred (test left)]
    (inside : ∀ target ∈ [(frame.pc : Int), origin + offset],
      0 ≤ target ∧ target < frame.code.length) :
    frame.Reaches after [frame.pc, origin + offset] (frame.jumpIf2 origin offset test) := by
  rcases typed.popInts popped with ⟨right, left, below, stack, typedBelow⟩
  rw [SpecFrame.jumpIf2, stack]
  exact typedBelow.reaches_branch inside

end SpecFrame.HasType

/-- An instruction that the types allow can be executed. -/
theorem reaches_effect {frame : SpecFrame} {type after : FrameType} (typed : frame.HasType type)
    {origin : Nat} (inst : FrameInst) (allowed : transfer frame.maxStack type inst = some after)
    (inside : ∀ target ∈ successors origin frame.pc inst,
      0 ≤ target ∧ target < frame.code.length) :
    frame.Reaches after (successors origin frame.pc inst) (effect origin frame inst) := by
  cases inst with
  | nop =>
      cases allowed
      exact ⟨frame, rfl, typed, rfl, rfl, List.mem_singleton_self _⟩
  | iconst number => exact typed.reaches_push rfl allowed
  | lconst number => exact typed.reaches_push rfl allowed
  | bipush val => exact typed.reaches_push rfl allowed
  | sipush val => exact typed.reaches_push rfl allowed
  | load kind index =>
      cases kind with
      | int => exact typed.reaches_loadInt allowed
      | long => exact typed.reaches_loadLong allowed
      | _ => cases allowed
  | loadN kind number =>
      cases kind with
      | int => exact typed.reaches_loadInt allowed
      | long => exact typed.reaches_loadLong allowed
      | _ => cases allowed
  | store kind index =>
      cases kind with
      | int => exact typed.reaches_storeInt allowed
      | long => exact typed.reaches_storeLong allowed
      | _ => cases allowed
  | storeN kind number =>
      cases kind with
      | int => exact typed.reaches_storeInt allowed
      | long => exact typed.reaches_storeLong allowed
      | _ => cases allowed
  | iinc index const => exact typed.reaches_increment allowed
  | add type =>
      cases type with
      | int32 => exact typed.reaches_intOp allowed
      | int64 => exact typed.reaches_longOp allowed
      | _ => cases allowed
  | sub type =>
      cases type with
      | int32 => exact typed.reaches_intOp allowed
      | int64 => exact typed.reaches_longOp allowed
      | _ => cases allowed
  | mul type =>
      cases type with
      | int32 => exact typed.reaches_intOp allowed
      | int64 => exact typed.reaches_longOp allowed
      | _ => cases allowed
  | neg type =>
      cases type with
      | int32 => exact typed.reaches_intMap (fun _ => rfl) allowed
      | int64 => exact typed.reaches_longMap (fun _ => rfl) allowed
      | _ => cases allowed
  | and type =>
      cases type with
      | int32 => exact typed.reaches_intOp allowed
      | int64 => exact typed.reaches_longOp allowed
  | or type =>
      cases type with
      | int32 => exact typed.reaches_intOp allowed
      | int64 => exact typed.reaches_longOp allowed
  | xor type =>
      cases type with
      | int32 => exact typed.reaches_intOp allowed
      | int64 => exact typed.reaches_longOp allowed
  | t2r conversion =>
      cases conversion with
      | i2l => exact typed.reaches_intMap (fun _ => rfl) allowed
      | l2i => exact typed.reaches_longMap (fun _ => rfl) allowed
      | _ => cases allowed
  | i2r result =>
      cases result with
      | int8 => exact typed.reaches_intMap (fun _ => rfl) allowed
      | char16 => exact typed.reaches_intMap (fun _ => rfl) allowed
      | int16 => exact typed.reaches_intMap (fun _ => rfl) allowed
  | if_ cond offset =>
      change frame.Reaches after _
        (frame.jumpIf origin offset.toInt fun val => Compares val 0 cond)
      exact typed.reaches_jumpIf allowed inside
  | ifIcmp cond offset =>
      change frame.Reaches after _
        (frame.jumpIf2 origin offset.toInt fun left right => Compares left right cond)
      exact typed.reaches_jumpIf2 allowed inside
  | goto offset =>
      cases allowed
      exact typed.reaches_jump (List.mem_singleton_self _) inside
  | gotoW offset =>
      cases allowed
      exact typed.reaches_jump (List.mem_singleton_self _) inside
  | _ => cases allowed

/-! ## Routines and programs -/

/-- The type of the variables that hold an argument. -/
def argTypes : Kind → List CellType
  | .int => [.int]
  | .long => [.long, .second]
  | .float => [.unusable]
  | .double | .ref => [.unusable, .unusable]

/-- The type of the frame in which a routine starts. -/
def Routine.entryType (routine : Routine) : FrameType where
  stack := []
  locals := routine.params.flatMap argTypes ++
    List.replicate (routine.maxLocals - (routine.params.map Kind.width).sum) .unusable

/-- The type behind an instruction of a routine, and where the routine may
continue with it. -/
def flow (program : Program) (routine : Routine) (pc next : Nat) (type : FrameType) :
    Instruction → Option (FrameType × List Int)
  | .frame inst =>
      (transfer routine.maxStack type inst).map fun after => (after, successors pc next inst)
  | .invokeStatic index => do
      let callee ← program.routineAt routine.klass index.toNat
      let popped ← type.pop callee.params.reverse
      if callee.params = [] ∨ type.used < routine.maxStack then
        let after ← popped.receive routine.maxStack callee.result
        some (after, [(next : Int)])
      else none
  | .return_ result =>
      if result = routine.result ∧ type.stack.take result.toList.length = result.toList then
        some (type, [])
      else none
  | _ => none

/-- What is known implies the type at an address. -/
def Flows (types : Nat → Option FrameType) (known : FrameType) (target : Int) : Prop :=
  ∃ addr expected, target = ((addr : Nat) : Int) ∧ types addr = some expected ∧
    known.Implies expected

/-- The types at the addresses of a routine fit together. -/
structure Routine.WellTyped (program : Program) (routine : Routine)
    (types : Nat → Option FrameType) : Prop where
  entry : Flows types routine.entryType 0
  flows : ∀ {pc type}, types pc = some type → ∃ inst next after targets,
    StandsAt routine.code pc inst next ∧
    flow program routine pc next type inst = some (after, targets) ∧
    ∀ target ∈ targets, Flows types after target

/-- Every routine of a program has a typing, and the initializers have neither
parameters nor results. -/
structure Program.WellTyped (program : Program) : Prop where
  routine : ∀ {klass index routine}, program.routineAt klass index = some routine →
    ∃ types, routine.WellTyped program types
  initializer : ∀ {klass routine}, program.initializer klass = some routine →
    routine.params = [] ∧ routine.result = none ∧ ∃ types, routine.WellTyped program types

/-- An activation that goes on when it has received this result. -/
structure Activation.Awaits (program : Program) (act : Activation) (result : Option Kind) :
    Prop where
  code : act.frame.code = act.routine.code
  maxStack : act.frame.maxStack = act.routine.maxStack
  typed : ∃ types type after, act.routine.WellTyped program types ∧ act.frame.HasType type ∧
    type.receive act.routine.maxStack result = some after ∧ Flows types after act.frame.pc

/-- The activations agree with the typings of their routines; `result` is what the
newest one still has to receive. -/
def Consistent (program : Program) : Option Kind → List Activation → Prop
  | result, [] => result = none
  | result, act :: rest => act.Awaits program result ∧ Consistent program act.routine.result rest

/-! ## Soundness of a routine -/

section Routine

variable {program : Program} {routine : Routine} {types : Nat → Option FrameType}

/-- The variables hold the arguments. -/
theorem forall₂_argCells (args : List Value) (spare : Nat) :
    List.Forall₂ Cell.HasType (args.flatMap argCells ++ List.replicate spare .unusable)
      ((args.map Value.kind).flatMap argTypes ++ List.replicate spare .unusable) := by
  induction args with
  | nil =>
      rw [List.forall₂_iff_get]
      refine ⟨by simp, ?_⟩
      intro index inside insideType
      exact .inl (by simp)
  | cons value args ih =>
      cases value with
      | int val => exact .cons (.inr rfl) ih
      | float bits => exact .cons (.inr rfl) ih
      | long val => exact .cons (.inr rfl) (.cons (.inr rfl) ih)
      | double bits => exact .cons (.inr rfl) (.cons (.inr rfl) ih)
      | ref address => exact .cons (.inr rfl) (.cons (.inr rfl) ih)

/-- A routine that is called with arguments of the right kinds starts as its
typing says. -/
theorem awaits_enter (typed : routine.WellTyped program types) {args : List Value}
    (kinds : args.map Value.kind = routine.params) :
    (routine.enter args).Awaits program none where
  code := rfl
  maxStack := rfl
  typed := by
    refine ⟨types, routine.entryType, routine.entryType, typed, ⟨rfl, ?_⟩, rfl, typed.entry⟩
    rw [Routine.entryType, ← kinds, ← used_eq_sum]
    exact forall₂_argCells args _

/-- An activation that waits for nothing has the type at its address. -/
theorem Activation.Awaits.exists_type {act : Activation} (awaits : act.Awaits program none) :
    ∃ types type, act.routine.WellTyped program types ∧ act.frame.HasType type ∧
      types act.frame.pc = some type := by
  rcases awaits.typed with ⟨types, type, _, wellTyped, hasType, ⟨⟩, addr, expected, here, known,
    implies⟩
  rw [← Int.ofNat_inj.mp here] at known
  exact ⟨types, expected, wellTyped, hasType.imp implies, known⟩

/-- Where a routine continues there is an instruction. -/
theorem Routine.WellTyped.inside (typed : routine.WellTyped program types) {known : FrameType}
    {target : Int} (flows : Flows types known target) :
    0 ≤ target ∧ target < routine.code.length := by
  rcases flows with ⟨addr, expected, rfl, found, -⟩
  rcases typed.flows found with ⟨inst, next, after, targets, stands, -⟩
  rcases le_length_of_standsAt stands with ⟨nonempty, ends⟩
  exact ⟨Int.natCast_nonneg addr, Int.ofNat_lt.mpr (Nat.lt_of_lt_of_le nonempty ends)⟩

end Routine

/-! ## Type soundness -/

section Soundness

variable {program : Program} {act : Activation} {rest : List Activation}
  {types : Nat → Option FrameType} {type after : FrameType} {targets : List Int} {next : Nat}

/-- The outcome of a step that the typings allow. -/
def Progresses (program : Program) (acts : List Activation) : Prop :=
  ∃ next, ProgramStep program acts next ∧ Consistent program none next

/-- Activations that wait for a result and get one of that kind. -/
theorem Activation.Awaits.receive {kind : Kind} {value : Value} (awaits : act.Awaits program kind)
    (same : value.kind = kind) :
    ∃ after, act.frame.push value = some after ∧ (act.setFrame after).Awaits program none := by
  rcases awaits.typed with ⟨types, type, known, wellTyped, hasType, received, flows⟩
  have pushed : type.push act.frame.maxStack kind = some known := by
    rw [awaits.maxStack]
    exact received
  rcases hasType.push same pushed with ⟨pushEq, typedAfter⟩
  exact ⟨_, pushEq, awaits.code, awaits.maxStack, types, known, known, wellTyped, typedAfter, rfl,
    flows⟩

theorem progresses_frame {inst : FrameInst} (awaits : act.Awaits program none)
    (below : Consistent program act.routine.result rest)
    (wellTyped : act.routine.WellTyped program types) (typed : act.frame.HasType type)
    (stands : StandsAt act.frame.code act.frame.pc (.frame inst) next)
    (allowed : transfer act.routine.maxStack type inst = some after)
    (flows : ∀ target ∈ successors act.frame.pc next inst, Flows types after target) :
    Progresses program (act :: rest) := by
  have typedNext : ({ act.frame with pc := next } : SpecFrame).HasType type :=
    ⟨typed.stack, typed.locals⟩
  rw [← awaits.maxStack] at allowed
  have inside : ∀ target ∈ successors act.frame.pc next inst,
      0 ≤ target ∧ target < act.frame.code.length := by
    intro target mem
    rw [awaits.code]
    exact wellTyped.inside (flows target mem)
  rcases reaches_effect typedNext inst allowed inside with
    ⟨result, done, typedAfter, code, maxStack, target⟩
  have awaitsAfter : (act.setFrame result).Awaits program none :=
    ⟨code.trans awaits.code, maxStack.trans awaits.maxStack, types, after, after, wellTyped,
      typedAfter, rfl, flows _ target⟩
  exact ⟨_, .frame stands done, awaitsAfter, below⟩

theorem progresses_call (programTyped : program.WellTyped) {callee : Routine}
    {popped : FrameType} (awaits : act.Awaits program none)
    (below : Consistent program act.routine.result rest)
    (wellTyped : act.routine.WellTyped program types) (typed : act.frame.HasType type)
    (atCall : act.AtCall program callee next) (taken : type.pop callee.params.reverse = some popped)
    (spare : callee.params = [] ∨ type.used < act.routine.maxStack)
    (received : popped.receive act.routine.maxStack callee.result = some after)
    (flows : Flows types after next) (fits : callee.Fits (rest.length + 1)) :
    Progresses program (act :: rest) := by
  rcases typed.pop taken with ⟨values, kept, stack, kinds, typedBelow⟩
  have params : values.reverse.map Value.kind = callee.params := by
    rw [List.map_reverse, kinds, List.reverse_reverse]
  have calls : act.Calls program (rest.length + 1) callee values.reverse kept next := by
    refine ⟨atCall, by rw [stack, List.reverse_reverse], params, fits, ?_⟩
    rw [typed.used_eq, awaits.maxStack]
    rcases spare with none | spare
    · rw [none, List.map_eq_nil_iff] at params
      exact .inl params
    · exact .inr spare
  rcases atCall with ⟨index, -, known⟩
  rcases programTyped.routine known with ⟨calleeTypes, calleeTyped⟩
  refine ⟨_, .call calls, awaits_enter calleeTyped params, ?_, below⟩
  exact ⟨awaits.code, awaits.maxStack, types, popped, after, wellTyped,
    ⟨typedBelow.stack, typedBelow.locals⟩, received, flows⟩

theorem progresses_returnValue {kind : Kind} (below : Consistent program kind rest)
    (typed : act.frame.HasType type) (top : type.stack.take 1 = [kind])
    (stands : StandsAt act.frame.code act.frame.pc (.return_ (some kind)) next) :
    Progresses program (act :: rest) := by
  have popped : type.pop [kind] = some { type with stack := type.stack.drop 1 } := if_pos top
  rcases typed.pop popped with ⟨values, kept, stack, kinds, -⟩
  rcases List.map_eq_singleton_iff.mp kinds with ⟨value, rfl, rfl⟩
  cases rest with
  | nil => cases below
  | cons invoker rest =>
      rcases below.1.receive rfl with ⟨taken, pushed, awaits⟩
      exact ⟨_, .returnValue stands stack pushed, awaits, below.2⟩

/-- Activations that agree with their typings have a step to activations that do,
unless a call does not fit on the stack of the thread. -/
theorem progress (wellTyped : program.WellTyped)
    (consistent : Consistent program none (act :: rest)) :
    Progresses program (act :: rest) ∨
      ∃ callee next, act.AtCall program callee next ∧ ¬ callee.Fits (rest.length + 1) := by
  rcases consistent with ⟨awaits, below⟩
  rcases awaits.exists_type with ⟨types, type, routineTyped, typed, here⟩
  rcases routineTyped.flows here with ⟨inst, next, after, targets, stands, flowEq, flows⟩
  rw [← awaits.code] at stands
  unfold flow at flowEq
  split at flowEq
  · rcases Option.map_eq_some_iff.mp flowEq with ⟨_, allowed, ⟨⟩⟩
    exact .inl (progresses_frame awaits below routineTyped typed stands allowed flows)
  · rcases Option.bind_eq_some_iff.mp flowEq with ⟨callee, known, calleeFlow⟩
    rcases Option.bind_eq_some_iff.mp calleeFlow with ⟨popped, taken, poppedFlow⟩
    split at poppedFlow
    · next spare =>
        rcases Option.bind_eq_some_iff.mp poppedFlow with ⟨_, received, ⟨⟩⟩
        by_cases fits : callee.Fits (rest.length + 1)
        · exact .inl (progresses_call wellTyped awaits below routineTyped typed ⟨_, stands, known⟩
            taken spare received (flows _ (List.mem_singleton_self _)) fits)
        · exact .inr ⟨callee, next, ⟨_, stands, known⟩, fits⟩
    · cases poppedFlow
  · next result =>
      split at flowEq
      · next allowed =>
          obtain ⟨same, top⟩ := allowed
          rw [← same] at below
          cases result with
          | none => exact .inl ⟨rest, .return_ stands, below⟩
          | some kind => exact .inl (progresses_returnValue below typed top stands)
      · cases flowEq
  · cases flowEq

end Soundness

/-! ## Checking a typing -/

instance (known expected : FrameType) : Decidable (known.Implies expected) :=
  decidable_of_iff
    (known.stack = expected.stack ∧ List.Forall₂ CellType.Implies known.locals expected.locals)
    ⟨fun both => ⟨both.1, both.2⟩, fun implies => ⟨implies.stack, implies.locals⟩⟩

/-- `Flows`, computed. -/
def flowsTo (types : Nat → Option FrameType) (known : FrameType) (target : Int) : Bool :=
  decide (0 ≤ target) && (types target.toNat).any fun expected => decide (known.Implies expected)

/-- The types behind the instruction at an address fit. -/
def checksAt (program : Program) (routine : Routine) (types : Nat → Option FrameType) (pc : Nat)
    (type : FrameType) : Bool :=
  (instAt routine.code pc).any fun (inst, next) =>
    (flow program routine pc next type inst).any fun (after, targets) =>
      targets.all (flowsTo types after)

theorem flows_of_flowsTo {types : Nat → Option FrameType} {known : FrameType} {target : Int}
    (computed : flowsTo types known target = true) : Flows types known target := by
  rcases Bool.and_eq_true_iff.mp computed with ⟨nonneg, found⟩
  rcases (Option.any_eq_true _ _).mp found with ⟨expected, here, implies⟩
  refine ⟨target.toNat, expected, ?_, here, of_decide_eq_true implies⟩
  exact (Int.toNat_of_nonneg (of_decide_eq_true nonneg)).symm

/-- A table of types that passes the check is a typing. -/
theorem Routine.wellTyped_of_checks {program : Program} {routine : Routine}
    (table : List (Nat × FrameType))
    (entry : flowsTo (fun pc => table.lookup pc) routine.entryType 0 = true)
    (checks : table.all (fun row => checksAt program routine (fun pc => table.lookup pc)
      row.1 row.2) = true) :
    routine.WellTyped program fun pc => table.lookup pc where
  entry := flows_of_flowsTo entry
  flows := by
    intro pc type found
    rcases List.lookup_eq_some_iff.mp found with ⟨before, behind, split, -⟩
    have checked := List.all_eq_true.mp checks (pc, type) (by simp [split])
    rcases (Option.any_eq_true _ _).mp checked with ⟨⟨inst, next⟩, standing, instChecked⟩
    rcases (Option.any_eq_true _ _).mp instChecked with ⟨⟨after, targets⟩, flowEq, all⟩
    refine ⟨inst, next, after, targets, standsAt_of_instAt standing, flowEq, ?_⟩
    intro target mem
    exact flows_of_flowsTo (List.all_eq_true.mp all target mem)

end JvmDemo.Interpreter.Specification
