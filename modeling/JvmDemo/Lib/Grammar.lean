import JvmDemo.Lib.Reader
import Mathlib.Order.FixedPoints
import Mathlib.Order.CompletePartialOrder

/-!
# Grammars of byte strings

A grammar says which byte strings are complete and what they stand for, and
which ones end in an error of the format.  It knows neither positions nor data
behind the bytes.  A recursive grammar is a least fixed point.

`Recognises` relates a reader to a grammar at one position of one byte string:
the reader returns a value if and only if a complete string for this value
stands there, and it refuses if and only if one that ends in an error does.  In
all other cases the reader fails in some other, permitted way.
-/

namespace JvmDemo.Lib

/-- The byte strings that are complete, with their values, and with `none` those
that end in an error. -/
def Grammar (α : Type) : Type := List Byte → Option α → Prop

namespace Grammar

variable {α β : Type}

instance : CompleteLattice (Grammar α) :=
  inferInstanceAs (CompleteLattice (List Byte → Option α → Prop))

/-- A sequence, where what follows depends on the value before. -/
def sequence (first : Grammar α) (second : α → Grammar β) : Grammar β := fun bytes outcome =>
  (first bytes none ∧ outcome = none) ∨
  ∃ value before after, first before (some value) ∧ second value after outcome ∧
    bytes = before ++ after

instance : Monad Grammar where
  pure value := fun bytes outcome => bytes = [] ∧ outcome = some value
  bind := sequence

/-- An error. -/
def reject : Grammar α := fun bytes outcome => bytes = [] ∧ outcome = none

/-- A given number of bytes, and their value. -/
def block (count : Nat) (value : List Byte → α) : Grammar α := fun bytes outcome =>
  bytes.length = count ∧ outcome = some (value bytes)

/-- A number of repetitions. -/
def times (grammar : Grammar α) : Nat → Grammar (List α)
  | 0 => pure []
  | count + 1 => do
      let head ← grammar
      let rest ← times grammar count
      pure (head :: rest)

/-! ## Blocks -/

/-- A block is a byte and a shorter block. -/
theorem block_succ (count : Nat) (value : List Byte → α) :
    block (count + 1) value = (do
      let byte ← block 1 fun bytes => bytes.headD 0
      block count fun rest => value (byte :: rest)) := by
  funext bytes outcome
  apply propext
  constructor
  · rintro ⟨length, rfl⟩
    rcases List.exists_cons_of_length_eq_add_one length with ⟨byte, rest, rfl⟩
    exact .inr ⟨byte, [byte], rest, ⟨rfl, rfl⟩, ⟨Nat.succ.inj length, rfl⟩, rfl⟩
  · rintro (⟨⟨-, ⟨⟩⟩, -⟩ | ⟨byte, before, rest, ⟨single, ⟨⟩⟩, ⟨length, rfl⟩, rfl⟩)
    rcases List.length_eq_one_iff.mp single with ⟨byte, rfl⟩
    exact ⟨by simp [length], rfl⟩

theorem block_zero (value : List Byte → α) : block 0 value = pure (value []) := by
  funext bytes outcome
  apply propext
  constructor
  · rintro ⟨length, rfl⟩
    rw [List.length_eq_zero_iff.mp length]
    exact ⟨rfl, rfl⟩
  · rintro ⟨rfl, rfl⟩
    exact ⟨rfl, rfl⟩

theorem block_congr {count : Nat} {value value' : List Byte → α}
    (same : ∀ bytes, bytes.length = count → value bytes = value' bytes) :
    block count value = block count value' := by
  funext bytes outcome
  apply propext
  refine and_congr_right fun length => ?_
  rw [same bytes length]

theorem block_map (count : Nat) (value : List Byte → α) (f : α → β) :
    (do
      let result ← block count value
      pure (f result)) = block count fun bytes => f (value bytes) := by
  funext bytes outcome
  apply propext
  constructor
  · rintro (⟨⟨-, ⟨⟩⟩, -⟩ | ⟨result, before, rest, ⟨length, ⟨⟩⟩, ⟨rfl, rfl⟩, rfl⟩)
    rw [List.append_nil]
    exact ⟨length, rfl⟩
  · rintro ⟨length, rfl⟩
    exact .inr ⟨_, bytes, [], ⟨length, rfl⟩, ⟨rfl, rfl⟩, (List.append_nil bytes).symm⟩

/-! ## Monotonicity -/

theorem bind_mono {first first' : Grammar α} {second second' : α → Grammar β}
    (le : first ≤ first') (leSecond : ∀ value, second value ≤ second' value) :
    first >>= second ≤ first' >>= second' := by
  intro bytes outcome accepted
  rcases accepted with ⟨failed, none⟩ | ⟨value, before, after, accepted, rest, split⟩
  · exact .inl ⟨le _ _ failed, none⟩
  · exact .inr ⟨value, before, after, le _ _ accepted, leSecond value _ _ rest, split⟩

theorem times_mono {grammar grammar' : Grammar α} (le : grammar ≤ grammar') (count : Nat) :
    times grammar count ≤ times grammar' count := by
  induction count with
  | zero => exact le_refl _
  | succ count ih => exact bind_mono le fun _ => bind_mono ih fun _ => le_refl _

end Grammar

namespace Reader

variable {ε α β : Type}

/-- What the reader does at a position, in terms of what stands there. -/
structure Recognises (refusal permitted : ε → Prop) (reader : Reader ε α) (grammar : Grammar α)
    (data : List Byte) (pos : Nat) : Prop where
  returns : ∀ {touched value after}, reader data ⟨pos, touched⟩ = .ok (value, after) →
    ∃ bytes, grammar bytes (some value) ∧ bytes <+: data.drop pos ∧
      after.pos = pos + bytes.length ∧ after.touched ≤ max touched after.pos
  fails : ∀ {touched failure}, reader data ⟨pos, touched⟩ = .error failure →
    permitted failure ∧ (refusal failure → ∃ bytes, grammar bytes none ∧ bytes <+: data.drop pos)
  complete : ∀ touched {bytes value}, grammar bytes (some value) → bytes <+: data.drop pos →
    ∃ after, reader data ⟨pos, touched⟩ = .ok (value, ⟨pos + bytes.length, after⟩)
  refuses : ∀ touched {bytes}, grammar bytes none → bytes <+: data.drop pos →
    ∃ failure, reader data ⟨pos, touched⟩ = .error failure ∧ refusal failure

variable {refusal permitted : ε → Prop} {data : List Byte} {pos : Nat}

theorem append_isPrefix_drop {before after : List Byte} :
    before ++ after <+: data.drop pos ↔
      before <+: data.drop pos ∧ after <+: data.drop (pos + before.length) := by
  rw [← List.drop_drop]
  constructor
  · rintro ⟨rest, same⟩
    rw [← same, List.append_assoc]
    refine ⟨List.prefix_append _ _, ?_⟩
    rw [List.drop_left]
    exact List.prefix_append _ _
  · rintro ⟨⟨rest, same⟩, stands⟩
    rw [← same, List.drop_left] at stands
    rw [← same]
    exact (List.prefix_append_right_inj before).mpr stands

theorem recognises_pure (value : α) :
    Recognises refusal permitted (pure value) (pure value) data pos where
  returns := by
    rintro touched value after ⟨⟩
    exact ⟨[], ⟨rfl, rfl⟩, List.nil_prefix, rfl, Nat.le_max_left _ _⟩
  fails := by rintro touched failure ⟨⟩
  complete := by
    rintro touched bytes value ⟨rfl, ⟨⟩⟩ -
    exact ⟨touched, rfl⟩
  refuses := by rintro touched bytes ⟨-, ⟨⟩⟩

/-- A failure that is a refusal recognises an error. -/
theorem recognises_reject {failure : ε} (refused : refusal failure) (allowed : permitted failure) :
    Recognises refusal permitted (fail failure : Reader ε α) .reject data pos where
  returns := by rintro touched value after ⟨⟩
  fails := by
    rintro touched failure ⟨⟩
    exact ⟨allowed, fun _ => ⟨[], ⟨rfl, rfl⟩, List.nil_prefix⟩⟩
  complete := by rintro touched bytes value ⟨-, ⟨⟩⟩
  refuses := by
    rintro touched bytes - -
    exact ⟨failure, rfl, refused⟩

/-- Any other failure recognises nothing. -/
theorem recognises_bot {failure : ε} (notRefused : ¬ refusal failure)
    (allowed : permitted failure) :
    Recognises refusal permitted (fail failure : Reader ε α) ⊥ data pos where
  returns := by rintro touched value after ⟨⟩
  fails := by
    rintro touched failure ⟨⟩
    exact ⟨allowed, fun refused => absurd refused notRefused⟩
  complete := by rintro touched bytes value ⟨⟩
  refuses := by rintro touched bytes ⟨⟩

/-- Where a sequence fails. -/
theorem bind_eq_error {first : Reader ε α} {second : α → Reader ε β} {cursor : Cursor}
    {failure : ε} (failed : (first >>= second) data cursor = .error failure) :
    first data cursor = .error failure ∨
    ∃ value middle, first data cursor = .ok (value, middle) ∧
      second value data middle = .error failure := by
  have sequenced : (first >>= second) data cursor =
      (first data cursor >>= fun result => second result.1 data result.2) := rfl
  rw [sequenced] at failed
  cases firstEq : first data cursor with
  | error other =>
      rw [firstEq] at failed
      cases failed
      exact .inl rfl
  | ok result =>
      rw [firstEq] at failed
      exact .inr ⟨result.1, result.2, rfl, failed⟩

theorem bind_of_ok {first : Reader ε α} {second : α → Reader ε β} {cursor middle : Cursor}
    {value : α} (firstEq : first data cursor = .ok (value, middle)) :
    (first >>= second) data cursor = second value data middle := by
  have sequenced : (first >>= second) data cursor =
      (first data cursor >>= fun result => second result.1 data result.2) := rfl
  rw [sequenced, firstEq]
  rfl

/-- A sequence is recognised by a sequence.  What follows only has to be
recognised behind the bytes that stand at the position. -/
theorem Recognises.bind {first : Reader ε α} {second : α → Reader ε β} {grammar : Grammar α}
    {follow : α → Grammar β} (recognises : Recognises refusal permitted first grammar data pos)
    (recognisesSecond : ∀ value bytes, grammar bytes (some value) → bytes <+: data.drop pos →
      Recognises refusal permitted (second value) (follow value) data (pos + bytes.length)) :
    Recognises refusal permitted (first >>= second) (grammar >>= follow) data pos where
  returns := by
    intro touched result after done
    rcases bind_eq_ok done with ⟨value, ⟨middle, touched'⟩, firstEq, secondEq⟩
    rcases recognises.returns firstEq with ⟨bytes, accepted, stands, moved, looked⟩
    obtain rfl : middle = pos + bytes.length := moved
    have behind := recognisesSecond value bytes accepted stands
    rcases behind.returns secondEq with ⟨more, acceptedMore, standsMore, movedMore, lookedMore⟩
    refine ⟨bytes ++ more, .inr ⟨value, bytes, more, accepted, acceptedMore, rfl⟩,
      append_isPrefix_drop.mpr ⟨stands, standsMore⟩, ?_, ?_⟩
    · rw [movedMore, List.length_append, Nat.add_assoc]
    · dsimp only at looked
      omega
  fails := by
    intro touched failure failed
    rcases bind_eq_error failed with firstEq | ⟨value, ⟨middle, touched'⟩, firstEq, secondEq⟩
    · rcases recognises.fails firstEq with ⟨allowed, refused⟩
      refine ⟨allowed, fun refusing => ?_⟩
      rcases refused refusing with ⟨bytes, rejected, stands⟩
      exact ⟨bytes, .inl ⟨rejected, rfl⟩, stands⟩
    · rcases recognises.returns firstEq with ⟨bytes, accepted, stands, moved, -⟩
      cases moved
      have behind := recognisesSecond value bytes accepted stands
      rcases behind.fails secondEq with ⟨allowed, refused⟩
      refine ⟨allowed, fun refusing => ?_⟩
      rcases refused refusing with ⟨more, rejected, standsMore⟩
      exact ⟨bytes ++ more, .inr ⟨value, bytes, more, accepted, rejected, rfl⟩,
        append_isPrefix_drop.mpr ⟨stands, standsMore⟩⟩
  complete := by
    rintro touched bytes result
      (⟨-, ⟨⟩⟩ | ⟨value, before, after, accepted, acceptedMore, rfl⟩) stands
    rcases append_isPrefix_drop.mp stands with ⟨standsBefore, standsAfter⟩
    rcases recognises.complete touched accepted standsBefore with ⟨middle, firstEq⟩
    have behind := recognisesSecond value before accepted standsBefore
    rcases behind.complete middle acceptedMore standsAfter with ⟨last, secondEq⟩
    refine ⟨last, ?_⟩
    rw [bind_of_ok firstEq, secondEq, List.length_append, Nat.add_assoc]
  refuses := by
    rintro touched bytes (⟨rejected, -⟩ | ⟨value, before, after, accepted, rejected, rfl⟩) stands
    · rcases recognises.refuses touched rejected stands with ⟨failure, firstEq, refused⟩
      have sequenced : (first >>= second) data ⟨pos, touched⟩ =
          (first data ⟨pos, touched⟩ >>= fun result => second result.1 data result.2) := rfl
      refine ⟨failure, ?_, refused⟩
      rw [sequenced, firstEq]
      rfl
    · rcases append_isPrefix_drop.mp stands with ⟨standsBefore, standsAfter⟩
      rcases recognises.complete touched accepted standsBefore with ⟨middle, firstEq⟩
      have behind := recognisesSecond value before accepted standsBefore
      rcases behind.refuses middle rejected standsAfter with ⟨failure, secondEq, refused⟩
      refine ⟨failure, ?_, refused⟩
      rw [bind_of_ok firstEq, secondEq]

theorem Recognises.map {reader : Reader ε α} {grammar : Grammar α} (f : α → β)
    (recognises : Recognises refusal permitted reader grammar data pos) :
    Recognises refusal permitted (reader >>= fun value => pure (f value))
      (grammar >>= fun value => pure (f value)) data pos :=
  recognises.bind fun value _ _ _ => recognises_pure (f value)

/-- Repetition, if the reader is recognised from the position on. -/
theorem recognises_times {reader : Reader ε α} {grammar : Grammar α}
    (recognises : ∀ later, pos ≤ later → Recognises refusal permitted reader grammar data later)
    (count : Nat) :
    Recognises refusal permitted (times reader count) (grammar.times count) data pos := by
  induction count generalizing pos with
  | zero => exact recognises_pure []
  | succ count ih =>
      refine (recognises pos (Nat.le_refl pos)).bind fun head bytes _ _ => ?_
      have behind : ∀ later, pos + bytes.length ≤ later →
          Recognises refusal permitted reader grammar data later :=
        fun later le => recognises later (by omega)
      exact (ih behind).map (head :: ·)

/-- A byte that is missing is a permitted failure. -/
theorem recognises_next {eof : ε} (notRefused : ¬ refusal eof) (allowed : permitted eof) :
    Recognises refusal permitted (next eof) (.block 1 fun bytes => bytes.headD 0) data pos where
  returns := by
    intro touched value after done
    unfold next at done
    split at done
    · next byte found =>
        cases done
        refine ⟨[value], ⟨rfl, rfl⟩, ?_, rfl, Nat.le_refl _⟩
        rw [List.drop_eq_getElem_cons (List.getElem?_eq_some_iff.mp found).1]
        simp [(List.getElem?_eq_some_iff.mp found).2]
    · cases done
  fails := by
    intro touched failure failed
    unfold next at failed
    split at failed
    · cases failed
    · cases failed
      exact ⟨allowed, fun refused => absurd refused notRefused⟩
  complete := by
    rintro touched bytes value ⟨single, ⟨⟩⟩ stands
    rcases List.length_eq_one_iff.mp single with ⟨byte, rfl⟩
    rcases reads_next eof pos byte data touched stands with ⟨touched', done, -⟩
    exact ⟨touched', done⟩
  refuses := by rintro touched bytes ⟨-, ⟨⟩⟩

/-- A block of bytes as it stands. -/
theorem recognises_times_next {eof : ε} (notRefused : ¬ refusal eof) (allowed : permitted eof)
    (count : Nat) :
    Recognises refusal permitted (times (next eof) count) (.block count id) data pos := by
  induction count generalizing pos with
  | zero =>
      rw [Grammar.block_zero]
      exact recognises_pure []
  | succ count ih =>
      rw [Grammar.block_succ]
      refine (recognises_next notRefused allowed).bind fun byte bytes _ _ => ?_
      have behind := (@ih (pos + bytes.length)).map (byte :: ·)
      rwa [Grammar.block_map] at behind

end Reader

end JvmDemo.Lib
