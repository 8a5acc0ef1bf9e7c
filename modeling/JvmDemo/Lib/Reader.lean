import JvmDemo.Lib.Words
import Mathlib.Data.List.Basic

/-!
# Positional readers of byte strings

A reader walks over a fixed byte string.  Its cursor has the position of the
next byte and one past the largest index that was read so far, so that a
statement about a reader can say which bytes it has looked at.

`Reads reader pos bytes value` says that wherever `bytes` stand at `pos`, the
reader takes exactly them, returns `value`, and looks at nothing behind them.
Readers of composite data are verified by composing such statements along
`pure`, `bind` and repetition; the bytes of a sequence are concatenated.
-/

namespace JvmDemo.Lib

/-- Where a reader stands, and how far it has looked. -/
structure Cursor where
  pos : Nat
  touched : Nat
  deriving DecidableEq, Repr

/-- A reader of a fixed byte string that may fail. -/
abbrev Reader (ε : Type) := ReaderT (List Byte) (StateT Cursor (Except ε))

namespace Reader

variable {ε α β : Type}

/-- Run a reader on a byte string from a position. -/
def runAt (reader : Reader ε α) (data : List Byte) (pos : Nat) : Except ε (α × Cursor) :=
  reader data ⟨pos, 0⟩

/-- The next byte, with the failure raised when there is none. -/
def next (eof : ε) : Reader ε Byte := fun data cursor =>
  match data[cursor.pos]? with
  | some byte => .ok (byte, ⟨cursor.pos + 1, max cursor.touched (cursor.pos + 1)⟩)
  | none => .error eof

/-- The current position. -/
def position : Reader ε Nat := fun _ cursor => .ok (cursor.pos, cursor)

/-- Fail. -/
def fail (failure : ε) : Reader ε α := fun _ _ => .error failure

/-- Repeat a reader `count` times and collect the results. -/
def times (reader : Reader ε α) : Nat → Reader ε (List α)
  | 0 => pure []
  | count + 1 => do
      let head ← reader
      let rest ← times reader count
      pure (head :: rest)

/-- Wherever `bytes` stand at `pos`, the reader takes exactly them and returns
`value`. -/
def Reads (reader : Reader ε α) (pos : Nat) (bytes : List Byte) (value : α) : Prop :=
  ∀ data touched, bytes <+: data.drop pos →
    ∃ touched', reader data ⟨pos, touched⟩ = .ok (value, ⟨pos + bytes.length, touched'⟩) ∧
      touched' ≤ max touched (pos + bytes.length)

/-- Such a reader returns somewhere. -/
theorem Reads.returns {reader : Reader ε α} {pos : Nat} {bytes : List Byte} {value : α}
    (reads : Reads reader pos bytes value) :
    ∃ data cursor after, reader data cursor = .ok (value, after) := by
  rcases reads (List.replicate pos 0 ++ bytes) 0 (by simp) with ⟨_, returned, -⟩
  exact ⟨_, _, _, returned⟩

/-- A reader takes one string from the beginning of another, with one result. -/
theorem Reads.unique {reader : Reader ε α} {pos : Nat} {bytes longer : List Byte}
    {value other : α} (reads : Reads reader pos bytes value)
    (readsLonger : Reads reader pos longer other) (starts : bytes <+: longer) :
    value = other ∧ bytes = longer := by
  have dropped : (List.replicate pos 0 ++ longer).drop pos = longer := by
    rw [List.drop_append_of_le_length (by simp), List.drop_replicate, Nat.sub_self]
    rfl
  obtain ⟨touched, first, -⟩ := reads (List.replicate pos 0 ++ longer) 0 (by rwa [dropped])
  obtain ⟨touchedLonger, second, -⟩ :=
    readsLonger (List.replicate pos 0 ++ longer) 0 (by simp)
  rw [first, Except.ok.injEq, Prod.mk.injEq, Cursor.mk.injEq] at second
  exact ⟨second.1, starts.eq_of_length (Nat.add_left_cancel second.2.1)⟩

/-! ## Composition -/

theorem reads_pure (value : α) (pos : Nat) : Reads (pure value : Reader ε α) pos [] value := by
  intro data touched _
  exact ⟨touched, rfl, by omega⟩

theorem reads_position (pos : Nat) : Reads (position : Reader ε Nat) pos [] pos := by
  intro data touched _
  exact ⟨touched, rfl, by omega⟩

theorem reads_next (eof : ε) (pos : Nat) (byte : Byte) : Reads (next eof) pos [byte] byte := by
  intro data touched prefixed
  have found : data[pos]? = some byte := by
    obtain ⟨rest, split⟩ := prefixed
    have head : (data.drop pos)[0]? = some byte := by rw [← split]; rfl
    simpa using head
  exact ⟨max touched (pos + 1), by simp [next, found], by simp⟩

theorem Reads.bind {first : Reader ε α} {second : α → Reader ε β} {pos : Nat}
    {bytes moreBytes : List Byte} {value : α} {result : β}
    (readsFirst : Reads first pos bytes value)
    (readsSecond : Reads (second value) (pos + bytes.length) moreBytes result) :
    Reads (first >>= second) pos (bytes ++ moreBytes) result := by
  intro data touched prefixed
  obtain ⟨rest, split⟩ := prefixed
  obtain ⟨middle, firstEq, firstBound⟩ :=
    readsFirst data touched ⟨moreBytes ++ rest, by rw [← split, List.append_assoc]⟩
  obtain ⟨final, secondEq, secondBound⟩ := readsSecond data middle ⟨rest, by
    rw [← List.drop_drop, ← split, List.append_assoc, List.drop_left]⟩
  refine ⟨final, ?_, ?_⟩
  · have sequenced : (first >>= second) data ⟨pos, touched⟩ =
        (first data ⟨pos, touched⟩ >>= fun result => second result.1 data result.2) := rfl
    rw [sequenced, firstEq, List.length_append, ← Nat.add_assoc]
    exact secondEq
  · simp only [List.length_append]
    omega

/-- One byte and what follows it. -/
theorem reads_next_bind (eof : ε) {rest : Byte → Reader ε β} {pos : Nat} {byte : Byte}
    {bytes : List Byte} {result : β} (reads : Reads (rest byte) (pos + 1) bytes result) :
    Reads (next eof >>= rest) pos (byte :: bytes) result :=
  (reads_next eof pos byte).bind reads

/-- A reader whose result is post-processed. -/
theorem Reads.map {reader : Reader ε α} {pos : Nat} {bytes : List Byte} {value : α}
    (reads : Reads reader pos bytes value) (f : α → β) :
    Reads (reader >>= fun result => pure (f result)) pos bytes (f value) := by
  have chained : Reads (reader >>= fun result => pure (f result)) pos (bytes ++ []) (f value) :=
    reads.bind (reads_pure (f value) _)
  rwa [List.append_nil] at chained

/-- Repetition reads the concatenation of what the reader reads each time. -/
theorem reads_times_map {reader : Reader ε β} {encode : α → List Byte} {result : α → β}
    (values : List α)
    (correct : ∀ pos, ∀ value ∈ values, Reads reader pos (encode value) (result value))
    (pos : Nat) :
    Reads (times reader values.length) pos (values.flatMap encode) (values.map result) := by
  induction values generalizing pos with
  | nil => exact reads_pure [] pos
  | cons value values ih =>
      have rest := ih (fun pos value inside => correct pos value (List.mem_cons_of_mem _ inside))
      exact (correct pos value List.mem_cons_self).bind ((rest _).map (result value :: ·))

theorem reads_times {reader : Reader ε α} {encode : α → List Byte} (values : List α)
    (correct : ∀ pos, ∀ value ∈ values, Reads reader pos (encode value) value) (pos : Nat) :
    Reads (times reader values.length) pos (values.flatMap encode) values := by
  have mapped : Reads _ pos _ (values.map id) := reads_times_map values correct pos
  rwa [List.map_id] at mapped

theorem reads_times_next (eof : ε) (bytes : List Byte) (pos : Nat) :
    Reads (times (next eof) bytes.length) pos bytes bytes := by
  have single : ∀ pos, ∀ byte ∈ bytes, Reads (next eof) pos ((fun byte => [byte]) byte) byte :=
    fun pos byte _ => reads_next eof pos byte
  simpa using reads_times bytes single pos

/-! ## Progress -/

/-- The reader never moves back. -/
def Advances (reader : Reader ε α) : Prop :=
  ∀ ⦃data cursor value after⦄, reader data cursor = .ok (value, after) → cursor.pos ≤ after.pos

theorem advances_pure (value : α) : Advances (pure value : Reader ε α) := by
  rintro data cursor value after ⟨⟩
  exact Nat.le_refl _

theorem advances_position : Advances (position : Reader ε Nat) := by
  rintro data cursor value after ⟨⟩
  exact Nat.le_refl _

theorem next_pos {eof : ε} {data : List Byte} {cursor after : Cursor} {byte : Byte}
    (done : next eof data cursor = .ok (byte, after)) : after.pos = cursor.pos + 1 := by
  unfold next at done
  split at done
  · cases done
    rfl
  · cases done

theorem advances_next (eof : ε) : Advances (next eof) := by
  intro data cursor value after done
  rw [next_pos done]
  exact Nat.le_succ _

/-- The two halves of a sequence that returns. -/
theorem bind_eq_ok {first : Reader ε α} {second : α → Reader ε β} {data : List Byte}
    {cursor after : Cursor} {result : β}
    (done : (first >>= second) data cursor = .ok (result, after)) :
    ∃ value middle, first data cursor = .ok (value, middle) ∧
      second value data middle = .ok (result, after) := by
  have sequenced : (first >>= second) data cursor =
      (first data cursor >>= fun result => second result.1 data result.2) := rfl
  rw [sequenced] at done
  cases firstEq : first data cursor with
  | error failure =>
      rw [firstEq] at done
      cases done
  | ok result =>
      rw [firstEq] at done
      exact ⟨result.1, result.2, rfl, done⟩

theorem Advances.bind {first : Reader ε α} {second : α → Reader ε β} (advances : Advances first)
    (advancesSecond : ∀ value, Advances (second value)) : Advances (first >>= second) := by
  intro data cursor result after done
  rcases bind_eq_ok done with ⟨value, middle, firstEq, secondEq⟩
  exact Nat.le_trans (advances firstEq) (advancesSecond value secondEq)

theorem Advances.map {reader : Reader ε α} (advances : Advances reader) (f : α → β) :
    Advances (reader >>= fun value => pure (f value)) :=
  advances.bind fun value => advances_pure (f value)

theorem Advances.times {reader : Reader ε α} (advances : Advances reader) (count : Nat) :
    Advances (times reader count) := by
  induction count with
  | zero => exact advances_pure []
  | succ count ih => exact advances.bind fun head => ih.map (head :: ·)

/-! ## Exactness -/

/-- Wherever the reader returns from `pos`, the bytes that it took stand in the
relation to the value. -/
def Yields (reader : Reader ε α) (pos : Nat) (spells : α → List Byte → Prop) : Prop :=
  ∀ ⦃data touched value after⦄, reader data ⟨pos, touched⟩ = .ok (value, after) →
    ∃ bytes, bytes <+: data.drop pos ∧ after.pos = pos + bytes.length ∧ spells value bytes

theorem yields_pure {spells : α → List Byte → Prop} {value : α} (pos : Nat)
    (holds : spells value []) : Yields (pure value : Reader ε α) pos spells := by
  rintro data touched value after ⟨⟩
  exact ⟨[], List.nil_prefix, rfl, holds⟩

theorem yields_position (pos : Nat) :
    Yields (position : Reader ε Nat) pos fun value bytes => value = pos ∧ bytes = [] := by
  rintro data touched value after ⟨⟩
  exact ⟨[], List.nil_prefix, rfl, rfl, rfl⟩

theorem yields_next (eof : ε) (pos : Nat) :
    Yields (next eof) pos fun byte bytes => bytes = [byte] := by
  intro data touched byte after done
  unfold next at done
  split at done
  · next found =>
      cases done
      refine ⟨[byte], ?_, rfl, rfl⟩
      rw [List.drop_eq_getElem_cons (List.getElem?_eq_some_iff.mp found).1,
        (List.getElem?_eq_some_iff.mp found).2]
      exact List.prefix_append [byte] _
  · cases done

theorem Yields.bind {first : Reader ε α} {second : α → Reader ε β} {pos : Nat}
    {spells : α → List Byte → Prop} {spellsBoth : β → List Byte → Prop}
    (yields : Yields first pos spells)
    (yieldsSecond : ∀ value bytes, spells value bytes → Yields (second value) (pos + bytes.length)
      fun result more => spellsBoth result (bytes ++ more)) :
    Yields (first >>= second) pos spellsBoth := by
  intro data touched result after done
  rcases bind_eq_ok done with ⟨value, middle, firstEq, secondEq⟩
  rcases yields firstEq with ⟨bytes, standing, moved, spelled⟩
  have here : middle = ⟨pos + bytes.length, middle.touched⟩ := by rw [← moved]
  rw [here] at secondEq
  rcases yieldsSecond value bytes spelled secondEq with ⟨more, further, ends, both⟩
  refine ⟨bytes ++ more, ?_, ?_, both⟩
  · rcases standing with ⟨left, split⟩
    rw [← List.drop_drop, ← split, List.drop_left] at further
    rw [← split]
    exact (List.prefix_append_right_inj bytes).mpr further
  · rw [ends, List.length_append, Nat.add_assoc]

theorem Yields.imp {reader : Reader ε α} {pos : Nat} {spells weaker : α → List Byte → Prop}
    (yields : Yields reader pos spells)
    (implies : ∀ value bytes, spells value bytes → weaker value bytes) :
    Yields reader pos weaker := by
  intro data touched value after done
  rcases yields done with ⟨bytes, standing, moved, spelled⟩
  exact ⟨bytes, standing, moved, implies value bytes spelled⟩

/-- A reader whose result is post-processed. -/
theorem Yields.map {reader : Reader ε α} {pos : Nat} {spells : α → List Byte → Prop}
    {spellsResult : β → List Byte → Prop} {f : α → β} (yields : Yields reader pos spells)
    (implies : ∀ value bytes, spells value bytes → spellsResult (f value) bytes) :
    Yields (reader >>= fun value => pure (f value)) pos spellsResult :=
  yields.bind fun value bytes spelled => yields_pure _ (by simpa using implies value bytes spelled)

/-- Repetition takes the concatenation of what the reader takes each time. -/
theorem yields_times {reader : Reader ε α} {encode : α → List Byte}
    (exactly : ∀ pos, Yields reader pos fun value bytes => bytes = encode value) (count pos : Nat) :
    Yields (times reader count) pos fun values bytes =>
      values.length = count ∧ bytes = values.flatMap encode := by
  induction count generalizing pos with
  | zero => exact yields_pure pos ⟨rfl, rfl⟩
  | succ count ih =>
      apply (exactly pos).bind
      rintro head bytes rfl
      apply (ih (pos + (encode head).length)).map
      rintro values bytes ⟨length, rfl⟩
      exact ⟨by rw [List.length_cons, length], rfl⟩

/-! ## Readers of a fixed size -/

/-- The reader takes a fixed number of bytes wherever it returns. -/
def Takes (reader : Reader ε α) (size : Nat) : Prop :=
  ∀ ⦃data cursor value after⦄, reader data cursor = .ok (value, after) →
    after.pos = cursor.pos + size

theorem takes_pure (value : α) : Takes (pure value : Reader ε α) 0 := by
  rintro data cursor value after ⟨⟩
  rfl

theorem takes_next (eof : ε) : Takes (next eof) 1 := fun _ _ _ _ done => next_pos done

theorem Takes.bind {first : Reader ε α} {second : α → Reader ε β} {size moreSize : Nat}
    (takes : Takes first size) (takesSecond : ∀ value, Takes (second value) moreSize) :
    Takes (first >>= second) (size + moreSize) := by
  intro data cursor result after done
  rcases bind_eq_ok done with ⟨value, middle, firstEq, secondEq⟩
  rw [takesSecond value secondEq, takes firstEq, Nat.add_assoc]

theorem Takes.map {reader : Reader ε α} {size : Nat} (takes : Takes reader size) (f : α → β) :
    Takes (reader >>= fun value => pure (f value)) size :=
  takes.bind fun value => takes_pure (f value)

theorem Takes.times {reader : Reader ε α} {size : Nat} (takes : Takes reader size) (count : Nat) :
    Takes (times reader count) (size * count) := by
  induction count with
  | zero => exact takes_pure []
  | succ count ih =>
      rw [Nat.mul_succ, Nat.add_comm (size * count)]
      exact takes.bind fun head => ih.map (head :: ·)

/-- Correct readers in a byte string that has the bytes in the middle. -/
theorem Reads.runAt_append {reader : Reader ε α} {bytes : List Byte} {value : α}
    (before after : List Byte) (reads : Reads reader before.length bytes value) :
    ∃ touched, reader.runAt (before ++ bytes ++ after) before.length =
        .ok (value, ⟨before.length + bytes.length, touched⟩) ∧
      touched ≤ before.length + bytes.length := by
  obtain ⟨touched, result, bound⟩ := reads (before ++ bytes ++ after) 0
    ⟨after, by rw [List.append_assoc, List.drop_left]⟩
  exact ⟨touched, result, by simpa using bound⟩

end Reader

/-! ## Big-endian encodings -/

/-- Two bytes, the more significant first. -/
def be16 (value : BitVec 16) : List Byte :=
  [value.extractLsb' 8 8, value.extractLsb' 0 8]

/-- Four bytes, the most significant first. -/
def be32 (value : BitVec 32) : List Byte :=
  [value.extractLsb' 24 8, value.extractLsb' 16 8, value.extractLsb' 8 8,
    value.extractLsb' 0 8]

@[simp]
theorem length_be16 (value : BitVec 16) : (be16 value).length = 2 := rfl

@[simp]
theorem length_be32 (value : BitVec 32) : (be32 value).length = 4 := rfl

/-- The bytes of a value, shifted to their places, make the value. -/
theorem be16_join (value : BitVec 16) :
    (value.extractLsb' 8 8).setWidth 16 <<< 8 ||| (value.extractLsb' 0 8).setWidth 16 = value := by
  apply BitVec.eq_of_getLsbD_eq
  intro i bound
  simp only [BitVec.getLsbD_or, BitVec.getLsbD_shiftLeft, BitVec.getLsbD_setWidth,
    BitVec.getLsbD_extractLsb']
  by_cases low : i < 8
  · simp [low, bound]
  · have shifted : 8 + (i - 8) = i := by omega
    have inHigh : i - 8 < 8 := by omega
    have inWide : i - 8 < 16 := by omega
    simp [low, bound, shifted, inHigh, inWide]

/-- Two bytes are those of the value that they make. -/
theorem be16_of_bytes (b1 b2 : Byte) :
    be16 (b1.setWidth 16 <<< 8 ||| b2.setWidth 16) = [b1, b2] := by
  have high : (b1.setWidth 16 <<< 8 ||| b2.setWidth 16).extractLsb' 8 8 = b1 := by
    apply BitVec.eq_of_getLsbD_eq
    intro i bound
    have inside : 8 + i < 16 := by omega
    simp [bound, inside]
  have low : (b1.setWidth 16 <<< 8 ||| b2.setWidth 16).extractLsb' 0 8 = b2 := by
    apply BitVec.eq_of_getLsbD_eq
    intro i bound
    have inside : i < 16 := by omega
    simp [bound, inside]
  rw [be16, high, low]

/-- Four bytes are those of the value that they make. -/
theorem be32_of_bytes (b1 b2 b3 b4 : Byte) :
    be32 (b1.setWidth 32 <<< 24 ||| b2.setWidth 32 <<< 16 ||| b3.setWidth 32 <<< 8 |||
      b4.setWidth 32) = [b1, b2, b3, b4] := by
  have part (start : Nat) (byte : Byte)
      (bits : ∀ i < 8, (b1.setWidth 32 <<< 24 ||| b2.setWidth 32 <<< 16 ||| b3.setWidth 32 <<< 8 |||
        b4.setWidth 32).getLsbD (start + i) = byte.getLsbD i) :
      (b1.setWidth 32 <<< 24 ||| b2.setWidth 32 <<< 16 ||| b3.setWidth 32 <<< 8 |||
        b4.setWidth 32).extractLsb' start 8 = byte := by
    apply BitVec.eq_of_getLsbD_eq
    intro i bound
    rw [BitVec.getLsbD_extractLsb', bits i bound]
    simp [bound]
  rw [be32, part 24 b1, part 16 b2, part 8 b3, part 0 b4]
  all_goals
    intro i bound
    simp only [BitVec.getLsbD_or, BitVec.getLsbD_shiftLeft, BitVec.getLsbD_setWidth]
    grind

end JvmDemo.Lib
