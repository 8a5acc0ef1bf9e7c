import JvmDemo.Runtime.Fault
import Mathlib.Data.List.Induction

/-!
# Decoding of modified UTF-8

`StringConstant::DecodeMutf8` has two loops with one cursor: the first takes
ASCII bytes, the second sequences of one to three bytes.  The cursor is an
`int32_t` that is moved behind a sequence before it is compared with the length,
so it overflows on a sequence that is cut off at the end of a string of almost
2^31 bytes.  The strings of class files are shorter by far.

On every other string the decoder returns exactly when the string consists of
sequences of the three shapes, and gives one UTF-16 unit for each.
-/

namespace JvmDemo.Runtime

open JvmDemo.Lib

namespace StringConstant

/-! ## The decoder -/

/-- `count += amount`; `count` is an `int32_t` that is never negative. -/
def advance (count amount : Nat) : Exec Nat :=
  if count + amount < 2 ^ 31 then pure (count + amount) else undefined "signed overflow"

/-- `utf8Str[index]`, converted from `char` to `int32_t`. -/
def charAt (utf8Str : List Byte) (index : Nat) : Exec Word :=
  match utf8Str[index]? with
  | some byte => pure (byte.signExtend 32)
  | none => undefined "read past the end of the string"

/-- The first loop, over ASCII bytes. -/
def decodeAscii (utf8Str : List Byte) :
    Nat → Nat → List (BitVec 16) → Exec (Nat × List (BitVec 16))
  | 0, _, _ => .error .diverges
  | fuel + 1, count, unicodeStr =>
      if count < utf8Str.length then do
        let char ← charAt utf8Str count
        let c := char &&& 0xff
        if BitVec.slt 127 c then pure (count, unicodeStr)
        else do
          let count ← advance count 1
          decodeAscii utf8Str fuel count (unicodeStr ++ [c.setWidth 16])
      else pure (count, unicodeStr)

/-- A turn of the second loop: where it leaves the cursor, and its unit.  The cases
0 to 7 of the upper half of `c` are ASCII bytes, 12 and 13 start two bytes, and 14
starts three. -/
def decodeSequence (utf8Str : List Byte) (count : Nat) : Exec (Nat × BitVec 16) := do
  let char ← charAt utf8Str count
  let c := char &&& 0xff
  let upper := (c.sshiftRight 4).toNat
  if upper ≤ 7 then do
    let count ← advance count 1
    pure (count, c.setWidth 16)
  else if upper = 12 ∨ upper = 13 then do
    let count ← advance count 2
    if utf8Str.length < count then fatal "malformed input: partial character at end"
    else do
      let char2 ← charAt utf8Str (count - 1)
      if char2 &&& 0xC0 ≠ 0x80 then fatal s!"malformed input around byte {count}"
      else pure (count, ((c &&& 0x1F) <<< 6 ||| (char2 &&& 0x3F)).setWidth 16)
  else if upper = 14 then do
    let count ← advance count 3
    if utf8Str.length < count then fatal "malformed input: partial character at end"
    else do
      let char2 ← charAt utf8Str (count - 2)
      let char3 ← charAt utf8Str (count - 1)
      if char2 &&& 0xC0 ≠ 0x80 ∨ char3 &&& 0xC0 ≠ 0x80 then
        fatal s!"malformed input around byte {count - 1}"
      else
        pure (count,
          ((c &&& 0x0F) <<< 12 ||| (char2 &&& 0x3F) <<< 6 ||| (char3 &&& 0x3F)).setWidth 16)
  else fatal s!"malformed input around byte {count}"

/-- The second loop. -/
def decodeSequences (utf8Str : List Byte) :
    Nat → Nat → List (BitVec 16) → Exec (List (BitVec 16))
  | 0, _, _ => .error .diverges
  | fuel + 1, count, unicodeStr =>
      if count < utf8Str.length then do
        let (count, unit) ← decodeSequence utf8Str count
        decodeSequences utf8Str fuel count (unicodeStr ++ [unit])
      else pure unicodeStr

/-- `DecodeMutf8`; `len` is the number of bytes, and each turn of a loop takes one. -/
def decodeMutf8 (utf8Str : List Byte) : Exec (List (BitVec 16)) := do
  let (count, unicodeStr) ← decodeAscii utf8Str (utf8Str.length + 1) 0 []
  decodeSequences utf8Str (utf8Str.length + 1) count unicodeStr

/-! ## Sequences -/

/-- The three shapes of a sequence, and the unit of its free bits. -/
inductive Sequence : List Byte → BitVec 16 → Prop where
  | one (x : BitVec 7) : Sequence [0b0#1 ++ x] (x.setWidth 16)
  | two (x : BitVec 5) (y : BitVec 6) :
      Sequence [0b110#3 ++ x, 0b10#2 ++ y] ((x ++ y).setWidth 16)
  | three (x : BitVec 4) (y z : BitVec 6) :
      Sequence [0b1110#4 ++ x, 0b10#2 ++ y, 0b10#2 ++ z] (x ++ y ++ z)

/-- A concatenation of sequences, with a unit for each. -/
inductive Sequences : List Byte → List (BitVec 16) → Prop where
  | nil : Sequences [] []
  | snoc {front units bytes unit} (before : Sequences front units) (last : Sequence bytes unit) :
      Sequences (front ++ bytes) (units ++ [unit])

/-- The encoding of a unit in the class-file format: zero takes two bytes, and each
unit of a surrogate pair three. -/
def encodeUnit (unit : BitVec 16) : List Byte :=
  if unit ≠ 0 ∧ unit.toNat ≤ 0x7F then [0b0#1 ++ unit.setWidth 7]
  else if unit.toNat ≤ 0x7FF then
    [0b110#3 ++ unit.extractLsb' 6 5, 0b10#2 ++ unit.extractLsb' 0 6]
  else
    [0b1110#4 ++ unit.extractLsb' 12 4, 0b10#2 ++ unit.extractLsb' 6 6,
      0b10#2 ++ unit.extractLsb' 0 6]

/-- The modified UTF-8 encoding. -/
def encodeMutf8 (units : List (BitVec 16)) : List Byte := units.flatMap encodeUnit

theorem sequence_encodeUnit (unit : BitVec 16) : Sequence (encodeUnit unit) unit := by
  rw [encodeUnit]
  split
  case isTrue small =>
    have value : (unit.setWidth 7).setWidth 16 = unit := by
      apply BitVec.eq_of_toNat_eq
      rw [BitVec.toNat_setWidth, BitVec.toNat_setWidth]
      omega
    have single := Sequence.one (unit.setWidth 7)
    rwa [value] at single
  case isFalse =>
    split
    case isTrue middle =>
      have top (i : Nat) (above : 11 ≤ i) : unit.getLsbD i = false := by
        apply Nat.testBit_lt_two_pow
        have power : 2 ^ 11 ≤ 2 ^ i := Nat.pow_le_pow_right (by decide) above
        omega
      have value : ((unit.extractLsb' 6 5 ++ unit.extractLsb' 0 6).setWidth 16) = unit := by
        apply BitVec.eq_of_getLsbD_eq
        intro i bound
        simp only [BitVec.getLsbD_setWidth, BitVec.getLsbD_append, BitVec.getLsbD_extractLsb']
        grind
      have pair := Sequence.two (unit.extractLsb' 6 5) (unit.extractLsb' 0 6)
      rwa [value] at pair
    case isFalse large =>
      have value : unit.extractLsb' 12 4 ++ unit.extractLsb' 6 6 ++ unit.extractLsb' 0 6 = unit := by
        apply BitVec.eq_of_getLsbD_eq
        intro i bound
        simp only [BitVec.getLsbD_append, BitVec.getLsbD_extractLsb']
        grind
      have triple := Sequence.three (unit.extractLsb' 12 4) (unit.extractLsb' 6 6) (unit.extractLsb' 0 6)
      rwa [value] at triple

theorem sequences_encodeMutf8 (units : List (BitVec 16)) : Sequences (encodeMutf8 units) units := by
  induction units using List.reverseRecOn with
  | nil => exact .nil
  | append_singleton units unit ih =>
      have both := ih.snoc (sequence_encodeUnit unit)
      rwa [encodeMutf8, List.flatMap_append, List.flatMap_singleton]

/-! ## Bits -/

theorem char_and_ff : ∀ byte : Byte, byte.signExtend 32 &&& 0xff = byte.setWidth 32 := by decide

theorem upper_eq : ∀ byte : Byte,
    ((byte.setWidth 32 : Word).sshiftRight 4).toNat = byte.toNat / 16 := by decide

/-- The bytes that the upper half selects. -/
theorem upper_one : ∀ byte : Byte, byte.toNat / 16 ≤ 7 ↔ byte = 0b0#1 ++ byte.setWidth 7 := by decide

theorem upper_two : ∀ byte : Byte,
    (byte.toNat / 16 = 12 ∨ byte.toNat / 16 = 13) ↔ byte = 0b110#3 ++ byte.setWidth 5 := by decide

theorem upper_three : ∀ byte : Byte, byte.toNat / 16 = 14 ↔ byte = 0b1110#4 ++ byte.setWidth 4 := by
  decide

/-- The test for a continuation byte. -/
theorem continuation_iff : ∀ byte : Byte,
    byte.signExtend 32 &&& 0xC0 = (0x80 : Word) ↔ byte = 0b10#2 ++ byte.setWidth 6 := by decide

theorem one_unit : ∀ x : BitVec 7, ((0b0#1 ++ x).setWidth 32).setWidth 16 = x.setWidth 16 := by decide

theorem two_bits : ∀ x : BitVec 5, (0b110#3 ++ x).setWidth 32 &&& 0x1F = x.setWidth 32 := by decide

theorem three_bits : ∀ x : BitVec 4, (0b1110#4 ++ x).setWidth 32 &&& 0x0F = x.setWidth 32 := by decide

theorem continuation_bits : ∀ y : BitVec 6,
    (0b10#2 ++ y).signExtend 32 &&& 0x3F = y.setWidth 32 := by decide

theorem two_unit (x : BitVec 5) (y : BitVec 6) :
    ((x.setWidth 32 <<< 6 ||| y.setWidth 32 : Word)).setWidth 16 = (x ++ y).setWidth 16 := by
  apply BitVec.eq_of_getLsbD_eq
  intro i bound
  simp only [BitVec.getLsbD_setWidth, BitVec.getLsbD_or, BitVec.getLsbD_shiftLeft,
    BitVec.getLsbD_append]
  grind

theorem three_unit (x : BitVec 4) (y z : BitVec 6) :
    (x.setWidth 32 <<< 12 ||| y.setWidth 32 <<< 6 ||| z.setWidth 32 : Word).setWidth 16 =
      x ++ y ++ z := by
  apply BitVec.eq_of_getLsbD_eq
  intro i bound
  simp only [BitVec.getLsbD_setWidth, BitVec.getLsbD_or, BitVec.getLsbD_shiftLeft,
    BitVec.getLsbD_append]
  grind

/-! ## One turn of the second loop -/

theorem charAt_append (front rest : List Byte) (index : Nat) :
    charAt (front ++ rest) (front.length + index) = charAt rest index := by
  rw [charAt, charAt, List.getElem?_append_right (Nat.le_add_right _ _), Nat.add_sub_cancel_left]

theorem advance_eq {count amount : Nat} (fits : count + amount < 2 ^ 31) :
    advance count amount = .ok (count + amount) := if_pos fits

section

variable {front later : List Byte} {lead : Byte}

/-- The turn begins with the byte under the cursor. -/
theorem charAt_lead (front later : List Byte) (lead : Byte) :
    charAt (front ++ lead :: later) front.length = .ok (lead.signExtend 32) :=
  charAt_append front (lead :: later) 0

theorem decodeSequence_one (upper : lead.toNat / 16 ≤ 7)
    (fits : front.length + 1 < 2 ^ 31) :
    decodeSequence (front ++ lead :: later) front.length =
      .ok (front.length + 1, (lead.setWidth 32).setWidth 16) := by
  rw [decodeSequence, charAt_lead, Exec.bind_ok]
  simp only [char_and_ff, upper_eq]
  rw [if_pos upper, advance_eq fits]
  rfl

theorem decodeSequence_two {second : Byte} (upper : lead.toNat / 16 = 12 ∨ lead.toNat / 16 = 13)
    (fits : front.length + 2 < 2 ^ 31) :
    decodeSequence (front ++ lead :: second :: later) front.length =
      if second.signExtend 32 &&& 0xC0 ≠ (0x80 : Word) then
        fatal s!"malformed input around byte {front.length + 2}"
      else
        pure (front.length + 2,
          ((lead.setWidth 32 &&& 0x1F) <<< 6 ||| (second.signExtend 32 &&& 0x3F) : Word).setWidth 16) := by
  have notOne : ¬ lead.toNat / 16 ≤ 7 := by omega
  have inside : ¬ (front ++ lead :: second :: later).length < front.length + 2 := by
    simp only [List.length_append, List.length_cons]
    omega
  have char2 : charAt (front ++ lead :: second :: later) (front.length + 2 - 1) =
      .ok (second.signExtend 32) := charAt_append front (lead :: second :: later) 1
  rw [decodeSequence, charAt_lead, Exec.bind_ok]
  simp only [char_and_ff, upper_eq]
  rw [if_neg notOne, if_pos upper, advance_eq fits, Exec.bind_ok, if_neg inside, char2]
  rfl

theorem decodeSequence_three {second third : Byte} (upper : lead.toNat / 16 = 14)
    (fits : front.length + 3 < 2 ^ 31) :
    decodeSequence (front ++ lead :: second :: third :: later) front.length =
      if second.signExtend 32 &&& 0xC0 ≠ (0x80 : Word) ∨
          third.signExtend 32 &&& 0xC0 ≠ (0x80 : Word) then
        fatal s!"malformed input around byte {front.length + 3 - 1}"
      else
        pure (front.length + 3,
          ((lead.setWidth 32 &&& 0x0F) <<< 12 ||| (second.signExtend 32 &&& 0x3F) <<< 6 |||
            (third.signExtend 32 &&& 0x3F) : Word).setWidth 16) := by
  have notOne : ¬ lead.toNat / 16 ≤ 7 := by omega
  have notTwo : ¬ (lead.toNat / 16 = 12 ∨ lead.toNat / 16 = 13) := by omega
  have inside : ¬ (front ++ lead :: second :: third :: later).length < front.length + 3 := by
    simp only [List.length_append, List.length_cons]
    omega
  have char2 : charAt (front ++ lead :: second :: third :: later) (front.length + 3 - 2) =
      .ok (second.signExtend 32) := charAt_append front (lead :: second :: third :: later) 1
  have char3 : charAt (front ++ lead :: second :: third :: later) (front.length + 3 - 1) =
      .ok (third.signExtend 32) := charAt_append front (lead :: second :: third :: later) 2
  rw [decodeSequence, charAt_lead, Exec.bind_ok]
  simp only [char_and_ff, upper_eq]
  rw [if_neg notOne, if_neg notTwo, if_pos upper, advance_eq fits, Exec.bind_ok, if_neg inside,
    char2, Exec.bind_ok, char3]
  rfl

/-- The bytes that the first byte of a sequence announces. -/
def sequenceLength (lead : Byte) : Nat :=
  if lead.toNat / 16 = 14 then 3
  else if lead.toNat / 16 = 12 ∨ lead.toNat / 16 = 13 then 2
  else 1

/-- A sequence that the end of the string cuts off is refused, as long as the cursor
does not overflow. -/
theorem decodeSequence_cut (cut : (front ++ lead :: later).length < front.length + sequenceLength lead)
    (fits : front.length + sequenceLength lead < 2 ^ 31) :
    decodeSequence (front ++ lead :: later) front.length =
      fatal "malformed input: partial character at end" := by
  rw [decodeSequence, charAt_lead, Exec.bind_ok]
  simp only [char_and_ff, upper_eq]
  by_cases three : lead.toNat / 16 = 14
  · rw [sequenceLength, if_pos three] at cut fits
    have notOne : ¬ lead.toNat / 16 ≤ 7 := by omega
    have notTwo : ¬ (lead.toNat / 16 = 12 ∨ lead.toNat / 16 = 13) := by omega
    rw [if_neg notOne, if_neg notTwo, if_pos three, advance_eq fits, Exec.bind_ok, if_pos cut]
  · by_cases two : lead.toNat / 16 = 12 ∨ lead.toNat / 16 = 13
    · rw [sequenceLength, if_neg three, if_pos two] at cut fits
      have notOne : ¬ lead.toNat / 16 ≤ 7 := by omega
      rw [if_neg notOne, if_pos two, advance_eq fits, Exec.bind_ok, if_pos cut]
    · rw [sequenceLength, if_neg three, if_neg two, List.length_append, List.length_cons] at cut
      omega

/-- The cursor overflows before it is compared with the length. -/
theorem decodeSequence_overflows (short : (front ++ lead :: later).length < 2 ^ 31)
    (past : 2 ^ 31 ≤ front.length + sequenceLength lead) :
    decodeSequence (front ++ lead :: later) front.length = undefined "signed overflow" := by
  rw [List.length_append, List.length_cons] at short
  rw [decodeSequence, charAt_lead, Exec.bind_ok]
  simp only [char_and_ff, upper_eq]
  by_cases three : lead.toNat / 16 = 14
  · rw [sequenceLength, if_pos three] at past
    have notOne : ¬ lead.toNat / 16 ≤ 7 := by omega
    have notTwo : ¬ (lead.toNat / 16 = 12 ∨ lead.toNat / 16 = 13) := by omega
    rw [if_neg notOne, if_neg notTwo, if_pos three, advance, if_neg (Nat.not_lt.mpr past)]
    rfl
  · by_cases two : lead.toNat / 16 = 12 ∨ lead.toNat / 16 = 13
    · rw [sequenceLength, if_neg three, if_pos two] at past
      have notOne : ¬ lead.toNat / 16 ≤ 7 := by omega
      rw [if_neg notOne, if_pos two, advance, if_neg (Nat.not_lt.mpr past)]
      rfl
    · rw [sequenceLength, if_neg three, if_neg two] at past
      omega

end

/-- A well-formed sequence gives its unit. -/
theorem decodeSequence_of_sequence {bytes : List Byte} {unit : BitVec 16}
    (sequence : Sequence bytes unit) {front : List Byte} (later : List Byte)
    (fits : front.length + bytes.length < 2 ^ 31) :
    decodeSequence (front ++ (bytes ++ later)) front.length =
      .ok (front.length + bytes.length, unit) := by
  cases sequence with
  | one x =>
      have upper : (0b0#1 ++ x : Byte).toNat / 16 ≤ 7 := (upper_one _).mpr (by rw [BitVec.setWidth_append_eq_right])
      have turn := @decodeSequence_one front later (0b0#1 ++ x) upper fits
      rwa [one_unit] at turn
  | two x y =>
      have upper := (upper_two (0b110#3 ++ x)).mpr (by rw [BitVec.setWidth_append_eq_right])
      have continues := (continuation_iff (0b10#2 ++ y)).mpr (by rw [BitVec.setWidth_append_eq_right])
      have turn := @decodeSequence_two front later (0b110#3 ++ x) (0b10#2 ++ y) upper fits
      rw [if_neg (not_not.mpr continues), two_bits, continuation_bits, two_unit] at turn
      exact turn
  | three x y z =>
      have upper := (upper_three (0b1110#4 ++ x)).mpr (by rw [BitVec.setWidth_append_eq_right])
      have second := (continuation_iff (0b10#2 ++ y)).mpr (by rw [BitVec.setWidth_append_eq_right])
      have third := (continuation_iff (0b10#2 ++ z)).mpr (by rw [BitVec.setWidth_append_eq_right])
      have continues : ¬ ((0b10#2 ++ y : Byte).signExtend 32 &&& 0xC0 ≠ (0x80 : Word) ∨
          (0b10#2 ++ z : Byte).signExtend 32 &&& 0xC0 ≠ (0x80 : Word)) := by
        rw [not_or, not_not, not_not]
        exact ⟨second, third⟩
      have turn := @decodeSequence_three front later (0b1110#4 ++ x) (0b10#2 ++ y) (0b10#2 ++ z)
        upper fits
      rw [if_neg continues, three_bits, continuation_bits, continuation_bits, three_unit] at turn
      exact turn

/-- No sequence stands at the beginning. -/
def Stuck (rest : List Byte) : Prop :=
  ∀ bytes unit later, rest = bytes ++ later → ¬ Sequence bytes unit

/-- Where no sequence starts, the turn aborts. -/
theorem decodeSequence_of_stuck {front later : List Byte} {lead : Byte}
    (stuck : Stuck (lead :: later)) (fits : front.length + sequenceLength lead < 2 ^ 31) :
    Aborts (decodeSequence (front ++ lead :: later) front.length) := by
  by_cases one : lead.toNat / 16 ≤ 7
  · have shape := (upper_one lead).mp one
    exact absurd (Sequence.one (lead.setWidth 7)) (stuck _ _ later (by rw [← shape]; rfl))
  by_cases cut : (front ++ lead :: later).length < front.length + sequenceLength lead
  · rw [decodeSequence_cut cut fits]
    exact aborts_fatal _
  rw [List.length_append, List.length_cons, not_lt] at cut
  by_cases two : lead.toNat / 16 = 12 ∨ lead.toNat / 16 = 13
  · have length : sequenceLength lead = 2 := by
      rw [sequenceLength, if_neg (by omega), if_pos two]
    rw [length] at cut fits
    cases later with
    | nil => simp at cut
    | cons second later =>
        rw [decodeSequence_two two fits]
        split
        case isTrue => exact aborts_fatal _
        case isFalse continues =>
          have shape := (upper_two lead).mp two
          have secondShape := (continuation_iff second).mp (not_not.mp continues)
          exact absurd (Sequence.two (lead.setWidth 5) (second.setWidth 6))
            (stuck _ _ later (by rw [← shape, ← secondShape]; rfl))
  by_cases three : lead.toNat / 16 = 14
  · have length : sequenceLength lead = 3 := by rw [sequenceLength, if_pos three]
    rw [length] at cut fits
    cases later with
    | nil => simp at cut
    | cons second later =>
        cases later with
        | nil => simp at cut
        | cons third later =>
            rw [decodeSequence_three three fits]
            split
            case isTrue => exact aborts_fatal _
            case isFalse continues =>
              rw [not_or, not_not, not_not] at continues
              have shape := (upper_three lead).mp three
              have secondShape := (continuation_iff second).mp continues.1
              have thirdShape := (continuation_iff third).mp continues.2
              exact absurd (Sequence.three (lead.setWidth 4) (second.setWidth 6) (third.setWidth 6))
                (stuck _ _ later (by rw [← shape, ← secondShape, ← thirdShape]; rfl))
  · rw [decodeSequence, charAt_lead, Exec.bind_ok]
    simp only [char_and_ff, upper_eq]
    rw [if_neg one, if_neg two, if_neg three]
    exact aborts_fatal _

/-! ## The loops -/

theorem advance_eq_ok {count amount next : Nat} (moved : advance count amount = .ok next) :
    next = count + amount := by
  rw [advance] at moved
  split at moved
  case isTrue =>
    cases moved
    rfl
  case isFalse => cases moved

/-- A turn moves the cursor. -/
theorem lt_of_decodeSequence {utf8Str : List Byte} {count next : Nat} {unit : BitVec 16}
    (turn : decodeSequence utf8Str count = .ok (next, unit)) : count < next := by
  rw [decodeSequence] at turn
  rcases Exec.bind_eq_ok.mp turn with ⟨char, -, rest⟩
  dsimp only at rest
  split at rest
  case isTrue =>
    rcases Exec.bind_eq_ok.mp rest with ⟨moved, moves, ⟨⟩⟩
    have sum := advance_eq_ok moves
    omega
  split at rest
  case isTrue =>
    rcases Exec.bind_eq_ok.mp rest with ⟨moved, moves, inside⟩
    have sum := advance_eq_ok moves
    split at inside
    case isTrue => cases inside
    rcases Exec.bind_eq_ok.mp inside with ⟨char2, -, checked⟩
    split at checked
    case isTrue => cases checked
    cases checked
    omega
  split at rest
  case isTrue =>
    rcases Exec.bind_eq_ok.mp rest with ⟨moved, moves, inside⟩
    have sum := advance_eq_ok moves
    split at inside
    case isTrue => cases inside
    rcases Exec.bind_eq_ok.mp inside with ⟨char2, -, inside⟩
    rcases Exec.bind_eq_ok.mp inside with ⟨char3, -, checked⟩
    split at checked
    case isTrue => cases checked
    cases checked
    omega
  case isFalse => cases rest

/-- Any fuel that is enough gives the same result. -/
theorem decodeSequences_fuel {utf8Str : List Byte} {fuel other count : Nat}
    (enough : utf8Str.length - count < fuel) (otherEnough : utf8Str.length - count < other)
    (unicodeStr : List (BitVec 16)) :
    decodeSequences utf8Str fuel count unicodeStr =
      decodeSequences utf8Str other count unicodeStr := by
  induction fuel generalizing other count unicodeStr with
  | zero => exact absurd enough (Nat.not_lt_zero _)
  | succ fuel ih =>
      cases other with
      | zero => exact absurd otherEnough (Nat.not_lt_zero _)
      | succ other =>
          rw [decodeSequences, decodeSequences]
          by_cases inside : count < utf8Str.length
          · rw [if_pos inside, if_pos inside]
            cases turn : decodeSequence utf8Str count with
            | error fault => rfl
            | ok result =>
                have moves := lt_of_decodeSequence turn
                exact ih (by omega) (by omega) _
          · rw [if_neg inside, if_neg inside]

/-- The first loop takes the bytes below 128. -/
theorem slt_127_iff : ∀ byte : Byte,
    BitVec.slt 127 (byte.setWidth 32 : Word) = false ↔ byte.toNat / 16 ≤ 7 := by decide

/-- The second loop does what the two loops do one after the other. -/
theorem decodeAscii_then {utf8Str : List Byte} (short : utf8Str.length < 2 ^ 31)
    {fuel fuelAfter other count : Nat} (enough : utf8Str.length - count < fuel)
    (enoughAfter : utf8Str.length - count < fuelAfter) (otherEnough : utf8Str.length - count < other)
    (unicodeStr : List (BitVec 16)) :
    (decodeAscii utf8Str fuel count unicodeStr >>= fun result =>
        decodeSequences utf8Str fuelAfter result.1 result.2) =
      decodeSequences utf8Str other count unicodeStr := by
  induction fuel generalizing other count unicodeStr with
  | zero => exact absurd enough (Nat.not_lt_zero _)
  | succ fuel ih =>
      by_cases inside : count < utf8Str.length
      · have split : utf8Str =
            utf8Str.take count ++ utf8Str[count] :: utf8Str.drop (count + 1) := by
          rw [List.getElem_cons_drop, List.take_append_drop]
        have position : (utf8Str.take count).length = count :=
          List.length_take_of_le (Nat.le_of_lt inside)
        have char : charAt utf8Str count = .ok (utf8Str[count].signExtend 32) := by
          rw [charAt, List.getElem?_eq_getElem inside]
          rfl
        rw [decodeAscii, if_pos inside, char, Exec.bind_ok]
        simp only [char_and_ff]
        by_cases large : BitVec.slt 127 (utf8Str[count].setWidth 32 : Word) = true
        · rw [if_pos large]
          exact decodeSequences_fuel enoughAfter otherEnough unicodeStr
        · have upper := (slt_127_iff _).mp (Bool.not_eq_true _ ▸ large)
          have turn := @decodeSequence_one (utf8Str.take count) (utf8Str.drop (count + 1))
            utf8Str[count] upper (by omega)
          rw [← split, position] at turn
          have next : advance count 1 = .ok (count + 1) := advance_eq (by omega)
          cases other with
          | zero => exact absurd otherEnough (Nat.not_lt_zero _)
          | succ other =>
              rw [if_neg large, next, Exec.bind_ok, decodeSequences, if_pos inside, turn, Exec.bind_ok]
              exact ih (by omega) (by omega) (by omega) _
      · rw [decodeAscii, if_neg inside]
        exact decodeSequences_fuel enoughAfter otherEnough unicodeStr

theorem decodeMutf8_eq {utf8Str : List Byte} (short : utf8Str.length < 2 ^ 31) :
    decodeMutf8 utf8Str = decodeSequences utf8Str (utf8Str.length + 1) 0 [] :=
  decodeAscii_then short (by omega) (by omega) (by omega) []

theorem Sequence.length_pos {bytes : List Byte} {unit : BitVec 16} (sequence : Sequence bytes unit) :
    0 < bytes.length := by
  cases sequence <;> exact Nat.succ_pos _

/-- The loop gets behind a concatenation of sequences, with their units. -/
theorem decodeSequences_run {front : List Byte} {units : List (BitVec 16)}
    (sequences : Sequences front units) (rest : List Byte)
    (short : (front ++ rest).length < 2 ^ 31) :
    decodeMutf8 (front ++ rest) =
      decodeSequences (front ++ rest) (rest.length + 1) front.length units := by
  induction sequences generalizing rest with
  | nil => exact decodeMutf8_eq short
  | @snoc front units bytes unit before last ih =>
      have nonempty := last.length_pos
      have reached := ih (bytes ++ rest) (by rwa [← List.append_assoc])
      rw [List.append_assoc, List.length_append, List.length_append] at short
      have inside : front.length < (front ++ (bytes ++ rest)).length := by
        rw [List.length_append, List.length_append]
        omega
      rw [decodeSequences, if_pos inside, decodeSequence_of_sequence last rest (by omega),
        Exec.bind_ok] at reached
      rw [List.append_assoc, reached, List.length_append, List.length_append]
      apply decodeSequences_fuel
      · simp only [List.length_append]
        omega
      · simp only [List.length_append]
        omega

/-- Every string starts with a concatenation of sequences behind which none starts. -/
theorem exists_sequences {front : List Byte} {units : List (BitVec 16)}
    (sequences : Sequences front units) (rest : List Byte) :
    ∃ longer longerUnits last, front ++ rest = longer ++ last ∧ Sequences longer longerUnits ∧
      (last = [] ∨ Stuck last) := by
  by_cases stuck : Stuck rest
  · exact ⟨front, units, rest, rfl, sequences, .inr stuck⟩
  · simp only [Stuck, not_forall, not_not] at stuck
    rcases stuck with ⟨bytes, unit, later, split, sequence⟩
    have nonempty := sequence.length_pos
    have shorter : later.length < rest.length := by
      rw [split, List.length_append]
      omega
    rcases exists_sequences (sequences.snoc sequence) later with
      ⟨longer, longerUnits, last, whole, all⟩
    exact ⟨longer, longerUnits, last, by rw [split, ← List.append_assoc, whole], all⟩
termination_by rest.length

theorem decodeMutf8_of_sequences {bytes : List Byte} {units : List (BitVec 16)}
    (sequences : Sequences bytes units) (short : bytes.length < 2 ^ 31) :
    decodeMutf8 bytes = .ok units := by
  have reached := decodeSequences_run sequences [] (by rwa [List.append_nil])
  rw [List.append_nil] at reached
  rw [reached, decodeSequences, if_neg (Nat.lt_irrefl _)]
  rfl

/-- Behind a concatenation of sequences the loop takes its next turn. -/
theorem decodeMutf8_append {front later : List Byte} {lead : Byte} {units : List (BitVec 16)}
    (sequences : Sequences front units) (short : (front ++ lead :: later).length < 2 ^ 31)
    {fault : Fault} (turn : decodeSequence (front ++ lead :: later) front.length = .error fault) :
    decodeMutf8 (front ++ lead :: later) = .error fault := by
  have inside : front.length < (front ++ lead :: later).length := by
    rw [List.length_append, List.length_cons]
    omega
  rw [decodeSequences_run sequences _ short, decodeSequences, if_pos inside, turn, Exec.bind_error]

/-! ## The decoder as a whole -/

/-- Behind well-formed sequences a sequence begins that would make the string too long
for the cursor. -/
def OutgrowsCursor (bytes : List Byte) : Prop :=
  ∃ front units lead later, bytes = front ++ lead :: later ∧ Sequences front units ∧
    2 ^ 31 ≤ front.length + sequenceLength lead

/-- The decoder returns exactly on the concatenations of sequences, with a unit for
each; otherwise it aborts, without having read behind the string.  Both loops compute
the same, and what has been encoded comes back. -/
structure DecodesMutf8 (bytes : List Byte) : Prop where
  returns : ∀ units, decodeMutf8 bytes = .ok units ↔ Sequences bytes units
  aborts : (¬ ∃ units, Sequences bytes units) → Aborts (decodeMutf8 bytes)
  inBounds : ∀ why, decodeMutf8 bytes ≠ .error (.undefined why)
  oneLoop : decodeMutf8 bytes = decodeSequences bytes (bytes.length + 1) 0 []
  encoded : ∀ units, bytes = encodeMutf8 units → decodeMutf8 bytes = .ok units

theorem decodeMutf8_of_outgrowsCursor {bytes : List Byte} (short : bytes.length < 2 ^ 31)
    (outgrows : OutgrowsCursor bytes) : decodeMutf8 bytes = undefined "signed overflow" := by
  rcases outgrows with ⟨front, units, lead, later, rfl, sequences, past⟩
  exact decodeMutf8_append sequences short (decodeSequence_overflows short past)

/-- A string that is no concatenation of sequences is refused. -/
theorem aborts_decodeMutf8 {bytes : List Byte} (short : bytes.length < 2 ^ 31)
    (fits : ¬ OutgrowsCursor bytes) (malformed : ¬ ∃ units, Sequences bytes units) :
    Aborts (decodeMutf8 bytes) := by
  rcases exists_sequences .nil bytes with ⟨front, units, rest, split, sequences, ends⟩
  rw [List.nil_append] at split
  subst split
  cases rest with
  | nil =>
      rw [List.append_nil] at malformed
      exact absurd ⟨units, sequences⟩ malformed
  | cons lead later =>
      have stuck := ends.resolve_left (List.cons_ne_nil _ _)
      have inside : front.length + sequenceLength lead < 2 ^ 31 := by
        by_contra past
        exact fits ⟨front, units, lead, later, rfl, sequences, Nat.le_of_not_lt past⟩
      rcases decodeSequence_of_stuck stuck inside with ⟨message, turn⟩
      exact ⟨message, decodeMutf8_append sequences short turn⟩

/-- The decoder is right on a concatenation of sequences. -/
theorem decodesMutf8_of_sequences {bytes : List Byte} {units : List (BitVec 16)}
    (sequences : Sequences bytes units) (short : bytes.length < 2 ^ 31) : DecodesMutf8 bytes := by
  have result := decodeMutf8_of_sequences sequences short
  constructor
  case returns =>
    intro other
    constructor
    · intro returned
      rw [result, Except.ok.injEq] at returned
      rwa [← returned]
    · exact fun otherSequences => decodeMutf8_of_sequences otherSequences short
  case aborts => exact fun none => absurd ⟨units, sequences⟩ none
  case inBounds =>
    intro why wrong
    rw [result] at wrong
    cases wrong
  case oneLoop => exact decodeMutf8_eq short
  case encoded =>
    rintro other rfl
    exact decodeMutf8_of_sequences (sequences_encodeMutf8 other) short

/-- The decoder is right where it refuses what is no concatenation of sequences. -/
theorem decodesMutf8_of_aborts {bytes : List Byte} (short : bytes.length < 2 ^ 31)
    (malformed : ¬ ∃ units, Sequences bytes units) (refused : Aborts (decodeMutf8 bytes)) :
    DecodesMutf8 bytes := by
  rcases refused with ⟨message, result⟩
  constructor
  case returns =>
    intro units
    rw [result]
    constructor
    · rintro ⟨⟩
    · exact fun sequences => absurd ⟨units, sequences⟩ malformed
  case aborts => exact fun _ => ⟨message, result⟩
  case inBounds =>
    intro why wrong
    rw [result] at wrong
    cases wrong
  case oneLoop => exact decodeMutf8_eq short
  case encoded =>
    rintro units rfl
    exact absurd ⟨units, sequences_encodeMutf8 units⟩ malformed

/-- The decoder is right exactly on the strings on which its cursor does not
overflow. -/
theorem decodesMutf8_iff {bytes : List Byte} (short : bytes.length < 2 ^ 31) :
    DecodesMutf8 bytes ↔ ¬ OutgrowsCursor bytes := by
  constructor
  · intro decodes outgrows
    exact decodes.inBounds _ (decodeMutf8_of_outgrowsCursor short outgrows)
  · intro fits
    by_cases wellFormed : ∃ units, Sequences bytes units
    · rcases wellFormed with ⟨units, sequences⟩
      exact decodesMutf8_of_sequences sequences short
    · exact decodesMutf8_of_aborts short wellFormed (aborts_decodeMutf8 short fits wellFormed)

/-- Only strings of 2^31 - 2 bytes or more are too long for the cursor. -/
theorem OutgrowsCursor.le_length {bytes : List Byte} (outgrows : OutgrowsCursor bytes) :
    2 ^ 31 - 2 ≤ bytes.length := by
  rcases outgrows with ⟨front, units, lead, later, rfl, -, past⟩
  have atMost : sequenceLength lead ≤ 3 := by
    rw [sequenceLength]
    split
    case isTrue => exact Nat.le_refl 3
    case isFalse => split <;> decide
  rw [List.length_append, List.length_cons]
  omega

/-- The decoder is right on every string that it can be given: those of class files
have at most 65535 bytes. -/
theorem decodesMutf8 {bytes : List Byte} (short : bytes.length < 2 ^ 31 - 2) :
    DecodesMutf8 bytes := by
  apply (decodesMutf8_iff (by omega)).mpr
  intro outgrows
  exact Nat.not_lt.mpr outgrows.le_length short

/-- A letter, U+0000, a sign of three bytes, and the two units of a surrogate pair. -/
theorem decodesMutf8_mixed :
    DecodesMutf8
      [0x41, 0xC0, 0x80, 0xE2, 0x82, 0xAC, 0xED, 0xA0, 0xBD, 0xED, 0xB8, 0x80] ∧
    decodeMutf8 [0x41, 0xC0, 0x80, 0xE2, 0x82, 0xAC, 0xED, 0xA0, 0xBD, 0xED, 0xB8, 0x80] =
      .ok [0x41, 0, 0x20AC, 0xD83D, 0xDE00] := by
  have decodes : DecodesMutf8
      [0x41, 0xC0, 0x80, 0xE2, 0x82, 0xAC, 0xED, 0xA0, 0xBD, 0xED, 0xB8, 0x80] :=
    decodesMutf8 (by decide)
  exact ⟨decodes, decodes.encoded _ (by decide)⟩

end StringConstant

end JvmDemo.Runtime
