import JvmDemo.Instructions.Decode

/-!
# Decoding is exact

The decoder accepts nothing but the format: the bytes that it takes for an
instruction other than `wide` are the encoding of that instruction.  The
operands of a switch are a little more than the format allows, since its bounds
are not checked: a `tableswitch` whose high bound lies below the low one has an
empty table.
-/

namespace JvmDemo.Instructions

open JvmDemo.Lib
open JvmDemo.Runtime
open JvmDemo.Lib.Reader (Reads Yields)
open BytecodeReader

/-! ## Operand shapes -/

theorem yields_readUnsignedInt8 (pc : Nat) :
    Yields readUnsignedInt8 pc fun byte bytes => bytes = [byte] :=
  Reader.yields_next _ pc

theorem yields_readUnsignedInt16 (pc : Nat) :
    Yields readUnsignedInt16 pc fun value bytes => bytes = be16 value := by
  apply (yields_readUnsignedInt8 pc).bind
  rintro b1 bytes rfl
  apply (yields_readUnsignedInt8 _).map
  rintro b2 bytes rfl
  exact (be16_of_bytes b1 b2).symm

theorem yields_readInt32 (pc : Nat) :
    Yields readInt32 pc fun value bytes => bytes = be32 value := by
  apply (yields_readUnsignedInt8 pc).bind
  rintro b1 bytes rfl
  apply (yields_readUnsignedInt8 _).bind
  rintro b2 bytes rfl
  apply (yields_readUnsignedInt8 _).bind
  rintro b3 bytes rfl
  apply (yields_readUnsignedInt8 _).map
  rintro b4 bytes rfl
  exact (be32_of_bytes b1 b2 b3 b4).symm

theorem yields_readInt32s (n : BitVec 32) (pc : Nat) :
    Yields (readInt32s n) pc fun values bytes =>
      values.length = n.toInt.toNat ∧ bytes = values.flatMap be32 :=
  Reader.yields_times yields_readInt32 _ pc

/-- The loop reads up to the next aligned address. -/
theorem yields_skipPaddingLoop (fuel pc : Nat) (enough : padding pc ≤ fuel) :
    Yields (skipPaddingLoop fuel) pc fun _ bytes => bytes.length = padding pc := by
  induction fuel generalizing pc with
  | zero => exact Reader.yields_pure pc (Nat.le_zero.mp enough).symm
  | succ fuel ih =>
      apply (Reader.yields_position pc).bind
      rintro here bytes ⟨rfl, rfl⟩
      by_cases aligned : here % 4 = 0
      · rw [if_pos aligned]
        apply Reader.yields_pure
        simp [padding, aligned]
      · rw [if_neg aligned]
        have padding_succ : padding (here + 1) + 1 = padding here := by
          unfold padding
          omega
        apply (yields_readUnsignedInt8 _).bind
        rintro byte bytes rfl
        apply (ih (here + 1) (by omega)).imp
        intro _ bytes length
        simpa [length] using padding_succ

theorem yields_skipPadding (pc : Nat) :
    Yields skipPadding pc fun _ bytes => bytes.length = padding pc := by
  apply yields_skipPaddingLoop
  unfold padding
  omega

theorem setWidth_signExtend {width : Nat} (small : width ≤ 32) (value : BitVec width) :
    (value.signExtend 32).setWidth width = value := by
  apply BitVec.eq_of_getLsbD_eq
  intro i bound
  have inside : i < 32 := Nat.lt_of_lt_of_le bound small
  rw [BitVec.getLsbD_setWidth, BitVec.getLsbD_signExtend]
  simp [bound, inside]

theorem fitsSigned_signExtend {width : Nat} (small : width ≤ 32) (value : BitVec width) :
    FitsSigned width (value.signExtend 32) := by
  rw [FitsSigned, setWidth_signExtend small]

theorem toNat_setWidth_lt {width : Nat} (small : width ≤ 32) (value : BitVec width) :
    (value.setWidth 32).toNat < 2 ^ width := by
  rw [BitVec.toNat_setWidth_of_le small]
  exact value.isLt

theorem setWidth_setWidth {width : Nat} (small : width ≤ 32) (value : BitVec width) :
    (value.setWidth 32).setWidth width = value := by
  apply BitVec.eq_of_toNat_eq
  rw [BitVec.toNat_setWidth, BitVec.toNat_setWidth_of_le small]
  exact Nat.mod_eq_of_lt value.isLt

theorem yields_fetchIndex8 (pc : Nat) :
    Yields fetchIndex8 pc fun index bytes => index.toNat < 2 ^ 8 ∧ bytes = index8 index := by
  apply (yields_readUnsignedInt8 pc).map
  rintro byte bytes rfl
  exact ⟨toNat_setWidth_lt (by decide) byte, by rw [index8, setWidth_setWidth (by decide)]⟩

theorem yields_fetchIndex16 (pc : Nat) :
    Yields fetchIndex16 pc fun index bytes => index.toNat < 2 ^ 16 ∧ bytes = index16 index := by
  apply (yields_readUnsignedInt16 pc).map
  rintro value bytes rfl
  exact ⟨toNat_setWidth_lt (by decide) value, by rw [index16, setWidth_setWidth (by decide)]⟩

theorem yields_fetchOffset (pc : Nat) :
    Yields fetchOffset pc fun offset bytes => FitsSigned 16 offset ∧ bytes = offset16 offset := by
  apply (yields_readUnsignedInt16 pc).map
  rintro value bytes rfl
  exact ⟨fitsSigned_signExtend (by decide) value,
    by rw [offset16, setWidth_signExtend (by decide)]⟩

/-! ## One instruction -/

/-- The operands of a frame-local instruction are values that the decoder may
return. -/
def FrameInst.Decodable : FrameInst → Prop
  | .tableSwitch _ low high offsetTable =>
      offsetTable.length = (high - low + 1#32).toInt.toNat
  | .lookupSwitch _ npairs offsetTable => offsetTable.length = (npairs * 2#32).toInt.toNat
  | inst => inst.Encodable

/-- The same for every instruction. -/
def Instruction.Decodable : Instruction → Prop
  | .frame inst => inst.Decodable
  | inst => inst.Encodable

def Instruction.isWide : Instruction → Bool
  | .frame (.wide _) => true
  | _ => false

/-- The bytes behind the opcode of an instruction are its operands. -/
def FrameInst.Spells (pc opcode : Nat) (inst : FrameInst) (bytes : List Byte) : Prop :=
  inst.Decodable ∧ inst.opcode = opcode ∧ ∃ filler, bytes = inst.operands filler pc

def Instruction.Spells (pc opcode : Nat) (inst : Instruction) (bytes : List Byte) : Prop :=
  inst.Decodable ∧ inst.opcode = opcode ∧ ∃ filler, bytes = inst.operands filler pc

/-- Any bytes are the padding of some filler. -/
theorem exists_pad {pc : Nat} {bytes : List Byte} (length : bytes.length = padding (pc + 1)) :
    ∃ filler, bytes = pad filler pc := by
  refine ⟨fun i => bytes.getD i 0, ?_⟩
  apply List.ext_getElem?
  intro i
  rw [pad, ← length, List.getElem?_map]
  by_cases inside : i < bytes.length
  · simp [inside]
  · simp [inside]

/-- An instruction without operands. -/
theorem yields_plain {pc start : Nat} {blank : FrameInst} (decodable : blank.Decodable)
    (none : ∀ filler, blank.operands filler pc = []) :
    Yields (pure blank : BytecodeReader FrameInst) start (FrameInst.Spells pc blank.opcode) :=
  Reader.yields_pure start ⟨decodable, rfl, fun _ => 0, (none _).symm⟩

/-- An instruction with an offset. -/
theorem yields_branch {pc : Nat} {blank : FrameInst} {inst : BitVec 32 → FrameInst}
    (decodable : ∀ offset, FitsSigned 16 offset → (inst offset).Decodable)
    (opcode : ∀ offset, (inst offset).opcode = blank.opcode)
    (operands : ∀ offset filler, (inst offset).operands filler pc = offset16 offset) :
    Yields (do return inst (← fetchOffset)) (pc + 1) (FrameInst.Spells pc blank.opcode) := by
  apply (yields_fetchOffset _).map
  rintro offset bytes ⟨fits, rfl⟩
  exact ⟨decodable offset fits, opcode offset, fun _ => 0, (operands offset _).symm⟩

/-- The operands of a frame-local instruction are read from their bytes only. -/
theorem FrameInst.yields_fetchOperands (pc : Nat) {blank : FrameInst}
    (notWide : ∀ modified, blank ≠ .wide modified) :
    Yields blank.fetchOperands (pc + 1) (FrameInst.Spells pc blank.opcode) := by
  cases blank with
  | bipush val =>
      apply (yields_readUnsignedInt8 _).map
      rintro val bytes rfl
      exact ⟨trivial, rfl, fun _ => 0, rfl⟩
  | sipush val =>
      apply (yields_readUnsignedInt16 _).map
      rintro val bytes rfl
      exact ⟨trivial, rfl, fun _ => 0, rfl⟩
  | load kind index =>
      apply (yields_fetchIndex8 _).map
      rintro index bytes ⟨small, rfl⟩
      exact ⟨small, rfl, fun _ => 0, rfl⟩
  | store kind index =>
      apply (yields_fetchIndex8 _).map
      rintro index bytes ⟨small, rfl⟩
      exact ⟨small, rfl, fun _ => 0, rfl⟩
  | iinc index const =>
      apply (yields_fetchIndex8 _).bind
      rintro index bytes ⟨small, rfl⟩
      apply (yields_readUnsignedInt8 _).map
      rintro const bytes rfl
      refine ⟨⟨small, fitsSigned_signExtend (by decide) const⟩, rfl, fun _ => 0, ?_⟩
      rw [operands, setWidth_signExtend (by decide)]
  | if_ cond offset => exact yields_branch (fun _ fits => fits) (fun _ => rfl) (fun _ _ => rfl)
  | ifIcmp cond offset => exact yields_branch (fun _ fits => fits) (fun _ => rfl) (fun _ _ => rfl)
  | ifAcmpeq offset => exact yields_branch (fun _ fits => fits) (fun _ => rfl) (fun _ _ => rfl)
  | ifAcmpne offset => exact yields_branch (fun _ fits => fits) (fun _ => rfl) (fun _ _ => rfl)
  | goto offset => exact yields_branch (fun _ fits => fits) (fun _ => rfl) (fun _ _ => rfl)
  | ifnull offset => exact yields_branch (fun _ fits => fits) (fun _ => rfl) (fun _ _ => rfl)
  | ifnonnull offset => exact yields_branch (fun _ fits => fits) (fun _ => rfl) (fun _ _ => rfl)
  | gotoW offset =>
      apply (yields_readInt32 _).map
      rintro offset bytes rfl
      exact ⟨trivial, rfl, fun _ => 0, rfl⟩
  | tableSwitch defaultOffset low high offsetTable =>
      apply (yields_skipPadding _).bind
      rintro ⟨⟩ padBytes length
      obtain ⟨filler, rfl⟩ := exists_pad length
      apply (yields_readInt32 _).bind
      rintro defaultOffset bytes rfl
      apply (yields_readInt32 _).bind
      rintro low bytes rfl
      apply (yields_readInt32 _).bind
      rintro high bytes rfl
      apply (yields_readInt32s _ _).map
      rintro offsetTable bytes ⟨count, rfl⟩
      exact ⟨count, rfl, filler, rfl⟩
  | lookupSwitch defaultOffset npairs offsetTable =>
      apply (yields_skipPadding _).bind
      rintro ⟨⟩ padBytes length
      obtain ⟨filler, rfl⟩ := exists_pad length
      apply (yields_readInt32 _).bind
      rintro defaultOffset bytes rfl
      apply (yields_readInt32 _).bind
      rintro npairs bytes rfl
      apply (yields_readInt32s _ _).map
      rintro offsetTable bytes ⟨count, rfl⟩
      exact ⟨count, rfl, filler, rfl⟩
  | wide modified => exact absurd rfl (notWide modified)
  | _ => exact yields_plain trivial fun _ => rfl

/-- An instruction with an unsigned index of two bytes. -/
theorem yields_index16 {pc : Nat} {blank : Instruction} {inst : BitVec 32 → Instruction}
    (decodable : ∀ index : BitVec 32, index.toNat < 2 ^ 16 → (inst index).Decodable)
    (opcode : ∀ index, (inst index).opcode = blank.opcode)
    (operands : ∀ index filler, (inst index).operands filler pc = index16 index) :
    Yields (do return inst (← fetchIndex16)) (pc + 1) (Instruction.Spells pc blank.opcode) := by
  apply (yields_fetchIndex16 _).map
  rintro index bytes ⟨small, rfl⟩
  exact ⟨decodable index small, opcode index, fun _ => 0, (operands index _).symm⟩

/-- The same for every instruction. -/
theorem Instruction.yields_fetchOperands (pc : Nat) {blank : Instruction}
    (notWide : blank.isWide = false) :
    Yields blank.fetchOperands (pc + 1) (Instruction.Spells pc blank.opcode) := by
  cases blank with
  | frame inst =>
      have plain : ∀ modified, inst ≠ .wide modified := by
        rintro modified rfl
        cases notWide
      exact (inst.yields_fetchOperands pc plain).map fun _ _ spells => spells
  | ldc index =>
      apply (yields_fetchIndex8 _).map
      rintro index bytes ⟨small, rfl⟩
      exact ⟨small, rfl, fun _ => 0, rfl⟩
  | invokeInterface index =>
      apply (yields_fetchIndex16 _).bind
      rintro index bytes ⟨small, rfl⟩
      apply (yields_readUnsignedInt8 _).bind
      rintro first bytes rfl
      apply (yields_readUnsignedInt8 _).map
      rintro second bytes rfl
      exact ⟨small, rfl, fun i => if i = 0 then first else second, rfl⟩
  | newArray arrayType =>
      apply (yields_readUnsignedInt8 _).map
      rintro arrayType bytes rfl
      exact ⟨trivial, rfl, fun _ => 0, rfl⟩
  | multiAnewArray index dimensions =>
      apply (yields_readUnsignedInt16 _).bind
      rintro index bytes rfl
      apply (yields_readUnsignedInt8 _).map
      rintro dimensions bytes rfl
      exact ⟨trivial, rfl, fun _ => 0, rfl⟩
  | return_ kind => exact Reader.yields_pure _ ⟨trivial, rfl, fun _ => 0, rfl⟩
  | invokeNative => exact Reader.yields_pure _ ⟨trivial, rfl, fun _ => 0, rfl⟩
  | athrow => exact Reader.yields_pure _ ⟨trivial, rfl, fun _ => 0, rfl⟩
  | _ => exact yields_index16 (fun _ small => small) (fun _ => rfl) (fun _ _ => rfl)

/-- The factory makes an instruction of the opcode that it was asked for. -/
theorem opcode_createInstruction : ∀ opcode : Fin 256,
    ((createInstruction (BitVec.ofNat 8 opcode)).all fun blank =>
      blank.opcode == opcode.val) = true := by
  decide +kernel

theorem opcode_of_createInstruction {opcode : Byte} {blank : Instruction}
    (created : createInstruction opcode = some blank) : blank.opcode = opcode.toNat := by
  have checked := opcode_createInstruction ⟨opcode.toNat, opcode.isLt⟩
  simpa [created] using checked

/-- `wide` takes some bytes, too. -/
theorem yields_fetchWide (pc : Nat) : Yields fetchWide pc fun _ _ => True := by
  apply (yields_readUnsignedInt8 pc).bind
  intro opcode bytes _
  split
  all_goals first
    | exact (yields_fetchIndex16 _).map fun _ _ _ => trivial
    | exact (yields_fetchIndex16 _).bind fun _ _ _ =>
        (yields_readUnsignedInt16 _).map fun _ _ _ => trivial
    | exact Reader.yields_pure _ trivial

/-- The bytes that the decoder takes are the encoding of what it returns. -/
theorem yields_fetch (pc : Nat) :
    Yields fetch pc fun inst bytes =>
      inst.isWide = false → inst.Decodable ∧ ∃ filler, bytes = encode filler pc inst := by
  apply (yields_readUnsignedInt8 pc).bind
  rintro opcode bytes rfl
  cases created : createInstruction opcode with
  | none => exact nofun
  | some blank =>
      by_cases wide : blank.isWide = true
      · have isWide : ∃ modified, blank = .frame (.wide modified) := by
          unfold Instruction.isWide at wide
          split at wide
          · exact ⟨_, rfl⟩
          · cases wide
        obtain ⟨modified, rfl⟩ := isWide
        have fetched : Yields (FrameInst.wide modified).fetchOperands (pc + 1)
            fun inst _ => ∃ other, inst = .wide other :=
          (yields_fetchWide (pc + 1)).map fun other _ _ => ⟨other, rfl⟩
        apply fetched.map
        rintro inst bytes ⟨other, rfl⟩ notWide
        cases notWide
      · have spelled := blank.yields_fetchOperands pc (by simpa using wide)
        apply spelled.imp
        rintro inst bytes ⟨decodable, opcodeEq, filler, rfl⟩ _
        refine ⟨decodable, filler, ?_⟩
        rw [encode, opcodeEq, opcode_of_createInstruction created]
        simp

/-! ## Both directions -/

/-- A table of as many entries as the loop bound says. -/
theorem reads_readInt32s_of_toNat (pc : Nat) {n : BitVec 32} {values : List (BitVec 32)}
    (count : values.length = n.toInt.toNat) :
    Reads (readInt32s n) pc (values.flatMap be32) values := by
  rw [readInt32s, ← count]
  exact Reader.reads_times values (fun pc value _ => reads_readInt32 pc value) pc

/-- An encodable instruction that is no switch has at most four operand bytes. -/
theorem FrameInst.length_operands_le (filler : Nat → Byte) (pc : Nat) {inst : FrameInst}
    (notTable : ∀ defaultOffset low high table, inst ≠ .tableSwitch defaultOffset low high table)
    (notLookup : ∀ defaultOffset npairs table, inst ≠ .lookupSwitch defaultOffset npairs table) :
    (inst.operands filler pc).length ≤ 4 := by
  cases inst with
  | tableSwitch defaultOffset low high table => exact absurd rfl (notTable _ _ _ _)
  | lookupSwitch defaultOffset npairs table => exact absurd rfl (notLookup _ _ _)
  | _ => simp [operands, index8, offset16]

/-- What may be decoded is decoded from its encoding. -/
theorem FrameInst.reads_of_decodable (filler : Nat → Byte) (pc : Nat) {inst : FrameInst}
    (decodable : inst.Decodable) (notWide : ∀ modified, inst ≠ .wide modified) :
    ∃ blank : FrameInst, createInstruction (BitVec.ofNat 8 inst.opcode) = some (.frame blank) ∧
      Reads blank.fetchOperands (pc + 1) (inst.operands filler pc) inst := by
  cases inst with
  | tableSwitch defaultOffset low high offsetTable =>
      refine ⟨.tableSwitch 0 0 0 [], rfl, ?_⟩
      apply (reads_skipPadding _ _ (length_pad filler pc)).bind
      apply (reads_readInt32 _ defaultOffset).bind
      apply (reads_readInt32 _ low).bind
      apply (reads_readInt32 _ high).bind
      exact (reads_readInt32s_of_toNat _ decodable).map
        (FrameInst.tableSwitch defaultOffset low high)
  | lookupSwitch defaultOffset npairs offsetTable =>
      refine ⟨.lookupSwitch 0 0 [], rfl, ?_⟩
      apply (reads_skipPadding _ _ (length_pad filler pc)).bind
      apply (reads_readInt32 _ defaultOffset).bind
      apply (reads_readInt32 _ npairs).bind
      exact (reads_readInt32s_of_toNat _ decodable).map
        (FrameInst.lookupSwitch defaultOffset npairs)
  | wide modified => exact absurd rfl (notWide modified)
  | _ =>
      refine FrameInst.exists_blank filler pc ?_ ?_
      · exact decodable
      · exact Nat.lt_of_le_of_lt (FrameInst.length_operands_le filler pc nofun nofun) (by decide)

theorem Instruction.reads_of_decodable (filler : Nat → Byte) (pc : Nat) {inst : Instruction}
    (decodable : inst.Decodable) (notWide : inst.isWide = false) :
    Reads fetch pc (encode filler pc inst) inst := by
  cases inst with
  | frame inst =>
      have plain : ∀ modified, inst ≠ .wide modified := by
        rintro modified rfl
        cases notWide
      rcases inst.reads_of_decodable filler pc decodable plain with ⟨blank, created, fetched⟩
      exact reads_fetch created (fetched.map Instruction.frame)
  | _ => exact reads_encode filler pc decodable (by simp [encode, operands, index8, index16])

/-- The decoder returns an instruction other than `wide` and an address if and only
if the encoding of a decodable instruction stands there and ends at that address. -/
theorem fetch_iff {code : List Byte} {pc next : Nat} {inst : Instruction}
    (notWide : inst.isWide = false) :
    (∃ cursor, fetch.runAt code pc = .ok (inst, cursor) ∧ cursor.pos = next) ↔
      inst.Decodable ∧ ∃ filler, encode filler pc inst <+: code.drop pc ∧
        next = pc + (encode filler pc inst).length := by
  constructor
  · rintro ⟨cursor, fetched, rfl⟩
    rcases yields_fetch pc fetched with ⟨bytes, standing, ends, spelled⟩
    rcases spelled notWide with ⟨decodable, filler, rfl⟩
    exact ⟨decodable, filler, standing, ends⟩
  · rintro ⟨decodable, filler, standing, rfl⟩
    rcases Instruction.reads_of_decodable filler pc decodable notWide code 0 standing with
      ⟨touched, fetched, -⟩
    exact ⟨_, fetched, rfl⟩

/-! ## Code arrays -/

/-- Bytes are the encodings of instructions at these addresses, one behind the
other; each may have fillers of its own. -/
inductive Assembles : Nat → List (Nat × Instruction) → List Byte → Prop where
  | nil (pc : Nat) : Assembles pc [] []
  | cons {pc : Nat} {inst : Instruction} {listing : List (Nat × Instruction)} {bytes : List Byte}
      (filler : Nat → Byte) :
      inst.Decodable → Assembles (pc + (encode filler pc inst).length) listing bytes →
      Assembles pc ((pc, inst) :: listing) (encode filler pc inst ++ bytes)

/-- What a fetch leaves of the code. -/
theorem drop_of_standing {code bytes : List Byte} {pc : Nat} (standing : bytes <+: code.drop pc) :
    code.drop pc = bytes ++ code.drop (pc + bytes.length) := by
  rcases standing with ⟨left, split⟩
  rw [← List.drop_drop, ← split, List.drop_left]

theorem assembles_of_decodeFrom {code : List Byte} {fuel pc : Nat}
    {listing : List (Nat × Instruction)} (enough : code.length ≤ fuel + pc)
    (notWide : ∀ entry ∈ listing, entry.2.isWide = false)
    (decoded : decodeFrom code fuel pc = .ok listing) : Assembles pc listing (code.drop pc) := by
  induction fuel generalizing pc listing with
  | zero =>
      cases decoded
      rw [List.drop_eq_nil_of_le (by simpa using enough)]
      exact .nil pc
  | succ fuel ih =>
      rw [decodeFrom] at decoded
      split at decoded
      · rcases Exec.bind_eq_ok.mp decoded with ⟨⟨inst, cursor⟩, fetched, others⟩
        rcases Exec.bind_eq_ok.mp others with ⟨rest, restEq, same⟩
        cases same
        obtain ⟨instNotWide, restNotWide⟩ := List.forall_mem_cons.mp notWide
        rcases (fetch_iff instNotWide).mp ⟨cursor, fetched, rfl⟩ with
          ⟨decodable, filler, standing, ends⟩
        have positive := length_encode_pos filler pc inst
        rw [ends] at restEq
        rw [drop_of_standing standing]
        exact .cons filler decodable (ih (by omega) restNotWide restEq)
      · cases decoded
        rw [List.drop_eq_nil_of_le (by omega)]
        exact .nil pc

theorem decodeFrom_of_assembles {code bytes : List Byte} {fuel pc : Nat}
    {listing : List (Nat × Instruction)} (assembles : Assembles pc listing bytes)
    (here : code.drop pc = bytes) (enough : code.length ≤ fuel + pc)
    (notWide : ∀ entry ∈ listing, entry.2.isWide = false) :
    decodeFrom code fuel pc = .ok listing := by
  induction assembles generalizing fuel with
  | nil pc =>
      cases fuel with
      | zero => rfl
      | succ fuel =>
          rw [decodeFrom, if_neg (Nat.not_lt.mpr (List.drop_eq_nil_iff.mp here))]
  | @cons pc inst listing bytes filler decodable assembles ih =>
      obtain ⟨instNotWide, restNotWide⟩ := List.forall_mem_cons.mp notWide
      have standing : encode filler pc inst <+: code.drop pc := ⟨bytes, here.symm⟩
      have positive := length_encode_pos filler pc inst
      have inside : pc < code.length := by
        have bound := standing.length_le
        rw [List.length_drop] at bound
        omega
      rcases (fetch_iff instNotWide).mpr ⟨decodable, filler, standing, rfl⟩ with
        ⟨cursor, fetched, ends⟩
      have left : code.drop (pc + (encode filler pc inst).length) = bytes := by
        have split := drop_of_standing standing
        rw [here] at split
        exact (List.append_cancel_left split).symm
      cases fuel with
      | zero => omega
      | succ fuel =>
          rw [decodeFrom, if_pos inside, fetched, Exec.bind_ok]
          dsimp only
          rw [ends, ih left (by omega) restNotWide]
          rfl

/-- Decoding a code array from its beginning to its end lists instructions other
than `wide` if and only if the array consists of the encodings of exactly these
instructions at exactly these addresses.  Class data are short enough for addresses
of type `int32_t`. -/
theorem decodeAll_iff {code : List Byte} {listing : List (Nat × Instruction)}
    (_short : code.length < 2 ^ 31) (notWide : ∀ entry ∈ listing, entry.2.isWide = false) :
    decodeAll code = .ok listing ↔ Assembles 0 listing code := by
  constructor
  · intro decoded
    exact assembles_of_decodeFrom (Nat.le_refl _) notWide decoded
  · intro assembles
    exact decodeFrom_of_assembles assembles rfl (Nat.le_refl _) notWide

/-- A `tableswitch` from 1 to 0, which has no offsets. -/
def emptyTable : List (Nat × Instruction) :=
  [(0, .frame (.tableSwitch 16#32 1#32 0#32 [])), (16, .return_ none)]

theorem decodeAll_iff_emptyTable :
    (∀ entry ∈ emptyTable, entry.2.isWide = false) ∧
      decodeAll [0xaa, 7, 7, 7, 0, 0, 0, 16, 0, 0, 0, 1, 0, 0, 0, 0, 0xb1] = .ok emptyTable := by
  have assembles : Assembles 0 emptyTable
      (encode (fun _ => 7) 0 (.frame (.tableSwitch 16#32 1#32 0#32 [])) ++
        (encode (fun _ => 7) 16 (.return_ none) ++ [])) :=
    .cons _ rfl (.cons _ trivial (.nil _))
  exact ⟨by decide, (decodeAll_iff (by decide) (by decide)).mpr assembles⟩

end JvmDemo.Instructions
