import JvmDemo.Instructions.Encoding

/-!
# Decoding inverts the instruction format

At every address the interpreter's decoder returns the instruction that is laid
out there and stops behind its last byte.  Decoding a code array one
instruction after the other therefore visits exactly the boundaries of the
instructions it was assembled from.
-/

namespace JvmDemo.Instructions

open JvmDemo.Lib
open JvmDemo.Runtime
open JvmDemo.Lib.Reader (Reads)
open BytecodeReader

/-! ## Operand shapes -/

theorem setWidth_setWidth_of_lt {width : Nat} {value : BitVec 32}
    (small : value.toNat < 2 ^ width) : (value.setWidth width).setWidth 32 = value := by
  apply BitVec.eq_of_toNat_eq
  simp only [BitVec.toNat_setWidth]
  rw [Nat.mod_eq_of_lt small, Nat.mod_eq_of_lt value.isLt]

theorem reads_fetchIndex8 (pc : Nat) {index : BitVec 32} (small : index.toNat < 2 ^ 8) :
    Reads fetchIndex8 pc (index8 index) index := by
  have widened := (reads_readUnsignedInt8 pc (index.setWidth 8)).map (BitVec.setWidth 32)
  rwa [setWidth_setWidth_of_lt small] at widened

theorem reads_fetchIndex16 (pc : Nat) {index : BitVec 32} (small : index.toNat < 2 ^ 16) :
    Reads fetchIndex16 pc (index16 index) index := by
  have widened := (reads_readUnsignedInt16 pc (index.setWidth 16)).map (BitVec.setWidth 32)
  rwa [setWidth_setWidth_of_lt small] at widened

theorem reads_fetchOffset (pc : Nat) {offset : BitVec 32} (fits : FitsSigned 16 offset) :
    Reads fetchOffset pc (offset16 offset) offset := by
  have widened := (reads_readUnsignedInt16 pc (offset.setWidth 16)).map (BitVec.signExtend 32)
  rwa [fits] at widened

theorem length_pad (filler : Nat → Byte) (pc : Nat) :
    (pad filler pc).length = padding (pc + 1) := by
  simp [pad]

/-- A count that fits in a code array is below the signed range. -/
theorem bmod_of_lt {count : Nat} (small : count < 2 ^ 31) :
    (count : Int).bmod (2 ^ 32) = count := by
  apply Int.bmod_eq_of_le <;> omega

theorem toInt_tableCount {low high : BitVec 32} {count : Nat} (small : count < 2 ^ 31)
    (tableCount : (count : Int) = high.toInt - low.toInt + 1) :
    (high - low + 1#32).toInt = count := by
  have wrapped : (high - low + 1#32).toInt = (high.toInt - low.toInt + 1).bmod (2 ^ 32) := by
    simp [BitVec.toInt_add, BitVec.toInt_sub]
  rw [wrapped, ← tableCount, bmod_of_lt small]

theorem toInt_pairCount {npairs : BitVec 32} {count : Nat} (small : count < 2 ^ 31)
    (pairCount : (count : Int) = 2 * npairs.toInt) : (npairs * 2#32).toInt = count := by
  have wrapped : (npairs * 2#32).toInt = (2 * npairs.toInt).bmod (2 ^ 32) := by
    simp [BitVec.toInt_mul, Int.mul_comm]
  rw [wrapped, ← pairCount, bmod_of_lt small]

/-- A table is shorter than the code array that has it. -/
theorem length_le_length_flatMap_be32 (values : List (BitVec 32)) :
    values.length ≤ (values.flatMap be32).length := by
  induction values with
  | nil => simp
  | cons value values ih =>
      simp only [List.flatMap_cons, List.length_append, List.length_cons, length_be32]
      omega

/-! ## One instruction -/

/-- The decoder takes an opcode, then what the factory's instruction asks for. -/
theorem reads_fetch {pc opcode : Nat} {blank inst : Instruction} {operands : List Byte}
    (created : createInstruction (BitVec.ofNat 8 opcode) = some blank)
    (fetched : Reads blank.fetchOperands (pc + 1) operands inst) :
    Reads fetch pc (BitVec.ofNat 8 opcode :: operands) inst := by
  apply Reader.reads_next_bind
  rw [created]
  exact fetched

/-- The factory's rows for the numbered constants, loads and stores. -/
theorem createInstruction_numbered :
    (∀ number, createInstruction (BitVec.ofNat 8 (FrameInst.iconst number).opcode) =
        some (.frame (.iconst number))) ∧
    (∀ number, createInstruction (BitVec.ofNat 8 (FrameInst.lconst number).opcode) =
        some (.frame (.lconst number))) ∧
    (∀ number, createInstruction (BitVec.ofNat 8 (FrameInst.fconst number).opcode) =
        some (.frame (.fconst number))) ∧
    (∀ number, createInstruction (BitVec.ofNat 8 (FrameInst.dconst number).opcode) =
        some (.frame (.dconst number))) := by
  decide

theorem createInstruction_loadN (kind : Kind) : ∀ number,
    createInstruction (BitVec.ofNat 8 (FrameInst.loadN kind number).opcode) =
      some (.frame (.loadN kind number)) := by
  cases kind <;> decide

theorem createInstruction_storeN (kind : Kind) : ∀ number,
    createInstruction (BitVec.ofNat 8 (FrameInst.storeN kind number).opcode) =
      some (.frame (.storeN kind number)) := by
  cases kind <;> decide

/-- The factory makes every frame-local instruction from its opcode, up to the
operands, and the operands are then read from their bytes. -/
theorem FrameInst.exists_blank (filler : Nat → Byte) (pc : Nat) {inst : FrameInst}
    (encodable : inst.Encodable) (short : (inst.operands filler pc).length < 2 ^ 31) :
    ∃ blank : FrameInst, createInstruction (BitVec.ofNat 8 inst.opcode) = some (.frame blank) ∧
      Reads blank.fetchOperands (pc + 1) (inst.operands filler pc) inst := by
  have plain : ∀ blank : FrameInst, blank.fetchOperands = pure blank →
      Reads blank.fetchOperands (pc + 1) [] blank := by
    intro blank noOperands
    rw [noOperands]
    exact Reader.reads_pure blank _
  cases inst with
  | nop => exact ⟨.nop, rfl, plain _ rfl⟩
  | aconstNull => exact ⟨_, rfl, plain _ rfl⟩
  | iconst number => exact ⟨.iconst number, createInstruction_numbered.1 number, plain _ rfl⟩
  | lconst number => exact ⟨.lconst number, createInstruction_numbered.2.1 number, plain _ rfl⟩
  | fconst number => exact ⟨.fconst number, createInstruction_numbered.2.2.1 number, plain _ rfl⟩
  | dconst number => exact ⟨.dconst number, createInstruction_numbered.2.2.2 number, plain _ rfl⟩
  | bipush val => exact ⟨.bipush 0, rfl, (reads_readUnsignedInt8 _ val).map FrameInst.bipush⟩
  | sipush val => exact ⟨.sipush 0, rfl, (reads_readUnsignedInt16 _ val).map FrameInst.sipush⟩
  | load kind index =>
      exact ⟨.load kind 0, by cases kind <;> rfl,
        (reads_fetchIndex8 _ encodable).map (FrameInst.load kind)⟩
  | loadN kind number =>
      exact ⟨.loadN kind number, createInstruction_loadN kind number, plain _ rfl⟩
  | arrayLoad elem => exact ⟨.arrayLoad elem, by cases elem <;> rfl, plain _ rfl⟩
  | store kind index =>
      exact ⟨.store kind 0, by cases kind <;> rfl,
        (reads_fetchIndex8 _ encodable).map (FrameInst.store kind)⟩
  | storeN kind number =>
      exact ⟨.storeN kind number, createInstruction_storeN kind number, plain _ rfl⟩
  | arrayStore elem => exact ⟨.arrayStore elem, by cases elem <;> rfl, plain _ rfl⟩
  | pop => exact ⟨_, rfl, plain _ rfl⟩
  | pop2 => exact ⟨_, rfl, plain _ rfl⟩
  | dup => exact ⟨_, rfl, plain _ rfl⟩
  | dupX1 => exact ⟨_, rfl, plain _ rfl⟩
  | dupX2 => exact ⟨_, rfl, plain _ rfl⟩
  | dup2 => exact ⟨_, rfl, plain _ rfl⟩
  | dup2X1 => exact ⟨_, rfl, plain _ rfl⟩
  | dup2X2 => exact ⟨_, rfl, plain _ rfl⟩
  | swap => exact ⟨_, rfl, plain _ rfl⟩
  | add type => exact ⟨.add type, by cases type <;> rfl, plain _ rfl⟩
  | sub type => exact ⟨.sub type, by cases type <;> rfl, plain _ rfl⟩
  | mul type => exact ⟨.mul type, by cases type <;> rfl, plain _ rfl⟩
  | div type => exact ⟨.div type, by cases type <;> rfl, plain _ rfl⟩
  | irem type => exact ⟨.irem type, by cases type <;> rfl, plain _ rfl⟩
  | frem type => exact ⟨.frem type, by cases type <;> rfl, plain _ rfl⟩
  | neg type => exact ⟨.neg type, by cases type <;> rfl, plain _ rfl⟩
  | shl type => exact ⟨.shl type, by cases type <;> rfl, plain _ rfl⟩
  | shr type => exact ⟨.shr type, by cases type <;> rfl, plain _ rfl⟩
  | ushr type => exact ⟨.ushr type, by cases type <;> rfl, plain _ rfl⟩
  | and type => exact ⟨.and type, by cases type <;> rfl, plain _ rfl⟩
  | or type => exact ⟨.or type, by cases type <;> rfl, plain _ rfl⟩
  | xor type => exact ⟨.xor type, by cases type <;> rfl, plain _ rfl⟩
  | iinc index const =>
      obtain ⟨small, fits⟩ := encodable
      have widened := (reads_readUnsignedInt8 (pc + 1 + 1) (const.setWidth 8)).map
        fun value => FrameInst.iinc index (value.signExtend 32)
      rw [fits] at widened
      exact ⟨.iinc 0 0, rfl, (reads_fetchIndex8 _ small).bind widened⟩
  | t2r conversion => exact ⟨.t2r conversion, by cases conversion <;> rfl, plain _ rfl⟩
  | i2r result => exact ⟨.i2r result, by cases result <;> rfl, plain _ rfl⟩
  | lcmp => exact ⟨_, rfl, plain _ rfl⟩
  | fcmpl type => exact ⟨.fcmpl type, by cases type <;> rfl, plain _ rfl⟩
  | fcmpg type => exact ⟨.fcmpg type, by cases type <;> rfl, plain _ rfl⟩
  | if_ cond offset =>
      exact ⟨.if_ cond 0, by cases cond <;> rfl,
        (reads_fetchOffset _ encodable).map (FrameInst.if_ cond)⟩
  | ifIcmp cond offset =>
      exact ⟨.ifIcmp cond 0, by cases cond <;> rfl,
        (reads_fetchOffset _ encodable).map (FrameInst.ifIcmp cond)⟩
  | ifAcmpeq offset =>
      exact ⟨.ifAcmpeq 0, rfl, (reads_fetchOffset _ encodable).map FrameInst.ifAcmpeq⟩
  | ifAcmpne offset =>
      exact ⟨.ifAcmpne 0, rfl, (reads_fetchOffset _ encodable).map FrameInst.ifAcmpne⟩
  | goto offset => exact ⟨.goto 0, rfl, (reads_fetchOffset _ encodable).map FrameInst.goto⟩
  | tableSwitch defaultOffset low high offsetTable =>
      have small : offsetTable.length < 2 ^ 31 := by
        have tableShort := length_le_length_flatMap_be32 offsetTable
        simp only [operands, List.length_append] at short
        omega
      refine ⟨.tableSwitch 0 0 0 [], rfl, ?_⟩
      refine (reads_skipPadding _ _ (length_pad filler pc)).bind ?_
      refine (reads_readInt32 _ defaultOffset).bind ?_
      refine (reads_readInt32 _ low).bind ?_
      refine (reads_readInt32 _ high).bind ?_
      exact (reads_readInt32s _ (toInt_tableCount small encodable.2)).map
        (FrameInst.tableSwitch defaultOffset low high)
  | lookupSwitch defaultOffset npairs offsetTable =>
      have small : offsetTable.length < 2 ^ 31 := by
        have tableShort := length_le_length_flatMap_be32 offsetTable
        simp only [operands, List.length_append] at short
        omega
      refine ⟨.lookupSwitch 0 0 [], rfl, ?_⟩
      refine (reads_skipPadding _ _ (length_pad filler pc)).bind ?_
      refine (reads_readInt32 _ defaultOffset).bind ?_
      refine (reads_readInt32 _ npairs).bind ?_
      exact (reads_readInt32s _ (toInt_pairCount small encodable)).map
        (FrameInst.lookupSwitch defaultOffset npairs)
  | arrayLength => exact ⟨_, rfl, plain _ rfl⟩
  | wide modifiedIns => exact encodable.elim
  | ifnull offset => exact ⟨.ifnull 0, rfl, (reads_fetchOffset _ encodable).map FrameInst.ifnull⟩
  | ifnonnull offset =>
      exact ⟨.ifnonnull 0, rfl, (reads_fetchOffset _ encodable).map FrameInst.ifnonnull⟩
  | gotoW offset => exact ⟨.gotoW 0, rfl, (reads_readInt32 _ offset).map FrameInst.gotoW⟩

/-- The same for every instruction. -/
theorem Instruction.exists_blank (filler : Nat → Byte) (pc : Nat) {inst : Instruction}
    (encodable : inst.Encodable) (short : (inst.operands filler pc).length < 2 ^ 31) :
    ∃ blank : Instruction, createInstruction (BitVec.ofNat 8 inst.opcode) = some blank ∧
      Reads blank.fetchOperands (pc + 1) (inst.operands filler pc) inst := by
  cases inst with
  | frame inst =>
      obtain ⟨blank, created, fetched⟩ := FrameInst.exists_blank filler pc encodable short
      exact ⟨.frame blank, created, fetched.map Instruction.frame⟩
  | ldc index => exact ⟨.ldc 0, rfl, (reads_fetchIndex8 _ encodable).map Instruction.ldc⟩
  | ldcW index => exact ⟨.ldcW 0, rfl, (reads_fetchIndex16 _ encodable).map Instruction.ldcW⟩
  | ldc2W index => exact ⟨.ldc2W 0, rfl, (reads_fetchIndex16 _ encodable).map Instruction.ldc2W⟩
  | return_ kind =>
      refine ⟨.return_ kind, ?_, Reader.reads_pure _ _⟩
      cases kind with
      | none => rfl
      | some kind => cases kind <;> rfl
  | getStatic index =>
      exact ⟨.getStatic 0, rfl, (reads_fetchIndex16 _ encodable).map Instruction.getStatic⟩
  | putStatic index =>
      exact ⟨.putStatic 0, rfl, (reads_fetchIndex16 _ encodable).map Instruction.putStatic⟩
  | getField index =>
      exact ⟨.getField 0, rfl, (reads_fetchIndex16 _ encodable).map Instruction.getField⟩
  | putField index =>
      exact ⟨.putField 0, rfl, (reads_fetchIndex16 _ encodable).map Instruction.putField⟩
  | invokeVirtual index =>
      exact ⟨.invokeVirtual 0, rfl, (reads_fetchIndex16 _ encodable).map Instruction.invokeVirtual⟩
  | invokeSpecial index =>
      exact ⟨.invokeSpecial 0, rfl, (reads_fetchIndex16 _ encodable).map Instruction.invokeSpecial⟩
  | invokeStatic index =>
      exact ⟨.invokeStatic 0, rfl, (reads_fetchIndex16 _ encodable).map Instruction.invokeStatic⟩
  | invokeInterface index =>
      refine ⟨.invokeInterface 0, rfl, (reads_fetchIndex16 _ encodable).bind ?_⟩
      apply Reader.reads_next_bind
      apply Reader.reads_next_bind
      exact Reader.reads_pure _ _
  | invokeNative => exact ⟨.invokeNative, rfl, Reader.reads_pure _ _⟩
  | new_ index => exact ⟨.new_ 0, rfl, (reads_fetchIndex16 _ encodable).map Instruction.new_⟩
  | newArray arrayType =>
      exact ⟨.newArray 0, rfl, (reads_readUnsignedInt8 _ arrayType).map Instruction.newArray⟩
  | anewArray index =>
      exact ⟨.anewArray 0, rfl, (reads_fetchIndex16 _ encodable).map Instruction.anewArray⟩
  | athrow => exact ⟨.athrow, rfl, Reader.reads_pure _ _⟩
  | checkCast index =>
      exact ⟨.checkCast 0, rfl, (reads_fetchIndex16 _ encodable).map Instruction.checkCast⟩
  | instanceOf index =>
      exact ⟨.instanceOf 0, rfl, (reads_fetchIndex16 _ encodable).map Instruction.instanceOf⟩
  | multiAnewArray index dimensions =>
      exact ⟨.multiAnewArray 0 0, rfl, (reads_readUnsignedInt16 _ index).bind
        ((reads_readUnsignedInt8 _ dimensions).map (Instruction.multiAnewArray index))⟩

/-- The decoder reads an instruction from its bytes. -/
theorem reads_encode (filler : Nat → Byte) (pc : Nat) {inst : Instruction}
    (encodable : inst.Encodable) (short : (encode filler pc inst).length < 2 ^ 31) :
    Reads fetch pc (encode filler pc inst) inst := by
  have operandsShort : (inst.operands filler pc).length < 2 ^ 31 := by
    simp only [encode, List.length_cons] at short
    omega
  obtain ⟨blank, created, fetched⟩ := Instruction.exists_blank filler pc encodable operandsShort
  exact reads_fetch created fetched

/-- The decoder finds the instruction that is laid out at an address. -/
theorem fetch_of_encoded {filler : Nat → Byte} {code : List Byte} {pc : Nat} {inst : Instruction}
    (encodable : inst.Encodable) (short : code.length < 2 ^ 31)
    (laidOut : encode filler pc inst <+: code.drop pc) :
    ∃ touched, fetch.runAt code pc =
      .ok (inst, ⟨pc + (encode filler pc inst).length, touched⟩) := by
  have instShort : (encode filler pc inst).length < 2 ^ 31 := by
    have inside := laidOut.length_le
    simp only [List.length_drop] at inside
    omega
  obtain ⟨touched, result, -⟩ := reads_encode filler pc encodable instShort code 0 laidOut
  exact ⟨touched, result⟩

/-! ## Code arrays -/

/-- Decode one instruction after the other from `pc` to the end of the code,
with the addresses at which they were found. -/
def decodeFrom (code : List Byte) : Nat → Nat → Exec (List (Nat × Instruction))
  | 0, _ => .ok []
  | fuel + 1, pc =>
      if pc < code.length then do
        let (inst, cursor) ← fetch.runAt code pc
        let rest ← decodeFrom code fuel cursor.pos
        pure ((pc, inst) :: rest)
      else .ok []

/-- Decode a whole code array; every instruction has at least one byte. -/
def decodeAll (code : List Byte) : Exec (List (Nat × Instruction)) :=
  decodeFrom code code.length 0

/-- Decoding the rest of an assembled code array lists the rest of its
instructions. -/
theorem decodeFrom_encodeAll (filler : Nat → Byte) {code : List Byte} (short : code.length < 2 ^ 31)
    (insts : List Instruction) (encodable : ∀ inst ∈ insts, inst.Encodable) (fuel pc : Nat)
    (rest : code.drop pc = encodeAll filler pc insts) (enough : insts.length ≤ fuel) :
    decodeFrom code fuel pc = .ok (listing filler pc insts) := by
  induction insts generalizing fuel pc with
  | nil =>
      have ended : ¬ pc < code.length := by
        have empty : code.drop pc = [] := rest
        rw [List.drop_eq_nil_iff] at empty
        omega
      cases fuel with
      | zero => rfl
      | succ fuel => rw [decodeFrom, if_neg ended]; rfl
  | cons inst insts ih =>
      obtain ⟨fuel, rfl⟩ : ∃ previous, fuel = previous + 1 :=
        ⟨fuel - 1, by simp only [List.length_cons] at enough; omega⟩
      rw [encodeAll] at rest
      have inside : pc < code.length := by
        have positive := length_encode_pos filler pc inst
        have length_rest := congrArg List.length rest
        simp only [List.length_drop, List.length_append] at length_rest
        omega
      obtain ⟨touched, decoded⟩ :=
        fetch_of_encoded (encodable inst List.mem_cons_self) short ⟨_, rest.symm⟩
      have tail := ih (fun inst mem => encodable inst (List.mem_cons_of_mem _ mem)) fuel
        (pc + (encode filler pc inst).length)
        (by rw [← List.drop_drop, rest, List.drop_left])
        (by simp only [List.length_cons] at enough; omega)
      rw [decodeFrom, if_pos inside, decoded]
      simp [tail, listing, pure, Except.pure]

theorem decodeAll_encodeAll (filler : Nat → Byte) {insts : List Instruction}
    (encodable : ∀ inst ∈ insts, inst.Encodable)
    (short : (encodeAll filler 0 insts).length < 2 ^ 31) :
    decodeAll (encodeAll filler 0 insts) = .ok (listing filler 0 insts) :=
  decodeFrom_encodeAll filler short insts encodable _ 0 rfl (length_le_length_encodeAll _ _ _)

/-! ## The supported opcodes -/

/-- An instruction of the factory with operands in range: the table of a
`tableswitch` has at least one entry. -/
def withOperands : Instruction → Instruction
  | .frame (.tableSwitch _ _ _ _) => .frame (.tableSwitch 0 0 0 [0])
  | inst => inst

theorem createInstruction_encodable : ∀ opcode : Fin 256, opcode ≠ 0xc4 →
    ((createInstruction (BitVec.ofNat 8 opcode)).all fun inst =>
      decide (withOperands inst).Encodable && (withOperands inst).opcode == opcode.val) = true := by
  decide +kernel

/-- Apart from `wide`, every opcode that the factory supports is the opcode of
an instruction of the format. -/
theorem exists_encodable_of_isSome {opcode : Byte} (notWide : opcode ≠ 0xc4#8)
    (supported : (createInstruction opcode).isSome) :
    ∃ inst : Instruction, inst.Encodable ∧ BitVec.ofNat 8 inst.opcode = opcode := by
  obtain ⟨inst, created⟩ := Option.isSome_iff_exists.mp supported
  have checked := createInstruction_encodable ⟨opcode.toNat, opcode.isLt⟩ (by
    intro wide
    exact notWide (BitVec.eq_of_toNat_eq (congrArg Fin.val wide)))
  simp only [BitVec.ofNat_toNat, BitVec.setWidth_eq, created, Option.all_some, Bool.and_eq_true,
    decide_eq_true_eq, beq_iff_eq] at checked
  exact ⟨withOperands inst, checked.1, by simp [checked.2]⟩

/-! ## Main result -/

/-- Decoding inverts encoding: for every supported opcode other than `wide`
there is a format; at whatever address an instruction is laid out, the decoder
returns it with its operands and stops behind its last byte; and decoding an
assembled code array lists its instructions at their boundaries. -/
theorem decode_encode :
    (∀ opcode : Byte, (createInstruction opcode).isSome → opcode ≠ 0xc4#8 →
      ∃ inst : Instruction, inst.Encodable ∧ BitVec.ofNat 8 inst.opcode = opcode) ∧
    (∀ (filler : Nat → Byte) (code : List Byte) (pc : Nat) (inst : Instruction),
      inst.Encodable → code.length < 2 ^ 31 → encode filler pc inst <+: code.drop pc →
        ∃ touched, fetch.runAt code pc =
          .ok (inst, ⟨pc + (encode filler pc inst).length, touched⟩)) ∧
    (∀ (filler : Nat → Byte) (insts : List Instruction), (∀ inst ∈ insts, inst.Encodable) →
      (encodeAll filler 0 insts).length < 2 ^ 31 →
        decodeAll (encodeAll filler 0 insts) = .ok (listing filler 0 insts)) := by
  refine ⟨?_, ?_, ?_⟩
  · intro opcode supported notWide
    exact exists_encodable_of_isSome notWide supported
  · intro filler code pc inst encodable short laidOut
    exact fetch_of_encoded encodable short laidOut
  · intro filler insts encodable short
    exact decodeAll_encodeAll filler encodable short

/-- A switch behind a one-byte instruction, hence with two bytes of padding. -/
def sampleCode : List Instruction :=
  [.frame .nop, .frame (.tableSwitch 32#32 (-1#32) 0#32 [7#32, -9#32]), .frame (.iinc 3#32 (-2#32)),
    .invokeInterface 513#32, .return_ none]

theorem decode_encode_sampleCode :
    (∀ inst ∈ sampleCode, inst.Encodable) ∧ (encodeAll (fun _ => 0) 0 sampleCode).length < 2 ^ 31 ∧
      (listing (fun _ => 0) 0 sampleCode).map Prod.fst = [0, 1, 24, 27, 32] ∧
      decodeAll (encodeAll (fun _ => 0) 0 sampleCode) =
        .ok (listing (fun _ => 0) 0 sampleCode) ∧
      ∃ touched, fetch.runAt (encodeAll (fun _ => 0) 0 sampleCode) 1 =
        .ok (.frame (.tableSwitch 32#32 (-1#32) 0#32 [7#32, -9#32]), ⟨24, touched⟩) := by
  have encodable : ∀ inst ∈ sampleCode, inst.Encodable := by decide
  have short : (encodeAll (fun _ => 0) 0 sampleCode).length < 2 ^ 31 := by decide
  refine ⟨encodable, short, by decide, decode_encode.2.2 _ _ encodable short, ?_⟩
  exact decode_encode.2.1 (fun _ => 0) _ 1 _ (by decide) short (by decide)

end JvmDemo.Instructions
