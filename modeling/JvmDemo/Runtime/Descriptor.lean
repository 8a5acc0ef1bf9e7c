import JvmDemo.Runtime.Class

/-!
# Method descriptors and the number of argument slots

`ParseMethodDescriptor` splits the text between the parentheses into parameter
types, and `CalcArgSlotCount` counts two slots for `J` and `D` and one for every
other type, with one more for the receiver of an instance method.

For the text of any list of parameter types, the count is the number of local
variable indices that the compiler gives the parameters.
-/

namespace JvmDemo.Runtime

open JvmDemo.Lib

/-! ## The parser -/

/-- `std::string::find` of one character. -/
def find (text : Str) (byte : Byte) : Option Nat := text.findIdx? (· == byte)

/-- The loop of `ParseMethodDescriptor`.  A type that starts with `L` and has no
semicolon leaves the text as it is, and the loop never ends; every other round
shortens it. -/
def parseParams : Nat → Bool → Str → Exec (List Str)
  | 0, _, _ => .error .diverges
  | _ + 1, _, [] => pure []
  | fuel + 1, isArray, first :: rest =>
      if first == chr 'L' then do
        let taken := match find (first :: rest) (chr ';') with
          | some semicolonIndex => semicolonIndex + 1
          | none => 0
        let type := (first :: rest).take taken
        let types ← parseParams fuel false ((first :: rest).drop taken)
        pure ((if isArray then chr '[' :: type else type) :: types)
      else if first == chr '[' then parseParams fuel true rest
      else do
        let types ← parseParams fuel false rest
        pure ((if isArray then [chr '[', first] else [first]) :: types)

/-- The text between the parentheses, as the two `substr` calls cut it. -/
def paramStr (descriptor : Str) : Str :=
  let start := match find descriptor (chr '(') with
    | some index => index + 1
    | none => 0
  match find descriptor (chr ')') with
  | some stop => if start ≤ stop then (descriptor.drop start).take (stop - start)
      else descriptor.drop start
  | none => descriptor.drop start

/-- The parameter types of `ParseMethodDescriptor`. -/
def parameterTypes (descriptor : Str) : Exec (List Str) :=
  parseParams ((paramStr descriptor).length + 1) false (paramStr descriptor)

/-- The return type of `ParseMethodDescriptor`. -/
def returnType (descriptor : Str) : Str :=
  match find descriptor (chr ')') with
  | some stop => descriptor.drop (stop + 1)
  | none => descriptor

/-- The slots that `CalcArgSlotCount` counts for a type. -/
def argSlots (paramType : Str) : Nat :=
  if paramType == str "J" || paramType == str "D" then 2 else 1

/-- `CalcArgSlotCount`. -/
def calcArgSlotCount (isStatic : Bool) (paramTypes : List Str) : Nat :=
  (paramTypes.map argSlots).sum + if isStatic then 0 else 1

/-! ## Construction of methods -/

/-- What the constructor reads of a `Code` attribute; the catch types are
resolved against the constant pool. -/
structure CodeInfo where
  maxStack : BitVec 16
  maxLocals : BitVec 16
  codes : List Byte
  exceptionTable : List ExceptionHandler
  deriving DecidableEq, Repr

namespace CodeInfo

variable (info : CodeInfo)

/-- The block of the constructor has `code_size` bytes and the size of the handlers.
The header of `exception_table_`, placed at `code_size`, ends in it. -/
def EndsInBlock : Prop :=
  info.codes.length + vectorSize ≤
    info.codes.length + info.exceptionTable.length * ExceptionHandler.size

/-- The header of `codes_`, placed at the start, ends before the other one begins. -/
def HeadersApart : Prop := vectorSize ≤ info.codes.length

instance : Decidable info.EndsInBlock := inferInstanceAs (Decidable (_ ≤ _))

instance : Decidable info.HeadersApart := inferInstanceAs (Decidable (_ ≤ _))

/-- The bytes that can be read through `codes_`. -/
def placedCodes : Option (List Byte) :=
  if info.EndsInBlock ∧ info.HeadersApart then some info.codes else none

/-- The handlers that can be read through `exception_table_`, which is placed last. -/
def placedTable : Option (List ExceptionHandler) :=
  if info.EndsInBlock then some info.exceptionTable else none

/-- The code survives its placement if it has 24 bytes or more and a handler. -/
theorem placedCodes_eq_some_iff {codes : List Byte} :
    info.placedCodes = some codes ↔
      codes = info.codes ∧ 24 ≤ info.codes.length ∧ info.exceptionTable ≠ [] := by
  have handlers : info.EndsInBlock ↔ info.exceptionTable ≠ [] := by
    rw [EndsInBlock, vectorSize, ExceptionHandler.size, ← List.length_pos_iff]
    omega
  unfold placedCodes
  split
  · next placed =>
      rw [handlers] at placed
      have long : 24 ≤ info.codes.length := placed.2
      simp [placed.1, long, eq_comm]
  · next lost =>
      simp only [reduceCtorEq, false_iff]
      rintro ⟨-, long, handled⟩
      exact lost ⟨handlers.mpr handled, long⟩

end CodeInfo

/-- `InjectCodeAttribute`, behind the two zero bytes that the vector starts with:
the code of a native method. -/
def injectedCodes (returnType : Str) : List Byte :=
  let type := firstByte returnType
  [0x00, 0x00] ++
    if type == chr 'V' then [0xfe, 0xb1]
    else if type == chr 'L' || type == chr '[' then [0xfe, 0xb0]
    else if type == chr 'D' then [0xfe, 0xaf]
    else if type == chr 'F' then [0xfe, 0xae]
    else if type == chr 'J' then [0xfe, 0xad]
    else if type == chr 'Z' || type == chr 'B' || type == chr 'C' || type == chr 'S' ||
        type == chr 'I' then [0xfe, 0xac]
    else []

/-- The constructor of `Method`.  A vector whose header has been written over, or lies
behind the block, is no longer there. -/
def Method.ofMember (member : ClassMember) (code : Option CodeInfo) : Exec Method := do
  let types ← parameterTypes member.descriptor
  let count := calcArgSlotCount member.isStatic types
  let method : Method :=
    { toClassMember := member
      codes := code.bind CodeInfo.placedCodes
      maxStack := (code.map fun info => info.maxStack.toNat).getD 0
      maxLocals := (code.map fun info => info.maxLocals.toNat).getD 0
      argSlotCount := count
      exceptionTable := code.bind CodeInfo.placedTable }
  if method.isNative then
    pure { method with
      codes := some (injectedCodes (returnType member.descriptor))
      maxStack := 4
      maxLocals := count }
  else pure method

/-! ## Descriptors of parameter lists -/

/-- The primitive types. -/
inductive PrimType where
  | boolean | byte | char | short | int | float | long | double
  deriving DecidableEq, Repr

namespace PrimType

def letter : PrimType → Byte
  | .boolean => chr 'Z'
  | .byte => chr 'B'
  | .char => chr 'C'
  | .short => chr 'S'
  | .int => chr 'I'
  | .float => chr 'F'
  | .long => chr 'J'
  | .double => chr 'D'

def kind : PrimType → Kind
  | .boolean | .byte | .char | .short | .int => .int
  | .float => .float
  | .long => .long
  | .double => .double

end PrimType

/-- The type of an array element. -/
inductive BaseType where
  | prim (type : PrimType)
  | object (className : Str)
  deriving DecidableEq, Repr

namespace BaseType

def render : BaseType → Str
  | .prim type => [type.letter]
  | .object className => chr 'L' :: (className ++ [chr ';'])

def kind : BaseType → Kind
  | .prim type => type.kind
  | .object _ => .ref

end BaseType

/-- A parameter type: an array of `dims` dimensions, or the base type itself. -/
structure ParamType where
  dims : Nat := 0
  base : BaseType
  deriving DecidableEq, Repr

namespace ParamType

def render (type : ParamType) : Str := List.replicate type.dims (chr '[') ++ type.base.render

def kind (type : ParamType) : Kind := if type.dims = 0 then type.base.kind else .ref

/-- Class names do not contain the semicolon that ends them. -/
def Named (type : ParamType) : Prop :=
  ∀ className, type.base = .object className → chr ';' ∉ className

end ParamType

/-- The descriptor of a method with the given parameters. -/
def renderDescriptor (params : List ParamType) (returnType : Str) : Str :=
  chr '(' :: (params.flatMap ParamType.render ++ chr ')' :: returnType)

/-! ## Parsing a descriptor -/

/-- What the parser sees of a text: everything before the first closing
parenthesis. -/
def beforeParen (text : Str) : Str := text.takeWhile (· != chr ')')

theorem paramStr_renderDescriptor (params : List ParamType) (returnType : Str) :
    paramStr (renderDescriptor params returnType) =
      beforeParen (params.flatMap ParamType.render ++ chr ')' :: returnType) := by
  let body := params.flatMap ParamType.render ++ chr ')' :: returnType
  have closes : body.findIdx? (· == chr ')') = some (body.findIdx (· == chr ')')) := by
    apply List.findIdx?_eq_some_of_exists
    exact ⟨chr ')', by simp [body], by simp⟩
  have opening : find (chr '(' :: body) (chr '(') = some 0 := by simp [find, List.findIdx?_cons]
  have closing : find (chr '(' :: body) (chr ')') = some (body.findIdx (· == chr ')') + 1) := by
    rw [find, List.findIdx?_cons, if_neg (by decide), closes]
    rfl
  have cut : beforeParen body = body.take (body.findIdx (· == chr ')')) := by
    rw [beforeParen, List.takeWhile_eq_take_findIdx_not]
    simp [bne]
  show paramStr (chr '(' :: body) = beforeParen body
  rw [paramStr, opening, closing, cut]
  simp

theorem find_append {name rest : Str} {byte : Byte} (absent : byte ∉ name) :
    find (name ++ byte :: rest) byte = some name.length := by
  induction name with
  | nil => simp [find, List.findIdx?_cons]
  | cons first name ih =>
      have differ : (first == byte) = false := by
        rw [beq_eq_false_iff_ne]
        rintro rfl
        exact absent List.mem_cons_self
      have here := ih fun mem => absent (List.mem_cons_of_mem _ mem)
      rw [find] at here
      simp [find, List.findIdx?_cons, differ, here]

theorem find_eq_none {text : Str} {byte : Byte} (absent : byte ∉ text) : find text byte = none := by
  rw [find, List.findIdx?_eq_none_iff]
  intro other mem
  rw [beq_eq_false_iff_ne]
  rintro rfl
  exact absent mem

/-- A text with a closing parenthesis in it ends there. -/
theorem beforeParen_append_of_mem {name : Str} (rest : Str) (inside : chr ')' ∈ name) :
    beforeParen (name ++ rest) = beforeParen name := by
  have short : (beforeParen name).length ≠ name.length := by
    intro whole
    have same : beforeParen name = name :=
      (List.takeWhile_prefix _).sublist.eq_of_length whole
    have kept : (beforeParen name).all (· != chr ')') = true := List.all_takeWhile
    rw [same, List.all_eq_true] at kept
    exact absurd (kept _ inside) (by decide)
  rw [beforeParen, List.takeWhile_append]
  exact if_neg short

theorem beforeParen_append_of_not_mem {name : Str} (rest : Str) (absent : chr ')' ∉ name) :
    beforeParen (name ++ rest) = name ++ beforeParen rest := by
  apply List.takeWhile_append_of_pos
  intro byte mem
  rw [bne_iff_ne]
  rintro rfl
  exact absent mem

/-- A class name that is cut off before its semicolon keeps the loop going. -/
theorem parseParams_diverges {text : Str} (absent : chr ';' ∉ chr 'L' :: text) (fuel : Nat)
    (isArray : Bool) : parseParams fuel isArray (chr 'L' :: text) = .error .diverges := by
  induction fuel generalizing isArray with
  | zero => rfl
  | succ fuel ih => simp [parseParams, find_eq_none absent, ih]

/-- Only the two one-letter types take two slots. -/
theorem argSlots_cons {first : Byte} (rest : Str) (notLong : first ≠ chr 'J')
    (notDouble : first ≠ chr 'D') : argSlots (first :: rest) = 1 := by
  have long : (first :: rest) ≠ str "J" := fun same => notLong (List.cons.inj same).1
  have double : (first :: rest) ≠ str "D" := fun same => notDouble (List.cons.inj same).1
  simp [argSlots, long, double]

/-- One round of the loop on a base type.  If the loop ends, it has taken the
type as a whole. -/
theorem parseParams_base {base : BaseType}
    (named : ∀ className, base = .object className → chr ';' ∉ className) {fuel : Nat}
    {isArray : Bool} {rest : Str} {parsed : List Str}
    (done : parseParams fuel isArray (beforeParen (base.render ++ rest)) = .ok parsed) :
    ∃ fuel' type types, parsed = type :: types ∧
      parseParams fuel' false (beforeParen rest) = .ok types ∧
      argSlots type = if isArray then 1 else base.kind.indices := by
  cases fuel with
  | zero => cases done
  | succ fuel =>
      cases base with
      | prim prim =>
          have kept : beforeParen ([prim.letter] ++ rest) = prim.letter :: beforeParen rest := by
            cases prim <;> rfl
          have notL : (prim.letter == chr 'L') = false := by cases prim <;> decide
          have notBracket : (prim.letter == chr '[') = false := by cases prim <;> decide
          rw [BaseType.render, kept, parseParams] at done
          simp only [notL, notBracket, Bool.false_eq_true, if_false] at done
          rcases Exec.bind_eq_ok.mp done with ⟨types, rest, same⟩
          cases same
          refine ⟨fuel, _, types, rfl, rest, ?_⟩
          cases isArray <;> cases prim <;> decide
      | object className =>
          have absent := named className rfl
          have render : BaseType.render (.object className) ++ rest =
              [chr 'L'] ++ (className ++ (chr ';' :: rest)) := by
            simp [BaseType.render]
          rw [render, beforeParen_append_of_not_mem _ (by decide)] at done
          by_cases inside : chr ')' ∈ className
          · -- the text ends inside the name
            have unfinished : chr ';' ∉ chr 'L' :: beforeParen className := by
              rw [List.mem_cons, not_or]
              exact ⟨by decide, fun mem => absent (List.takeWhile_subset _ mem)⟩
            rw [beforeParen_append_of_mem _ inside, List.singleton_append,
              parseParams_diverges unfinished] at done
            cases done
          · have semicolon :
                find (chr 'L' :: (className ++ chr ';' :: beforeParen rest)) (chr ';') =
                  some (className.length + 1) := by
              apply @find_append (chr 'L' :: className)
              rw [List.mem_cons, not_or]
              exact ⟨by decide, absent⟩
            have tail : beforeParen (chr ';' :: rest) = chr ';' :: beforeParen rest := rfl
            rw [beforeParen_append_of_not_mem _ inside, tail, List.singleton_append, parseParams,
              if_pos (by decide), semicolon] at done
            rcases Exec.bind_eq_ok.mp done with ⟨types, later, same⟩
            cases same
            have dropped : (chr 'L' :: (className ++ chr ';' :: beforeParen rest)).drop
                (className.length + 1 + 1) = beforeParen rest := by
              simp
            refine ⟨fuel, _, types, rfl, by simpa [dropped] using later, ?_⟩
            cases isArray with
            | true => exact argSlots_cons _ (by decide) (by decide)
            | false => exact argSlots_cons _ (by decide) (by decide)

/-- A parameter type: the brackets only set the flag. -/
theorem parseParams_type {type : ParamType} (named : type.Named) {fuel : Nat} {rest : Str}
    {parsed : List Str}
    (done : parseParams fuel false (beforeParen (type.render ++ rest)) = .ok parsed) :
    ∃ fuel' first types, parsed = first :: types ∧
      parseParams fuel' false (beforeParen rest) = .ok types ∧
      argSlots first = type.kind.indices := by
  have brackets (dims : Nat) (isArray : Bool) (fuel : Nat)
      (done : parseParams fuel isArray
        (beforeParen (List.replicate dims (chr '[') ++ (type.base.render ++ rest))) = .ok parsed) :
      ∃ fuel', parseParams fuel' (isArray || decide (0 < dims))
        (beforeParen (type.base.render ++ rest)) = .ok parsed := by
    induction dims generalizing isArray fuel with
    | zero => exact ⟨fuel, by simpa using done⟩
    | succ dims ih =>
        cases fuel with
        | zero => cases done
        | succ fuel =>
            rcases ih true fuel done with ⟨fuel', later⟩
            exact ⟨fuel', by simpa using later⟩
  rw [ParamType.render, List.append_assoc] at done
  rcases brackets type.dims false fuel done with ⟨middle, later⟩
  rcases parseParams_base named later with ⟨fuel', first, types, parsedEq, rest, slots⟩
  refine ⟨fuel', first, types, parsedEq, rest, ?_⟩
  rw [slots, ParamType.kind]
  by_cases scalar : type.dims = 0
  · simp [scalar]
  · simp [scalar, Nat.pos_of_ne_zero scalar, Kind.indices]

/-- The types that the parser returns take the indices of the parameters. -/
theorem argSlots_parseParams {params : List ParamType} (named : ∀ type ∈ params, type.Named)
    {fuel : Nat} {tail : Str} {parsed : List Str}
    (done : parseParams fuel false
      (beforeParen (params.flatMap ParamType.render ++ chr ')' :: tail)) = .ok parsed) :
    parsed.map argSlots = params.map fun type => type.kind.indices := by
  induction params generalizing fuel parsed with
  | nil =>
      cases fuel with
      | zero => cases done
      | succ fuel =>
          cases done
          rfl
  | cons type params ih =>
      rw [List.flatMap_cons, List.append_assoc] at done
      rcases parseParams_type (named type List.mem_cons_self) done with
        ⟨fuel', first, types, rfl, rest, slots⟩
      rw [List.map_cons, List.map_cons, slots,
        ih (fun other mem => named other (List.mem_cons_of_mem _ mem)) rest]

/-- The local variable indices of the arguments, with the receiver. -/
def argIndices (isStatic : Bool) (params : List ParamType) : Nat :=
  (params.map fun type => type.kind.indices).sum + if isStatic then 0 else 1

/-- The constructor keeps the member, and counts from its descriptor and whether it
is static. -/
theorem Method.ofMember_eq_ok {member : ClassMember} {code : Option CodeInfo} {method : Method}
    (created : Method.ofMember member code = .ok method) :
    method.toClassMember = member ∧ ∃ types, parameterTypes method.descriptor = .ok types ∧
      method.argSlotCount = calcArgSlotCount method.isStatic types := by
  rcases Exec.bind_eq_ok.mp created with ⟨types, parsed, rest⟩
  dsimp only at rest
  split at rest
  · cases rest
    exact ⟨rfl, types, parsed, rfl⟩
  · cases rest
    exact ⟨rfl, types, parsed, rfl⟩

/-- The constructor counts the local variable indices of the arguments. -/
theorem argSlotCount_ofMember {member : ClassMember} {code : Option CodeInfo} {method : Method}
    {params : List ParamType} {returnType : Str} (named : ∀ type ∈ params, type.Named)
    (descriptor : member.descriptor = renderDescriptor params returnType)
    (created : Method.ofMember member code = .ok method) :
    method.argSlotCount = argIndices member.isStatic params ∧ method.toClassMember = member := by
  rcases Method.ofMember_eq_ok created with ⟨rfl, types, parsed, count⟩
  rw [parameterTypes, descriptor, paramStr_renderDescriptor] at parsed
  have slots := argSlots_parseParams named parsed
  refine ⟨?_, rfl⟩
  rw [count, calcArgSlotCount, argIndices, slots]

end JvmDemo.Runtime
