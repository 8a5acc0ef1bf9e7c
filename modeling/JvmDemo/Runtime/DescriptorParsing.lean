import JvmDemo.Runtime.Descriptor
import Mathlib.Logic.Relation

/-!
# What the descriptor parser does with a descriptor

One round of the loop of `ParseMethodDescriptor` cuts something off the front of
the parameter text, except on a class type without its semicolon.  So the loop
ends exactly on the texts in which every `L` has a semicolon somewhere behind it;
descriptors of class files are parsed as they are, and need not be such texts.

On a well-formed descriptor the parser finds one type for each parameter.  The
brackets only set a flag, so an array keeps one of its dimensions: the number of
slots comes out right, the type itself only for arrays of one dimension.
-/

namespace JvmDemo.Runtime

open JvmDemo.Lib

/-! ## One round of the loop -/

/-- What a round leaves of the parameter text. -/
def afterRound : Str → Str
  | [] => []
  | first :: rest =>
      if first == chr 'L' then
        match find (first :: rest) (chr ';') with
        | some semicolonIndex => (first :: rest).drop (semicolonIndex + 1)
        | none => first :: rest
      else rest

/-- A type is put before those that are still found. -/
theorem bind_cons (type : Str) (parsed : Exec (List Str)) :
    (parsed >>= fun types => pure (type :: types)) = parsed.map (type :: ·) := by
  cases parsed <;> rfl

/-- The parser goes on with what a round leaves; the round itself adds at most a
type. -/
theorem parseParams_succ (fuel : Nat) (isArray : Bool) (first : Byte) (rest : Str) :
    ∃ isArray' found, parseParams (fuel + 1) isArray (first :: rest) =
      (parseParams fuel isArray' (afterRound (first :: rest))).map (found ++ ·) := by
  by_cases classType : (first == chr 'L') = true
  · cases semicolon : find (first :: rest) (chr ';') with
    | none =>
        refine ⟨false, [if isArray then [chr '['] else []], ?_⟩
        simp only [parseParams, afterRound, classType, semicolon, if_true, List.take_zero,
          List.drop_zero]
        exact bind_cons _ _
    | some index =>
        let type := (first :: rest).take (index + 1)
        refine ⟨false, [if isArray then chr '[' :: type else type], ?_⟩
        rw [parseParams, if_pos classType, afterRound, if_pos classType, semicolon]
        exact bind_cons _ _
  · by_cases bracket : (first == chr '[') = true
    · refine ⟨true, [], ?_⟩
      rw [parseParams, if_neg classType, if_pos bracket, afterRound, if_neg classType]
      cases parseParams fuel true rest <;> rfl
    · refine ⟨false, [if isArray then [chr '[', first] else [first]], ?_⟩
      rw [parseParams, if_neg classType, if_neg bracket, afterRound, if_neg classType]
      exact bind_cons _ _

theorem afterRound_suffix (text : Str) : afterRound text <:+ text := by
  cases text with
  | nil => exact List.suffix_refl _
  | cons first rest =>
      rw [afterRound]
      split
      · split
        · exact List.drop_suffix _ _
        · exact List.suffix_refl _
      · exact List.suffix_cons _ _

/-! ## The end of the loop -/

/-- Every `L` has a semicolon somewhere behind it. -/
def ClassTypesEnd (text : Str) : Prop :=
  ∀ front back, text = front ++ chr 'L' :: back → chr ';' ∈ back

theorem ClassTypesEnd.of_suffix {text tail : Str} (ends : ClassTypesEnd text)
    (suffix : tail <:+ text) : ClassTypesEnd tail := by
  rcases suffix with ⟨before, rfl⟩
  rintro front back rfl
  exact ends (before ++ front) back (by simp)

theorem exists_find_of_mem {text : Str} {byte : Byte} (mem : byte ∈ text) :
    ∃ index, find text byte = some index ∧ index < text.length := by
  have found := List.findIdx_lt_length_of_exists (p := (· == byte)) ⟨byte, mem, by simp⟩
  exact ⟨_, List.findIdx?_eq_some_of_exists ⟨byte, mem, by simp⟩, found⟩

/-- A round shortens such a text. -/
theorem ClassTypesEnd.length_afterRound {first : Byte} {rest : Str}
    (ends : ClassTypesEnd (first :: rest)) : (afterRound (first :: rest)).length < rest.length + 1 := by
  rw [afterRound]
  split
  case isTrue classType =>
    have isL : first = chr 'L' := beq_iff_eq.mp classType
    have inRest : chr ';' ∈ rest := ends [] rest (by rw [isL, List.nil_append])
    rcases exists_find_of_mem (List.mem_cons_of_mem first inRest) with ⟨index, semicolon, -⟩
    rw [semicolon, List.length_drop, List.length_cons]
    omega
  case isFalse => exact Nat.lt_succ_self _

/-- A round does not get past an `L` without a semicolon. -/
theorem not_classTypesEnd_afterRound {text : Str} (unfinished : ¬ ClassTypesEnd text) :
    ¬ ClassTypesEnd (afterRound text) := by
  simp only [ClassTypesEnd, not_forall] at unfinished
  rcases unfinished with ⟨front, back, rfl, absent⟩
  have stays (front : Str) : ¬ ClassTypesEnd (front ++ chr 'L' :: back) :=
    fun ends => absent (ends front back rfl)
  cases front with
  | nil =>
      have noSemicolon : chr ';' ∉ chr 'L' :: back := by
        rw [List.mem_cons, not_or]
        exact ⟨by decide, absent⟩
      have same : afterRound (chr 'L' :: back) = chr 'L' :: back := by
        rw [afterRound, if_pos (by decide), find_eq_none noSemicolon]
      rw [List.nil_append, same]
      exact stays []
  | cons first front =>
      rw [List.cons_append, afterRound]
      split
      case isFalse => exact stays front
      case isTrue =>
        by_cases inFront : chr ';' ∈ first :: front
        · -- the semicolon that ends this type stands before the unfinished one
          rcases exists_find_of_mem inFront with ⟨index, semicolon, bound⟩
          have found : find (first :: (front ++ chr 'L' :: back)) (chr ';') = some index := by
            rw [find] at semicolon ⊢
            rw [← List.cons_append, List.findIdx?_append, semicolon]
            rfl
          rw [found, ← List.cons_append]
          dsimp only
          rw [List.drop_append_of_le_length bound]
          exact stays _
        · have noSemicolon : chr ';' ∉ first :: (front ++ chr 'L' :: back) := by
            simp only [List.mem_cons, List.mem_append, not_or] at inFront ⊢
            exact ⟨inFront.1, inFront.2, by decide, absent⟩
          rw [find_eq_none noSemicolon]
          exact stays (first :: front)

theorem ClassTypesEnd.parseParams {text : Str} (ends : ClassTypesEnd text) {fuel : Nat}
    (enough : text.length < fuel) (isArray : Bool) :
    ∃ types, JvmDemo.Runtime.parseParams fuel isArray text = .ok types := by
  induction fuel generalizing text isArray with
  | zero => exact absurd enough (Nat.not_lt_zero _)
  | succ fuel ih =>
      cases text with
      | nil => exact ⟨[], rfl⟩
      | cons first rest =>
          have shorter := ends.length_afterRound
          rw [List.length_cons] at enough
          rcases parseParams_succ fuel isArray first rest with ⟨isArray', found, round⟩
          rcases ih (ends.of_suffix (afterRound_suffix _)) (by omega) isArray' with ⟨types, parsed⟩
          exact ⟨found ++ types, by rw [round, parsed]; rfl⟩

theorem parseParams_of_not_classTypesEnd {text : Str} (unfinished : ¬ ClassTypesEnd text)
    (fuel : Nat) (isArray : Bool) : parseParams fuel isArray text = .error .diverges := by
  induction fuel generalizing text isArray with
  | zero => rfl
  | succ fuel ih =>
      cases text with
      | nil => exact absurd (fun front back same => by simp at same) unfinished
      | cons first rest =>
          rcases parseParams_succ fuel isArray first rest with ⟨isArray', found, round⟩
          rw [round, ih (not_classTypesEnd_afterRound unfinished)]
          rfl

/-- The texts at the start of a round, when the loop starts at a text. -/
def ReachedFrom : Str → Str → Prop :=
  Relation.ReflTransGen fun text next => text ≠ [] ∧ next = afterRound text

theorem ReachedFrom.suffix {start text : Str} (reached : ReachedFrom start text) :
    text <:+ start := by
  induction reached with
  | refl => exact List.suffix_refl _
  | tail _ round ih =>
      rw [round.2]
      exact (afterRound_suffix _).trans ih

/-- The loop of `ParseMethodDescriptor` ends, and each of its rounds shortens the
remaining text. -/
structure LoopTerminates (descriptor : Str) : Prop where
  ends : ∃ fuel types, parseParams fuel false (paramStr descriptor) = .ok types
  shortens : ∀ text, ReachedFrom (paramStr descriptor) text → text ≠ [] →
    (afterRound text).length < text.length

/-- The loop ends exactly on the descriptors in which no class type lacks its
semicolon. -/
theorem loopTerminates_iff (descriptor : Str) :
    LoopTerminates descriptor ↔ ClassTypesEnd (paramStr descriptor) := by
  constructor
  · rintro ⟨⟨fuel, types, parsed⟩, -⟩
    by_contra unfinished
    rw [parseParams_of_not_classTypesEnd unfinished] at parsed
    cases parsed
  · intro closed
    constructor
    · rcases closed.parseParams (Nat.lt_succ_self _) false with ⟨types, parsed⟩
      exact ⟨_, types, parsed⟩
    · intro text reached notEmpty
      cases text with
      | nil => exact absurd rfl notEmpty
      | cons first rest => exact (closed.of_suffix reached.suffix).length_afterRound

/-- `(Ljava/lang/Object)V` lacks a semicolon, and the parser never returns. -/
theorem missing_semicolon_diverges :
    ¬ LoopTerminates (str "(Ljava/lang/Object)V") ∧
      ∀ fuel, parseParams fuel false (paramStr (str "(Ljava/lang/Object)V")) =
        .error .diverges := by
  have unfinished : ∀ fuel, parseParams fuel false (paramStr (str "(Ljava/lang/Object)V")) =
      .error .diverges := fun fuel =>
    @parseParams_diverges (str "java/lang/Object") (by decide) fuel false
  constructor
  · rintro ⟨⟨fuel, types, parsed⟩, -⟩
    rw [unfinished fuel] at parsed
    cases parsed
  · exact unfinished

/-! ## Well-formed descriptors -/

namespace ParamType

/-- The name of a class type contains neither the semicolon that ends the type nor
the parenthesis that ends the parameters. -/
def Plain (type : ParamType) : Prop :=
  ∀ className, type.base = .object className → chr ';' ∉ className ∧ chr ')' ∉ className

theorem Plain.named {type : ParamType} (plain : type.Plain) : type.Named :=
  fun className isObject => (plain className isObject).1

/-- The text that the parser gives back for a parameter: the flag stands for all
brackets. -/
def parsedText (type : ParamType) : Str :=
  if type.dims = 0 then type.base.render else chr '[' :: type.base.render

theorem parsedText_eq_render_iff (type : ParamType) :
    type.parsedText = type.render ↔ type.dims ≤ 1 := by
  rcases type with ⟨dims, base⟩
  rcases dims with - | dims
  · simp [parsedText, render]
  · simp only [parsedText, render, Nat.succ_ne_zero, if_false, List.replicate_succ, List.cons_append,
      List.cons.injEq, true_and, List.self_eq_append_left, List.replicate_eq_nil_iff]
    omega

/-- The slots that the JVM specification counts for a parameter. -/
def slots (type : ParamType) : Nat :=
  if type.dims = 0 ∧ (type.base = .prim .long ∨ type.base = .prim .double) then 2 else 1

theorem indices_kind (type : ParamType) : type.kind.indices = type.slots := by
  rcases type with ⟨dims, base⟩
  rcases dims with - | dims
  · cases base with
    | prim prim => cases prim <;> decide
    | object className => simp [kind, slots, BaseType.kind, Kind.indices]
  · simp [kind, slots, Kind.indices]

theorem Plain.paren_not_mem {type : ParamType} (plain : type.Plain) : chr ')' ∉ type.render := by
  rcases type with ⟨dims, base⟩
  simp only [render, List.mem_append, List.mem_replicate, not_or, not_and]
  constructor
  · intro _ isBracket
    exact absurd isBracket (by decide)
  · cases base with
    | prim prim => cases prim <;> decide
    | object className =>
        simp only [BaseType.render, List.mem_cons, List.mem_append, List.not_mem_nil, or_false, not_or]
        exact ⟨by decide, (plain className rfl).2, by decide⟩

end ParamType

/-- The brackets take one round each. -/
theorem parseParams_brackets (dims fuel : Nat) (isArray : Bool) (text : Str) :
    parseParams (fuel + dims) isArray (List.replicate dims (chr '[') ++ text) =
      parseParams fuel (isArray || decide (0 < dims)) text := by
  induction dims generalizing isArray with
  | zero => simp
  | succ dims ih =>
      have round := ih true
      rw [Bool.true_or] at round
      rw [← Nat.add_assoc, List.replicate_succ, List.cons_append, parseParams,
        if_neg (by decide), if_pos (by decide), round]
      simp

/-- A base type takes one round. -/
theorem parseParams_render {base : BaseType}
    (named : ∀ className, base = .object className → chr ';' ∉ className) (fuel : Nat)
    (isArray : Bool) (rest : Str) :
    parseParams (fuel + 1) isArray (base.render ++ rest) =
      (parseParams fuel false rest).map
        ((if isArray then chr '[' :: base.render else base.render) :: ·) := by
  cases base with
  | prim prim =>
      have notL : ¬ (prim.letter == chr 'L') = true := by cases prim <;> decide
      have notBracket : ¬ (prim.letter == chr '[') = true := by cases prim <;> decide
      rw [BaseType.render, List.singleton_append, parseParams, if_neg notL, if_neg notBracket]
      exact bind_cons _ _
  | object className =>
      have absent : chr ';' ∉ chr 'L' :: className := by
        rw [List.mem_cons, not_or]
        exact ⟨by decide, named className rfl⟩
      have semicolon := @find_append _ rest _ absent
      have split : BaseType.render (.object className) ++ rest =
          (chr 'L' :: className) ++ chr ';' :: rest := by simp [BaseType.render]
      have taken : ((chr 'L' :: className) ++ chr ';' :: rest).take
          ((chr 'L' :: className).length + 1) = BaseType.render (.object className) := by
        rw [List.take_length_add_append]
        rfl
      have dropped : ((chr 'L' :: className) ++ chr ';' :: rest).drop
          ((chr 'L' :: className).length + 1) = rest := List.drop_length_add_append 1
      rw [split, List.cons_append, parseParams, if_pos (by decide), ← List.cons_append, semicolon]
      dsimp only
      rw [taken, dropped]
      exact bind_cons _ _

/-- The parser finds the parameters in order. -/
theorem parseParams_flatMap_render {params : List ParamType} (named : ∀ type ∈ params, type.Named)
    {fuel : Nat} (enough : (params.flatMap ParamType.render).length < fuel) :
    parseParams fuel false (params.flatMap ParamType.render) =
      .ok (params.map ParamType.parsedText) := by
  induction params generalizing fuel with
  | nil =>
      cases fuel with
      | zero => exact absurd enough (Nat.not_lt_zero _)
      | succ fuel => rfl
  | cons type params ih =>
      have nonempty : 0 < type.base.render.length := by
        cases type.base <;> exact Nat.succ_pos _
      rw [List.flatMap_cons, List.length_append, ParamType.render, List.length_append,
        List.length_replicate] at enough
      obtain ⟨later, rfl⟩ : ∃ later, fuel = later + 1 + type.dims := ⟨fuel - 1 - type.dims, by omega⟩
      have rest := ih (fun other mem => named other (List.mem_cons_of_mem _ mem))
        (show (params.flatMap ParamType.render).length < later by omega)
      rw [List.flatMap_cons, ParamType.render, List.append_assoc, parseParams_brackets,
        parseParams_render (named type List.mem_cons_self), rest, List.map_cons,
        ParamType.parsedText]
      by_cases scalar : type.dims = 0
      · simp [Except.map, scalar]
      · simp [Except.map, scalar, Nat.pos_of_ne_zero scalar]

theorem paramStr_of_plain {params : List ParamType} (plain : ∀ type ∈ params, type.Plain)
    (returned : Str) :
    paramStr (renderDescriptor params returned) = params.flatMap ParamType.render := by
  have absent : chr ')' ∉ params.flatMap ParamType.render := by
    rw [List.mem_flatMap]
    rintro ⟨type, mem, inside⟩
    exact (plain type mem).paren_not_mem inside
  have nothing : beforeParen (chr ')' :: returned) = [] := rfl
  rw [paramStr_renderDescriptor, beforeParen_append_of_not_mem _ absent, nothing, List.append_nil]

/-- The types that the parser returns for a well-formed descriptor. -/
theorem parameterTypes_renderDescriptor {params : List ParamType}
    (plain : ∀ type ∈ params, type.Plain) (returned : Str) :
    parameterTypes (renderDescriptor params returned) =
      .ok (params.map ParamType.parsedText) := by
  rw [parameterTypes, paramStr_of_plain plain]
  exact parseParams_flatMap_render (fun type mem => (plain type mem).named) (Nat.lt_succ_self _)

theorem returnType_renderDescriptor {params : List ParamType}
    (plain : ∀ type ∈ params, type.Plain) (returned : Str) :
    returnType (renderDescriptor params returned) = returned := by
  have absent : chr ')' ∉ chr '(' :: params.flatMap ParamType.render := by
    rw [List.mem_cons, not_or, List.mem_flatMap]
    constructor
    · decide
    · rintro ⟨type, mem, inside⟩
      exact (plain type mem).paren_not_mem inside
  have closing := @find_append _ returned _ absent
  rw [List.cons_append] at closing
  rw [renderDescriptor, returnType, closing, ← List.cons_append]
  exact List.drop_length_add_append 1

/-- Parsing gives back the parameter types in order, and the return type. -/
structure ParsesBack (params : List ParamType) (returned : Str) : Prop where
  parameters : parameterTypes (renderDescriptor params returned) =
    .ok (params.map ParamType.render)
  result : returnType (renderDescriptor params returned) = returned

/-- The parser gives the parameter types back exactly when none of them is an array
of arrays. -/
theorem parsesBack_iff {params : List ParamType} (plain : ∀ type ∈ params, type.Plain)
    (returned : Str) : ParsesBack params returned ↔ ∀ type ∈ params, type.dims ≤ 1 := by
  have same : (params.map ParamType.parsedText = params.map ParamType.render) ↔
      ∀ type ∈ params, type.dims ≤ 1 := by
    rw [List.map_inj_left]
    exact forall₂_congr fun type _ => type.parsedText_eq_render_iff
  rw [← same]
  constructor
  · intro back
    have parsed := back.parameters
    rw [parameterTypes_renderDescriptor plain] at parsed
    exact Except.ok.inj parsed
  · intro texts
    constructor
    · rw [parameterTypes_renderDescriptor plain, texts]
    · exact returnType_renderDescriptor plain returned

theorem parsesBack_string_array :
    ParsesBack [⟨1, .object (str "java/lang/String")⟩] (str "V") :=
  (parsesBack_iff (by simp [ParamType.Plain, str]; decide) (str "V")).mpr (by decide)

/-- `([[I)V` has a parameter of type `[[I`, and the parser returns `[I`. -/
theorem dimension_lost :
    renderDescriptor [⟨2, .prim .int⟩] (str "V") = str "([[I)V" ∧
      parameterTypes (str "([[I)V") = .ok [str "[I"] ∧
      ¬ ParsesBack [⟨2, .prim .int⟩] (str "V") := by
  have rendered : renderDescriptor [⟨2, .prim .int⟩] (str "V") = str "([[I)V" := by decide
  have parsed : parameterTypes (str "([[I)V") = .ok [str "[I"] := rfl
  refine ⟨rendered, parsed, ?_⟩
  intro back
  have given := back.parameters
  rw [rendered, parsed] at given
  exact absurd (Except.ok.inj given) (by decide)

/-! ## The constructor of methods -/

/-- On a well-formed descriptor the constructor returns, and it counts the slots of
the JVM specification. -/
theorem Method.ofMember_slots {member : ClassMember} {params : List ParamType} {returned : Str}
    (plain : ∀ type ∈ params, type.Plain)
    (descriptor : member.descriptor = renderDescriptor params returned) (code : Option CodeInfo) :
    ∃ method, Method.ofMember member code = .ok method ∧ method.toClassMember = member ∧
      method.argSlotCount =
        (params.map ParamType.slots).sum + if member.isStatic then 0 else 1 := by
  have parsed := parameterTypes_renderDescriptor plain returned
  rw [← descriptor] at parsed
  obtain ⟨method, created⟩ : ∃ method, Method.ofMember member code = .ok method := by
    simp only [Method.ofMember, parsed, Exec.bind_ok]
    split
    · exact ⟨_, rfl⟩
    · exact ⟨_, rfl⟩
  rcases argSlotCount_ofMember (fun type mem => (plain type mem).named) descriptor created with
    ⟨count, kept⟩
  refine ⟨method, created, kept, ?_⟩
  simp only [count, argIndices, ParamType.indices_kind]

theorem Method.ofMember_slots_of_instance :
    ∃ method, Method.ofMember { descriptor := str "(JLjava/lang/Jaguar;[D)V" } none = .ok method ∧
      method.toClassMember = { descriptor := str "(JLjava/lang/Jaguar;[D)V" } ∧
      method.argSlotCount = 2 + 1 + 1 + 1 :=
  @Method.ofMember_slots { descriptor := str "(JLjava/lang/Jaguar;[D)V" }
    [⟨0, .prim .long⟩, ⟨0, .object (str "java/lang/Jaguar")⟩, ⟨1, .prim .double⟩] (str "V")
    (by simp [ParamType.Plain, str]; decide) (by decide) none

end JvmDemo.Runtime
