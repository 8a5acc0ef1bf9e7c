import JvmDemo.Runtime.Descriptor
import Mathlib.Logic.Function.Iterate

/-!
# Names of array and component classes

`GetArrayClassName` prepends a bracket to the descriptor of a class name, and
`GetComponentClassName` takes it off and goes back to the name.  Both directions
search `primitive_types_`, in which no name and no letter occurs twice, so the
component of the array of any name is the name itself.

In the other direction a descriptor comes back, unless it is that of a class
which has the name of a primitive type.
-/

namespace JvmDemo.Runtime

open JvmDemo.Lib
open ClassTable

/-! ## From names to descriptors and back -/

/-- The names and the letters of `primitive_types_` determine each other. -/
theorem primitiveTypes_spec :
    ∀ pair ∈ primitiveTypes, toDescriptor pair.1 = pair.2 ∧ toClassName pair.2 = .ok pair.1 := by
  decide

/-- The names of `primitive_types_`. -/
def IsPrimitiveName (className : Str) : Prop := ∃ pair ∈ primitiveTypes, pair.1 = className

/-- What `ToDescriptor` gives for a name. -/
theorem toDescriptor_cases (className : Str) :
    (firstByte className = chr '[' ∧ toDescriptor className = className) ∨
      (∃ pair ∈ primitiveTypes, pair.1 = className ∧ toDescriptor className = pair.2) ∨
      (firstByte className ≠ chr '[' ∧ ¬ IsPrimitiveName className ∧
        toDescriptor className = chr 'L' :: (className ++ [chr ';'])) := by
  by_cases isArray : firstByte className = chr '['
  · refine .inl ⟨isArray, ?_⟩
    rw [toDescriptor, if_pos (beq_iff_eq.mpr isArray)]
  · by_cases primitive : IsPrimitiveName className
    · rcases primitive with ⟨pair, mem, rfl⟩
      exact .inr (.inl ⟨pair, mem, rfl, (primitiveTypes_spec pair mem).1⟩)
    · refine .inr (.inr ⟨isArray, primitive, ?_⟩)
      have notFound : primitiveTypes.find? (fun pair => pair.1 == className) = none := by
        rw [List.find?_eq_none]
        intro pair mem isName
        exact primitive ⟨pair, mem, beq_iff_eq.mp isName⟩
      rw [toDescriptor, if_neg (beq_iff_eq.not.mpr isArray), notFound]
      simp [str, chr]

theorem toClassName_object (className : Str) :
    toClassName (chr 'L' :: (className ++ [chr ';'])) = .ok className := by
  have first : firstByte (chr 'L' :: (className ++ [chr ';'])) = chr 'L' := rfl
  rw [toClassName, first, if_neg (by decide), if_pos (by decide)]
  simp

/-- A name comes back from its descriptor. -/
theorem toClassName_toDescriptor (className : Str) :
    toClassName (toDescriptor className) = .ok className := by
  rcases toDescriptor_cases className with
    ⟨isArray, same⟩ | ⟨pair, mem, rfl, letter⟩ | ⟨-, -, object⟩
  · rw [same, toClassName, if_pos (beq_iff_eq.mpr isArray)]
  · rw [letter, (primitiveTypes_spec pair mem).2]
  · rw [object, toClassName_object]

theorem getComponentClassName_getArrayClassName (className : Str) :
    getComponentClassName (getArrayClassName className) = .ok className := by
  have bracket : getArrayClassName className = chr '[' :: toDescriptor className := rfl
  have first : firstByte (chr '[' :: toDescriptor className) = chr '[' := rfl
  rw [bracket, getComponentClassName, first, if_pos (by decide)]
  exact toClassName_toDescriptor className

/-- `n` applications of `GetComponentClassName`, up to the first that aborts. -/
def getComponentClassNames : Nat → Str → Exec Str
  | 0, className => pure className
  | n + 1, className => do
      let component ← getComponentClassName className
      getComponentClassNames n component

theorem getComponentClassNames_iterate (n : Nat) (className : Str) :
    getComponentClassNames n (getArrayClassName^[n] className) = .ok className := by
  induction n with
  | zero => rfl
  | succ n ih =>
      rw [Function.iterate_succ_apply', getComponentClassNames,
        getComponentClassName_getArrayClassName, Exec.bind_ok, ih]

/-! ## From descriptors to names and back -/

/-- A field descriptor is valid if its class name is not empty and contains none of
the characters that a name may not contain. -/
def ParamType.Valid (type : ParamType) : Prop :=
  ∀ className, type.base = .object className →
    className ≠ [] ∧ chr '.' ∉ className ∧ chr ';' ∉ className ∧ chr '[' ∉ className

/-- The descriptor of a class with the name of a primitive type. -/
def ParamType.NamesPrimitive (type : ParamType) : Prop :=
  ∃ className, type = ⟨0, .object className⟩ ∧ IsPrimitiveName className

/-- A descriptor comes back from its name. -/
theorem toDescriptor_of_toClassName {type : ParamType} (valid : type.Valid)
    (ordinary : ¬ type.NamesPrimitive) :
    ∃ className, toClassName type.render = .ok className ∧ toDescriptor className = type.render := by
  rcases type with ⟨dims, base⟩
  rcases dims with - | dims
  · cases base with
    | prim prim =>
        have listed : ∃ pair ∈ primitiveTypes, pair.2 = [prim.letter] := by cases prim <;> decide
        rcases listed with ⟨pair, mem, letter⟩
        have spec := primitiveTypes_spec pair mem
        rw [letter] at spec
        exact ⟨pair.1, spec.2, spec.1⟩
    | object className =>
        refine ⟨className, toClassName_object className, ?_⟩
        rcases toDescriptor_cases className with
          ⟨isArray, -⟩ | ⟨pair, mem, isName, -⟩ | ⟨-, -, object⟩
        · -- a valid name does not start with a bracket
          have bracket : chr '[' ∉ className := (valid className rfl).2.2.2
          cases className with
          | nil => exact absurd isArray (by decide)
          | cons first rest =>
              have isFirst : first = chr '[' := isArray
              rw [isFirst] at bracket
              exact absurd List.mem_cons_self bracket
        · exact absurd ⟨className, rfl, pair, mem, isName⟩ ordinary
        · exact object
  · have isArray : firstByte (ParamType.render ⟨dims + 1, base⟩) == chr '[' := rfl
    refine ⟨ParamType.render ⟨dims + 1, base⟩, ?_, ?_⟩
    · rw [toClassName, if_pos isArray]
    · rw [toDescriptor, if_pos isArray]

/-- The component of an array class name is the name it was made from, also `n`
dimensions deep, and descriptors of types come back from the class names. -/
theorem arrayNames_inverse :
    (∀ className, getComponentClassName (getArrayClassName className) = .ok className) ∧
      (∀ n className,
        getComponentClassNames n (getArrayClassName^[n] className) = .ok className) ∧
      ∀ type : ParamType, type.Valid → ¬ type.NamesPrimitive →
        (toClassName type.render).map toDescriptor = .ok type.render := by
  refine ⟨getComponentClassName_getArrayClassName, getComponentClassNames_iterate, ?_⟩
  intro type valid ordinary
  rcases toDescriptor_of_toClassName valid ordinary with ⟨className, named, back⟩
  rw [named]
  exact congrArg Except.ok back

/-- A class and an array of arrays of it. -/
theorem arrayNames_inverse_string :
    (toClassName (str "Ljava/lang/String;")).map toDescriptor = .ok (str "Ljava/lang/String;") ∧
      (toClassName (str "[[Ljava/lang/String;")).map toDescriptor =
        .ok (str "[[Ljava/lang/String;") := by
  have valid (dims : Nat) : ParamType.Valid ⟨dims, .object (str "java/lang/String")⟩ := by
    rintro className ⟨⟩
    decide
  have ordinary (dims : Nat) : ¬ ParamType.NamesPrimitive ⟨dims, .object (str "java/lang/String")⟩ := by
    rintro ⟨className, ⟨⟩, pair, mem, isName⟩
    revert pair
    decide
  exact ⟨arrayNames_inverse.2.2 ⟨0, _⟩ (valid 0) (ordinary 0),
    arrayNames_inverse.2.2 ⟨2, _⟩ (valid 2) (ordinary 2)⟩

/-- `Lint;` is the descriptor of a class that the table takes for the primitive type. -/
example : (toClassName (str "Lint;")).map toDescriptor = .ok (str "I") := rfl

end JvmDemo.Runtime
