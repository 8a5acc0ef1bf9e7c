import JvmDemo.Lib.Words

/-!
# Ways in which the virtual machine stops

The program has no error results: a failed check ends the process.  The model
keeps the three ways apart, because several properties are about which one may
happen.  `LOG(FATAL)` aborts with a message, a C++ exception that nothing
catches terminates, and an access that C++ leaves undefined has no meaning at
all.
-/

namespace JvmDemo.Runtime

open JvmDemo.Lib

/-- Why an operation did not return. -/
inductive Fault where
  /-- `LOG(FATAL)` with its message. -/
  | fatal (message : String)
  /-- An exception that leaves `main`. -/
  | thrown (what : String)
  /-- An access outside an array, through a null pointer, or the like. -/
  | undefined (why : String)
  /-- A loop of the source that does not end. -/
  | diverges
  deriving DecidableEq, Repr

/-- The result of an operation that may stop the process. -/
abbrev Exec (α : Type) := Except Fault α

/-- `LOG(FATAL) << message`. -/
def fatal {α : Type} (message : String) : Exec α := .error (.fatal message)

/-- `throw std::runtime_error(what)`. -/
def thrown {α : Type} (what : String) : Exec α := .error (.thrown what)

/-- An operation without a defined result. -/
def undefined {α : Type} (why : String) : Exec α := .error (.undefined why)

/-- The operation ends in `LOG(FATAL)`. -/
def Aborts {α : Type} (result : Exec α) : Prop := ∃ message, result = .error (.fatal message)

namespace Exec

variable {α β : Type}

@[simp]
theorem bind_ok (value : α) (next : α → Exec β) :
    ((.ok value : Exec α) >>= next) = next value := rfl

@[simp]
theorem bind_error (fault : Fault) (next : α → Exec β) :
    ((.error fault : Exec α) >>= next) = .error fault := rfl

@[simp]
theorem bind_pure (value : α) (next : α → Exec β) :
    ((pure value : Exec α) >>= next) = next value := rfl

/-- A sequence that returns has returned from its first part. -/
theorem bind_eq_ok {first : Exec α} {next : α → Exec β} {result : β} :
    (first >>= next) = .ok result ↔ ∃ value, first = .ok value ∧ next value = .ok result := by
  cases first <;> simp

end Exec

@[simp]
theorem aborts_fatal {α : Type} (message : String) : Aborts (fatal message : Exec α) :=
  ⟨message, rfl⟩

/-- Text of the source, as the bytes of a `std::string`. -/
abbrev Str := List Byte

/-- The bytes of a string literal. -/
def str (literal : String) : Str :=
  literal.toList.map fun c => BitVec.ofNat 8 c.toNat

/-- Bytes as they appear in a message. -/
def text (bytes : Str) : String :=
  String.ofList (bytes.map fun byte => Char.ofNat byte.toNat)

/-- The byte of a character literal. -/
def chr (literal : Char) : Byte := BitVec.ofNat 8 literal.toNat

end JvmDemo.Runtime
