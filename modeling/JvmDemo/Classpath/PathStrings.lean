import JvmDemo.Lib.Substring
import JvmDemo.Runtime.Fault

/-!
# The string functions of the class path

`splitString` cuts a string at a separator and `ReplaceString` replaces a
pattern in place.  Both call `find` in a loop, the one on what is left of the
string, the other from behind the text that it has put in.  A turn takes at
least one byte of what was not looked at yet, so the loops run on a fuel of one
more than the length; only an empty pattern is found again and again.
-/

namespace JvmDemo.Classpath

open JvmDemo.Lib
open JvmDemo.Runtime

/-- `std::string::find` from a position. -/
def findFrom (text what : Str) (pos : Nat) : Option Nat :=
  if pos ≤ text.length then (findSub what (text.drop pos)).map (pos + ·) else none

theorem findFrom_zero (text what : Str) : findFrom text what 0 = findSub what text := by
  rw [findFrom, if_pos (Nat.zero_le _), List.drop_zero]
  simp only [Nat.zero_add, Option.map_id_fun', id_eq]

/-! ## Splitting -/

/-- The loop of `splitString`.  `substr` throws when it starts behind the end. -/
def splitLoop (split : Str) : Nat → Str → List Str → Exec (List Str)
  | 0, _, _ => .error .diverges
  | fuel + 1, strs, res =>
      match findFrom strs split 0 with
      | none => pure res
      | some pos =>
          let tmp := strs.take pos
          if strs.length < pos + 1 then thrown "std::out_of_range"
          else splitLoop split fuel (strs.drop (pos + 1)) (res ++ [tmp])

/-- `splitString`; `res` is the vector before and after the call. -/
def splitString (src split : Str) (res : List Str) : Exec (List Str) :=
  if src = [] then pure res
  else
    let strs := src ++ split
    splitLoop split (strs.length + 1) strs res

/-- The loop goes through the parts between the separators; the one that was appended
ends the last part. -/
theorem splitLoop_eq (separator : Byte) {fuel : Nat} {rest : Str}
    (enough : rest.length + 1 < fuel) (res : List Str) :
    splitLoop [separator] fuel (rest ++ [separator]) res = .ok (res ++ rest.splitOn separator) := by
  induction fuel generalizing rest res with
  | zero => exact absurd enough (Nat.not_lt_zero _)
  | succ fuel ih =>
      by_cases mem : separator ∈ rest
      · rcases List.eq_append_cons_of_mem mem with ⟨front, later, rfl, absent⟩
        rw [List.length_append, List.length_cons] at enough
        have found := findSub_singleton absent (later ++ [separator])
        have inside :
            ¬ (front ++ separator :: (later ++ [separator])).length < front.length + 1 := by
          simp only [List.length_append, List.length_cons]
          omega
        have behind : (front ++ separator :: (later ++ [separator])).drop (front.length + 1) =
            later ++ [separator] := List.drop_length_add_append 1
        rw [List.append_assoc, List.cons_append, splitLoop, findFrom_zero, found]
        simp only [if_neg inside, List.take_left, behind]
        rw [ih (by omega), List.splitOn_append_cons_self_of_not_mem absent, List.append_assoc]
        rfl
      · have found := findSub_singleton mem []
        have inside : ¬ (rest ++ [separator]).length < rest.length + 1 := by simp
        have behind : (rest ++ [separator]).drop (rest.length + 1) = [] :=
          List.drop_length_add_append 1
        rw [splitLoop, findFrom_zero, found]
        simp only [if_neg inside, List.take_left, behind]
        cases fuel with
        | zero => exact absurd enough (by omega)
        | succ fuel =>
            have none : findSub [separator] ([] : Str) = none := rfl
            rw [splitLoop, findFrom_zero, none, List.splitOn_eq_singleton mem]
            rfl

theorem splitString_eq {src : Str} (nonempty : src ≠ []) (separator : Byte) (res : List Str) :
    splitString src [separator] res = .ok (res ++ src.splitOn separator) := by
  rw [splitString, if_neg nonempty]
  apply splitLoop_eq
  simp

/-- The segments that a split appends: one more than there are separators, none with a
separator in it, and joined they are the string. -/
structure SplitInto (src : Str) (separator : Byte) (segments : List Str) : Prop where
  length : segments.length = src.count separator + 1
  free : ∀ segment ∈ segments, separator ∉ segment
  joined : [separator].intercalate segments = src

/-- Every string that is not empty is split. -/
theorem splitString_splits {src : Str} (nonempty : src ≠ []) (separator : Byte) (res : List Str) :
    ∃ segments, splitString src [separator] res = .ok (res ++ segments) ∧
      SplitInto src separator segments := by
  refine ⟨src.splitOn separator, splitString_eq nonempty separator res, ?_⟩
  constructor
  case length => exact length_splitOn separator src
  case free => exact fun segment mem => not_mem_of_mem_splitOn mem
  case joined => exact List.intercalate_splitOn separator

/-- Leading, adjacent and trailing separators. -/
theorem splitString_colons :
    splitString (str ":a::b:") (str ":") [] = .ok [[], str "a", [], str "b", []] ∧
      ∃ segments, splitString (str ":a::b:") [chr ':'] [] = .ok ([] ++ segments) ∧
        SplitInto (str ":a::b:") (chr ':') segments :=
  ⟨rfl, splitString_splits (by decide) (chr ':') []⟩

/-! ## Replacing in place -/

/-- The loop of `ReplaceString`, with the position where `find` starts. -/
def replaceLoop (what with_ : Str) : Nat → Nat → Str → Exec Str
  | 0, _, _ => .error .diverges
  | fuel + 1, pos, inout =>
      match findFrom inout what pos with
      | none => pure inout
      | some pos =>
          replaceLoop what with_ fuel (pos + with_.length)
            (inout.take pos ++ with_ ++ inout.drop (pos + what.length))

/-- `ReplaceString`: the string behind the call. -/
def replaceString (inout what with_ : Str) : Exec Str :=
  replaceLoop what with_ (inout.length + 1) 0 inout

/-- What stands before the position stays, and what stands behind it is replaced. -/
theorem replaceLoop_spec {what with_ : Str} (nonempty : what ≠ []) {fuel : Nat} {rest : Str}
    (enough : rest.length < fuel) (done : Str) :
    ∃ result, replaceLoop what with_ fuel done.length (done ++ rest) = .ok (done ++ result) ∧
      Replaced what with_ rest result := by
  induction fuel generalizing rest done with
  | zero => exact absurd enough (Nat.not_lt_zero _)
  | succ fuel ih =>
      have position : done.length ≤ (done ++ rest).length := by
        rw [List.length_append]
        exact Nat.le_add_right _ _
      rw [replaceLoop, findFrom, if_pos position, List.drop_left]
      cases search : findSub what rest with
      | none =>
          exact ⟨rest, rfl, .of_absent (findSub_eq_none_iff.mp search)⟩
      | some pos =>
          rcases findSub_eq_some search with ⟨front, later, rfl, rfl, notBefore⟩
          have whatPos : 0 < what.length := List.length_pos_of_ne_nil nonempty
          rw [List.length_append, List.length_append] at enough
          rcases @ih later (by omega) (done ++ front ++ with_) with ⟨result, returned, replaced⟩
          refine ⟨front ++ (with_ ++ result), ?_, .of_first notBefore replaced⟩
          have before : (done ++ (front ++ (what ++ later))).take (done.length + front.length) =
              done ++ front := by
            rw [← List.append_assoc, ← List.length_append, List.take_left]
          have behind : (done ++ (front ++ (what ++ later))).drop
              (done.length + front.length + what.length) = later := by
            rw [← List.append_assoc, ← List.append_assoc, ← List.length_append,
              ← List.length_append, List.drop_left]
          have next :
              done.length + front.length + with_.length = (done ++ front ++ with_).length := by
            rw [List.length_append, List.length_append]
          simp only [Option.map_some, before, behind, next]
          rw [returned, List.append_assoc, List.append_assoc]

/-- A pattern that is not empty is replaced from left to right, and nothing else is the
result. -/
theorem replaceString_spec {inout what : Str} (nonempty : what ≠ []) (with_ : Str) :
    ∃ result, replaceString inout what with_ = .ok result ∧
      ∀ other, Replaced what with_ inout other ↔ other = result := by
  rcases replaceLoop_spec nonempty (Nat.lt_succ_self inout.length) [] with
    ⟨result, returned, replaced⟩
  refine ⟨result, returned, ?_⟩
  intro other
  constructor
  · exact fun otherReplaced => otherReplaced.unique nonempty replaced
  · rintro rfl
    exact replaced

/-- One byte in place of another. -/
theorem replaceString_singleton (inout : Str) (old new : Byte) :
    replaceString inout [old] [new] =
      .ok (inout.map fun byte => if byte = old then new else byte) := by
  rcases replaceString_spec (List.cons_ne_nil old []) [new] with ⟨result, returned, unique⟩
  rw [returned, (unique _).mp (.of_singleton old new inout)]

/-! ## File names of classes -/

/-- `PATH_SEPARATOR`; `_WIN_32`, on which the source makes it depend, is set by no
compiler. -/
def pathSeparator : Str := str "/"

/-- `ClassNameToClassPath`. -/
def classNameToClassPath (className : Str) : Exec Str := do
  let className ← replaceString className (str ".") pathSeparator
  pure (className ++ str ".class")

/-- The name with slashes. -/
def slashed (className : Str) : Str :=
  className.map fun byte => if byte = chr '.' then chr '/' else byte

theorem classNameToClassPath_eq (className : Str) :
    classNameToClassPath className = .ok (slashed className ++ str ".class") := by
  have dots := replaceString_singleton className (chr '.') (chr '/')
  rw [classNameToClassPath]
  change (replaceString className [chr '.'] [chr '/'] >>= _) = _
  rw [dots, Exec.bind_ok]
  rfl

theorem slashed_eq_self {className : Str} (noDot : chr '.' ∉ className) :
    slashed className = className := by
  have same : ∀ byte ∈ className, (if byte = chr '.' then chr '/' else byte) = id byte := by
    intro byte mem
    apply if_neg
    rintro rfl
    exact noDot mem
  rw [slashed, List.map_congr_left same, List.map_id]

/-- `ReplaceString` replaces every occurrence from left to right, whatever is put in, and a
class name becomes a file name: every dot a slash, and the suffix; a name with slashes
already only gets the suffix. -/
theorem replacesInPlace :
    (∀ inout what with_ : Str, what ≠ [] →
      ∃ result, replaceString inout what with_ = .ok result ∧
        ∀ other, Replaced what with_ inout other ↔ other = result) ∧
      (∀ className, classNameToClassPath className =
        .ok ((className.map fun byte => if byte = chr '.' then chr '/' else byte) ++
          str ".class")) ∧
      ∀ className, chr '.' ∉ className →
        classNameToClassPath className = .ok (className ++ str ".class") := by
  refine ⟨fun inout what with_ nonempty => replaceString_spec nonempty with_,
    classNameToClassPath_eq, ?_⟩
  intro className noDot
  rw [classNameToClassPath_eq, slashed_eq_self noDot]

/-- The replacement contains the pattern. -/
theorem replacesInPlace_doubled :
    replaceString (str "aaa") (str "a") (str "aa") = .ok (str "aaaaaa") ∧
      ∃ result, replaceString (str "aaa") (str "a") (str "aa") = .ok result ∧
        ∀ other, Replaced (str "a") (str "aa") (str "aaa") other ↔ other = result :=
  ⟨rfl, replacesInPlace.1 _ _ _ (by decide)⟩

end JvmDemo.Classpath
