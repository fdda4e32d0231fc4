import AmqpBlob.Decimal.Digits
import AmqpBlob.Text.Blank

/-!
# Names of types

Lists and maps are named after the generic type they stand for, as in `List<int>` or
`Map<string, Pair<int, int>>`. Parameters may themselves have parameters, so only the commas outside
all inner brackets separate them. Arrays are named after their elements, as in `string[]` or, for
unboxed elements, `int[p]`.
-/

namespace AmqpBlob

/-- What is wrong with a parameterized name. -/
inductive TypeNameFault where
  /-- There is no opening bracket. -/
  | missingParameters
  /-- The brackets do not match, or the last one is not the end of the name. -/
  | unbalanced
  /-- A parameter is blank. -/
  | emptyParameter
  /-- A map has one parameter only. -/
  | missingSeparator
  /-- The number of parameters is another than the expected one. -/
  | parameterCount (expected found : Nat)
  deriving DecidableEq, Repr

/-- A name that is not the parameterized name that was looked for. -/
structure TypeNameError where
  /-- The name. -/
  name : String
  /-- What is wrong with it. -/
  fault : TypeNameFault
  deriving DecidableEq, Repr

/-- The text of a fault in a name. -/
def TypeNameError.message (error : TypeNameError) : String :=
  let quoted := "'" ++ error.name ++ "'"
  match error.fault with
  | .missingParameters => "type name " ++ quoted ++ " has no parameter list"
  | .unbalanced => "unbalanced brackets in type name " ++ quoted
  | .emptyParameter => "empty parameter in type name " ++ quoted
  | .missingSeparator => "map type " ++ quoted ++ " has no top-level separator"
  | .parameterCount expected found =>
    "type name " ++ quoted ++ " has " ++ Decimal.natural found ++ " parameters, expected "
      ++ Decimal.natural expected

namespace TypeName

/-- The type name that stands for a value of any type. -/
def any : String := "*"

/-- Puts a character before the first piece of a cut text. -/
def onFirst (c : Char) : List (List Char) → List (List Char)
  | [] => [[c]]
  | piece :: pieces => (c :: piece) :: pieces

/-- Cuts a text at the commas outside brackets, if its brackets match; `depth` brackets are open
already. -/
def pieces? : (depth : Nat) → List Char → Option (List (List Char))
  | 0, [] => some [[]]
  | _ + 1, [] => none
  | depth, '<' :: rest => onFirst '<' <$> pieces? (depth + 1) rest
  | 0, '>' :: _ => none
  | depth + 1, '>' :: rest => onFirst '>' <$> pieces? depth rest
  | 0, ',' :: rest => ([] :: ·) <$> pieces? 0 rest
  | depth, c :: rest => onFirst c <$> pieces? depth rest

/-- A name taken apart at its outermost brackets. -/
structure Parts where
  /-- What stands before the brackets. -/
  outer : List Char
  /-- What stands between the brackets. -/
  inner : List Char
  /-- The parameters, with the blanks around them. -/
  params : List (List Char)

/-- Takes a parameterized name apart. -/
def parts (name : String) : Except TypeNameError Parts :=
  let outer := name.toList.takeWhile (· ≠ '<')
  match name.toList.dropWhile (· ≠ '<') with
  | [] => .error ⟨name, .missingParameters⟩
  | _ :: rest =>
    if rest.getLast? = some '>' then
      match pieces? 0 rest.dropLast with
      | none => .error ⟨name, .unbalanced⟩
      | some params =>
        if params.any (·.all Text.isBlank) then
          .error ⟨name, .emptyParameter⟩
        else
          .ok ⟨outer, rest.dropLast, params⟩
    else
      .error ⟨name, .unbalanced⟩

/-- A parameter without the blanks around it. -/
def trimmed (param : List Char) : String :=
  String.ofList (Text.trim param)

/-- The outer name and the trimmed parameters of a parameterized name. -/
def generic (name : String) : Except TypeNameError (String × List String) := do
  let parts ← parts name
  return (String.ofList parts.outer, parts.params.map trimmed)

/-- The outer name and the only parameter, as it is written, of a list's name. -/
def list (name : String) : Except TypeNameError (String × String) := do
  let parts ← parts name
  match parts.params with
  | [_] => return (String.ofList parts.outer, String.ofList parts.inner)
  | params => throw ⟨name, .parameterCount 1 params.length⟩

/-- The outer name, the trimmed key type and the trimmed value type of a map's name. -/
def map (name : String) : Except TypeNameError (String × String × String) := do
  let parts ← parts name
  match parts.params with
  | [key, value] => return (String.ofList parts.outer, trimmed key, trimmed value)
  | [_] => throw ⟨name, .missingSeparator⟩
  | params => throw ⟨name, .parameterCount 2 params.length⟩

/-- The element type of an array's name. -/
def arrayElement? (name : String) : Option String :=
  match name.toList.reverse with
  | ']' :: '[' :: c :: rest => some (String.ofList (c :: rest).reverse)
  | ']' :: 'p' :: '[' :: c :: rest => some (String.ofList (c :: rest).reverse)
  | _ => none

/-- The name of an array has the element type before its brackets, whichever they are. -/
theorem arrayElement?_brackets {element : String} (h : element ≠ "") :
    arrayElement? (element ++ "[]") = some element ∧
    arrayElement? (element ++ "[p]") = some element := by
  cases hrev : element.toList.reverse with
  | nil => exact absurd (String.toList_eq_nil_iff.1 (List.reverse_eq_nil_iff.1 hrev)) h
  | cons c rest =>
    have back : String.ofList (c :: rest).reverse = element := by
      rw [← hrev, List.reverse_reverse, String.ofList_toList]
    constructor
    · rw [arrayElement?, String.toList_append, List.reverse_append, hrev]
      exact congrArg some back
    · rw [arrayElement?, String.toList_append, List.reverse_append, hrev]
      exact congrArg some back

/-- Arrays have no other names. -/
theorem brackets_of_arrayElement? {name element : String} (h : arrayElement? name = some element) :
    element ≠ "" ∧ (name = element ++ "[]" ∨ name = element ++ "[p]") := by
  have nonempty (c : Char) (rest : List Char) : String.ofList (c :: rest).reverse ≠ "" := by
    rw [ne_eq, ← String.toList_eq_nil_iff, String.toList_ofList, List.reverse_eq_nil_iff]
    nofun
  have written {brackets text : List Char} (hrev : name.toList.reverse = brackets ++ text) :
      name = String.ofList text.reverse ++ String.ofList brackets.reverse := by
    rw [← String.ofList_append, ← List.reverse_append, ← hrev, List.reverse_reverse,
      String.ofList_toList]
  unfold arrayElement? at h
  split at h
  next c rest hrev =>
    cases h
    exact ⟨nonempty c rest, .inl (@written [']', '['] _ hrev)⟩
  next c rest hrev =>
    cases h
    exact ⟨nonempty c rest, .inr (@written [']', 'p', '['] _ hrev)⟩
  · cases h

end TypeName

end AmqpBlob
