import AmqpBlob.Blob

/-!
# Reports of failures

A failed command ends with a report: the failure, and under it what caused it, from the outermost
cause to the innermost. Several causes are numbered.
-/

namespace AmqpBlob.Inspect

/-- A failure and its causes, the outermost first. -/
structure Failure where
  /-- The text of the failure. -/
  text : String
  /-- The texts of its causes. -/
  causes : List String

/-- A text with `first` before it and `others` before each further line. -/
def indented (first others text : String) : String :=
  let line (c : Char) := if c = '\n' then c :: others.toList else [c]
  first ++ String.ofList (text.toList.flatMap line)

/-- The number of a cause, in a column of its own. -/
def causeNumber (number : Nat) : String :=
  let digits := Decimal.digits number
  String.ofList (List.replicate (5 - digits.length) ' ' ++ digits) ++ ": "

/-- The text of a failure with its causes. -/
def Failure.report (failure : Failure) : String :=
  let causes :=
    match failure.causes with
    | [] => []
    | [cause] => [indented "    " "    " cause]
    | causes => causes.mapIdx fun number cause => indented (causeNumber number) "       " cause
  let heading := if causes = [] then "" else "\n\nCaused by:"
  "Error: " ++ failure.text ++ heading ++ String.join (causes.map ("\n" ++ ·)) ++ "\n"

end AmqpBlob.Inspect

namespace AmqpBlob

/-- The causes of a fault of encoded data. -/
def WireError.causes : WireError → List String
  | mismatch cause => [cause.message]
  | _ => []

/-- The causes of an error of decoding. -/
def DecodeError.causes : DecodeError → List String
  | wire fault => fault.causes
  | _ => []

/-- The causes of an error of a schema. -/
def SchemaError.causes : SchemaError → List String
  | decode error => error.causes
  | _ => []

/-- The causes of an error of reading an envelope. -/
def ReadError.causes : ReadError → List String
  | decode error => error.causes
  | schema error => error.message :: error.causes
  | _ => []

/-- The causes of an error of reading a blob from a file. -/
def BlobFileError.causes : BlobFileError → List String
  | unopened _ fault => [fault.message]
  | undecoded _ error => error.message :: error.causes

/-- An error of reading a blob from a file as a failure. -/
def BlobFileError.failure (error : BlobFileError) : Inspect.Failure :=
  ⟨error.message, error.causes⟩

end AmqpBlob
