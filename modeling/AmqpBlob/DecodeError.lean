import AmqpBlob.Path
import AmqpBlob.Schema.Type
import AmqpBlob.Wire.Error

/-!
# Errors of decoding

What can go wrong while a value is decoded against the types of a schema: a fault of the encoded
data, or data that does not fit the types. Each error has one text, `DecodeError.message`.
-/

namespace AmqpBlob

/-- What stands at a place according to the schema. -/
inductive Expectation where
  /-- A value of one of these kinds. -/
  | oneOf (kinds : List Kind)
  /-- A described value of a type. -/
  | described (sort : TypeSort) (name : String)
  deriving DecidableEq, Repr

/-- The text of an expectation. -/
def Expectation.text : Expectation → String
  | oneOf kinds => String.intercalate " or " (kinds.map Kind.typeName)
  | described sort name => "described " ++ sort.text ++ " " ++ name

/-- An error of decoding. -/
inductive DecodeError where
  /-- The kind of the value is another than the schema declares. -/
  | schemaMismatch (path : Path) (expected : Expectation) (found : Kind)
  /-- The descriptor of the value stands for another type. -/
  | descriptorMismatch (path : Path) (expected : Descriptor) (found : Scalar)
  /-- No type has the name. -/
  | unknownType (path : Path) (name : String)
  /-- No choice has the label, or the label has another place among the choices. -/
  | unknownChoice (path : Path) (label : String)
  /-- A mandatory field is null. -/
  | missingMandatory (path : Path)
  /-- A composite value has fewer values than its type has fields. -/
  | missingFields (path : Path) (expected found : Nat)
  /-- The value is nested too deeply. -/
  | depthExceeded (path : Path) (maxDepth : Nat)
  /-- The value refers to one that was encoded before. -/
  | referencedObject (path : Path)
  /-- A fault of the encoded data. -/
  | wire (fault : WireError)
  deriving DecidableEq

instance : OfWireError DecodeError where
  ofWireError := .wire

/-- The text of an error of decoding. -/
def DecodeError.message : DecodeError → String
  | schemaMismatch path expected found =>
    "schema mismatch at " ++ path.text ++ ": expected " ++ expected.text
      ++ ", found " ++ found.typeName
  | descriptorMismatch path expected found =>
    "descriptor mismatch at " ++ path.text ++ ": expected " ++ expected.text
      ++ ", found " ++ found.text
  | unknownType path name => "unknown type '" ++ name ++ "' at " ++ path.text
  | unknownChoice path label => "unknown choice '" ++ label ++ "' at " ++ path.text
  | missingMandatory path => "missing mandatory field at " ++ path.text
  | missingFields path expected found =>
    "composite at " ++ path.text ++ " has " ++ Decimal.natural found ++ " values, expected "
      ++ Decimal.natural expected
  | depthExceeded path maxDepth =>
    "maximum nesting depth " ++ Decimal.natural maxDepth ++ " exceeded at " ++ path.text
  | referencedObject path => "referenced object at " ++ path.text ++ " is not supported"
  | wire fault => fault.message

end AmqpBlob
