import AmqpBlob.DecodeError
import AmqpBlob.Schema.Part

/-!
# Errors of schemas

What can go wrong while a schema is read or put together. Each error has one text,
`SchemaError.message`.
-/

namespace AmqpBlob

/-- An error of a schema. -/
inductive SchemaError where
  /-- A list or a map whose name does not tell what it holds. -/
  | typeName (error : TypeNameError)
  /-- An element of the schema that cannot be decoded. -/
  | decode (error : DecodeError)
  /-- An element that is none of the types. -/
  | notAType (found : Option Scalar)
  /-- An element with another descriptor than its place requires. -/
  | unexpectedPart (expected : EnvelopePart) (found : Scalar)
  /-- A restricted type whose source is neither a list nor a map. -/
  | unknownSource (name source : String)
  /-- Two types of one name. -/
  | duplicateType (name : String)
  deriving DecidableEq

/-- Faults of the bytes are errors of decoding a schema. -/
instance : OfWireError SchemaError where
  ofWireError fault := .decode (.wire fault)

/-- The text of an error of a schema. -/
def SchemaError.message : SchemaError → String
  | typeName error => error.message
  | decode error => error.message
  | notAType found => "unexpected descriptor for type notation: " ++ Descriptor.wireText found
  | unexpectedPart expected found =>
    "unexpected descriptor for " ++ expected.text ++ ": " ++ Descriptor.wireText (some found)
  | unknownSource name source =>
    "unknown source '" ++ source ++ "' for restricted type '" ++ name ++ "'"
  | duplicateType name => "duplicate type '" ++ name ++ "' in schema"

end AmqpBlob
