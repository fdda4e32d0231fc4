import AmqpBlob.Scalar

/-!
# Reading scalars as plain values

A reader that wants a number or a text asks for it with `Scalar.read`; a scalar of another kind is
refused with both kinds named. Conversions never change a value, so each type is read from its own
kind only, with two exceptions: a text may be a string or a symbol, and where null is allowed for it
means that there is no value.
-/

namespace AmqpBlob

/-- The short name under which conversion messages speak of a kind. -/
def Kind.shortName : Kind → String
  | null => "Null"
  | boolean => "Bool"
  | ubyte => "U8"
  | ushort => "U16"
  | uint => "U32"
  | ulong => "U64"
  | byte => "I8"
  | short => "I16"
  | int => "I32"
  | long => "I64"
  | float => "F32"
  | double => "F64"
  | decimal32 => "Decimal32"
  | decimal64 => "Decimal64"
  | decimal128 => "Decimal128"
  | char => "Char"
  | timestamp => "Timestamp"
  | uuid => "Uuid"
  | binary => "Binary"
  | string => "String"
  | symbol => "Symbol"
  | described => "Described"
  | list => "List"
  | map => "Map"
  | array => "Array"

/-- A scalar of one kind stood where another kind was asked for. -/
structure KindMismatch where
  /-- The kind that was asked for. -/
  expected : Kind
  /-- The kind of the scalar. -/
  found : Kind
  deriving DecidableEq, Repr

/-- The text of a mismatch. -/
def KindMismatch.message (mismatch : KindMismatch) : String :=
  "expected " ++ mismatch.expected.shortName ++ ", found " ++ mismatch.found.shortName

/-- Types that scalars are read as. -/
class OfScalar (α : Type) where
  /-- The value of a scalar, if its kind is the right one. -/
  ofScalar : Scalar → Except KindMismatch α

namespace Scalar

/-- Reads a scalar as a value of the type that is wanted. -/
def read (α : Type) [OfScalar α] (scalar : Scalar) : Except KindMismatch α :=
  OfScalar.ofScalar scalar

/-- Refuses a scalar where `expected` is wanted. -/
def mismatch {α : Type} (expected : Kind) (scalar : Scalar) : Except KindMismatch α :=
  .error ⟨expected, scalar.kind⟩

/-- Each scalar is taken as it is. -/
instance : OfScalar Scalar where
  ofScalar := .ok

instance : OfScalar Bool where
  ofScalar
    | boolean value => .ok value
    | other => mismatch .boolean other

instance : OfScalar UInt8 where
  ofScalar
    | ubyte value => .ok value
    | other => mismatch .ubyte other

instance : OfScalar UInt16 where
  ofScalar
    | ushort value => .ok value
    | other => mismatch .ushort other

instance : OfScalar UInt32 where
  ofScalar
    | uint value => .ok value
    | other => mismatch .uint other

instance : OfScalar UInt64 where
  ofScalar
    | ulong value => .ok value
    | other => mismatch .ulong other

instance : OfScalar Int8 where
  ofScalar
    | byte value => .ok value
    | other => mismatch .byte other

instance : OfScalar Int16 where
  ofScalar
    | short value => .ok value
    | other => mismatch .short other

instance : OfScalar Int32 where
  ofScalar
    | int value => .ok value
    | other => mismatch .int other

instance : OfScalar Int64 where
  ofScalar
    | long value => .ok value
    | other => mismatch .long other

instance : OfScalar Binary32 where
  ofScalar
    | float value => .ok value
    | other => mismatch .float other

instance : OfScalar Binary64 where
  ofScalar
    | double value => .ok value
    | other => mismatch .double other

instance : OfScalar Char where
  ofScalar
    | char value => .ok value
    | other => mismatch .char other

/-- A text is taken from a string and from a symbol. -/
instance : OfScalar String where
  ofScalar
    | string text | symbol text => .ok text
    | other => mismatch .string other

/-- Null is no value, and any other scalar is one of the type. -/
instance {α : Type} [OfScalar α] : OfScalar (Option α) where
  ofScalar
    | null => .ok none
    | other => some <$> other.read α

/-- The text of a string, and no symbol, with null for no text. -/
def string? : Scalar → Except KindMismatch (Option String)
  | null => .ok none
  | string text => .ok (some text)
  | other => mismatch .string other

/-- The text of a symbol, with null for no text. -/
def symbol? : Scalar → Except KindMismatch (Option String)
  | null => .ok none
  | symbol text => .ok (some text)
  | other => mismatch .symbol other

/-- The bytes of a binary, with null for no bytes. -/
def binary? : Scalar → Except KindMismatch (Option (List UInt8))
  | null => .ok none
  | binary bytes => .ok (some bytes)
  | other => mismatch .binary other

end Scalar

end AmqpBlob
