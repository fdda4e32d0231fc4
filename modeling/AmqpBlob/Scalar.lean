import AmqpBlob.Binary
import AmqpBlob.Kind

/-!
# Scalars

A scalar is one decoded primitive value. Each primitive kind has a form of its own, which
`Scalar.kind` names, and nothing is widened or rounded on the way.
-/

namespace AmqpBlob

/-- One decoded primitive value. -/
inductive Scalar where
  | null
  | boolean (value : Bool)
  | ubyte (value : UInt8)
  | ushort (value : UInt16)
  | uint (value : UInt32)
  | ulong (value : UInt64)
  | byte (value : Int8)
  | short (value : Int16)
  | int (value : Int32)
  | long (value : Int64)
  | float (value : Binary32)
  | double (value : Binary64)
  | decimal32 (bits : UInt32)
  | decimal64 (bits : UInt64)
  | decimal128 (bits : BitVec 128)
  | char (value : Char)
  | timestamp (milliseconds : Int64)
  | uuid (bits : BitVec 128)
  | binary (bytes : List UInt8)
  | string (text : String)
  | symbol (text : String)
  deriving DecidableEq

namespace Scalar

/-- The primitive kind of a scalar. -/
def kind : Scalar → Kind
  | null => .null
  | boolean _ => .boolean
  | ubyte _ => .ubyte
  | ushort _ => .ushort
  | uint _ => .uint
  | ulong _ => .ulong
  | byte _ => .byte
  | short _ => .short
  | int _ => .int
  | long _ => .long
  | float _ => .float
  | double _ => .double
  | decimal32 _ => .decimal32
  | decimal64 _ => .decimal64
  | decimal128 _ => .decimal128
  | char _ => .char
  | timestamp _ => .timestamp
  | uuid _ => .uuid
  | binary _ => .binary
  | string _ => .string
  | symbol _ => .symbol

/-- Whether a scalar is the null value. -/
def isNull : Scalar → Bool
  | null => true
  | _ => false

/-- No scalar is of a compound kind. -/
theorem isCompound_kind (scalar : Scalar) : scalar.kind.isCompound = false := by
  cases scalar <;> rfl

/-- Null is the only scalar of its kind. -/
theorem kind_eq_null_iff (scalar : Scalar) : scalar.kind = .null ↔ scalar = null := by
  cases scalar <;> simp [kind]

end Scalar

end AmqpBlob
