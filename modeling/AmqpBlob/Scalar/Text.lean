import AmqpBlob.Scalar
import AmqpBlob.Text.Quoted

/-!
# Texts of scalars

Each scalar has a text for messages and dumps. Kinds that share a text stay apart by marks: a string
is quoted, a symbol starts with a colon, and raw words name their kind.
-/

namespace AmqpBlob.Scalar

/-- The five groups of hexadecimal digits of a UUID. -/
def uuidText (bits : BitVec 128) : String :=
  let digits := Hex.fixed 32 bits.toNat
  let group (start width : Nat) := (digits.drop start).take width
  String.ofList <|
    group 0 8 ++ '-' :: group 8 4 ++ '-' :: group 12 4 ++ '-' :: group 16 4 ++ '-' :: group 20 12

/-- The text of a scalar. -/
def text : Scalar → String
  | null => "null"
  | boolean value => if value then "true" else "false"
  | ubyte value => Decimal.natural value.toNat
  | ushort value => Decimal.natural value.toNat
  | uint value => Decimal.natural value.toNat
  | ulong value => Decimal.natural value.toNat
  | byte value => Decimal.integer value.toInt
  | short value => Decimal.integer value.toInt
  | int value => Decimal.integer value.toInt
  | long value => Decimal.integer value.toInt
  | float value => value.text
  | double value => value.text
  | decimal32 bits => "decimal32(" ++ Hex.number 8 bits.toNat ++ ")"
  | decimal64 bits => "decimal64(" ++ Hex.number 16 bits.toNat ++ ")"
  | decimal128 bits => "decimal128(" ++ Hex.number 32 bits.toNat ++ ")"
  | char value => "'" ++ value.toString ++ "'"
  | timestamp milliseconds => "timestamp(" ++ Decimal.integer milliseconds.toInt ++ ")"
  | uuid bits => uuidText bits
  | binary bytes => "0x" ++ String.ofList (Hex.bytes bytes)
  | string text => Text.quoted text
  | symbol text => ":" ++ text

end AmqpBlob.Scalar
