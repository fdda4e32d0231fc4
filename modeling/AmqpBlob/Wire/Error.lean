import AmqpBlob.Scalar.Conversion
import AmqpBlob.Text.Hex

/-!
# Faults of encoded data

What can go wrong while encoded bytes are walked, before any schema is asked. Each fault has one
text, `WireError.message`.
-/

namespace AmqpBlob

/-- Encodings that are well formed but not read. -/
inductive UnreadForm where
  /-- An array whose elements are described values. -/
  | arrayOfDescribed
  /-- A described value among the elements of an array. -/
  | describedElement
  deriving DecidableEq, Repr

/-- The name of an encoding that is not read. -/
def UnreadForm.text : UnreadForm → String
  | arrayOfDescribed => "arrays of described values"
  | describedElement => "described array elements"

/-- A fault of encoded data. -/
inductive WireError where
  /-- The data ends before the `needed` bytes at `offset`. -/
  | truncated (offset needed : Nat)
  /-- A reserved format code. -/
  | invalidFormatCode (code : UInt8) (offset : Nat)
  /-- No value is left at the position. -/
  | exhausted (offset : Nat)
  /-- A scalar was to be entered. -/
  | notCompound (kind : Kind)
  /-- A compound value was to be read as a scalar. -/
  | notScalar (kind : Kind)
  /-- A text is not valid UTF-8. -/
  | invalidUtf8 (offset : Nat)
  /-- A character's word is no code point of a character. -/
  | invalidChar (point : UInt32)
  /-- An encoding that is not read. -/
  | unread (offset : Nat) (form : UnreadForm)
  /-- A scalar of another kind than the wanted one. -/
  | mismatch (cause : KindMismatch)
  deriving DecidableEq, Repr

namespace WireError

/-- The text of a fault. -/
def message : WireError → String
  | truncated offset needed =>
    "unexpected end of data at offset " ++ Decimal.natural offset
      ++ " (needed " ++ Decimal.natural needed ++ " bytes)"
  | invalidFormatCode code offset =>
    "invalid format code " ++ Hex.number 2 code.toNat ++ " at offset " ++ Decimal.natural offset
  | exhausted offset => "no value at cursor position (offset " ++ Decimal.natural offset ++ ")"
  | notCompound kind => kind.typeName ++ " is not a compound value"
  | notScalar kind => kind.typeName ++ " is not a scalar value"
  | invalidUtf8 offset => "invalid UTF-8 at offset " ++ Decimal.natural offset
  | invalidChar point => "invalid char code point " ++ Hex.number 1 point.toNat
  | unread offset form =>
    "unsupported encoding at offset " ++ Decimal.natural offset ++ ": " ++ form.text
  | mismatch cause => "value type mismatch: " ++ cause.message

end WireError

/-- Kinds of error that a fault of the data can be the cause of. -/
class OfWireError (ε : Type) where
  /-- The error that a fault gives rise to. -/
  ofWireError : WireError → ε

instance : OfWireError WireError where
  ofWireError := id

end AmqpBlob
