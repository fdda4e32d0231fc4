import AmqpBlob.Decimal.Shortest

/-!
# Binary floating-point words

Floating-point numbers are kept as their words, so that every word, each NaN included, has one value
of its own. `BinaryFormat.text` writes a word with the fewest decimal digits that name it, by place
value.
-/

namespace AmqpBlob

/-- A binary floating-point number of 32 bits. -/
structure Binary32 where
  /-- The word, with the sign in its highest bit. -/
  bits : UInt32
  deriving DecidableEq

/-- A binary floating-point number of 64 bits. -/
structure Binary64 where
  /-- The word, with the sign in its highest bit. -/
  bits : UInt64
  deriving DecidableEq

/-- Widths of the fields below the sign bit of a floating-point word. -/
structure BinaryFormat where
  /-- Width of the fraction, the lowest field. -/
  fractionBits : Nat
  /-- Width of the exponent, between the fraction and the sign. -/
  exponentBits : Nat

namespace BinaryFormat

/-- The format of 32-bit words. -/
def single : BinaryFormat := ⟨23, 8⟩

/-- The format of 64-bit words. -/
def double : BinaryFormat := ⟨52, 11⟩

/-- The exponent field of the number one. -/
def bias (format : BinaryFormat) : Nat :=
  Nat.pow 2 (format.exponentBits - 1) - 1

/-- The text of a finite number other than zero, without its sign. A quarter of the distance to the
next number above is the unit of the interval that the number stands for; where that distance
changes, the next number below is nearer. -/
def magnitude (format : BinaryFormat) (exponent fraction : Nat) : List Char :=
  let mantissa := if exponent = 0 then fraction else Nat.pow 2 format.fractionBits + fraction
  let power : Int := (max exponent 1 : Nat) - (format.bias + format.fractionBits + 2 : Nat)
  let below := if fraction = 0 ∧ 1 < exponent then 1 else 2
  let factor := Nat.pow (if power < 0 then 5 else 2) power.natAbs
  let places := if power < 0 then power.natAbs else 0
  let interval : Decimal.Interval :=
    { low := (4 * mantissa - below) * factor
      value := 4 * mantissa * factor
      high := (4 * mantissa + 2) * factor
      closed := mantissa % 2 = 0 }
  let (coefficient, zeros) := interval.shortest
  Decimal.positional coefficient ((zeros : Int) - places)

/-- The text of a word. -/
def text (format : BinaryFormat) (word : Nat) : String :=
  let fraction := word % Nat.pow 2 format.fractionBits
  let exponent := word / Nat.pow 2 format.fractionBits % Nat.pow 2 format.exponentBits
  let negative := word / Nat.pow 2 (format.fractionBits + format.exponentBits) % 2 = 1
  let sign := if negative then "-" else ""
  if exponent = Nat.pow 2 format.exponentBits - 1 then
    if fraction = 0 then sign ++ "inf" else "NaN"
  else if exponent = 0 ∧ fraction = 0 then
    sign ++ "0"
  else
    sign ++ String.ofList (format.magnitude exponent fraction)

end BinaryFormat

/-- The text of a 32-bit number. -/
def Binary32.text (number : Binary32) : String :=
  BinaryFormat.single.text number.bits.toNat

/-- The text of a 64-bit number. -/
def Binary64.text (number : Binary64) : String :=
  BinaryFormat.double.text number.bits.toNat

end AmqpBlob
