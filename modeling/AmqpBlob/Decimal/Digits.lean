/-!
# Decimal digits

Texts of whole numbers, and of decimal fractions written out by place value.
-/

namespace AmqpBlob.Decimal

/-- The decimal digits of a natural number. -/
def digits (n : Nat) : List Char :=
  Nat.toDigits 10 n

/-- The decimal text of a natural number. -/
def natural (n : Nat) : String :=
  String.ofList (digits n)

/-- The decimal text of an integer, with a minus sign before a negative one. -/
def integer : Int → String
  | .ofNat n => natural n
  | .negSucc n => "-" ++ natural (n + 1)

/-- The number `coefficient · 10 ^ exponent` by place value, with a point only where digits follow
it and a digit always before it. -/
def positional (coefficient : Nat) : Int → List Char
  | .ofNat zeros => digits coefficient ++ List.replicate zeros '0'
  | .negSucc n =>
    let places := n + 1
    let shown := digits coefficient
    let padded := List.replicate (places + 1 - shown.length) '0' ++ shown
    let whole := padded.length - places
    padded.take whole ++ '.' :: padded.drop whole

end AmqpBlob.Decimal
