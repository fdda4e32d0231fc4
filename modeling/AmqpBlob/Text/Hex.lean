/-!
# Hexadecimal digits

Numbers and bytes in lower-case hexadecimal, with or without a fixed width.
-/

namespace AmqpBlob.Hex

/-- The hexadecimal digits of a natural number, without leading zeros. -/
def digits (n : Nat) : List Char :=
  Nat.toDigits 16 n

/-- The last `width` hexadecimal digits of a natural number. -/
def fixed : Nat → Nat → List Char
  | 0, _ => []
  | width + 1, n => fixed width (n / 16) ++ [Nat.digitChar (n % 16)]

/-- A number after the mark `0x`, with at least `width` digits. -/
def number (width n : Nat) : String :=
  "0x" ++ String.ofList (fixed (max width (digits n).length) n)

/-- Two hexadecimal digits for each byte. -/
def bytes (data : List UInt8) : List Char :=
  data.flatMap fun byte => fixed 2 byte.toNat

end AmqpBlob.Hex
