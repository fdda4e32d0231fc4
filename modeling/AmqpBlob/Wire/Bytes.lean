import AmqpBlob.Wire.Error

/-!
# Bytes of an encoding

Bounded reads of encoded bytes: a read that would pass the end is refused with its offset and the
number of bytes it needed. Words are big-endian.
-/

namespace AmqpBlob.Wire

/-- The number whose digits to the base 256 are the bytes. -/
def bigEndian (bytes : List UInt8) : Nat :=
  bytes.foldl (fun number byte => number * 256 + byte.toNat) 0

/-- The byte at `offset`. -/
def byteAt (bytes : ByteArray) (offset : Nat) : Except WireError UInt8 :=
  if h : offset < bytes.size then .ok bytes[offset] else .error (.truncated offset 1)

/-- The `length` bytes from `offset` on. -/
def sliceAt (bytes : ByteArray) (offset length : Nat) : Except WireError ByteArray :=
  if offset + length ≤ bytes.size then
    .ok (bytes.extract offset (offset + length))
  else
    .error (.truncated offset length)

/-- The word of `width` bytes at `offset`. -/
def wordAt (bytes : ByteArray) (offset width : Nat) : Except WireError Nat := do
  return bigEndian (← sliceAt bytes offset width).data.toList

end AmqpBlob.Wire
