import AmqpBlob.Wire.Bytes

/-!
# Extents of elements

How far an encoded element reaches. The high half of a format code gives the width of the data after
it: nothing, a fixed number of bytes, or a size of one or four bytes with as many bytes as it says.
The code `0x00` of a described value has no data of its own and stands before two elements, its
descriptor and its value, so `skip` counts the elements that are still to be passed over.
-/

namespace AmqpBlob.Wire

/-- The format code of a described value. -/
def describedCode : UInt8 := 0x00

/-- The number of bytes that the data of a format code takes, its size included, if the data starts
at `data`. -/
def dataLength (bytes : ByteArray) (code : UInt8) (data : Nat) : Except WireError Nat :=
  match code.toNat / 16 with
  | 0x4 => .ok 0
  | 0x5 => .ok 1
  | 0x6 => .ok 2
  | 0x7 => .ok 4
  | 0x8 => .ok 8
  | 0x9 => .ok 16
  | 0xa | 0xc | 0xe => do return 1 + (← byteAt bytes data).toNat
  | 0xb | 0xd | 0xf => do return 4 + (← wordAt bytes data 4)
  | _ => .error (.invalidFormatCode code (data - 1))

/-- The offset behind `pending` elements that start at `offset`. Each step passes over a byte or
more, and `left` bytes at most are left, so without any left the data has ended. -/
def skip (bytes : ByteArray) : (left pending offset : Nat) → Except WireError Nat
  | _, 0, offset => .ok offset
  | 0, _ + 1, offset => .error (.truncated offset 1)
  | left + 1, pending + 1, offset => do
    let code ← byteAt bytes offset
    if code = describedCode then
      skip bytes left (pending + 2) (offset + 1)
    else
      let length ← dataLength bytes code (offset + 1)
      skip bytes left pending (offset + 1 + length)

/-- The offset behind the element that starts at `offset`. -/
def elementStop (bytes : ByteArray) (offset : Nat) : Except WireError Nat :=
  skip bytes (bytes.size - offset) 1 offset

end AmqpBlob.Wire
