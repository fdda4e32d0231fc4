import AmqpBlob.Wire.Extent

/-!
# Data of scalars

The scalar that a format code and the data after it stand for.
-/

namespace AmqpBlob.Wire

/-- The bytes of a binary or a text: a size of one or four bytes stands before them. -/
def payloadAt (bytes : ByteArray) (code : UInt8) (data : Nat) : Except WireError ByteArray := do
  if code.toNat / 16 = 0xa then
    let length ← byteAt bytes data
    sliceAt bytes (data + 1) length.toNat
  else
    let length ← wordAt bytes data 4
    sliceAt bytes (data + 4) length

/-- The text of a string or a symbol. -/
def textAt (bytes : ByteArray) (code : UInt8) (data : Nat) : Except WireError String := do
  let payload ← payloadAt bytes code data
  match String.fromUTF8? payload with
  | some text => return text
  | none => throw (.invalidUtf8 data)

/-- The character whose code point is the word at `data`. -/
def charAt (bytes : ByteArray) (data : Nat) : Except WireError Char := do
  let point := (← wordAt bytes data 4).toUInt32
  if h : point.isValidChar then return ⟨point, h⟩ else throw (.invalidChar point)

/-- The scalar whose format code is `code` and whose data starts at `data`; `offset` is where the
value stands. -/
def scalarAt (bytes : ByteArray) (offset : Nat) (code : UInt8) (data : Nat) :
    Except WireError Scalar := do
  let word := wordAt bytes data
  match code with
  | 0x40 => return .null
  | 0x41 => return .boolean true
  | 0x42 => return .boolean false
  | 0x56 => return .boolean ((← word 1) ≠ 0)
  | 0x50 => return .ubyte (← word 1).toUInt8
  | 0x60 => return .ushort (← word 2).toUInt16
  | 0x70 => return .uint (← word 4).toUInt32
  | 0x52 => return .uint (← word 1).toUInt32
  | 0x43 => return .uint 0
  | 0x80 => return .ulong (← word 8).toUInt64
  | 0x53 => return .ulong (← word 1).toUInt64
  | 0x44 => return .ulong 0
  | 0x51 => return .byte (← word 1).toInt8
  | 0x61 => return .short (← word 2).toInt16
  | 0x71 => return .int (← word 4).toInt32
  | 0x54 => return .int (← word 1).toInt8.toInt32
  | 0x81 => return .long (← word 8).toInt64
  | 0x55 => return .long (← word 1).toInt8.toInt64
  | 0x72 => return .float ⟨(← word 4).toUInt32⟩
  | 0x82 => return .double ⟨(← word 8).toUInt64⟩
  | 0x74 => return .decimal32 (← word 4).toUInt32
  | 0x84 => return .decimal64 (← word 8).toUInt64
  | 0x94 => return .decimal128 (.ofNat 128 (← word 16))
  | 0x73 => return .char (← charAt bytes data)
  | 0x83 => return .timestamp (← word 8).toInt64
  | 0x98 => return .uuid (.ofNat 128 (← word 16))
  | 0xa0 | 0xb0 => return .binary (← payloadAt bytes code data).data.toList
  | 0xa1 | 0xb1 => return .string (← textAt bytes code data)
  | 0xa3 | 0xb3 => return .symbol (← textAt bytes code data)
  | _ =>
    match Kind.ofCode? code with
    | some kind => throw (.notScalar kind)
    | none => throw (.invalidFormatCode code offset)

end AmqpBlob.Wire
