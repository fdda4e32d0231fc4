import AmqpBlob.Decoder
import AmqpBlob.Schema.Section

/-!
# Envelopes

A blob starts with a magic number and the number of its section, or it is the bare envelope. An
envelope is a described list of a value, the schema section that describes the value, and possibly
more, which is not read. The value stands before the schema, so `Envelope.ofBytes` keeps its place
and `Envelope.decode` comes back to it.
-/

namespace AmqpBlob

/-- What stands in the place of an envelope. -/
inductive NotEnvelope where
  /-- A value without a descriptor. -/
  | undescribed (kind : Kind)
  /-- A value with the descriptor of something else. -/
  | misdescribed (descriptor : Scalar)
  /-- A described value that is no list. -/
  | content (kind : Kind)
  deriving DecidableEq

/-- The text of what stands in the place of an envelope. -/
def NotEnvelope.text : NotEnvelope → String
  | undescribed kind => kind.typeName
  | misdescribed descriptor => "descriptor " ++ descriptor.text
  | content kind => "described " ++ kind.typeName

/-- An error of reading an envelope. -/
inductive ReadError where
  /-- The envelope or its value cannot be decoded. -/
  | decode (error : DecodeError)
  /-- The schema section cannot be read. -/
  | schema (error : SchemaError)
  /-- The blob is of another section than the one for data. -/
  | unsupportedSection (number : UInt8)
  /-- The blob holds no envelope. -/
  | notAnEnvelope (found : NotEnvelope)
  deriving DecidableEq

instance : OfWireError ReadError where
  ofWireError fault := .decode (.wire fault)

/-- The text of an error of reading an envelope. -/
def ReadError.message : ReadError → String
  | decode error => error.message
  | schema error => "invalid schema section: " ++ error.message
  | unsupportedSection number => "unsupported blob section " ++ Decimal.natural number.toNat
  | notAnEnvelope found => "not an envelope: " ++ found.text

/-- An envelope whose schema was read and whose value is still encoded. -/
structure Envelope where
  /-- The schema. -/
  schema : Schema
  /-- The place of the value. -/
  value : Cursor

namespace Envelope

/-- The magic number at the start of a blob. -/
def magic : List UInt8 :=
  [0x63, 0x6f, 0x72, 0x64, 0x61, 0x01, 0x00]

/-- The number of the section for data. -/
def dataSection : UInt8 := 0

/-- The number of bytes before the envelope. -/
def headerLength (bytes : ByteArray) : Except ReadError Nat :=
  if (bytes.extract 0 magic.length).data.toList = magic then
    match bytes[magic.length]? with
    | none => .error (.decode (.wire (.truncated magic.length 1)))
    | some number =>
      if number = dataSection then .ok (magic.length + 1) else .error (.unsupportedSection number)
  else
    .ok 0

/-- Walks over an envelope. -/
def read : Walk ReadError Envelope := do
  let kind ← Walk.kind
  if kind ≠ .described then
    Walk.fail (.notAnEnvelope (.undescribed kind))
  Walk.inside do
    let descriptor ← Walk.scalar
    if EnvelopePart.ofScalar? descriptor ≠ some .envelope then
      Walk.fail (.notAnEnvelope (.misdescribed descriptor))
    Walk.next
    let kind ← Walk.kind
    if kind ≠ .list then
      Walk.fail (.notAnEnvelope (.content kind))
    Walk.inside do
      let value ← Walk.here
      Walk.next
      let schema ← Walk.mapError .schema SchemaSection.readSchema
      return { schema, value }

/-- The envelope of a blob. -/
def ofBytes (bytes : ByteArray) : Except ReadError Envelope := do
  let length ← headerLength bytes
  (read (.ofBytes (bytes.extract length bytes.size))).1

/-- Decodes the value of an envelope against its schema. -/
def decode (envelope : Envelope) (options : DecodeOptions) : Except ReadError Value :=
  let decoder : Decoder := ⟨envelope.schema, options⟩
  (decoder.decodeAny envelope.value).1.mapError .decode

end Envelope

end AmqpBlob
