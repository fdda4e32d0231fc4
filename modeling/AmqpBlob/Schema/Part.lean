import AmqpBlob.Scalar

/-!
# Parts of an envelope

The elements that an envelope and its schema section are made of. Each has a descriptor of its own,
with a numeric code and a symbolic name that are the same in every envelope.
-/

namespace AmqpBlob

/-- An element of an envelope. -/
inductive EnvelopePart where
  | envelope
  | schema
  | objectDescriptor
  | field
  | compositeType
  | restrictedType
  | choice
  | referencedObject
  | transformSchema
  | transformElement
  | transformElementKey
  deriving DecidableEq, Repr

namespace EnvelopePart

/-- The parts in the order of their codes. -/
def all : List EnvelopePart :=
  [envelope, schema, objectDescriptor, field, compositeType, restrictedType, choice,
    referencedObject, transformSchema, transformElement, transformElementKey]

/-- The number of a part, in the low bits of its code. -/
def number : EnvelopePart → UInt64
  | envelope => 1
  | schema => 2
  | objectDescriptor => 3
  | field => 4
  | compositeType => 5
  | restrictedType => 6
  | choice => 7
  | referencedObject => 8
  | transformSchema => 9
  | transformElement => 10
  | transformElementKey => 11

/-- The numeric descriptor of a part. -/
def code (part : EnvelopePart) : UInt64 :=
  0xc562_0000_0000_0000 ||| part.number

/-- The symbolic descriptor of a part. -/
def symbol : EnvelopePart → String
  | envelope => "net.corda:envelope"
  | schema => "net.corda:schema"
  | objectDescriptor => "net.corda:object-descriptor"
  | field => "net.corda:field"
  | compositeType => "net.corda:composite-type"
  | restrictedType => "net.corda:restricted-type"
  | choice => "net.corda:choice"
  | referencedObject => "net.corda:referenced-object"
  | transformSchema => "net.corda:transform-schema"
  | transformElement => "net.corda:transform-element"
  | transformElementKey => "net.corda:transform-element-key"

/-- The name of a part in messages. -/
def text : EnvelopePart → String
  | envelope => "envelope"
  | schema => "schema"
  | objectDescriptor => "object descriptor"
  | field => "field"
  | compositeType => "composite type"
  | restrictedType => "restricted type"
  | choice => "choice"
  | referencedObject => "referenced object"
  | transformSchema => "transform schema"
  | transformElement => "transform element"
  | transformElementKey => "transform element key"

/-- The part with a numeric descriptor. -/
def ofCode? (code : UInt64) : Option EnvelopePart :=
  all.find? fun part => part.code == code

/-- The part with a symbolic descriptor. -/
def ofSymbol? (symbol : String) : Option EnvelopePart :=
  all.find? fun part => part.symbol == symbol

/-- The part that a descriptor on the wire stands for. -/
def ofScalar? : Scalar → Option EnvelopePart
  | .ulong code => ofCode? code
  | .symbol symbol => ofSymbol? symbol
  | _ => none

/-- A part is found again by its code. -/
theorem ofCode?_code (part : EnvelopePart) : ofCode? part.code = some part := by
  cases part <;> decide

/-- A part is found again by its symbol. -/
theorem ofSymbol?_symbol (part : EnvelopePart) : ofSymbol? part.symbol = some part := by
  cases part <;> decide

end EnvelopePart

end AmqpBlob
