/-!
# Kinds of encoded values

Every encoded value starts with a format code. Several codes may stand for one kind, as a small
integer has a compact form beside its full one, and the rest of the library speaks of kinds only.
`Kind.ofCode?` reads a format code, `Kind.ofTypeName?` the name of a primitive type.
-/

namespace AmqpBlob

/-- Kind of an encoded value. -/
inductive Kind where
  | null
  | boolean
  | ubyte
  | ushort
  | uint
  | ulong
  | byte
  | short
  | int
  | long
  | float
  | double
  | decimal32
  | decimal64
  | decimal128
  | char
  | timestamp
  | uuid
  | binary
  | string
  | symbol
  | described
  | list
  | map
  | array
  deriving DecidableEq, Repr

namespace Kind

/-- The kind a format code stands for, `none` for a reserved code. -/
def ofCode? (code : UInt8) : Option Kind :=
  match code with
  | 0x00 => some described
  | 0x40 => some null
  | 0x41 | 0x42 | 0x56 => some boolean
  | 0x50 => some ubyte
  | 0x60 => some ushort
  | 0x43 | 0x52 | 0x70 => some uint
  | 0x44 | 0x53 | 0x80 => some ulong
  | 0x51 => some byte
  | 0x61 => some short
  | 0x54 | 0x71 => some int
  | 0x55 | 0x81 => some long
  | 0x72 => some float
  | 0x82 => some double
  | 0x74 => some decimal32
  | 0x84 => some decimal64
  | 0x94 => some decimal128
  | 0x73 => some char
  | 0x83 => some timestamp
  | 0x98 => some uuid
  | 0xa0 | 0xb0 => some binary
  | 0xa1 | 0xb1 => some string
  | 0xa3 | 0xb3 => some symbol
  | 0x45 | 0xc0 | 0xd0 => some list
  | 0xc1 | 0xd1 => some map
  | 0xe0 | 0xf0 => some array
  | _ => none

/-- Whether values of the kind hold other values. -/
def isCompound : Kind → Bool
  | described | list | map | array => true
  | _ => false

/-- The name of the kind in schemas and messages. -/
def typeName : Kind → String
  | null => "null"
  | boolean => "boolean"
  | ubyte => "ubyte"
  | ushort => "ushort"
  | uint => "uint"
  | ulong => "ulong"
  | byte => "byte"
  | short => "short"
  | int => "int"
  | long => "long"
  | float => "float"
  | double => "double"
  | decimal32 => "decimal32"
  | decimal64 => "decimal64"
  | decimal128 => "decimal128"
  | char => "char"
  | timestamp => "timestamp"
  | uuid => "uuid"
  | binary => "binary"
  | string => "string"
  | symbol => "symbol"
  | described => "described"
  | list => "list"
  | map => "map"
  | array => "array"

/-- The kinds of scalars, which are the ones with a primitive type name. -/
def primitives : List Kind :=
  [null, boolean, ubyte, ushort, uint, ulong, byte, short, int, long, float, double, decimal32,
    decimal64, decimal128, char, timestamp, uuid, binary, string, symbol]

/-- The kind a primitive type name stands for; compound kinds have no such name. -/
def ofTypeName? (name : String) : Option Kind :=
  primitives.find? fun kind => kind.typeName == name

/-- Primitive kinds are the kinds that are not compound. -/
theorem mem_primitives_iff (kind : Kind) : kind ∈ primitives ↔ kind.isCompound = false := by
  cases kind <;> decide

/-- A primitive kind is found again under its name. -/
theorem ofTypeName?_typeName {kind : Kind} (h : kind.isCompound = false) :
    ofTypeName? kind.typeName = some kind := by
  revert h
  cases kind <;> decide

end Kind

end AmqpBlob
