import AmqpBlob.Schema
import AmqpBlob.Value
import AmqpBlob.Wire.Walk

/-!
# Decoding against a schema

A decoder turns the encoded value under a cursor into a `Value`, guided by the name of its type:
a primitive type, a type of the schema, an array of another type, or `*` for a value that tells its
type by its descriptor. Values nest to a limited depth: described values, and lists, arrays and maps
without a descriptor, each add one level.

`Decoder.decode` and its relatives end on the sibling behind the value, whether they succeed or not.
-/

namespace AmqpBlob

/-- What becomes of a value whose descriptor is not the one of its type. -/
inductive DescriptorPolicy where
  /-- It is refused. -/
  | strict
  /-- It is decoded as the type says. -/
  | lenient
  deriving DecidableEq, Repr

/-- Limits and policies of decoding. -/
structure DecodeOptions where
  /-- How deep values may nest. -/
  maxDepth : Nat := 128
  /-- What becomes of a value whose descriptor is not the one of its type. -/
  policy : DescriptorPolicy := .strict

/-- A schema to decode against, with the options of decoding. -/
structure Decoder where
  /-- The schema. -/
  schema : Schema
  /-- The options. -/
  options : DecodeOptions

/-- What the name of a type stands for in a schema. -/
inductive TypeUse where
  /-- A value that tells its type itself. -/
  | any
  /-- A scalar. -/
  | primitive (kind : Kind)
  /-- A value of a type of the schema. -/
  | declared (type : TypeDef)
  /-- An array. -/
  | array (element : String)

/-- What the name of a type stands for: primitive names come before the types of the schema, and
arrays behind them. -/
def Schema.resolve? (schema : Schema) (name : String) : Option TypeUse :=
  if name = TypeName.any then
    some .any
  else
    match Kind.ofTypeName? name with
    | some kind => some (.primitive kind)
    | none =>
      match schema.get? name with
      | some type => some (.declared type)
      | none => (TypeName.arrayElement? name).map .array

/-- The value that null stands for where a type of the schema is wanted. -/
def TypeDef.nullValue (type : TypeDef) : Value :=
  match type.body with
  | .restricted _ (.list _ _) | .restricted _ (.map _ _ _) => .empty
  | _ => .single .null

namespace Decoder

/-- A walk over a value. -/
abbrev ValueWalk := Walk DecodeError

/-- Decodes the current value as the type of a name, at a path, without moving on. -/
abbrev Reading := String → Path → ValueWalk Value

/-- Refuses the current value if it is of none of the given kinds. -/
def expectKind (path : Path) (expected : List Kind) : ValueWalk Unit := do
  let found ← Walk.kind
  if found ∉ expected then
    Walk.fail (.schemaMismatch path (.oneOf expected) found)

/-- The current value as a scalar of the given kind, or null. -/
def readPrimitive (expected : Kind) (path : Path) : ValueWalk Value := do
  let found ← Walk.kind
  if found ≠ expected ∧ found ≠ .null then
    Walk.fail (.schemaMismatch path (.oneOf [expected]) found)
  return .single (← Walk.scalar)

/-- The children of the current value, each read with `item`. -/
def readItems (item : Path → ValueWalk Value) (path : Path) : ValueWalk Value :=
  Walk.inside do
    let items ← Walk.collect fun index => Walk.thenNext (item (path.push (.item index)))
    return .collection items

/-- The children of the current value, read in pairs with `key` and `value`. -/
def readEntries (key value : Path → ValueWalk Value) (path : Path) : ValueWalk Value :=
  Walk.inside do
    let entries ← Walk.collect fun index => do
      let key ← Walk.thenNext (key (path.push (.key index)))
      let value ← Walk.thenNext (value (path.push (.value index)))
      return .entry key value
    return .collection entries

/-- A field and its value under the field's name. -/
def readField (child : Reading) (field : Field) (path : Path) : ValueWalk Value :=
  Walk.thenNext do
    if field.mandatory then
      if (← Walk.kind) = .null then
        Walk.fail (.missingMandatory path)
    return .pair field.name (← child field.type path)

/-- The fields from place `index` on, of `count` fields at all. -/
def readFields (child : Reading) (path : Path) (count : Nat) :
    (index : Nat) → List Field → ValueWalk (List Value)
  | _, [] => return []
  | index, field :: rest => do
    unless ← Walk.hasCurrent do
      Walk.fail (.missingFields path count index)
    let value ← readField child field (path.push (.field field.name))
    return value :: (← readFields child path count (index + 1) rest)

/-- A composite value: the list of its fields. -/
def readComposite (child : Reading) (fields : List Field) (path : Path) : ValueWalk Value := do
  expectKind path [.list]
  Walk.inside do
    return .collection (← readFields child path fields.length 0 fields)

/-- A label as a value, if it is one of the choices and the ordinal that came with it, if there was one,
is its place among them. -/
def chosen (choices : List Choice) (label : String) (ordinal? : Option Int32) (path : Path) :
    ValueWalk Value :=
  match Choice.ordinal? choices label with
  | none => Walk.fail (.unknownChoice path label)
  | some place =>
    if ordinal?.all fun ordinal => ordinal.toInt = (place : Int) then
      return .single (.string label)
    else
      Walk.fail (.unknownChoice path label)

/-- A label, with its place among the choices or without one. -/
def readLabel (choices : List Choice) (path : Path) : ValueWalk Value := do
  expectKind path [.list]
  Walk.inside do
    let label ← Walk.read String
    Walk.next
    let ordinal? ← if ← Walk.hasCurrent then Walk.read (Option Int32) else pure none
    chosen choices label ordinal? path

variable (decoder : Decoder)

/-- Refuses to go one level deeper if none is left. -/
def goDeeper (left : Nat) (path : Path) : ValueWalk Unit :=
  if left = 0 then Walk.fail (.depthExceeded path decoder.options.maxDepth) else pure ()

/-- The elements of a list or an array, with null for none. -/
def readElements (left : Nat) (child : Reading) (element : String) (path : Path) :
    ValueWalk Value := do
  if (← Walk.kind) = .null then
    return .empty
  expectKind path [.list, .array]
  decoder.goDeeper left path
  readItems (child element) path

/-- The entries of a map, with null for none. -/
def readMap (child : Reading) (key value : String) (path : Path) : ValueWalk Value := do
  if (← Walk.kind) = .null then
    return .empty
  expectKind path [.map]
  readEntries (child key) (child value) path

/-- Refuses a descriptor that is not the one of the type, unless the policy is lenient. -/
def checkDescriptor (type : TypeDef) (found : Scalar) (path : Path) : ValueWalk Unit :=
  if type.descriptor.accepts found ∨ decoder.options.policy = .lenient then
    pure ()
  else
    Walk.fail (.descriptorMismatch path type.descriptor found)

/-- The value behind a descriptor, as its type says. -/
def readBody (left : Nat) (child : Reading) (body : TypeBody) (path : Path) : ValueWalk Value :=
  match body with
  | .composite fields => readComposite child fields path
  | .restricted _ (.list _ element) => decoder.readElements left child element path
  | .restricted _ (.map _ key value) => readMap child key value path
  | .restricted _ (.enumeration choices) => readLabel choices path

/-- A value of a type of the schema. -/
def readDeclared (left : Nat) (child : Reading) (type : TypeDef) (path : Path) :
    ValueWalk Value := do
  match ← Walk.kind with
  | .null => return type.nullValue
  | .described =>
    decoder.goDeeper left path
    Walk.inside do
      let descriptor ← Walk.scalar
      decoder.checkDescriptor type descriptor path
      Walk.next
      decoder.readBody left child type.body path
  | found => Walk.fail (.schemaMismatch path (.described type.sort type.name) found)

/-- A value without a descriptor, as its encoding tells. -/
def readPlain (left : Nat) (child : Reading) (path : Path) : ValueWalk Value := do
  match ← Walk.kind with
  | .list | .array =>
    decoder.goDeeper left path
    readItems (child TypeName.any) path
  | .map =>
    decoder.goDeeper left path
    readEntries (child TypeName.any) (child TypeName.any) path
  | _ => return .single (← Walk.scalar)

/-- A value as the type that its descriptor stands for, or without one as its encoding tells. -/
def readFound (left : Nat) (child : Reading) (path : Path) : Option Scalar → ValueWalk Value
  | none => decoder.readPlain left child path
  | some descriptor =>
    match decoder.schema.find? descriptor with
    | some type => decoder.readDeclared left child type path
    | none =>
      if EnvelopePart.ofScalar? descriptor = some .referencedObject then
        Walk.fail (.referencedObject path)
      else
        Walk.fail (.unknownType path descriptor.text)

/-- A value that tells its type itself. -/
def readAny (left : Nat) (child : Reading) (path : Path) : ValueWalk Value := do
  decoder.readFound left child path (← Walk.descriptor?)

/-- A value of the type of a name, if its children are read with `child` and `left` levels are left
for them. -/
def readUse (left : Nat) (child : Reading) : Reading := fun name path =>
  match decoder.schema.resolve? name with
  | some .any => decoder.readAny left child path
  | some (.primitive kind) => readPrimitive kind path
  | some (.declared type) => decoder.readDeclared left child type path
  | some (.array element) => decoder.readElements left child element path
  | none => Walk.fail (.unknownType path name)

/-- A value of the type of a name, which may nest `left` levels deep, itself included. -/
def readValue : (left : Nat) → Reading
  | 0, _, path => Walk.fail (.depthExceeded path decoder.options.maxDepth)
  | left + 1, name, path => decoder.readUse left (readValue left) name path

/-- A value of the type of a name, with all the levels that the options allow. -/
def readOutermost : Reading :=
  decoder.readValue (decoder.options.maxDepth + 1)

/-- Decodes the current value as the type of the given name. -/
def decode (type : String) : ValueWalk Value :=
  Walk.thenNext (decoder.readOutermost type (.start type))

/-- Decodes the current value as the type of the given name and puts a name before it. -/
def decodeNamed (name type : String) : ValueWalk Value := do
  return .pair name (← Walk.thenNext (decoder.readOutermost type (.start name)))

/-- Decodes the current value as a field. -/
def decodeField (field : Field) : ValueWalk Value :=
  readField decoder.readOutermost field (.start field.name)

/-- Decodes the current value as its descriptor or, without one, its encoding tells. -/
def decodeAny : ValueWalk Value :=
  Walk.thenNext (decoder.readOutermost TypeName.any (.start "$"))

end Decoder

end AmqpBlob
