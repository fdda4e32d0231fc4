import AmqpBlob.Schema.Error
import AmqpBlob.Schema.Order
import Std.Data.TreeMap

/-!
# Schemas

A schema holds types in the order of their declarations. No two types have one name. A type is found
by its name with `Schema.get?`, and by a descriptor on the wire with `Schema.find?`, which gives the
first type that was declared with that symbol or code.
-/

namespace AmqpBlob

/-- The types of a schema, with their names, symbols and codes as keys to them. -/
structure Schema where
  /-- The types in the order of their declarations. -/
  types : List TypeDef
  /-- The type of each name. -/
  byName : Std.TreeMap String TypeDef
  /-- The first type of each symbolic descriptor. -/
  bySymbol : Std.TreeMap String TypeDef
  /-- The first type of each numeric descriptor. -/
  byCode : Std.TreeMap UInt64 TypeDef

namespace Restriction

/-- What a restricted type stands for, by the source that it restricts; a list with choices is an
enumeration. -/
def ofSource (name source : String) (choices : List Choice) : Except SchemaError Restriction :=
  match source, choices with
  | "list", [] => (ofListName name).mapError .typeName
  | "list", choices => .ok (enumeration choices)
  | "map", _ => (ofMapName name).mapError .typeName
  | source, _ => .error (.unknownSource name source)

end Restriction

namespace Schema

/-- The schema without types. -/
def empty : Schema :=
  ⟨[], ∅, ∅, ∅⟩

/-- The schema with one more type behind the others, if no other one has its name. -/
def add (schema : Schema) (type : TypeDef) : Except SchemaError Schema :=
  if type.name ∈ schema.byName then
    .error (.duplicateType type.name)
  else
    .ok {
      types := schema.types ++ [type]
      byName := schema.byName.insert type.name type
      bySymbol :=
        match type.descriptor.name? with
        | some symbol => schema.bySymbol.insertIfNew symbol type
        | none => schema.bySymbol
      byCode :=
        match type.descriptor.code? with
        | some code => schema.byCode.insertIfNew code type
        | none => schema.byCode }

/-- The schema of a list of types, if their names differ. -/
def ofTypes (types : List TypeDef) : Except SchemaError Schema :=
  types.foldlM add empty

/-- The type of the given name. -/
def get? (schema : Schema) (name : String) : Option TypeDef :=
  schema.byName[name]?

/-- The type that a descriptor on the wire stands for. -/
def find? (schema : Schema) : Scalar → Option TypeDef
  | .symbol name | .string name => schema.bySymbol[name]?
  | .ulong code => schema.byCode[code]?
  | _ => none

/-- The types in an order in which each comes after those that it uses. -/
def ordered (schema : Schema) : List TypeDef :=
  (declarationOrder schema.types).filterMap fun place => schema.types[place]?

end Schema

end AmqpBlob
