import AmqpBlob.Schema

/-!
# Texts of schemas

A type is written as a heading with its sort and name, and under it, indented, its descriptor, its
label, its interfaces and what it is made of.
-/

namespace AmqpBlob

/-- Texts between brackets. -/
def bracketed (items : List String) : String :=
  "[" ++ String.intercalate ", " items ++ "]"

/-- The text of a truth value. -/
def truthText (value : Bool) : String :=
  if value then "true" else "false"

/-- The line of a field. -/
def Field.text (field : Field) : String :=
  "        " ++ field.name ++ ": \x7b type: " ++ field.type
    ++ (if field.requires.isEmpty then "" else ", requires: " ++ bracketed field.requires)
    ++ (match field.default? with
      | some value => ", default: " ++ value
      | none => "")
    ++ ", mandatory: " ++ truthText field.mandatory
    ++ ", multiple: " ++ truthText field.multiple ++ " \x7d\n"

/-- The lines of what every type has. -/
def TypeHeader.text (header : TypeHeader) : String :=
  "    descriptor: " ++ header.descriptor.text ++ "\n"
    ++ (match header.label? with
      | some label => "    label: " ++ label ++ "\n"
      | none => "")
    ++ (if header.provides.isEmpty then ""
      else "    provides: " ++ bracketed header.provides ++ "\n")

/-- The lines of what a restricted type stands for. -/
def Restriction.text : Restriction → String
  | list _ element => "    of: " ++ element ++ "\n"
  | map _ key value => "    key: " ++ key ++ "\n    value: " ++ value ++ "\n"
  | enumeration choices => "    choices: " ++ bracketed (choices.map Choice.name) ++ "\n"

/-- The lines of what a type is made of. -/
def TypeBody.text : TypeBody → String
  | composite [] => "    fields: []\n"
  | composite fields => "    fields:\n" ++ String.join (fields.map Field.text)
  | restricted _ restriction => restriction.text

/-- The lines of a type. -/
def TypeDef.text (type : TypeDef) : String :=
  type.sort.text ++ " " ++ type.name ++ "\n" ++ type.toTypeHeader.text ++ type.body.text

/-- The lines of types, in the order given. -/
def TypeDef.listText (types : List TypeDef) : String :=
  String.join (types.map TypeDef.text)

/-- The lines of a schema, with each type after those that it uses. -/
def Schema.text (schema : Schema) : String :=
  TypeDef.listText schema.ordered

/-- The lines of a schema, in the order of the declarations. -/
def Schema.declaredText (schema : Schema) : String :=
  TypeDef.listText schema.types

end AmqpBlob
