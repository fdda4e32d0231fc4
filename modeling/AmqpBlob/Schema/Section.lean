import AmqpBlob.Schema
import AmqpBlob.Wire.Walk

/-!
# Schema sections

A schema travels in the envelope beside the value that it describes. Each of its elements is a
described list, whose descriptor tells which part it is:

* a schema holds the list of its types;
* a composite type holds a name, a label, interfaces, a descriptor and a list of fields;
* a restricted type holds a name, a label, interfaces, a source, a descriptor and a list of choices;
* a descriptor holds a symbol and a code;
* a field holds a name, a type, interfaces, a default, a label and two flags;
* a choice holds a name and a value.

Each walk starts on its element and ends on the sibling behind it.
-/

namespace AmqpBlob.SchemaSection

/-- A walk over an element of a schema. -/
abbrev SchemaWalk := Walk SchemaError

variable {α : Type}

/-- Refuses the current value of an element if it is of another kind. -/
def expectKind (part : EnvelopePart) (expected : Kind) : SchemaWalk Unit := do
  let found ← Walk.kind
  if found ≠ expected then
    Walk.fail (.decode (.schemaMismatch (.start part.text) (.oneOf [expected]) found))

/-- Walks over the list in a described element. -/
def describedList (part : EnvelopePart) (body : SchemaWalk α) : SchemaWalk α :=
  Walk.thenNext do
    expectKind part .described
    Walk.inside do
      let descriptor ← Walk.scalar
      if EnvelopePart.ofScalar? descriptor ≠ some part then
        Walk.fail (.unexpectedPart part descriptor)
      Walk.next
      expectKind part .list
      Walk.inside body

/-- The elements of a list or an array, with null for none; `what` names them in messages. -/
def listOf (what : String) (element : SchemaWalk α) : SchemaWalk (List α) :=
  Walk.thenNext do
    match ← Walk.kind with
    | .null => return []
    | .list | .array => Walk.inside (Walk.collect fun _ => element)
    | found => Walk.fail (.decode (.schemaMismatch (.start what) (.oneOf [.list]) found))

/-- A text. -/
def readText : SchemaWalk String :=
  Walk.thenNext (Walk.read String)

/-- A list of names. -/
def readNames : SchemaWalk (List String) :=
  listOf "names" readText

/-- A value that may be null and, at the end of its list, may be missing. -/
def readOptional (α : Type) [OfScalar α] : SchemaWalk (Option α) := do
  if ← Walk.hasCurrent then Walk.thenNext (Walk.read (Option α)) else return none

/-- A flag, which is false if it is absent. -/
def readFlag : SchemaWalk Bool := do
  return (← readOptional Bool).getD false

/-- A descriptor. -/
def readDescriptor : SchemaWalk Descriptor :=
  describedList .objectDescriptor do
    let name? ← readOptional String
    let code? ← readOptional UInt64
    return { name?, code? }

/-- A field. -/
def readField : SchemaWalk Field :=
  describedList .field do
    let name ← readText
    let type ← readText
    let requires ← readNames
    let default? ← readOptional String
    let label? ← readOptional String
    let mandatory ← readFlag
    let multiple ← readFlag
    return { name, type, requires, default?, label?, mandatory, multiple }

/-- A choice. -/
def readChoice : SchemaWalk Choice :=
  describedList .choice do
    let name ← readText
    let value ← readText
    return { name, value }

/-- A composite type. -/
def readComposite : SchemaWalk TypeDef :=
  describedList .compositeType do
    let name ← readText
    let label? ← readOptional String
    let provides ← readNames
    let descriptor ← readDescriptor
    let fields ← listOf "fields" readField
    return { name, label?, provides, descriptor, body := .composite fields }

/-- A restricted type. -/
def readRestricted : SchemaWalk TypeDef :=
  describedList .restrictedType do
    let name ← readText
    let label? ← readOptional String
    let provides ← readNames
    let source ← readText
    let descriptor ← readDescriptor
    let choices ← listOf "choices" readChoice
    match Restriction.ofSource name source choices with
    | .ok restriction =>
      return { name, label?, provides, descriptor, body := .restricted source restriction }
    | .error error => Walk.fail error

/-- A type of either form. -/
def readType : SchemaWalk TypeDef := do
  let descriptor? ← Walk.descriptor?
  match descriptor?.bind EnvelopePart.ofScalar? with
  | some .compositeType => readComposite
  | some .restrictedType => readRestricted
  | _ =>
    Walk.next
    Walk.fail (.notAType descriptor?)

/-- A schema. -/
def readSchema : SchemaWalk Schema := do
  let types ← describedList .schema (listOf "schema types" readType)
  match Schema.ofTypes types with
  | .ok schema => return schema
  | .error error => Walk.fail error

end AmqpBlob.SchemaSection
