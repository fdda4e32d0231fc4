import AmqpBlob.Schema.Descriptor
import AmqpBlob.TypeName

/-!
# Types of a schema

A schema declares composite types, which are records with an ordered list of fields, and restricted
types, which stand for a list, for a map or for a closed choice of labels. What a list or a map
holds is read off its name.
-/

namespace AmqpBlob

/-- A field of a composite type. -/
structure Field where
  /-- The name of the field. -/
  name : String
  /-- The name of its type, or `*` where the value tells its type itself. -/
  type : String
  /-- The interfaces that the value has. -/
  requires : List String
  /-- The text of the default value. -/
  default? : Option String
  /-- A label for readers. -/
  label? : Option String
  /-- Whether null is refused. -/
  mandatory : Bool
  /-- Whether the field holds several values. -/
  multiple : Bool
  deriving DecidableEq, Repr

namespace Field

/-- Whether the value tells its type itself. -/
def isAny (field : Field) : Bool :=
  field.type == TypeName.any

/-- The type that the field refers to: where the value tells its type itself, the first interface
that it has stands in. -/
def resolvedType (field : Field) : String :=
  match field.requires with
  | required :: _ => if field.isAny then required else field.type
  | [] => field.type

/-- The kind of the field's values, where the type is primitive. -/
def primitive? (field : Field) : Option Kind :=
  Kind.ofTypeName? field.resolvedType

end Field

/-- A label that values of an enumeration may have. -/
structure Choice where
  /-- The label. -/
  name : String
  /-- The text of the value that goes with it. -/
  value : String
  deriving DecidableEq, Repr

/-- What a restricted type stands for. -/
inductive Restriction where
  /-- A list of elements; an array has no outer name. -/
  | list (outer? : Option String) (element : String)
  /-- A map from keys to values. -/
  | map (outer key value : String)
  /-- A closed and ordered choice of labels. -/
  | enumeration (choices : List Choice)
  deriving DecidableEq, Repr

/-- What a type is made of. -/
inductive TypeBody where
  /-- A record of fields, in the order of their values on the wire. -/
  | composite (fields : List Field)
  /-- A restriction of a source type. -/
  | restricted (source : String) (restriction : Restriction)
  deriving DecidableEq, Repr

/-- What every type has. -/
structure TypeHeader where
  /-- The name of the type. -/
  name : String
  /-- A label for readers. -/
  label? : Option String
  /-- The interfaces that the type has. -/
  provides : List String
  /-- The descriptor of the type's values. -/
  descriptor : Descriptor
  deriving DecidableEq, Repr

/-- A type of a schema. -/
structure TypeDef extends TypeHeader where
  /-- What the type is made of. -/
  body : TypeBody
  deriving DecidableEq, Repr

/-- The sorts of types. -/
inductive TypeSort where
  | list
  | map
  | enumeration
  | composite
  deriving DecidableEq, Repr

/-- The name of a sort in texts. -/
def TypeSort.text : TypeSort → String
  | list => "list"
  | map => "map"
  | enumeration => "enum"
  | composite => "composite"

namespace Restriction

/-- The sort of a restricted type. -/
def sort : Restriction → TypeSort
  | list _ _ => .list
  | map _ _ _ => .map
  | enumeration _ => .enumeration

/-- The names that the type is built from: its element type, its key and value types, or its
labels. -/
def references : Restriction → List String
  | list _ element => [element]
  | map _ key value => [key, value]
  | enumeration choices => choices.map Choice.name

/-- The names of the types that the type is built from. Labels name no types. -/
def types : Restriction → List String
  | list _ element => [element]
  | map _ key value => [key, value]
  | enumeration _ => []

/-- The list that a name stands for: an array, or a generic type of one parameter. -/
def ofListName (name : String) : Except TypeNameError Restriction :=
  match TypeName.arrayElement? name with
  | some element => .ok (list none element)
  | none => do
    let (outer, element) ← TypeName.list name
    return list (some outer) (TypeName.trimmed element.toList)

/-- The map that a name stands for. -/
def ofMapName (name : String) : Except TypeNameError Restriction := do
  let (outer, key, value) ← TypeName.map name
  return map outer key value

end Restriction

namespace TypeDef

/-- The sort of a type. -/
def sort (type : TypeDef) : TypeSort :=
  match type.body with
  | .composite _ => .composite
  | .restricted _ restriction => restriction.sort

/-- Whether a type is composite. -/
def isComposite (type : TypeDef) : Bool :=
  match type.body with
  | .composite _ => true
  | .restricted _ _ => false

/-- Whether a type uses the type of the given name. -/
def refersTo (type : TypeDef) (name : String) : Bool :=
  match type.body with
  | .composite fields => fields.any fun field => field.resolvedType == name
  | .restricted _ restriction => restriction.types.contains name

end TypeDef

namespace Choice

/-- The place of a label among the choices. -/
def ordinal? (choices : List Choice) (label : String) : Option Nat :=
  choices.findIdx? fun choice => choice.name == label

/-- The place of a label is the first one that it stands at. -/
theorem ordinal?_eq_some_iff {choices : List Choice} {label : String} {place : Nat} :
    ordinal? choices label = some place ↔
      (choices.map name)[place]? = some label ∧
      ∀ earlier < place, (choices.map name)[earlier]? ≠ some label := by
  rw [ordinal?, List.findIdx?_eq_some_iff_getElem]
  constructor
  · rintro ⟨inside, found, first⟩
    refine ⟨?_, fun earlier before => ?_⟩
    · rw [List.getElem?_map, List.getElem?_eq_getElem inside]
      exact congrArg some (eq_of_beq found)
    · rw [List.getElem?_map, List.getElem?_eq_getElem (Nat.lt_trans before inside)]
      exact fun same => first earlier before (beq_iff_eq.2 (Option.some.inj same))
  · rintro ⟨found, first⟩
    obtain ⟨inside, hname⟩ := List.getElem?_eq_some_iff.1 found
    rw [List.length_map] at inside
    rw [List.getElem_map] at hname
    refine ⟨inside, beq_iff_eq.2 hname, fun earlier before same => first earlier before ?_⟩
    rw [List.getElem?_map, List.getElem?_eq_getElem (Nat.lt_trans before inside)]
    exact congrArg some (eq_of_beq same)

/-- Every label of the choices has a place. -/
theorem exists_ordinal? {choices : List Choice} {label : String} (h : label ∈ choices.map name) :
    ∃ place, ordinal? choices label = some place := by
  obtain ⟨choice, member, rfl⟩ := List.mem_map.1 h
  have found : (ordinal? choices choice.name).isSome = true := by
    rw [ordinal?, List.findIdx?_isSome, List.any_eq_true]
    exact ⟨choice, member, beq_self_eq_true _⟩
  exact Option.isSome_iff_exists.1 found

end Choice

end AmqpBlob
