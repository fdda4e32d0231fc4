import AmqpBlob.Proofs.Wire.Tree
import AmqpBlob.Schema.Section

/-!
# Section form

The form in which a schema section writes the types of a schema. A form relates a value to the trees
that it may be written as, and the bytes may be any encoding of the tree.

An element of the section is a list behind the descriptor of its part, as a number or as a symbol.
Names are strings or symbols; a list without elements may be null, and so may a flag that is not set
and whatever is optional. At the end of a list such values may be left out altogether (`TailForm`); a
list from which nothing is left out may go on with trees of any kind.
-/

namespace AmqpBlob

variable {α : Type}

/-- The form of a text: a string or a symbol with its characters. -/
inductive TextForm : String → WireTree → Prop where
  | string (text : String) : TextForm text (.scalar (.string text))
  | symbol (text : String) : TextForm text (.scalar (.symbol text))

/-- The form of the number of a descriptor: an unsigned number of 64 bits. -/
inductive CodeForm : UInt64 → WireTree → Prop where
  | ulong (code : UInt64) : CodeForm code (.scalar (.ulong code))

/-- The form of a flag: a boolean, or null if the flag is not set. -/
inductive FlagForm : Bool → WireTree → Prop where
  | boolean (flag : Bool) : FlagForm flag (.scalar (.boolean flag))
  | absent : FlagForm false (.scalar .null)

/-- The form of a value that may be absent. -/
inductive OptionalForm (form : α → WireTree → Prop) : Option α → WireTree → Prop where
  | none : OptionalForm form none (.scalar .null)
  | some {value : α} {tree : WireTree} : form value tree → OptionalForm form (some value) tree

/-- The form of a list inside an element. -/
inductive ListForm (form : α → WireTree → Prop) : List α → WireTree → Prop where
  | null : ListForm form [] (.scalar .null)
  | list {parts : List (α × WireTree)} :
    (∀ part ∈ parts, form part.1 part.2) →
    ListForm form (parts.map Prod.fst) (.list (parts.map Prod.snd))

/-- The form of an element: what is in its list, behind the descriptor of its part. -/
inductive PartForm (part : EnvelopePart) (items : List WireTree) : WireTree → Prop where
  | numbered : PartForm part items (.described (.scalar (.ulong part.code)) (.list items))
  | named : PartForm part items (.described (.scalar (.symbol part.symbol)) (.list items))

/-- The trees at the end of an element's list, where each of the forms is that of one of them. Forms
that null has may have no tree, if there is nothing behind them either. -/
inductive TailForm : List (WireTree → Prop) → List WireTree → Prop where
  | extra {trees : List WireTree} : TailForm [] trees
  | item {form : WireTree → Prop} {forms : List (WireTree → Prop)} {tree : WireTree}
      {trees : List WireTree} :
    form tree →
    TailForm forms trees →
    TailForm (form :: forms) (tree :: trees)
  | omitted {forms : List (WireTree → Prop)} :
    (∀ form ∈ forms, form (.scalar .null)) →
    TailForm forms []

/-- The form of a descriptor: its symbol and its number, each of which may be null or, with all that
follows it, missing. -/
inductive DescriptorForm : Descriptor → WireTree → Prop where
  | mk {descriptor : Descriptor} {tail : List WireTree} {tree : WireTree} :
    TailForm [OptionalForm TextForm descriptor.name?, OptionalForm CodeForm descriptor.code?] tail →
    PartForm .objectDescriptor tail tree →
    DescriptorForm descriptor tree

/-- The form of a field: its name, its type and its interfaces, and behind them its default, its
label and its two flags, which may be null or missing. -/
inductive FieldForm : Field → WireTree → Prop where
  | mk {field : Field} {name type requires tree : WireTree} {tail : List WireTree} :
    TextForm field.name name →
    TextForm field.type type →
    ListForm TextForm field.requires requires →
    TailForm [OptionalForm TextForm field.default?, OptionalForm TextForm field.label?,
      FlagForm field.mandatory, FlagForm field.multiple] tail →
    PartForm .field (name :: type :: requires :: tail) tree →
    FieldForm field tree

/-- The form of a choice: its label and its value. Whatever stands behind them is not read. -/
inductive ChoiceForm : Choice → WireTree → Prop where
  | mk {choice : Choice} {name value tree : WireTree} {extra : List WireTree} :
    TextForm choice.name name →
    TextForm choice.value value →
    PartForm .choice (name :: value :: extra) tree →
    ChoiceForm choice tree

/-- The form of a type. What a restricted type stands for is told by its name, its source and the
choices that are written. -/
inductive TypeForm : TypeDef → WireTree → Prop where
  | composite {header : TypeHeader} {fields : List Field}
      {name label provides descriptor items tree : WireTree} {extra : List WireTree} :
    TextForm header.name name →
    OptionalForm TextForm header.label? label →
    ListForm TextForm header.provides provides →
    DescriptorForm header.descriptor descriptor →
    ListForm FieldForm fields items →
    PartForm .compositeType (name :: label :: provides :: descriptor :: items :: extra) tree →
    TypeForm ⟨header, .composite fields⟩ tree
  | restricted {header : TypeHeader} {source : String} {choices : List Choice}
      {restriction : Restriction} {name label provides origin descriptor items tree : WireTree}
      {extra : List WireTree} :
    Restriction.ofSource header.name source choices = .ok restriction →
    TextForm header.name name →
    OptionalForm TextForm header.label? label →
    ListForm TextForm header.provides provides →
    TextForm source origin →
    DescriptorForm header.descriptor descriptor →
    ListForm ChoiceForm choices items →
    PartForm .restrictedType (name :: label :: provides :: origin :: descriptor :: items :: extra)
      tree →
    TypeForm ⟨header, .restricted source restriction⟩ tree

/-- The form of a schema: the list of its types. Whatever stands behind the list is not read. -/
inductive SchemaForm : List TypeDef → WireTree → Prop where
  | mk {types : List TypeDef} {items tree : WireTree} {extra : List WireTree} :
    ListForm TypeForm types items →
    PartForm .schema (items :: extra) tree →
    SchemaForm types tree

end AmqpBlob
