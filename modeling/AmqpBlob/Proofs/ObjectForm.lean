import AmqpBlob.Proofs.Conformance
import AmqpBlob.Proofs.Wire.Tree

/-!
# Object form

The form in which values of a schema are written: a value of a declared type is a descriptor of the
type with a list, an array or a map behind it; scalars are written as they are, and so are the
collections in a place of no declared type.

`Written schema levels spot value tree` relates a value to the trees that it may be written as.
Described values, and lists, arrays and maps without a descriptor, each add a level of nesting;
`levels` is a bound for them.
-/

namespace AmqpBlob

/-- A value with a tree that it is written as. -/
structure Form where
  /-- The value. -/
  value : Value
  /-- The tree. -/
  tree : WireTree

/-- Where a value is written. -/
inductive Spot where
  /-- In the place of a name, as what the name stands for. -/
  | use (use? : Option TypeUse)
  /-- Behind a descriptor, as the body of the type tells. -/
  | body (body : TypeBody)

/-- The tree is a list or an array of the items. -/
def WireTree.Lists (tree : WireTree) (items : List WireTree) : Prop :=
  tree = .list items ∨ tree = .array items

/-- What lists items is a list or an array. -/
lemma WireTree.Lists.kind_mem {tree : WireTree} {items : List WireTree} (h : tree.Lists items) :
    tree.kind ∈ [Kind.list, Kind.array] := by
  rcases h with rfl | rfl
  · exact List.mem_cons_self
  · exact List.mem_cons_of_mem _ List.mem_cons_self

/-- The keys and the values of entries in turns. -/
def Form.turns (entries : List (Form × Form)) : List WireTree :=
  entries.flatMap fun entry => [entry.1.tree, entry.2.tree]

/-- The entries as values. -/
def Form.entries (entries : List (Form × Form)) : Value :=
  .collection (entries.map fun entry => .entry entry.1.value entry.2.value)

/-- The tree is a way to write the value at a spot, nesting `levels` deep at most. -/
inductive Written (schema : Schema) : (levels : Nat) → Spot → Value → WireTree → Prop where
  | primitive {levels : Nat} {kind : Kind} {scalar : Scalar} :
    scalar.kind = kind ∨ scalar = .null →
    Written schema levels (.use (some (.primitive kind))) (.single scalar) (.scalar scalar)
  | null {levels : Nat} {type : TypeDef} :
    Written schema levels (.use (some (.declared type))) type.nullValue (.scalar .null)
  | declared {levels : Nat} {type : TypeDef} {descriptor : Scalar} {value : Value}
      {tree : WireTree} :
    type.descriptor.accepts descriptor = true →
    Written schema levels (.body type.body) value tree →
    Written schema (levels + 1) (.use (some (.declared type))) value
      (.described (.scalar descriptor) tree)
  | composite {levels : Nat} {parts : List (Field × Form)} {extra : List WireTree} :
    (∀ part ∈ parts,
      Written schema levels (.use (schema.resolve? part.1.type)) part.2.value part.2.tree) →
    (∀ part ∈ parts, part.1.mandatory = true → part.2.tree ≠ .scalar .null) →
    Written schema levels (.body (.composite (parts.map Prod.fst)))
      (.collection (parts.map fun part => .pair part.1.name part.2.value))
      (.list (parts.map (fun part => part.2.tree) ++ extra))
  | list {levels : Nat} {source element : String} {outer? : Option String} {forms : List Form}
      {tree : WireTree} :
    tree.Lists (forms.map Form.tree) →
    (∀ form ∈ forms, Written schema levels (.use (schema.resolve? element)) form.value form.tree) →
    Written schema levels (.body (.restricted source (.list outer? element)))
      (.collection (forms.map Form.value)) tree
  | map {levels : Nat} {source outer key value : String} {entries : List (Form × Form)} :
    (∀ entry ∈ entries,
      Written schema levels (.use (schema.resolve? key)) entry.1.value entry.1.tree) →
    (∀ entry ∈ entries,
      Written schema levels (.use (schema.resolve? value)) entry.2.value entry.2.tree) →
    Written schema levels (.body (.restricted source (.map outer key value)))
      (Form.entries entries) (.map (Form.turns entries))
  | label {levels : Nat} {source label : String} {choices : List Choice} :
    label ∈ choices.map Choice.name →
    Written schema levels (.body (.restricted source (.enumeration choices)))
      (.single (.string label)) (.list [.scalar (.string label)])
  | placedLabel {levels place : Nat} {source label : String} {choices : List Choice}
      {ordinal : Int32} :
    (choices.map Choice.name)[place]? = some label →
    (∀ earlier < place, (choices.map Choice.name)[earlier]? ≠ some label) →
    ordinal.toInt = place →
    Written schema levels (.body (.restricted source (.enumeration choices)))
      (.single (.string label)) (.list [.scalar (.string label), .scalar (.int ordinal)])
  | noElements {levels : Nat} {element : String} :
    Written schema levels (.use (some (.array element))) .empty (.scalar .null)
  | elements {levels : Nat} {element : String} {forms : List Form} {tree : WireTree} :
    tree.Lists (forms.map Form.tree) →
    (∀ form ∈ forms, Written schema levels (.use (schema.resolve? element)) form.value form.tree) →
    Written schema (levels + 1) (.use (some (.array element)))
      (.collection (forms.map Form.value)) tree
  | anyType {levels : Nat} {type : TypeDef} {descriptor : Scalar} {value : Value}
      {tree : WireTree} :
    schema.find? descriptor = some type →
    Written schema levels (.body type.body) value tree →
    Written schema (levels + 1) (.use (some .any)) value (.described (.scalar descriptor) tree)
  | anyScalar {levels : Nat} {scalar : Scalar} :
    Written schema levels (.use (some .any)) (.single scalar) (.scalar scalar)
  | anyElements {levels : Nat} {forms : List Form} {tree : WireTree} :
    tree.Lists (forms.map Form.tree) →
    (∀ form ∈ forms, Written schema levels (.use (some .any)) form.value form.tree) →
    Written schema (levels + 1) (.use (some .any)) (.collection (forms.map Form.value)) tree
  | anyEntries {levels : Nat} {entries : List (Form × Form)} :
    (∀ entry ∈ entries, Written schema levels (.use (some .any)) entry.1.value entry.1.tree) →
    (∀ entry ∈ entries, Written schema levels (.use (some .any)) entry.2.value entry.2.tree) →
    Written schema (levels + 1) (.use (some .any)) (Form.entries entries)
      (.map (Form.turns entries))

variable {schema : Schema} {levels : Nat} {spot : Spot} {body : TypeBody} {use? : Option TypeUse}
  {value : Value} {tree : WireTree}

/-- Behind a descriptor no value is null. -/
lemma Written.ne_null_of_body (h : Written schema levels (.body body) value tree) :
    value ≠ .single .null := by
  cases h
  all_goals nofun

/-- Null is written as null. -/
lemma Written.eq_null (h : Written schema levels (.use use?) value tree)
    (hnull : value = .single .null) : tree = .scalar .null := by
  cases h with
  | primitive | anyScalar =>
    cases hnull
    rfl
  | null | noElements => rfl
  | declared _ hbody | anyType _ hbody => exact absurd hnull hbody.ne_null_of_body
  | elements | anyElements | anyEntries => cases hnull

/-- The value conforms to what stands at a spot: behind a descriptor, to each type of the body. -/
def ConformsAt (schema : Schema) (value : Value) : Spot → Prop
  | .use use? => Conforms schema use? value
  | .body body => ∀ type : TypeDef, type.body = body → Conforms schema (some (.declared type)) value

/-- Entries conform to the type of a map if their keys and values do. -/
lemma conforms_entries {type : TypeDef} {source outer key value : String}
    {entries : List (Form × Form)} (hbody : type.body = .restricted source (.map outer key value))
    (hkeys : ∀ entry ∈ entries, Conforms schema (schema.resolve? key) entry.1.value)
    (hvalues : ∀ entry ∈ entries, Conforms schema (schema.resolve? value) entry.2.value) :
    Conforms schema (some (.declared type)) (Form.entries entries) := by
  have conforms := @Conforms.map schema type source outer key value
    (entries.map fun entry => (entry.1.value, entry.2.value)) hbody
    (List.forall_mem_map.2 hkeys) (List.forall_mem_map.2 hvalues)
  rw [List.map_map] at conforms
  exact conforms

/-- Whatever is written at a spot conforms to what stands there. -/
lemma Written.conformsAt (indexed : schema.Indexed) (h : Written schema levels spot value tree) :
    ConformsAt schema value spot := by
  induction h with
  | primitive hkind => exact .primitive hkind
  | null => exact conforms_nullValue _
  | declared _ _ ih => exact ih _ rfl
  | @composite levels parts extra hparts mandatory ih =>
    intro type hbody
    have hfields : type.body =
        .composite ((parts.map fun part => (part.1, part.2.value)).map Prod.fst) := by
      rw [hbody, List.map_map]
      rfl
    have conforms := Conforms.composite hfields (List.forall_mem_map.2 ih)
      (List.forall_mem_map.2 fun part member hmandatory hnull =>
        mandatory part member hmandatory ((hparts part member).eq_null hnull))
    rw [List.map_map] at conforms
    exact conforms
  | list _ _ ih => exact fun type hbody => .list hbody (List.forall_mem_map.2 ih)
  | map _ _ ihk ihv => exact fun type hbody => conforms_entries hbody ihk ihv
  | label member => exact fun type hbody => .label hbody member
  | placedLabel hplace => exact fun type hbody => .label hbody (List.mem_of_getElem? hplace)
  | noElements => exact .array (List.forall_mem_nil _)
  | elements _ _ ih => exact .array (List.forall_mem_map.2 ih)
  | anyType hfind _ ih => exact .anyType (indexed.mem_of_find? hfind) (ih _ rfl)
  | anyScalar => exact .anyScalar
  | anyElements _ _ ih => exact .anyCollection (List.forall_mem_map.2 ih)
  | anyEntries _ _ ihk ihv =>
    refine .anyCollection (List.forall_mem_map.2 fun entry member => .anyCollection ?_)
    exact List.forall_mem_cons.2 ⟨ihk entry member, List.forall_mem_singleton.2 (ihv entry member)⟩

end AmqpBlob
