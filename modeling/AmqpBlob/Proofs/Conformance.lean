import AmqpBlob.Decoder
import AmqpBlob.Proofs.Index
import AmqpBlob.Proofs.Walk
import AmqpBlob.Proofs.Wire.Scalar

/-!
# Decoded values are of their types

`Conforms schema use value` says that a value is one of what a name stands for in a schema, whatever
it was decoded from. The main statement is that what decoding gives conforms to the name it was decoded
as, and the bytes may be any.

Each walk of the decoder has a lemma that reads its success as a constructor of `Conforms`. What they
ask of the reading of the children is `Sound`: beside conformance, that null is given only where null
stands, as a mandatory field is told from its kind before its value is read.
-/

namespace AmqpBlob

open Walk (Gives)

/-- The value is one of what a name stands for in the schema; nothing conforms to a name that stands
for nothing. -/
inductive Conforms (schema : Schema) : Option TypeUse → Value → Prop where
  | primitive {kind : Kind} {scalar : Scalar} :
    scalar.kind = kind ∨ scalar = .null →
    Conforms schema (some (.primitive kind)) (.single scalar)
  | array {element : String} {items : List Value} :
    (∀ item ∈ items, Conforms schema (schema.resolve? element) item) →
    Conforms schema (some (.array element)) (.collection items)
  | list {type : TypeDef} {source element : String} {outer? : Option String} {items : List Value} :
    type.body = .restricted source (.list outer? element) →
    (∀ item ∈ items, Conforms schema (schema.resolve? element) item) →
    Conforms schema (some (.declared type)) (.collection items)
  | map {type : TypeDef} {source outer key value : String} {entries : List (Value × Value)} :
    type.body = .restricted source (.map outer key value) →
    (∀ entry ∈ entries, Conforms schema (schema.resolve? key) entry.1) →
    (∀ entry ∈ entries, Conforms schema (schema.resolve? value) entry.2) →
    Conforms schema (some (.declared type))
      (.collection (entries.map fun entry => .entry entry.1 entry.2))
  | noLabel {type : TypeDef} {source : String} {choices : List Choice} :
    type.body = .restricted source (.enumeration choices) →
    Conforms schema (some (.declared type)) (.single .null)
  | label {type : TypeDef} {source label : String} {choices : List Choice} :
    type.body = .restricted source (.enumeration choices) →
    label ∈ choices.map Choice.name →
    Conforms schema (some (.declared type)) (.single (.string label))
  | noComposite {type : TypeDef} {fields : List Field} :
    type.body = .composite fields →
    Conforms schema (some (.declared type)) (.single .null)
  | composite {type : TypeDef} {parts : List (Field × Value)} :
    type.body = .composite (parts.map Prod.fst) →
    (∀ part ∈ parts, Conforms schema (schema.resolve? part.1.type) part.2) →
    (∀ part ∈ parts, part.1.mandatory = true → part.2 ≠ .single .null) →
    Conforms schema (some (.declared type))
      (.collection (parts.map fun part => .pair part.1.name part.2))
  | anyType {type : TypeDef} {value : Value} :
    type ∈ schema.types →
    Conforms schema (some (.declared type)) value →
    Conforms schema (some .any) value
  | anyScalar {scalar : Scalar} :
    Conforms schema (some .any) (.single scalar)
  | anyCollection {items : List Value} :
    (∀ item ∈ items, Conforms schema (some .any) item) →
    Conforms schema (some .any) (.collection items)

/-- Null is a value of every type. -/
lemma conforms_nullValue {schema : Schema} (type : TypeDef) :
    Conforms schema (some (.declared type)) type.nullValue := by
  unfold TypeDef.nullValue
  cases hbody : type.body with
  | composite fields => exact .noComposite hbody
  | restricted source restriction =>
    cases restriction with
    | list outer? element => exact .list hbody (List.forall_mem_nil _)
    | map outer key value =>
      exact @Conforms.map _ _ _ _ _ _ [] hbody (List.forall_mem_nil _) (List.forall_mem_nil _)
    | enumeration choices => exact .noLabel hbody

/-- A value that is read as a scalar is of the scalar's kind. -/
lemma Cursor.kind_of_scalar {c : Cursor} {scalar : Scalar} (h : c.scalar = .ok scalar) :
    c.kind = .ok scalar.kind := by
  obtain ⟨⟨code, data⟩, hcode, hscalar⟩ := Wire.exists_of_bind h
  have hkind : Kind.ofCode? code = some scalar.kind := Wire.ofCode?_of_scalarAt hscalar
  rw [Cursor.kind, hcode]
  simp only [bind, Except.bind, hkind]
  rfl

/-- Items of one form are what the form makes of a list. -/
lemma exists_map_of_forall_mem {α : Type} {give : α → Value} {holds : α → Prop} {items : List Value}
    (h : ∀ item ∈ items, ∃ part, item = give part ∧ holds part) :
    ∃ parts : List α, items = parts.map give ∧ ∀ part ∈ parts, holds part := by
  induction items with
  | nil => exact ⟨[], rfl, List.forall_mem_nil _⟩
  | cons item rest ih =>
    obtain ⟨⟨part, rfl, hpart⟩, hrest⟩ := List.forall_mem_cons.1 h
    obtain ⟨parts, rfl, hparts⟩ := ih hrest
    exact ⟨part :: parts, rfl, List.forall_mem_cons.2 ⟨hpart, hparts⟩⟩

/-- A label with a place among the choices is the name of one of them. -/
lemma Choice.mem_of_ordinal? {choices : List Choice} {label : String} {place : Nat}
    (h : Choice.ordinal? choices label = some place) : label ∈ choices.map Choice.name :=
  List.mem_of_getElem? (ordinal?_eq_some_iff.1 h).1

namespace Decoder

/-- What a walk over a value gives is of a use, and it is null only where null stands. -/
structure Sound (schema : Schema) (use : Option TypeUse) (walk : ValueWalk Value) : Prop where
  /-- The value conforms. -/
  conforms : Gives walk (Conforms schema use)
  /-- Null is given for null only. -/
  null {c : Cursor} : (walk c).1 = .ok (.single .null) → c.kind = .ok .null

variable {decoder : Decoder} {schema : Schema} {use : Option TypeUse} {walk : ValueWalk Value}
  {child : Reading} {left : Nat} {path : Path}

/-- A walk that never gives null is sound if its values conform. -/
lemma Sound.of_ne_null
    (h : Gives walk fun value => Conforms schema use value ∧ value ≠ .single .null) :
    Sound schema use walk where
  conforms c value hvalue := (h c value hvalue).1
  null hvalue := absurd rfl (h _ _ hvalue).2

/-- A walk that looks at the kind first is sound if it is so for each kind. -/
lemma Sound.of_kind {following : Kind → ValueWalk Value}
    (h : ∀ found c value, c.kind = .ok found → (following found c).1 = .ok value →
      Conforms schema use value ∧ (value = .single .null → found = .null)) :
    Sound schema use (Walk.kind >>= following) where
  conforms c value hvalue := by
    obtain ⟨found, hfound, hvalue⟩ := Walk.exists_of_look hvalue
    exact (h found c value hfound hvalue).1
  null {c} hvalue := by
    obtain ⟨found, hfound, hvalue⟩ := Walk.exists_of_look hvalue
    rw [hfound, (h found c _ hfound hvalue).2 rfl]

/-- A scalar is null only where null stands. -/
lemma exists_of_scalar {c : Cursor} {value : Value} {found : Kind} (hfound : c.kind = .ok found)
    (h : ((do return Value.single (← Walk.scalar) : ValueWalk Value) c).1 = .ok value) :
    ∃ scalar, value = .single scalar ∧ scalar.kind = found := by
  obtain ⟨scalar, hscalar, h⟩ := Walk.exists_of_look h
  cases h
  have hkind := Cursor.kind_of_scalar hscalar
  rw [hfound] at hkind
  cases hkind
  exact ⟨scalar, rfl, rfl⟩

/-- A primitive value is a scalar of the expected kind, or null. -/
lemma sound_readPrimitive (expected : Kind) :
    Sound schema (some (.primitive expected)) (readPrimitive expected path) := by
  refine .of_kind fun found c value hfound hvalue => ?_
  split at hvalue
  · cases hvalue
  · rename_i hexpected
    obtain ⟨scalar, rfl, rfl⟩ := exists_of_scalar hfound hvalue
    rw [ne_eq, ne_eq, Decidable.not_and_iff_not_or_not, Decidable.not_not, Decidable.not_not] at hexpected
    refine ⟨.primitive (hexpected.imp_right (Scalar.kind_eq_null_iff _).1), fun hnull => ?_⟩
    cases hnull
    rfl

/-- The items that are read are what each of them is read as. -/
lemma gives_readItems {item : Path → ValueWalk Value} {holds : Value → Prop}
    (h : ∀ path, Gives (item path) holds) :
    Gives (readItems item path) fun value => ∃ items, value = .collection items ∧
      ∀ item ∈ items, holds item := by
  refine .inside (.bind (.collect fun index => (h _).thenNext) fun items hitems => ?_)
  exact .pure ⟨items, rfl, hitems⟩

/-- The entries that are read are pairs of what keys and values are read as. -/
lemma gives_readEntries {key value : Path → ValueWalk Value} {first second : Value → Prop}
    (hkey : ∀ path, Gives (key path) first) (hvalue : ∀ path, Gives (value path) second) :
    Gives (readEntries key value path) fun value => ∃ entries : List (Value × Value),
      value = .collection (entries.map fun entry => .entry entry.1 entry.2) ∧
      ∀ entry ∈ entries, first entry.1 ∧ second entry.2 := by
  have step (index : Nat) : Gives (do
      let key ← Walk.thenNext (key (path.push (.key index)))
      let value ← Walk.thenNext (value (path.push (.value index)))
      return Value.entry key value) fun item => ∃ entry : Value × Value,
        item = .entry entry.1 entry.2 ∧ first entry.1 ∧ second entry.2 := by
    refine .bind (hkey _).thenNext fun key hkey => .bind (hvalue _).thenNext fun value hvalue => ?_
    exact .pure ⟨(key, value), rfl, hkey, hvalue⟩
  refine .inside (.bind (.collect step) fun items hitems => .pure ?_)
  obtain ⟨entries, rfl, hentries⟩ := exists_map_of_forall_mem hitems
  exact ⟨entries, rfl, hentries⟩

/-- A field is its name with a value of its type, and with null only if it is not mandatory. -/
lemma gives_readField (h : ∀ name path, Sound schema (schema.resolve? name) (child name path))
    (field : Field) :
    Gives (readField child field path) fun value => ∃ inner, value = .pair field.name inner ∧
      Conforms schema (schema.resolve? field.type) inner ∧
      (field.mandatory = true → inner ≠ .single .null) := by
  refine .thenNext fun c value hvalue => ?_
  have read {value : Value} (hread : ((do
      return Value.pair field.name (← child field.type path)) c).1 = .ok value) :
      ∃ inner, value = .pair field.name inner ∧ (child field.type path c).1 = .ok inner := by
    obtain ⟨inner, c', hinner, hpair⟩ := Walk.exists_of_bind hread
    cases hpair
    exact ⟨inner, rfl, by rw [hinner]⟩
  dsimp only at hvalue
  split at hvalue
  · obtain ⟨found, hfound, hvalue⟩ := Walk.exists_of_look hvalue
    split at hvalue
    · cases hvalue
    · rename_i hnull
      obtain ⟨inner, rfl, hinner⟩ := read hvalue
      -- The kind is checked, while the value must not be null: soundness of the child ties the two.
      refine ⟨inner, rfl, (h _ _).conforms c inner hinner, fun _ heq => hnull ?_⟩
      rw [heq] at hinner
      rw [(h _ _).null hinner] at hfound
      cases hfound
      rfl
  · rename_i hoptional
    obtain ⟨inner, rfl, hinner⟩ := read hvalue
    exact ⟨inner, rfl, (h _ _).conforms c inner hinner, fun hmandatory => absurd hmandatory hoptional⟩

/-- The fields of a composite are read as pairs of their names with values of their types. -/
lemma gives_readFields (h : ∀ name path, Sound schema (schema.resolve? name) (child name path))
    (count index : Nat) (fields : List Field) :
    Gives (readFields child path count index fields) fun values =>
      ∃ parts : List (Field × Value), parts.map Prod.fst = fields ∧
        values = parts.map (fun part => .pair part.1.name part.2) ∧
        ∀ part ∈ parts, Conforms schema (schema.resolve? part.1.type) part.2 ∧
          (part.1.mandatory = true → part.2 ≠ .single .null) := by
  induction fields generalizing index with
  | nil => exact .pure ⟨[], rfl, rfl, List.forall_mem_nil _⟩
  | cons field rest ih =>
    refine .after fun current => ?_
    split
    · refine .bind (gives_readField h field) fun value hvalue => .bind (ih _) fun values hvalues => ?_
      obtain ⟨inner, rfl, hinner⟩ := hvalue
      obtain ⟨parts, rfl, rfl, hparts⟩ := hvalues
      exact .pure ⟨(field, inner) :: parts, rfl, rfl, List.forall_mem_cons.2 ⟨hinner, hparts⟩⟩
    · exact .failThen

/-- A record has a pair for each field, in their order, and each of them conforms to its field. -/
lemma gives_readComposite (h : ∀ name path, Sound schema (schema.resolve? name) (child name path))
    {type : TypeDef} {fields : List Field} (hbody : type.body = .composite fields) :
    Gives (readComposite child fields path) fun value =>
      Conforms schema (some (.declared type)) value ∧ value ≠ .single .null := by
  refine .after fun _ => .inside (.bind (gives_readFields h _ _ _) fun values hvalues => ?_)
  obtain ⟨parts, rfl, rfl, hparts⟩ := hvalues
  refine .pure ⟨.composite hbody ?_ ?_, nofun⟩
  · exact fun part member => (hparts part member).1
  · exact fun part member => (hparts part member).2

/-- A label that is chosen is one of the choices. -/
lemma gives_chosen {type : TypeDef} {source : String} {choices : List Choice}
    (hbody : type.body = .restricted source (.enumeration choices)) (label : String)
    (ordinal? : Option Int32) :
    Gives (chosen choices label ordinal? path) fun value =>
      Conforms schema (some (.declared type)) value ∧ value ≠ .single .null := by
  unfold chosen
  split
  · exact .fail
  · rename_i hplace
    split
    · exact .pure ⟨.label hbody (Choice.mem_of_ordinal? hplace), nofun⟩
    · exact .fail

/-- A label is one of the choices, whether an ordinal stands behind it or not. -/
lemma gives_readLabel {type : TypeDef} {source : String} {choices : List Choice}
    (hbody : type.body = .restricted source (.enumeration choices)) :
    Gives (readLabel choices path) fun value =>
      Conforms schema (some (.declared type)) value ∧ value ≠ .single .null := by
  refine .after fun _ => .inside (.after fun label => .after fun _ => ?_)
  refine .after fun current => ?_
  dsimp only
  split
  · exact .after (gives_chosen hbody label)
  · exact .after (gives_chosen hbody label)

/-- Elements are a collection, empty for null. -/
lemma gives_readElements (h : ∀ name path, Sound schema (schema.resolve? name) (child name path))
    (element : String) :
    Gives (decoder.readElements left child element path) fun value => ∃ items,
      value = .collection items ∧ ∀ item ∈ items, Conforms schema (schema.resolve? element) item := by
  refine .after fun found => ?_
  split
  · exact .pure ⟨[], rfl, List.forall_mem_nil _⟩
  · exact .after fun _ => .after fun _ => gives_readItems fun path => (h element path).conforms

/-- The entries of a map are a collection of pairs, empty for null. -/
lemma gives_readMap (h : ∀ name path, Sound schema (schema.resolve? name) (child name path))
    (key value : String) :
    Gives (readMap child key value path) fun given => ∃ entries : List (Value × Value),
      given = .collection (entries.map fun entry => .entry entry.1 entry.2) ∧
      ∀ entry ∈ entries, Conforms schema (schema.resolve? key) entry.1 ∧
        Conforms schema (schema.resolve? value) entry.2 := by
  refine .after fun found => ?_
  split
  · exact .pure ⟨[], rfl, List.forall_mem_nil _⟩
  · exact .after fun _ =>
      gives_readEntries (fun path => (h key path).conforms) fun path => (h value path).conforms

/-- What stands behind a descriptor is of the type and never null. -/
lemma gives_readBody (h : ∀ name path, Sound schema (schema.resolve? name) (child name path))
    (type : TypeDef) :
    Gives (decoder.readBody left child type.body path) fun value =>
      Conforms schema (some (.declared type)) value ∧ value ≠ .single .null := by
  unfold readBody
  split
  · rename_i hbody
    exact gives_readComposite h hbody
  · rename_i hbody
    intro c value hvalue
    obtain ⟨items, rfl, hitems⟩ := gives_readElements h _ c value hvalue
    exact ⟨.list hbody hitems, nofun⟩
  · rename_i hbody
    intro c value hvalue
    obtain ⟨entries, rfl, hentries⟩ := gives_readMap h _ _ c value hvalue
    refine ⟨.map hbody ?_ ?_, nofun⟩
    · exact fun entry member => (hentries entry member).1
    · exact fun entry member => (hentries entry member).2
  · rename_i hbody
    exact gives_readLabel hbody

/-- A described value conforms to the type it is read as, and null to each one. -/
lemma sound_readDeclared (h : ∀ name path, Sound schema (schema.resolve? name) (child name path))
    (type : TypeDef) :
    Sound schema (some (.declared type)) (decoder.readDeclared left child type path) := by
  refine .of_kind fun found c value hfound hvalue => ?_
  split at hvalue
  · cases hvalue
    exact ⟨conforms_nullValue type, fun _ => rfl⟩
  · have body : Gives (do
        decoder.goDeeper left path
        Walk.inside do
          let descriptor ← Walk.scalar
          decoder.checkDescriptor type descriptor path
          Walk.next
          decoder.readBody left child type.body path) fun value =>
        Conforms schema (some (.declared type)) value ∧ value ≠ .single .null :=
      .after fun _ => .inside (.after fun _ => .after fun _ => .after fun _ => gives_readBody h type)
    obtain ⟨hconforms, hnull⟩ := body c value hvalue
    exact ⟨hconforms, fun heq => absurd heq hnull⟩
  · cases hvalue

/-- A value without a descriptor is a scalar or a collection of such values as `*` stands for. -/
lemma sound_readPlain (h : ∀ name path, Sound schema (schema.resolve? name) (child name path)) :
    Sound schema (some .any) (decoder.readPlain left child path) := by
  have items (path : Path) : Gives (child TypeName.any path) (Conforms schema (some .any)) :=
    (h TypeName.any path).conforms
  have list {c : Cursor} {value : Value}
      (hvalue : ((do
        decoder.goDeeper left path
        readItems (child TypeName.any) path) c).1 = .ok value) :
      Conforms schema (some .any) value ∧ value ≠ .single .null := by
    obtain ⟨items, rfl, hitems⟩ := Gives.after (fun _ => gives_readItems items) c value hvalue
    exact ⟨.anyCollection hitems, nofun⟩
  refine .of_kind fun found c value hfound hvalue => ?_
  split at hvalue
  · exact (list hvalue).imp_right fun hnull heq => absurd heq hnull
  · exact (list hvalue).imp_right fun hnull heq => absurd heq hnull
  · obtain ⟨entries, rfl, hentries⟩ :=
      Gives.after (fun _ => gives_readEntries items items) c value hvalue
    refine ⟨.anyCollection fun item member => ?_, nofun⟩
    obtain ⟨entry, hentry, rfl⟩ := List.mem_map.1 member
    obtain ⟨hkey, hvalue⟩ := hentries entry hentry
    exact .anyCollection (List.forall_mem_cons.2 ⟨hkey, List.forall_mem_singleton.2 hvalue⟩)
  · obtain ⟨scalar, rfl, rfl⟩ := exists_of_scalar hfound hvalue
    refine ⟨.anyScalar, fun hnull => ?_⟩
    cases hnull
    rfl

/-- What a descriptor finds conforms to the type that it finds, and so to `*`. -/
lemma sound_readFound (indexed : decoder.schema.Indexed)
    (h : ∀ name path, Sound decoder.schema (decoder.schema.resolve? name) (child name path))
    (descriptor? : Option Scalar) :
    Sound decoder.schema (some .any) (decoder.readFound left child path descriptor?) := by
  unfold readFound
  split
  · exact sound_readPlain h
  · split
    · rename_i type hfind
      have declared := @sound_readDeclared decoder _ _ left path h type
      refine ⟨fun c value hvalue => ?_, declared.null⟩
      exact .anyType (indexed.mem_of_find? hfind) (declared.conforms c value hvalue)
    · split
      · exact ⟨.fail, nofun⟩
      · exact ⟨.fail, nofun⟩

/-- A value that is read by its own descriptor, or without any, conforms to `*`. -/
lemma sound_readAny (indexed : decoder.schema.Indexed)
    (h : ∀ name path, Sound decoder.schema (decoder.schema.resolve? name) (child name path)) :
    Sound decoder.schema (some .any) (decoder.readAny left child path) := by
  have found (descriptor? : Option Scalar) :
      Sound decoder.schema (some .any) (decoder.readFound left child path descriptor?) :=
    sound_readFound indexed h descriptor?
  refine ⟨.after fun descriptor? => (found descriptor?).conforms, fun {c} hvalue => ?_⟩
  obtain ⟨descriptor?, c', hdescriptor, hnull⟩ := Walk.exists_of_bind hvalue
  -- Looking for the descriptor did not move, so what follows is still at the value itself.
  have rests : ((Walk.descriptor? : ValueWalk (Option Scalar)) c).2 = c := Walk.Rests.descriptor? c
  rw [hdescriptor] at rests
  change c' = c at rests
  subst rests
  exact (found descriptor?).null hnull

/-- A value is of what its name stands for. -/
lemma sound_readUse (indexed : decoder.schema.Indexed)
    (h : ∀ name path, Sound decoder.schema (decoder.schema.resolve? name) (child name path))
    (name : String) :
    Sound decoder.schema (decoder.schema.resolve? name) (decoder.readUse left child name path) := by
  unfold readUse
  generalize decoder.schema.resolve? name = use?
  split
  · exact sound_readAny indexed h
  · exact sound_readPrimitive _
  · exact sound_readDeclared h _
  · refine .of_ne_null fun c value hvalue => ?_
    obtain ⟨items, rfl, hitems⟩ := gives_readElements h _ c value hvalue
    exact ⟨.array hitems, nofun⟩
  · exact ⟨.fail, nofun⟩

/-- Whatever is decoded is of the type it is decoded as, however deep it nests. -/
lemma sound_readValue (indexed : decoder.schema.Indexed) (left : Nat) (name : String) (path : Path) :
    Sound decoder.schema (decoder.schema.resolve? name) (decoder.readValue left name path) := by
  -- The children of a value are read with one level less, so the levels carry the induction.
  induction left generalizing name path with
  | zero => exact ⟨.fail, nofun⟩
  | succ left ih => exact sound_readUse indexed ih name

end Decoder

/-- What decoding gives conforms to the name it was decoded as, whatever the bytes are, if the schema
was put together of types. -/
theorem conforms_of_decode {decoder : Decoder} {types : List TypeDef} {type : String} {c : Cursor}
    {value : Value} (built : Schema.ofTypes types = .ok decoder.schema)
    (h : (decoder.decode type c).1 = .ok value) :
    Conforms decoder.schema (decoder.schema.resolve? type) value := by
  have sound := Decoder.sound_readValue (Schema.indexed_ofTypes built)
    (decoder.options.maxDepth + 1) type (.start type)
  exact sound.conforms c value h

/-- The number at the head of a chain. -/
def headField : Field :=
  ⟨"head", "int", [], none, none, true, false⟩

/-- The chain behind the head of a chain, if there is one. -/
def tailField : Field :=
  ⟨"tail", "Chain", [], none, none, false, false⟩

/-- The type of chains of numbers. -/
def chainType : TypeDef :=
  ⟨⟨"Chain", none, [], ⟨none, some 7⟩⟩, .composite [headField, tailField]⟩

/-- A decoder of chains of at most two numbers. -/
def chainDecoder : Decoder :=
  ⟨(Schema.ofTypes [chainType]).toOption.getD .empty, ⟨2, .strict⟩⟩

/-- A chain of a number and a chain behind it. -/
def chain (head : Int32) (tail : Value) : Value :=
  .collection [.pair "head" (.single (.int head)), .pair "tail" tail]

/-- A chain of one number with another byte behind it. -/
def linkBytes : ByteArray :=
  ⟨#[0x00, 0x53, 0x07, 0xc0, 0x04, 0x02, 0x54, 0x06, 0x40, 0xff]⟩

set_option maxRecDepth 10000 in
/-- A chain of one number is decoded to a value that conforms to its type. -/
theorem conforms_chain : Schema.ofTypes [chainType] = .ok chainDecoder.schema ∧
    (chainDecoder.decode "Chain" (.ofBytes linkBytes)).1 = .ok (chain 6 (.single .null)) ∧
    Conforms chainDecoder.schema (chainDecoder.schema.resolve? "Chain") (chain 6 (.single .null)) := by
  have built : Schema.ofTypes [chainType] = .ok chainDecoder.schema := rfl
  have decoded : (chainDecoder.decode "Chain" (.ofBytes linkBytes)).1 =
      .ok (chain 6 (.single .null)) := rfl
  exact ⟨built, decoded, conforms_of_decode built decoded⟩

end AmqpBlob
