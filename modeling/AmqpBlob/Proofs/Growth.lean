import AmqpBlob.Proofs.Relaxation

/-!
# Schemas that grow

A schema may declare more types than the data needs, and in another order. What is decoded against a
schema is decoded alike against each one that has its types, as long as its descriptors are told apart
and no added type hides an array: each name and each descriptor that stands for something in the first
schema stands for the same in the second one, and where it stands for nothing, nothing is decoded.
-/

namespace AmqpBlob

open Walk (Extends)

/-- The second walk does what the first one does, unless that one fails. -/
abbrev Walk.Keeps {α : Type} (walk walk' : Walk DecodeError α) : Prop :=
  Extends (fun _ => True) walk walk'

open Walk (Keeps)

/-- The second schema has the types of the first one, in any order, and may have more of them. -/
structure Schema.Grows (schema schema' : Schema) : Prop where
  keeps : ∀ type ∈ schema.types, type ∈ schema'.types
  /-- Only one type accepts a descriptor. -/
  apart : ∀ type ∈ schema'.types, ∀ other ∈ schema'.types, ∀ found,
    type.descriptor.accepts found = true → other.descriptor.accepts found = true → type = other
  /-- No added type has the name of an array. -/
  plain : ∀ type ∈ schema'.types, type ∉ schema.types → TypeName.arrayElement? type.name = none

namespace Schema.Grows

variable {types types' : List TypeDef} {schema schema' : Schema}

variable (grows : schema.Grows schema') (built : ofTypes types = .ok schema)
  (built' : ofTypes types' = .ok schema')
include grows built built'

/-- A descriptor finds the type that it found. -/
lemma find?_eq {descriptor : Scalar} {type : TypeDef} (h : schema.find? descriptor = some type) :
    schema'.find? descriptor = some type := by
  have indexed := indexed_ofTypes built
  have indexed' := indexed_ofTypes built'
  have member := grows.keeps type (indexed.mem_of_find? h)
  have accepts := indexed.accepts_of_find? h
  obtain ⟨first, hfirst⟩ := indexed'.exists_find? member accepts
  rw [hfirst, grows.apart first (indexed'.mem_of_find? hfirst) type member descriptor
    (indexed'.accepts_of_find? hfirst) accepts]

/-- A name leads to the type that it led to. -/
lemma get?_eq {name : String} {type : TypeDef} (h : schema.get? name = some type) :
    schema'.get? name = some type := by
  rw [(indexed_ofTypes built).get?_eq_some_iff (nodup_ofTypes built)] at h
  rw [(indexed_ofTypes built').get?_eq_some_iff (nodup_ofTypes built')]
  exact ⟨grows.keeps type h.1, h.2⟩

/-- The name of an array that was no type's name is none now. -/
lemma get?_eq_none {name element : String} (harray : TypeName.arrayElement? name = some element)
    (h : schema.get? name = none) : schema'.get? name = none := by
  refine Option.eq_none_iff_forall_not_mem.2 fun type found => ?_
  obtain ⟨member, rfl⟩ :=
    ((indexed_ofTypes built').get?_eq_some_iff (nodup_ofTypes built')).1 found
  by_cases old : type ∈ schema.types
  · rw [((indexed_ofTypes built).get?_eq_some_iff (nodup_ofTypes built)).2 ⟨old, rfl⟩] at h
    cases h
  · rw [grows.plain type member old] at harray
    cases harray

/-- A name stands for what it stood for. -/
lemma resolve?_eq {name : String} {use : TypeUse} (h : schema.resolve? name = some use) :
    schema'.resolve? name = some use := by
  unfold resolve? at h ⊢
  split
  next any =>
    rw [if_pos any] at h
    exact h
  next own =>
    rw [if_neg own] at h
    split
    next kind hkind =>
      rw [hkind] at h
      exact h
    next hkind =>
      rw [hkind] at h
      -- An added type takes no name from a type, and from an array neither.
      cases hget : schema.get? name with
      | some type =>
        rw [hget] at h
        rw [grows.get?_eq built built' hget]
        exact h
      | none =>
        rw [hget] at h
        obtain ⟨element, harray, _⟩ := Option.map_eq_some_iff.1 h
        rw [grows.get?_eq_none built built' harray hget]
        exact h

end Schema.Grows

namespace Decoder

variable {schema schema' : Schema} {options : DecodeOptions} {left : Nat}
  {child child' : Reading} {path : Path}

/-- A type of both schemas is read alike if its children are. -/
lemma keeps_readDeclared (children : InStep.Children id (fun _ => Keeps) child child')
    (type : TypeDef) :
    Keeps ((Decoder.mk schema options).readDeclared left child type path)
      ((Decoder.mk schema' options).readDeclared left child' type path) :=
  (inStep_extends _).readDeclared children (fun _ => .refl _) (fun _ _ _ => .refl _) type

variable {types types' : List TypeDef} (grows : schema.Grows schema')
  (built : Schema.ofTypes types = .ok schema) (built' : Schema.ofTypes types' = .ok schema')
include grows built built'

/-- A descriptor that finds a type finds it in the grown schema, and the type is read alike. -/
lemma keeps_readFound (children : InStep.Children id (fun _ => Keeps) child child')
    (descriptor? : Option Scalar) :
    Keeps ((Decoder.mk schema options).readFound left child path descriptor?)
      ((Decoder.mk schema' options).readFound left child' path descriptor?) := by
  cases descriptor? with
  | none => exact (inStep_extends _).readPlain children fun _ => .refl _
  | some descriptor =>
    unfold readFound
    dsimp only
    cases hfind : schema.find? descriptor with
    | some type =>
      rw [grows.find?_eq built built' hfind]
      exact keeps_readDeclared children type
    | none =>
      dsimp only
      split
      · exact .of_fail trivial
      · exact .of_fail trivial

/-- A name that stands for something is read alike against the grown schema. -/
lemma keeps_readUse (children : InStep.Children id (fun _ => Keeps) child child') (name : String) :
    Keeps ((Decoder.mk schema options).readUse left child name path)
      ((Decoder.mk schema' options).readUse left child' name path) := by
  have inStep := inStep_extends fun _ => True
  unfold readUse
  dsimp only
  cases huse : schema.resolve? name with
  | none => exact .of_fail trivial
  | some use =>
    rw [grows.resolve?_eq built built' huse]
    cases use with
    | any =>
      exact inStep.outside.bind inStep.descriptor? fun descriptor? =>
        keeps_readFound grows built built' children descriptor?
    | primitive kind => exact .refl _
    | declared type => exact keeps_readDeclared children type
    | array element => exact inStep.readElements children (fun _ => .refl _) element

/-- Values are read alike against the grown schema, at each depth. -/
lemma keeps_readValue (left : Nat) (name : String) (path : Path) :
    Keeps ((Decoder.mk schema options).readValue left name path)
      ((Decoder.mk schema' options).readValue left name path) := by
  induction left generalizing name path with
  | zero => exact .refl _
  | succ left ih =>
    have children : InStep.Children id (fun _ => Keeps)
        ((Decoder.mk schema options).readValue left) ((Decoder.mk schema' options).readValue left) :=
      ⟨fun name path step => ih name (path.push step), takes_readValue left⟩
    exact keeps_readUse grows built built' children name

/-- Each way to decode keeps what it gives when the schema grows. -/
lemma keeps_decoding {decoding : Decoder → ValueWalk Value} (way : IsDecoding decoding) :
    Keeps (decoding ⟨schema, options⟩) (decoding ⟨schema', options⟩) :=
  way.extends fun type path => keeps_readValue grows built built' _ type path

end Decoder

/-- What is decoded against a schema is decoded alike against one that has grown, in each way to decode
and from each cursor. -/
theorem decoded_of_grows {types types' : List TypeDef} {schema schema' : Schema}
    {decoding : Decoder → Decoder.ValueWalk Value} {c : Cursor} {value : Value}
    (grows : schema.Grows schema') (built : Schema.ofTypes types = .ok schema)
    (built' : Schema.ofTypes types' = .ok schema') (way : IsDecoding decoding) (options : DecodeOptions)
    (h : (decoding ⟨schema, options⟩ c).1 = .ok value) :
    (decoding ⟨schema', options⟩ c).1 = .ok value := by
  rcases Decoder.keeps_decoding grows built built' way c with same | ⟨error, _, herror⟩
  · rw [same]
    exact h
  · rw [h] at herror
    cases herror

/-- A type of pens, whose descriptor is a symbol. -/
def penType : TypeDef :=
  ⟨⟨"Pen", none, [], ⟨some "pen", none⟩⟩, .restricted "list" (.enumeration [⟨"Ink", "0"⟩])⟩

/-- A schema with pens before chains. -/
def penSchema : Schema :=
  (Schema.ofTypes [penType, chainType]).toOption.getD .empty

set_option maxRecDepth 10000 in
/-- A chain is decoded alike once the schema has a type of pens before that of chains. -/
theorem decoded_of_grows_pen : chainDecoder.schema.Grows penSchema ∧
    Schema.ofTypes [chainType] = .ok chainDecoder.schema ∧
    Schema.ofTypes [penType, chainType] = .ok penSchema ∧
    (chainDecoder.decode "Chain" (.ofBytes linkBytes)).1 = .ok (chain 6 (.single .null)) ∧
    (Decoder.decode ⟨penSchema, ⟨2, .strict⟩⟩ "Chain" (.ofBytes linkBytes)).1 =
      .ok (chain 6 (.single .null)) := by
  have built : Schema.ofTypes [chainType] = .ok chainDecoder.schema := rfl
  have built' : Schema.ofTypes [penType, chainType] = .ok penSchema := rfl
  have decoded : (chainDecoder.decode "Chain" (.ofBytes linkBytes)).1 =
      .ok (chain 6 (.single .null)) := rfl
  have types : chainDecoder.schema.types = [chainType] := rfl
  have types' : penSchema.types = [penType, chainType] := rfl
  have apart (found : Scalar) : ¬(penType.descriptor.accepts found = true ∧
      chainType.descriptor.accepts found = true) := by
    cases found
    all_goals simp [penType, chainType, Descriptor.accepts]
  have grows : chainDecoder.schema.Grows penSchema := by
    refine ⟨fun type member => ?_, fun type member other member' found ha ha' => ?_,
      fun type member _ => ?_⟩
    · rw [types] at member
      rw [types']
      exact List.mem_cons_of_mem _ member
    · simp only [types', List.mem_cons, List.not_mem_nil, or_false] at member member'
      rcases member with rfl | rfl <;> rcases member' with rfl | rfl
      · rfl
      · exact absurd ⟨ha, ha'⟩ (apart found)
      · exact absurd ⟨ha', ha⟩ (apart found)
      · rfl
    · simp only [types', List.mem_cons, List.not_mem_nil, or_false] at member
      rcases member with rfl | rfl
      · rfl
      · rfl
  exact ⟨grows, built, built', decoded,
    decoded_of_grows grows built built' (.decode "Chain") ⟨2, .strict⟩ decoded⟩

end AmqpBlob
