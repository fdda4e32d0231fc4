import AmqpBlob.Proofs.Index
import AmqpBlob.Proofs.Position
import AmqpBlob.Proofs.SectionForm
import AmqpBlob.Proofs.Shows

/-!
# Reading a section inverts its form

A schema section that is written in section form is read as the types that were written, from any
encoding and whatever bytes stand around it.

`Reads` says that a walk reads every form of a value as that value and ends behind it, `ReadsTail` that
it may also find nothing there. An element's walk is a chain of such walks, so its proof is the same
chain of `Reads.bind` and `ReadsTail.bind`, one link for each part of the element.
-/

namespace AmqpBlob

namespace EnvelopePart

/-- The number of a part stands for the part. -/
lemma ofScalar?_code (part : EnvelopePart) : ofScalar? (.ulong part.code) = some part :=
  ofCode?_code part

/-- The symbol of a part stands for the part. -/
lemma ofScalar?_symbol (part : EnvelopePart) : ofScalar? (.symbol part.symbol) = some part :=
  ofSymbol?_symbol part

end EnvelopePart

namespace SchemaSection

variable {α β : Type} {c : Cursor} {element : Element} {tree : WireTree} {trees : List WireTree}

/-- The walk reads each form of a value as that value, and ends behind it. -/
def Reads (walk : SchemaWalk α) (form : α → WireTree → Prop) : Prop :=
  ∀ ⦃value : α⦄ ⦃tree : WireTree⦄ ⦃c : Cursor⦄ ⦃element : Element⦄,
    form value tree → c.StandsOn element → element.tree = tree → walk c = (.ok value, c.next)

/-- The walk reads each form of a value as that value, and a value that may be null also where its
level is exhausted. -/
structure ReadsTail (walk : SchemaWalk α) (form : α → WireTree → Prop) : Prop where
  /-- A form that is there is read. -/
  reads : Reads walk form
  /-- Nothing is read where nothing is left. -/
  absent {value : α} {c : Cursor} :
    form value (.scalar .null) → c.hasCurrent = false → walk c = (.ok value, c)

/-- What follows a walk over the first tree is read from the second one on. -/
lemma Reads.bind {walk : SchemaWalk α} {following : α → SchemaWalk β} {form : α → WireTree → Prop}
    {value : α} {result : β} (h : Reads walk form) (written : form value tree)
    (shows : c.Shows (tree :: trees))
    (next : c.next.Shows trees → (following value c.next).1 = .ok result) :
    ((walk >>= following) c).1 = .ok result := by
  obtain ⟨element, stands, htree, rest⟩ := shows.first
  rw [Walk.bind_apply, h written stands htree]
  exact next rest

/-- What follows a walk that may find nothing is read from wherever that walk ends. -/
lemma ReadsTail.bind {walk : SchemaWalk α} {following : α → SchemaWalk β}
    {form : α → WireTree → Prop} {forms : List (WireTree → Prop)} {value : α} {result : β}
    (h : ReadsTail walk form) (tail : TailForm (form value :: forms) trees) (shows : c.Shows trees)
    (next : ∀ {c trees}, TailForm forms trees → c.Shows trees →
      (following value c).1 = .ok result) :
    ((walk >>= following) c).1 = .ok result := by
  cases tail with
  | item written rest =>
    obtain ⟨element, stands, htree, shows⟩ := shows.first
    rw [Walk.bind_apply, h.reads written stands htree]
    exact next rest shows
  | omitted absent =>
    obtain ⟨null, rest⟩ := List.forall_mem_cons.1 absent
    rw [Walk.bind_apply, h.absent null shows.exhausted]
    exact next (.omitted rest) shows

/-! ## Texts, flags and lists -/

/-- A text is read from a string as from a symbol. -/
lemma reads_readText : Reads readText TextForm := by
  intro text tree c element form stands htree
  refine Prod.ext ?_ (built_readText.advances c)
  cases form with
  | string => exact Walk.fst_read stands htree rfl
  | symbol => exact Walk.fst_read stands htree rfl

/-- What may be absent is read from a scalar that tells whether it is. -/
lemma readOptional_stands [OfScalar α] {scalar : Scalar} {value? : Option α}
    (stands : c.StandsOn element) (htree : element.tree = .scalar scalar)
    (hread : scalar.read (Option α) = .ok value?) :
    readOptional α c = (.ok value?, c.next) := by
  have current : (Walk.hasCurrent c : Except SchemaError Bool × Cursor).1 = .ok true :=
    congrArg Except.ok stands.hasCurrent
  rw [readOptional, Walk.bind_of_rests .hasCurrent current, if_pos rfl]
  exact Walk.thenNext_apply (.read _) (Walk.fst_read stands htree hread)

/-- Where a level is exhausted, what may be absent is. -/
lemma readOptional_exhausted [OfScalar α] (h : c.hasCurrent = false) :
    readOptional α c = (.ok none, c) := by
  have current : (Walk.hasCurrent c : Except SchemaError Bool × Cursor).1 = .ok false :=
    congrArg Except.ok h
  rw [readOptional, Walk.bind_of_rests .hasCurrent current, if_neg Bool.false_ne_true]
  rfl

/-- A value is read, or found to be absent, if its forms are scalars that are read as it. -/
lemma readsTail_readOptional [OfScalar α] {form : α → WireTree → Prop}
    (h : ∀ {value tree}, form value tree →
      ∃ scalar, tree = .scalar scalar ∧ scalar.read (Option α) = .ok (some value)) :
    ReadsTail (readOptional α) (OptionalForm form) where
  reads := by
    intro value? tree c element written stands htree
    cases written with
    | none => exact readOptional_stands stands htree rfl
    | some written =>
      obtain ⟨scalar, rfl, hread⟩ := h written
      exact readOptional_stands stands htree hread
  absent := by
    intro value? c written exhausted
    cases written with
    | none => exact readOptional_exhausted exhausted
    | some written =>
      obtain ⟨scalar, hscalar, hread⟩ := h written
      cases hscalar
      cases hread

/-- A text that may be missing is read where it is there. -/
lemma readsTail_text : ReadsTail (readOptional String) (OptionalForm TextForm) := by
  refine readsTail_readOptional fun written => ?_
  cases written with
  | string => exact ⟨_, rfl, rfl⟩
  | symbol => exact ⟨_, rfl, rfl⟩

/-- A number that may be missing is read where it is there. -/
lemma readsTail_code : ReadsTail (readOptional UInt64) (OptionalForm CodeForm) := by
  refine readsTail_readOptional fun written => ?_
  cases written with
  | ulong => exact ⟨_, rfl, rfl⟩

/-- A flag is not set if it is absent. -/
lemma readsTail_flag : ReadsTail readFlag FlagForm where
  reads := by
    intro flag tree c element written stands htree
    cases written with
    | boolean =>
      have hread : readOptional Bool c = (.ok (some flag), c.next) :=
        readOptional_stands stands htree rfl
      rw [readFlag, Walk.bind_apply, hread]
      rfl
    | absent =>
      have hread : readOptional Bool c = (.ok none, c.next) := readOptional_stands stands htree rfl
      rw [readFlag, Walk.bind_apply, hread]
      rfl
  absent := by
    intro flag c written exhausted
    cases written with
    | absent =>
      have hread : readOptional Bool c = (.ok none, c) := readOptional_exhausted exhausted
      rw [readFlag, Walk.bind_apply, hread]
      rfl

/-- A list is read element by element, and null as the list without elements. -/
lemma reads_listOf (what : String) {walk : SchemaWalk α} {form : α → WireTree → Prop}
    (built : Walk.Built .roams walk) (h : Reads walk form) :
    Reads (listOf what walk) (ListForm form) := by
  intro values tree c element written stands htree
  refine Prod.ext ?_ ((built_listOf what built).advances c)
  rw [listOf, Walk.fst_thenNext, Walk.bind_kind stands htree]
  cases written with
  | null => rfl
  | @list parts hparts =>
    obtain ⟨inner, henter, shows⟩ := stands.shows htree rfl
    have step : ∀ part ∈ parts, ∀ rest (index : Nat) c, Cursor.Shows c ([part.2] ++ rest) →
        c.hasCurrent = true ∧ ∃ c', walk c = (.ok part.1, c') ∧ c'.Shows rest := by
      intro part member rest index c shows
      obtain ⟨element, stands, htree, hrest⟩ := shows.first
      exact ⟨stands.hasCurrent, c.next, h (hparts part member) stands htree, hrest⟩
    have hlength : (parts.flatMap fun part => [part.2]).length = parts.length := by
      rw [← List.map_eq_flatMap, List.length_map]
    change inner.Shows (parts.map Prod.snd) at shows
    rw [List.map_eq_flatMap] at shows
    change (Walk.inside (Walk.collect fun _ => walk) c).1 = _
    rw [Walk.inside_apply henter]
    exact Walk.collect_shows step shows (Nat.le_of_eq hlength.symm)

/-- Names are read from a list of texts, or from null if there are none. -/
lemma reads_readNames : Reads readNames (ListForm TextForm) :=
  reads_listOf _ (.roams built_readText) reads_readText

/-! ## Elements -/

/-- An element of the kind that is expected is not refused. -/
lemma expectKind_stands {part : EnvelopePart} {expected : Kind} (stands : c.StandsOn element)
    (htree : element.tree = tree) (hkind : tree.kind = expected) :
    (expectKind part expected c).1 = .ok () := by
  rw [expectKind, Walk.bind_kind stands htree, if_neg (not_not_intro hkind)]
  rfl

/-- The list of an element is read behind the descriptor of its part. -/
lemma describedList_stands {part : EnvelopePart} {items : List WireTree} {body : SchemaWalk α}
    {value : α} (written : PartForm part items tree) (stands : c.StandsOn element)
    (htree : element.tree = tree) (h : ∀ {c}, c.Shows items → (body c).1 = .ok value) :
    (describedList part body c).1 = .ok value := by
  have described : ∃ descriptor, tree = .described (.scalar descriptor) (.list items) ∧
      EnvelopePart.ofScalar? descriptor = some part := by
    cases written with
    | numbered => exact ⟨_, rfl, part.ofScalar?_code⟩
    | named => exact ⟨_, rfl, part.ofScalar?_symbol⟩
  obtain ⟨descriptor, rfl, hpart⟩ := described
  obtain ⟨inner, first, second, henter, onFirst, hfirst, onSecond, hsecond⟩ :=
    stands.enter_described htree
  obtain ⟨list, hlist, shows⟩ := onSecond.shows hsecond rfl
  have hkind : (expectKind part .described c).1 = .ok () := expectKind_stands stands htree rfl
  have hkind' : (expectKind part .list inner.next).1 = .ok () :=
    expectKind_stands onSecond hsecond rfl
  rw [describedList, Walk.fst_thenNext, Walk.bind_of_rests (built_expectKind _ _).rests hkind,
    Walk.inside_apply henter, Walk.bind_scalar onFirst hfirst, if_neg (not_not_intro hpart)]
  change ((expectKind part .list >>= fun _ => Walk.inside body) inner.next).1 = _
  rw [Walk.bind_of_rests (built_expectKind _ _).rests hkind', Walk.inside_apply hlist]
  exact h shows

/-- A descriptor is read with its symbol and its number, each if it is there. -/
lemma reads_readDescriptor : Reads readDescriptor DescriptorForm := by
  intro descriptor tree c element written stands htree
  refine Prod.ext ?_ (built_readDescriptor.advances c)
  cases written with
  | mk tail part =>
    refine describedList_stands part stands htree fun shows => ?_
    refine readsTail_text.bind tail shows fun tail shows => ?_
    exact readsTail_code.bind tail shows fun _ _ => rfl

/-- A field is read with its name, its type and all that may be missing behind them. -/
lemma reads_readField : Reads readField FieldForm := by
  intro field tree c element written stands htree
  refine Prod.ext ?_ (built_readField.advances c)
  cases written with
  | mk name type requires tail part =>
    refine describedList_stands part stands htree fun shows => ?_
    refine reads_readText.bind name shows fun shows => ?_
    refine reads_readText.bind type shows fun shows => ?_
    refine reads_readNames.bind requires shows fun shows => ?_
    refine readsTail_text.bind tail shows fun tail shows => ?_
    refine readsTail_text.bind tail shows fun tail shows => ?_
    refine readsTail_flag.bind tail shows fun tail shows => ?_
    exact readsTail_flag.bind tail shows fun _ _ => rfl

/-- A choice is read with its label and its value. -/
lemma reads_readChoice : Reads readChoice ChoiceForm := by
  intro choice tree c element written stands htree
  refine Prod.ext ?_ (built_readChoice.advances c)
  cases written with
  | mk name value part =>
    refine describedList_stands part stands htree fun shows => ?_
    refine reads_readText.bind name shows fun shows => ?_
    exact reads_readText.bind value shows fun _ => rfl

/-- A type is read as what its descriptor tells that it is. -/
lemma reads_readType : Reads readType TypeForm := by
  intro type tree c element written stands htree
  have peek {part : EnvelopePart} {items : List WireTree} (written : PartForm part items tree) :
      ∃ descriptor?, (Walk.descriptor? c : Except SchemaError (Option Scalar) × Cursor).1 =
        .ok descriptor? ∧ descriptor?.bind EnvelopePart.ofScalar? = some part := by
    cases written with
    | numbered => exact ⟨_, Walk.fst_descriptor? (stands.describedBy htree), part.ofScalar?_code⟩
    | named => exact ⟨_, Walk.fst_descriptor? (stands.describedBy htree), part.ofScalar?_symbol⟩
  cases written with
  | composite name label provides descriptor fields part =>
    obtain ⟨descriptor?, hdescriptor, hpart⟩ := peek part
    rw [readType, Walk.bind_of_rests .descriptor? hdescriptor, hpart]
    refine Prod.ext ?_ (built_readComposite.advances c)
    refine describedList_stands part stands htree fun shows => ?_
    refine reads_readText.bind name shows fun shows => ?_
    refine readsTail_text.reads.bind label shows fun shows => ?_
    refine reads_readNames.bind provides shows fun shows => ?_
    refine reads_readDescriptor.bind descriptor shows fun shows => ?_
    have list := reads_listOf "fields" (.roams built_readField) reads_readField
    exact list.bind fields shows fun _ => rfl
  | restricted restriction name label provides source descriptor choices part =>
    obtain ⟨descriptor?, hdescriptor, hpart⟩ := peek part
    rw [readType, Walk.bind_of_rests .descriptor? hdescriptor, hpart]
    refine Prod.ext ?_ (built_readRestricted.advances c)
    refine describedList_stands part stands htree fun shows => ?_
    refine reads_readText.bind name shows fun shows => ?_
    refine readsTail_text.reads.bind label shows fun shows => ?_
    refine reads_readNames.bind provides shows fun shows => ?_
    refine reads_readText.bind source shows fun shows => ?_
    refine reads_readDescriptor.bind descriptor shows fun shows => ?_
    have list := reads_listOf "choices" (.roams built_readChoice) reads_readChoice
    refine list.bind choices shows fun _ => ?_
    rw [restriction]
    rfl

/-- The types of a schema are read in their order. -/
lemma reads_types :
    Reads (describedList .schema (listOf "schema types" readType)) SchemaForm := by
  intro types tree c element written stands htree
  refine Prod.ext ?_ ((built_describedList _ (.roams (built_listOf _ built_readType))).advances c)
  cases written with
  | mk list part =>
    refine describedList_stands part stands htree fun shows => ?_
    obtain ⟨element, stands, htree, _⟩ := shows.first
    exact congrArg Prod.fst (reads_listOf "schema types" built_readType reads_readType list stands htree)

/-- A schema is put together of the types that were read. -/
lemma readSchema_stands {types : List TypeDef} {schema : Schema} (written : SchemaForm types tree)
    (stands : c.StandsOn element) (htree : element.tree = tree)
    (built : Schema.ofTypes types = .ok schema) : readSchema c = (.ok schema, c.next) := by
  rw [readSchema, Walk.bind_apply, reads_types written stands htree]
  simp only [built]
  rfl

end SchemaSection

/-- Types whose names differ are read as a schema of just these types, in their order and with all
their parts, from each form that a section may write them in, and reading ends on the byte behind. -/
theorem readSchema_written {types : List TypeDef} {c : Cursor} {element : Element}
    (distinct : (types.map (·.name)).Nodup) (written : SchemaForm types element.tree)
    (stands : c.StandsOn element) :
    ∃ schema, SchemaSection.readSchema c = (.ok schema, c.past element) ∧ schema.types = types := by
  obtain ⟨schema, built, htypes⟩ := Schema.exists_ofTypes distinct
  refine ⟨schema, ?_, htypes⟩
  rw [← stands.next]
  exact SchemaSection.readSchema_stands written stands rfl built

section Sample

open Wire (Fits)
open Element (content counted)

/-- An element of a section, with the number of its part before it. -/
def EnvelopePart.encoding (part : EnvelopePart) (items : List Encoding)
    (fits : Fits .narrow (counted .narrow (items.map Subtype.val)
      (content none (items.map Subtype.val)))) : Encoding :=
  .described (.scalar (.ulong part.code)) (.list .narrow items fits)

/-- A string as an element. -/
def Encoding.text (text : String) (fits : Fits .narrow text.toByteArray.data.toList) : Encoding :=
  .scalar (.string fits)

/-- A composite type with an interface, a symbol for its descriptor and one field that has a
default. -/
def pointType : TypeDef :=
  ⟨⟨"P", none, ["I"], ⟨some "p", none⟩⟩,
    .composite [⟨"x", "int", [], some "0", none, false, false⟩]⟩

/-- An enumeration with a label for readers, a number for its descriptor and one choice. -/
def colourType : TypeDef :=
  ⟨⟨"C", some "c", [], ⟨none, some 7⟩⟩, .restricted "list" (.enumeration [⟨"R", "0"⟩])⟩

/-- The label and the flags of the field are left out, and so is the number of the descriptor. -/
def pointEncoding : Encoding :=
  EnvelopePart.compositeType.encoding [.text "P" (by decide), .scalar .null,
    .list .narrow [.text "I" (by decide)] (by decide),
    EnvelopePart.objectDescriptor.encoding [.text "p" (by decide)] (by decide),
    .list .narrow [EnvelopePart.field.encoding [.text "x" (by decide), .text "int" (by decide),
      .scalar .null, .text "0" (by decide)] (by decide)] (by decide)] (by decide)

/-- Behind the choices stands a number that no part is read from. -/
def colourEncoding : Encoding :=
  EnvelopePart.restrictedType.encoding [.text "C" (by decide), .text "c" (by decide), .scalar .null,
    .text "list" (by decide),
    EnvelopePart.objectDescriptor.encoding [.scalar .null, .scalar (.smallUlong 7)] (by decide),
    .list .narrow [EnvelopePart.choice.encoding [.text "R" (by decide), .text "0" (by decide)]
      (by decide)] (by decide),
    .scalar (.smallInt 5)] (by decide)

set_option maxRecDepth 4000 in
/-- A section with both types. -/
def sampleSection : Encoding :=
  EnvelopePart.schema.encoding [.list .narrow [pointEncoding, colourEncoding] (by decide)] (by decide)

/-- The form of a list of one element. -/
lemma ListForm.singleton {α : Type} {form : α → WireTree → Prop} {value : α} {tree : WireTree}
    (h : form value tree) : ListForm form [value] (.list [tree]) :=
  @ListForm.list α form [(value, tree)] (List.forall_mem_singleton.2 h)

/-- The sample encodes the composite type. -/
lemma pointType_form : TypeForm pointType pointEncoding.val.tree := by
  have absent : ∀ form ∈ [OptionalForm TextForm none, FlagForm false, FlagForm false],
      form (.scalar .null) :=
    List.forall_mem_cons.2 ⟨.none, List.forall_mem_cons.2 ⟨.absent,
      List.forall_mem_singleton.2 .absent⟩⟩
  have field : FieldForm ⟨"x", "int", [], some "0", none, false, false⟩ _ :=
    .mk (.string _) (.string _) .null (.item (.some (.string _)) (.omitted absent)) .numbered
  have descriptor : DescriptorForm ⟨some "p", none⟩ _ :=
    .mk (.item (.some (.string _)) (.omitted (List.forall_mem_singleton.2 .none))) .numbered
  exact .composite (.string _) .none (.singleton (.string _)) descriptor (.singleton field) .numbered

/-- The sample encodes the enumeration. -/
lemma colourType_form : TypeForm colourType colourEncoding.val.tree := by
  have descriptor : DescriptorForm ⟨none, some 7⟩ _ :=
    .mk (.item .none (.item (.some (.ulong _)) (@TailForm.extra []))) .numbered
  have choice : ChoiceForm ⟨"R", "0"⟩ _ := @ChoiceForm.mk _ _ _ _ [] (.string _) (.string _) .numbered
  exact .restricted rfl (.string _) (.some (.string _)) .null (.string _) descriptor
    (.singleton choice) .numbered

/-- The sample encodes a schema of both. -/
lemma sampleSection_form : SchemaForm [pointType, colourType] sampleSection.val.tree := by
  have types := @ListForm.list _ TypeForm [(_, _), (_, _)]
    (List.forall_mem_cons.2 ⟨pointType_form, List.forall_mem_singleton.2 colourType_form⟩)
  exact .mk types .numbered

/-- Between two stray bytes the sample is read, and the cursor ends on the second one. -/
theorem readSchema_sampleSection :
    ∃ schema, SchemaSection.readSchema (sampleSection.between [0xff] [0xff]) =
        (.ok schema, (sampleSection.between [0xff] [0xff]).past sampleSection.val) ∧
      schema.types = [pointType, colourType] :=
  readSchema_written (by decide) sampleSection_form (sampleSection.standsOn_between _ _)

end Sample

end AmqpBlob
