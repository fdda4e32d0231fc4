import AmqpBlob.Proofs.Count
import AmqpBlob.Proofs.RoundTrip
import AmqpBlob.Proofs.SameData
import AmqpBlob.Proofs.SameTree

/-!
# Arrays beside lists

Elements that have one format code may be written as an array, which tells the code once, or as a list,
in which it stands before each of them. The array is decoded to what the list is decoded to if its
elements have data, whatever they are and whatever type they are decoded as. But where they have none,
no bytes are left behind the format code that they share, and the array is decoded to no elements.
-/

namespace AmqpBlob

open Wire (SizeWidth describedCode)
open Datum (content)
open Walk (Built Rests Settles)

/-- Elements of one format code, written as an array and as a list, each in a width of its own. -/
inductive ArrayAndList (code : UInt8) (items : List Datum) : (array list : Datum) → Prop where
  | mk {width width' : SizeWidth} :
    code ≠ describedCode →
    (∀ item ∈ items, Formed item) →
    (∀ item ∈ items, item.code = code) →
    FitsCounted width items.length (code :: content (some code) items) →
    FitsCounted width' items.length (content none items) →
    ArrayAndList code items
      ⟨width.code 0xe0 0xf0, compound width items.length (code :: content (some code) items)⟩
      ⟨width'.code 0xc0 0xd0, compound width' items.length (content none items)⟩

/-- The value with a descriptor before it. -/
def Datum.describedBy (descriptor value : Datum) : Datum :=
  ⟨describedCode, content none [descriptor, value]⟩

/-- What the array is decoded to, beside what the list is decoded to. -/
structure Beside (items : List Datum) (result result' : Except DecodeError Value) : Prop where
  /-- Elements with data are the same in both. -/
  same : (∀ item ∈ items, item.data ≠ []) → SameOutcome result result'
  /-- Elements without data are in the list only. -/
  lost : (∃ item ∈ items, item.data = []) →
    ∀ value, result' = .ok value → result = .ok .empty ∧ value ≠ .empty

namespace ArrayAndList

variable {code : UInt8} {items : List Datum} {array list : Datum} {c : Cursor}

/-- Both are well-formed. -/
lemma formed (h : ArrayAndList code items array list) : Formed array ∧ Formed list := by
  obtain ⟨plain, hitems, hcodes, fits, fits'⟩ := h
  exact ⟨.array plain hitems hcodes fits, .list hitems fits'⟩

/-- The one is told as an array, in either width. -/
lemma kind_array (h : ArrayAndList code items array list) (on : c.On array) :
    c.kind = .ok .array := by
  rw [Cursor.kind, on.code]
  cases h with
  | @mk width => cases width <;> rfl

/-- The other one is told as a list, in either width. -/
lemma kind_list (h : ArrayAndList code items array list) (on : c.On list) :
    c.kind = .ok .list := by
  rw [Cursor.kind, on.code]
  cases h with
  | @mk _ width' => cases width' <;> rfl

/-- In the list there are the elements. -/
lemma opens_list (h : ArrayAndList code items array list) (on : c.On list) :
    c.Opens items items.length := by
  obtain ⟨_, hitems, _, _, fits⟩ := h
  exact Cursor.opens_list hitems fits on

/-- In the array there are the elements too, if they have data. -/
lemma opens_array (h : ArrayAndList code items array list) (filled : ∀ item ∈ items, item.data ≠ [])
    (on : c.On array) : c.Opens items items.length := by
  obtain ⟨plain, hitems, hcodes, fits, _⟩ := h
  by_cases narrow : code.toNat / 16 = 0x4
  · -- Such elements have no data, so there are none.
    have none : items = [] := by
      refine List.eq_nil_iff_forall_not_mem.2 fun item member => filled item member ?_
      exact Wire.data_eq_nil_of_formed (hitems item member) ((hcodes item member).symm ▸ narrow)
    subst none
    exact Cursor.opens_array_without_data plain narrow hitems hcodes fits on
  · exact Cursor.opens_array plain narrow hitems hcodes fits on

/-- In the array there is nothing if they have none. -/
lemma opens_array_without_data (h : ArrayAndList code items array list)
    (bare : ∃ item ∈ items, item.data = []) (on : c.On array) : c.Opens [] items.length := by
  obtain ⟨plain, hitems, hcodes, fits, _⟩ := h
  obtain ⟨item, member, hdata⟩ := bare
  refine Cursor.opens_array_without_data plain ?_ hitems hcodes fits on
  refine Decidable.byContradiction fun wide => ?_
  have hlength := Wire.length_pos_of_formed (hitems item member) ((hcodes item member).symm ▸ wide)
  rw [hdata] at hlength
  cases hlength

end ArrayAndList

namespace Beside

variable {α : Type} {items : List Datum}

/-- Nothing is told of elements that are not reached. -/
lemma error (error : DecodeError) : Beside items (.error error) (.error error) :=
  ⟨fun _ => rfl, nofun⟩

/-- What is done without a look at the cursor is the same. -/
lemma bind {walk : Walk DecodeError α} {following following' : α → Decoder.ValueWalk Value}
    {c c' : Cursor} (settles : Settles walk)
    (h : ∀ value, Beside items (following value c).1 (following' value c').1) :
    Beside items ((walk >>= following) c).1 ((walk >>= following') c').1 := by
  obtain ⟨result, hresult⟩ := settles
  rw [Walk.bind_apply, Walk.bind_apply, hresult, hresult]
  cases result with
  | ok value => exact h value
  | error error => exact .error error

end Beside

namespace Cursor

variable {c : Cursor} {descriptor value : Datum} {found : Scalar}

/-- A scalar is read from its form. -/
lemma On.scalar (on : c.On value) (form : ScalarForm found value.code value.data) :
    c.scalar = .ok found := by
  rw [Cursor.scalar, on.code]
  exact Wire.scalarAt_form form _ on.holds_data

/-- A value with a descriptor before it is told as described. -/
lemma On.kind_described (on : c.On (descriptor.describedBy value)) : c.kind = .ok .described := by
  rw [Cursor.kind, on.code]
  rfl

/-- Inside of a described value comes the descriptor first, and the value next. -/
lemma On.enter_described (on : c.On (descriptor.describedBy value))
    (form : ScalarForm found descriptor.code descriptor.data) (formed : Formed value) :
    ∃ inner, c.enter = .ok inner ∧ inner.scalar = .ok found ∧ inner.next.On value := by
  obtain ⟨inner, henter, awaits, _⟩ := opens_described (Wire.formed_of_form form) formed on
  obtain ⟨_, first, _, _, second, _⟩ := awaits
  exact ⟨inner, henter, first.scalar form, second⟩

/-- The descriptor that is told is the one before the value. -/
lemma On.describedBy (on : c.On (descriptor.describedBy value))
    (form : ScalarForm found descriptor.code descriptor.data) (formed : Formed value) :
    c.DescribedBy found := by
  obtain ⟨inner, henter, hscalar, _⟩ := on.enter_described form formed
  exact ⟨on.kind_described, inner, henter, hscalar⟩

end Cursor

/-- The name of an array stands for an array if no type of the schema has it. -/
lemma Schema.resolve?_of_arrayElement? {schema : Schema} {name element : String}
    (h : TypeName.arrayElement? name = some element) (undeclared : schema.get? name = none) :
    schema.resolve? name = some (.array element) := by
  have special : name ≠ TypeName.any := by
    rintro rfl
    cases h
  have primitive : Kind.ofTypeName? name = none := by
    refine Option.eq_none_iff_forall_ne_some.2 fun kind found => ?_
    have hname := List.find?_some found
    rw [beq_iff_eq] at hname
    subst hname
    cases kind <;> cases h
  rw [Schema.resolve?, if_neg special, primitive, undeclared, h]
  rfl

namespace Decoder

variable {decoder : Decoder} {left : Nat} {path : Path} {code : UInt8} {items : List Datum}
  {array list : Datum} {c c' : Cursor}

/-- Where there are no items, none are read. -/
lemma readItems_of_opens_nil {item : Path → ValueWalk Value} {count : Nat} (h : c.Opens [] count) :
    (readItems item path c).1 = .ok .empty := by
  obtain ⟨inner, henter, exhausted, _⟩ := h
  rw [readItems, Walk.inside_apply henter]
  exact Walk.return_apply (congrArg Prod.fst (Walk.collect_of_exhausted exhausted))

/-- Where there are items, some are read. -/
lemma readItems_ne_empty {element : String} {count : Nat} {value : Value} (some : items ≠ [])
    (h : c.Opens items count)
    (hvalue : (readItems (decoder.readValue left element) path c).1 = .ok value) :
    value ≠ .empty := by
  rintro rfl
  obtain ⟨inner, henter, awaits, _⟩ := h
  obtain ⟨_, hnone, inner', henter', meets, _⟩ := counts_readItems (takes_readValue _ _) hvalue
  cases hnone
  cases henter.symm.trans henter'
  cases items with
  | nil => exact some rfl
  | cons item rest => exact Bool.noConfusion (awaits.2.1.hasCurrent.symm.trans meets.behind)

/-- Items that are before both cursors are read alike. -/
lemma same_readItems {element : String} {count : Nat} (h : c.Opens items count)
    (h' : c'.Opens items count) :
    SameOutcome (readItems (decoder.readValue left element) path c).1
      (readItems (decoder.readValue left element) path c').1 := by
  have built : Built .roams (do
      let items ← Walk.collect fun index =>
        Walk.thenNext (decoder.readValue left element (path.push (.item index)))
      return Value.collection items) :=
    .settle (.collect fun _ => .roams (.thenNext (built_readValue _ _ _))) fun _ => .pure _
  have follows := Built.echoes Cursor.mirror_data built
  exact (follows.inside (h.sameData h')).sameOutcome

/-- Items with data are read alike from both, and items without data from the list only. -/
lemma beside_readItems {element : String} (forms : ArrayAndList code items array list)
    (on : c.On array) (on' : c'.On list) :
    Beside items (readItems (decoder.readValue left element) path c).1
      (readItems (decoder.readValue left element) path c').1 where
  same filled := same_readItems (forms.opens_array filled on) (forms.opens_list on')
  lost bare value hvalue := by
    obtain ⟨item, member, _⟩ := id bare
    refine ⟨readItems_of_opens_nil (forms.opens_array_without_data bare on), ?_⟩
    exact readItems_ne_empty (List.ne_nil_of_mem member) (forms.opens_list on') hvalue

/-- Lists and arrays are expected alike, and nest alike. -/
lemma beside_readElements {element : String} (forms : ArrayAndList code items array list)
    (on : c.On array) (on' : c'.On list) :
    Beside items (decoder.readElements left (decoder.readValue left) element path c).1
      (decoder.readElements left (decoder.readValue left) element path c').1 := by
  unfold readElements
  rw [Walk.bind_kind_of_eq (forms.kind_array on), Walk.bind_kind_of_eq (forms.kind_list on'),
    if_neg (by decide), if_neg (by decide),
    bind_expectKind_of_eq (forms.kind_array on) (by decide),
    bind_expectKind_of_eq (forms.kind_list on') (by decide)]
  exact .bind settles_goDeeper fun _ => beside_readItems forms on on'

/-- Behind a descriptor of a list type there are its elements. -/
lemma beside_readDeclared {type : TypeDef} {source element : String} {outer? : Option String}
    {descriptor : Scalar} {first first' : Datum} (forms : ArrayAndList code items array list)
    (body : type.body = .restricted source (.list outer? element))
    (form : ScalarForm descriptor first.code first.data)
    (form' : ScalarForm descriptor first'.code first'.data)
    (on : c.On (first.describedBy array)) (on' : c'.On (first'.describedBy list)) :
    Beside items (decoder.readDeclared left (decoder.readValue left) type path c).1
      (decoder.readDeclared left (decoder.readValue left) type path c').1 := by
  obtain ⟨inner, henter, hscalar, second⟩ := on.enter_described form forms.formed.1
  obtain ⟨inner', henter', hscalar', second'⟩ := on'.enter_described form' forms.formed.2
  unfold readDeclared
  rw [Walk.bind_kind_of_eq on.kind_described, Walk.bind_kind_of_eq on'.kind_described]
  refine .bind settles_goDeeper fun _ => ?_
  rw [Walk.inside_apply henter, Walk.inside_apply henter', Walk.bind_scalar_of_eq hscalar,
    Walk.bind_scalar_of_eq hscalar']
  refine .bind (settles_checkDescriptor _ _) fun _ => ?_
  rw [Walk.bind_next, Walk.bind_next, body]
  exact beside_readElements forms second second'

end Decoder

/-- The name is one of a list type, and the data are the array and the list, written for that type: as
they are if the schema does not declare it, and behind a descriptor if it does. -/
inductive OfListType (schema : Schema) (array list : Datum) :
    String → (datum datum' : Datum) → Prop where
  | undeclared {name element : String} :
    TypeName.arrayElement? name = some element →
    schema.get? name = none →
    OfListType schema array list name array list
  | declared {name source element : String} {outer? : Option String} {type : TypeDef}
      {descriptor : Scalar} {first first' : Datum} :
    schema.resolve? name = some (.declared type) →
    type.body = .restricted source (.list outer? element) →
    ScalarForm descriptor first.code first.data →
    ScalarForm descriptor first'.code first'.data →
    OfListType schema array list name (first.describedBy array) (first'.describedBy list)
  | found {source element : String} {outer? : Option String} {type : TypeDef}
      {descriptor : Scalar} {first first' : Datum} :
    schema.find? descriptor = some type →
    type.body = .restricted source (.list outer? element) →
    ScalarForm descriptor first.code first.data →
    ScalarForm descriptor first'.code first'.data →
    OfListType schema array list TypeName.any (first.describedBy array) (first'.describedBy list)

variable {name : String} {code : UInt8} {items : List Datum} {array list datum datum' : Datum}
  {c c' : Cursor}

/-- The array and the list are read so at any depth and at any path. -/
lemma Decoder.beside_readValue (decoder : Decoder) (forms : ArrayAndList code items array list)
    (type : OfListType decoder.schema array list name datum datum') (on : c.On datum)
    (on' : c'.On datum') (left : Nat) (path : Path) :
    Beside items (decoder.readValue left name path c).1 (decoder.readValue left name path c').1 := by
  cases left with
  | zero => exact .error _
  | succ left =>
    rw [readValue, readUse]
    cases type with
    | undeclared hname hschema =>
      rw [Schema.resolve?_of_arrayElement? hname hschema]
      exact beside_readElements forms on on'
    | declared hname body form form' =>
      rw [hname]
      exact beside_readDeclared forms body form form' on on'
    | found hfind body form form' =>
      change Beside items (decoder.readAny left (decoder.readValue left) path c).1
        (decoder.readAny left (decoder.readValue left) path c').1
      rw [readAny_of_describedBy (on.describedBy form forms.formed.1) hfind,
        readAny_of_describedBy (on'.describedBy form' forms.formed.2) hfind]
      exact beside_readDeclared forms body form form' on on'

/-- Elements of one format code that have data are decoded to the same, whether they are written as an
array or as a list. Elements without data are decoded from the list only: whatever the list is decoded
to, the array is decoded to nothing. -/
theorem beside_of_forms (decoder : Decoder) (forms : ArrayAndList code items array list)
    (type : OfListType decoder.schema array list name datum datum') (on : c.On datum)
    (on' : c'.On datum') :
    Beside items (decoder.decode name c).1 (decoder.decode name c').1 ∧
    (name = TypeName.any → Beside items (decoder.decodeAny c).1 (decoder.decodeAny c').1) := by
  have beside := decoder.beside_readValue forms type on on' (decoder.options.maxDepth + 1)
  refine ⟨beside (.start name), ?_⟩
  rintro rfl
  exact beside (.start "$")

/-- The cursor on the first of some bytes is on the datum that they are. -/
lemma Cursor.on_ofBytes (datum : Datum) : (Cursor.ofBytes (datum.bytes none).toByteArray).On datum where
  hasCurrent := by
    have size : 0 < (datum.bytes none).toByteArray.size := by
      rw [List.size_toByteArray]
      exact Nat.succ_pos _
    exact hasCurrent_iff.2 ⟨size, size⟩
  holds := by
    refine ⟨[], [], ?_, rfl⟩
    rw [List.nil_append, List.append_nil]
    exact List.toList_data_toByteArray
  shared := nofun

/-- Two numbers as an array. -/
def numberArray : Datum :=
  ⟨0xe0, [0x04, 0x02, 0x54, 0x05, 0x06]⟩

/-- The two numbers as a list. -/
def numberList : Datum :=
  ⟨0xc0, [0x05, 0x02, 0x54, 0x05, 0x54, 0x06]⟩

/-- Two numbers are decoded alike from the array and from the list. -/
theorem beside_numbers :
    ArrayAndList 0x54 [⟨0x54, [0x05]⟩, ⟨0x54, [0x06]⟩] numberArray numberList ∧
    (plainDecoder.decode "int[]" (.ofBytes (numberArray.bytes none).toByteArray)).1 =
      .ok (.collection [.single (.int 5), .single (.int 6)]) ∧
    (plainDecoder.decode "int[]" (.ofBytes (numberList.bytes none).toByteArray)).1 =
      .ok (.collection [.single (.int 5), .single (.int 6)]) := by
  have formed : ∀ item ∈ [Datum.mk 0x54 [0x05], ⟨0x54, [0x06]⟩], Formed item :=
    List.forall_mem_cons.2 ⟨.fixed rfl, List.forall_mem_singleton.2 (.fixed rfl)⟩
  have forms : ArrayAndList 0x54 [⟨0x54, [0x05]⟩, ⟨0x54, [0x06]⟩] numberArray numberList :=
    @ArrayAndList.mk _ _ .narrow .narrow (by decide) formed (by decide) ⟨by decide, by decide⟩
      ⟨by decide, by decide⟩
  have type : OfListType plainDecoder.schema numberArray numberList "int[]" numberArray numberList :=
    @OfListType.undeclared _ _ _ _ "int" rfl rfl
  have decoded : (plainDecoder.decode "int[]" (.ofBytes (numberArray.bytes none).toByteArray)).1 =
      .ok (.collection [.single (.int 5), .single (.int 6)]) := rfl
  have beside := (beside_of_forms plainDecoder forms type (Cursor.on_ofBytes _)
    (Cursor.on_ofBytes _)).1
  exact ⟨forms, decoded, (beside.same (by decide)).eq_ok decoded⟩

/-- Three times true as an array. -/
def truthArray : Datum :=
  ⟨0xe0, [0x02, 0x03, 0x41]⟩

/-- Three times true as a list. -/
def truthList : Datum :=
  ⟨0xc0, [0x04, 0x03, 0x41, 0x41, 0x41]⟩

/-- The elements have no data, and the array is decoded to none of them. -/
theorem truths_lost :
    ArrayAndList 0x41 [⟨0x41, []⟩, ⟨0x41, []⟩, ⟨0x41, []⟩] truthArray truthList ∧
    (plainDecoder.decode "boolean[]" (.ofBytes (truthList.bytes none).toByteArray)).1 =
      .ok (.collection [.single (.boolean true), .single (.boolean true), .single (.boolean true)]) ∧
    (plainDecoder.decode "boolean[]" (.ofBytes (truthArray.bytes none).toByteArray)).1 =
      .ok .empty := by
  have truth : Formed ⟨0x41, []⟩ := .fixed rfl
  have formed : ∀ item ∈ [Datum.mk 0x41 [], ⟨0x41, []⟩, ⟨0x41, []⟩], Formed item :=
    List.forall_mem_cons.2 ⟨truth, List.forall_mem_cons.2 ⟨truth, List.forall_mem_singleton.2 truth⟩⟩
  exact ⟨@ArrayAndList.mk _ _ .narrow .narrow (by decide) formed (by decide) ⟨by decide, by decide⟩
    ⟨by decide, by decide⟩, rfl, rfl⟩

end AmqpBlob
