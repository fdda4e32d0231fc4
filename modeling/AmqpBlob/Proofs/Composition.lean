import AmqpBlob.Blob
import AmqpBlob.Proofs.Embedding
import AmqpBlob.Proofs.SectionRoundTrip

/-!
# Blobs are put together of their parts

What a blob gives is what its parts give on their own: the schema is the one that the schema section
gives, and the value the one that the object gives against that schema. The object may be any bytes
that make up one element; it is passed over by its extent when the schema is read.
-/

namespace AmqpBlob

open Wire (Holds SizeWidth Fits word sized)

/-- The error, wherever in the bytes it was met. -/
def DecodeError.unplaced : DecodeError → DecodeError
  | wire fault => wire fault.unplaced
  | schemaMismatch path expected found => schemaMismatch path expected found
  | descriptorMismatch path expected found => descriptorMismatch path expected found
  | unknownType path name => unknownType path name
  | unknownChoice path label => unknownChoice path label
  | missingMandatory path => missingMandatory path
  | missingFields path expected found => missingFields path expected found
  | depthExceeded path maxDepth => depthExceeded path maxDepth
  | referencedObject path => referencedObject path

/-- The parts of an envelope: a descriptor, and a list that declares two values or more and that
starts with an object and a schema section. Behind these, any bytes may follow. -/
structure EnvelopeForm where
  descriptor : Encoding
  width : SizeWidth
  /-- The number of values that the list declares. -/
  count : Nat
  object : List UInt8
  schema : List UInt8
  rest : List UInt8
  describes : descriptor.val.tree = .scalar (.ulong EnvelopePart.envelope.code) ∨
    descriptor.val.tree = .scalar (.symbol EnvelopePart.envelope.symbol)
  two_le_count : 2 ≤ count
  count_lt : count < 256 ^ width.bytes
  fits : Fits width (word width.bytes count ++ (object ++ (schema ++ rest)))
  /-- The object is one element, by its own extent. -/
  objectStop : Wire.elementStop object.toByteArray 0 = .ok object.length

namespace EnvelopeForm

variable (form : EnvelopeForm)

/-- The data of the list. -/
def data : List UInt8 :=
  sized form.width (word form.width.bytes form.count ++ (form.object ++ (form.schema ++ form.rest)))

/-- The bytes of the envelope. -/
def bytes : List UInt8 :=
  Wire.describedCode ::
    (form.descriptor.val.bytes none ++ form.width.code 0xc0 0xd0 :: form.data)

end EnvelopeForm

/-! ## Headers -/

/-- Bytes that are cut out of a list of bytes are a piece of the list. -/
lemma toList_extract (bytes : List UInt8) (start stop : Nat) :
    (bytes.toByteArray.extract start stop).data.toList = (bytes.drop start).take (stop - start) := by
  rw [ByteArray.data_extract, Array.toList_extract, List.toList_data_toByteArray,
    List.extract_eq_take_drop]

/-- Bytes cut out up to the end are what is left when the ones before are dropped. -/
lemma extract_size (bytes : List UInt8) (start : Nat) :
    bytes.toByteArray.extract start bytes.toByteArray.size = (bytes.drop start).toByteArray := by
  apply ByteArray.ext
  apply Array.toList_inj.1
  rw [toList_extract, List.toList_data_toByteArray, List.size_toByteArray]
  exact List.take_of_length_le (Nat.le_of_eq List.length_drop)

namespace Envelope

/-- The bytes of an envelope with a header before them. -/
def headed (bytes : List UInt8) : List UInt8 :=
  magic ++ dataSection :: bytes

/-- What stands behind the header is read. -/
lemma ofBytes_of_length {bytes : List UInt8} {length : Nat}
    (h : headerLength bytes.toByteArray = .ok length) :
    ofBytes bytes.toByteArray = (read (.ofBytes (bytes.drop length).toByteArray)).1 := by
  rw [ofBytes, h, ← extract_size]
  rfl

/-- Bytes that start otherwise than a header does have none. -/
lemma headerLength_bare {byte : UInt8} {bytes : List UInt8} (h : byte ≠ 0x63) :
    headerLength (byte :: bytes).toByteArray = .ok 0 := by
  have hmagic : ((byte :: bytes).toByteArray.extract 0 magic.length).data.toList ≠ magic := by
    rw [toList_extract]
    intro hmagic
    exact h (List.cons.inj hmagic).1
  rw [headerLength, if_neg hmagic]

/-- The header before an envelope is its mark and the number of the section. -/
lemma headerLength_headed (bytes : List UInt8) :
    headerLength (headed bytes).toByteArray = .ok (magic.length + 1) := by
  have hmagic : ((headed bytes).toByteArray.extract 0 magic.length).data.toList = magic := by
    rw [toList_extract]
    rfl
  have inside : magic.length < (headed bytes).toByteArray.size := by
    rw [List.size_toByteArray, headed, List.length_append]
    exact Nat.lt_add_of_pos_right (Nat.succ_pos _)
  have hnumber := getElem?_pos (headed bytes).toByteArray magic.length inside
  rw [List.getElem_toByteArray] at hnumber
  rw [headerLength, if_pos hmagic, hnumber]
  rfl

end Envelope

/-! ## Reading an envelope -/

namespace Cursor

/-- Where there are bytes, there is a value at their start. -/
lemma ofBytes_current {bytes : List UInt8} (h : 0 < bytes.length) :
    (ofBytes bytes.toByteArray).hasCurrent = true := by
  rw [← List.size_toByteArray] at h
  exact hasCurrent_iff.2 ⟨h, h⟩

end Cursor

namespace EnvelopeForm

variable (form : EnvelopeForm)

/-- Where the list stands. -/
def listStart : Nat :=
  1 + (form.descriptor.val.bytes none).length

/-- Where the object stands. -/
def objectStart : Nat :=
  form.listStart + 1 + 2 * form.width.bytes

/-- The cursor on the descriptor. -/
def descriptorCursor : Cursor where
  bytes := form.bytes.toByteArray
  here := ⟨1, 0⟩
  level := ⟨⟨0, 0⟩, form.bytes.length, 2, none⟩
  outer := [(Cursor.ofBytes form.bytes.toByteArray).level]

/-- The cursor on the list. -/
def listCursor : Cursor :=
  { form.descriptorCursor with here := ⟨form.listStart, 1⟩ }

/-- The cursor on the object. -/
def objectCursor : Cursor where
  bytes := form.bytes.toByteArray
  here := ⟨form.objectStart, 0⟩
  level := ⟨⟨form.listStart, 1⟩, form.bytes.length, form.count, none⟩
  outer := form.listCursor.level :: form.listCursor.outer

/-- The cursor on the schema section. -/
def schemaCursor : Cursor :=
  { form.objectCursor with here := ⟨form.objectStart + form.object.length, 1⟩ }

/-- An envelope is as long as its descriptor and its list, with a format code before each. -/
lemma length_bytes : form.bytes.length = form.listStart + 1 + form.data.length := by
  rw [bytes, listStart, List.length_cons, List.length_append, List.length_cons]
  omega

/-- An envelope starts with the format code of a described value, so it has no header. -/
lemma headerLength_bytes : Envelope.headerLength form.bytes.toByteArray = .ok 0 :=
  Envelope.headerLength_bare (by decide)

/-- The bytes of an envelope are as many as listed. -/
lemma size_bytes : form.bytes.toByteArray.size = form.bytes.length :=
  List.size_toByteArray

/-- All of the bytes stand at the start. -/
lemma holds_bytes : Holds form.bytes.toByteArray 0 form.bytes :=
  ⟨[], [], by rw [List.toList_data_toByteArray, List.nil_append, List.append_nil], rfl⟩

/-- The descriptor stands behind the first format code. -/
lemma holds_descriptor : Holds form.bytes.toByteArray 1 (form.descriptor.val.bytes none) :=
  form.holds_bytes.tail.left

/-- The list stands behind the descriptor. -/
lemma holds_list : Holds form.bytes.toByteArray form.listStart
    (form.width.code 0xc0 0xd0 :: form.data) :=
  form.holds_bytes.tail.right

/-- The object, the schema section and the rest stand behind the size and the count of the list. -/
lemma holds_content : Holds form.bytes.toByteArray form.objectStart
    (form.object ++ (form.schema ++ form.rest)) :=
  @Cursor.holds_counted form.listCursor _ _ _ _ form.holds_list.tail

/-- The list reaches to the end. -/
lemma elementStop_list :
    Wire.elementStop form.bytes.toByteArray form.listStart = .ok form.bytes.length := by
  have hlength : Wire.dataLength form.bytes.toByteArray (form.width.code 0xc0 0xd0)
      (form.listStart + 1) = .ok form.data.length :=
    Wire.dataLength_sized (by decide) (by decide) form.fits form.holds_list.tail
  have hcode : form.width.code 0xc0 0xd0 ≠ Wire.describedCode :=
    Wire.code_ne_described (by decide) (by decide)
  rw [Wire.elementStop_of_length form.holds_list.byteAt hcode hlength, form.length_bytes]

/-- The envelope reaches to the end. -/
lemma elementStop_bytes : Wire.elementStop form.bytes.toByteArray 0 = .ok form.bytes.length := by
  have hdescriptor : Wire.elementStop form.bytes.toByteArray 1 = .ok form.listStart :=
    Wire.elementStop_encodes form.descriptor.property form.holds_descriptor
  rw [Wire.elementStop_described form.holds_bytes.byteAt, hdescriptor]
  exact form.elementStop_list

/-- The format code of an envelope is that of a described value. -/
lemma code_bytes : (Cursor.ofBytes form.bytes.toByteArray).code = .ok (Wire.describedCode, 1) := by
  have hlength := form.length_bytes
  have current : (Cursor.ofBytes form.bytes.toByteArray).hasCurrent = true :=
    Cursor.ofBytes_current (by omega)
  rw [Cursor.code, if_pos current]
  change (do return (← Wire.byteAt form.bytes.toByteArray 0, 0 + 1) : Except WireError _) = _
  rw [form.holds_bytes.byteAt]
  rfl

/-- An envelope is a described value. -/
lemma kind_bytes : (Cursor.ofBytes form.bytes.toByteArray).kind = .ok .described := by
  rw [Cursor.kind, form.code_bytes]
  rfl

/-- Entering an envelope leads to its descriptor. -/
lemma enter_bytes :
    (Cursor.ofBytes form.bytes.toByteArray).enter = .ok form.descriptorCursor := by
  rw [Cursor.enter_eq form.code_bytes form.elementStop_bytes (Nat.le_of_eq form.size_bytes.symm)]
  rfl

/-- The descriptor is an encoding, with the list behind it. -/
lemma descriptor_standsOn : form.descriptorCursor.StandsOn form.descriptor.val where
  siblings := by
    refine ⟨List.forall_mem_singleton.2 form.descriptor.property, nofun, ?_⟩
    rw [Element.content_cons, Element.content_nil, List.append_nil]
    exact form.holds_descriptor
  counted := Nat.zero_lt_two
  covered := by
    have hlength := form.length_bytes
    change form.listStart ≤ form.bytes.length
    omega

/-- Behind the descriptor comes the list. -/
lemma next_descriptor : form.descriptorCursor.next = form.listCursor :=
  form.descriptor_standsOn.next

/-- The format code of the list is the one of its width. -/
lemma code_list : form.listCursor.code =
    .ok (form.width.code 0xc0 0xd0, form.listStart + 1) := by
  have hlength := form.length_bytes
  have covered : form.listStart < form.bytes.length := by omega
  have current : form.listCursor.hasCurrent = true :=
    Cursor.hasCurrent_iff.2 ⟨Nat.one_lt_two, covered⟩
  rw [Cursor.code, if_pos current]
  change (do return (← Wire.byteAt form.bytes.toByteArray form.listStart, form.listStart + 1) :
    Except WireError _) = _
  rw [form.holds_list.byteAt]
  rfl

/-- A list of either width is a list. -/
lemma kind_list : form.listCursor.kind = .ok .list := by
  rw [Cursor.kind, form.code_list]
  cases form.width with
  | narrow | wide => rfl

/-- Entering the list leads to the object. -/
lemma enter_list : form.listCursor.enter = .ok form.objectCursor := by
  have hstop : form.listCursor.stop = .ok form.bytes.length := form.elementStop_list
  rw [Cursor.enter_eq form.code_list hstop (Nat.le_of_eq form.size_bytes.symm),
    Cursor.interior_counted (.inl ⟨rfl, rfl⟩) form.count_lt form.holds_list.tail]
  rfl

/-- The object has at least a format code. -/
lemma object_pos : 0 < form.object.length :=
  Wire.lt_of_elementStop form.objectStop

/-- The list declares a first value, so the object is found in it. -/
lemma object_current : form.objectCursor.hasCurrent = true := by
  have hsize := form.holds_content.le_size
  have hcount := form.two_le_count
  have hobject := form.object_pos
  rw [form.size_bytes, List.length_append] at hsize
  have counted : 0 < form.count := by omega
  have covered : form.objectStart < form.bytes.length := by omega
  exact Cursor.hasCurrent_iff.2 ⟨counted, covered⟩

/-- The object is the same value in the envelope as on its own. -/
lemma object_sameValue :
    (Cursor.ofBytes form.object.toByteArray).SameValue form.objectStart form.objectCursor where
  within := by
    change Holds form.bytes.toByteArray form.objectStart form.object.toByteArray.data.toList
    rw [List.toList_data_toByteArray]
    exact form.holds_content.left
  offset := rfl
  element? := rfl
  hasCurrent := by rw [form.object_current, Cursor.ofBytes_current form.object_pos]

/-- Behind the extent of the object comes the schema section. -/
lemma next_object : form.objectCursor.next = form.schemaCursor := by
  have hsize := form.holds_content.le_size
  rw [form.size_bytes, List.length_append] at hsize
  have hstop : (Cursor.ofBytes form.object.toByteArray).stop = .ok form.object.length :=
    form.objectStop
  have echoes := form.object_sameValue.stop
  rw [hstop] at echoes
  obtain ⟨stop, hfound, rfl⟩ := echoes.exists_of_ok
  rw [Cursor.next, if_pos form.object_current, hfound]
  change (if form.objectStart + form.object.length ≤ form.bytes.length then _ else _) = _
  rw [if_pos (by omega)]
  rfl

/-- The schema section is the same value in the envelope as on its own. -/
lemma schema_sameValue (h : 0 < form.schema.length) :
    (Cursor.ofBytes form.schema.toByteArray).SameValue (form.objectStart + form.object.length)
      form.schemaCursor where
  within := by
    change Holds form.bytes.toByteArray _ form.schema.toByteArray.data.toList
    rw [List.toList_data_toByteArray]
    exact form.holds_content.right.left
  offset := rfl
  element? := rfl
  hasCurrent := by
    have hsize := form.holds_content.le_size
    have hcount := form.two_le_count
    rw [form.size_bytes, List.length_append, List.length_append] at hsize
    have counted : 1 < form.count := by omega
    have covered : form.objectStart + form.object.length < form.bytes.length := by omega
    have current : form.schemaCursor.hasCurrent = true := Cursor.hasCurrent_iff.2 ⟨counted, covered⟩
    rw [current, Cursor.ofBytes_current h]

/-- The descriptor is read as that of an envelope, by its number or by its symbol. -/
lemma descriptor_scalar : ∃ descriptor, form.descriptorCursor.scalar = .ok descriptor ∧
    EnvelopePart.ofScalar? descriptor = some .envelope := by
  rcases form.describes with htree | htree
  · exact ⟨_, form.descriptor_standsOn.scalar htree, EnvelopePart.ofCode?_code .envelope⟩
  · exact ⟨_, form.descriptor_standsOn.scalar htree, EnvelopePart.ofSymbol?_symbol .envelope⟩

/-- Reading an envelope is reading the schema behind the object. -/
lemma read_bytes : (Envelope.read (.ofBytes form.bytes.toByteArray)).1 =
    ((SchemaSection.readSchema form.schemaCursor).1.mapError .schema).map
      fun schema => ⟨schema, form.objectCursor⟩ := by
  obtain ⟨descriptor, hscalar, hpart⟩ := form.descriptor_scalar
  rw [Envelope.read, Walk.bind_kind_of_eq form.kind_bytes, if_neg (not_not_intro rfl),
    Walk.inside_apply form.enter_bytes, Walk.bind_scalar_of_eq hscalar,
    if_neg (not_not_intro hpart)]
  dsimp only
  rw [Walk.bind_next, form.next_descriptor, Walk.bind_kind_of_eq form.kind_list,
    if_neg (not_not_intro rfl), Walk.inside_apply form.enter_list, Walk.bind_here, Walk.bind_next,
    form.next_object, Walk.bind_apply,
    Walk.mapError]
  cases SchemaSection.readSchema form.schemaCursor with
  | mk result c =>
    cases result with
    | ok schema => rfl
    | error error => rfl

end EnvelopeForm

/-- Bytes that are an encoding as a whole are stood on from their start. -/
lemma Encoding.standsOn_ofBytes (encoding : Encoding) :
    (Cursor.ofBytes (encoding.val.bytes none).toByteArray).StandsOn encoding.val where
  siblings := by
    refine ⟨List.forall_mem_singleton.2 encoding.property, nofun, [], [], ?_, rfl⟩
    rw [Element.content_cons, Element.content_nil, List.append_nil, List.append_nil, List.nil_append]
    exact List.toList_data_toByteArray
  counted := by
    change 0 < (encoding.val.bytes none).toByteArray.size
    rw [List.size_toByteArray]
    exact Nat.succ_pos _
  covered := by
    change 0 + (encoding.val.bytes none).length ≤ (encoding.val.bytes none).toByteArray.size
    exact Nat.le_of_eq ((Nat.zero_add _).trans List.size_toByteArray.symm)

/-- An error that needs no excuse is the same error at another offset. -/
lemma Echoes.exists_of_error {α α' : Type} {related : α → α' → Prop} {error : DecodeError}
    {result' : Except DecodeError α'}
    (h : Echoes (fun _ => False) related (.error error) result') :
    ∃ error', result' = .error error' ∧ error'.unplaced = error.unplaced := by
  cases h with
  | error => exact ⟨_, rfl, rfl⟩
  | fault hfault => exact ⟨_, rfl, congrArg DecodeError.wire hfault.symm⟩
  | excused hfault => cases hfault

namespace EnvelopeForm

variable (form : EnvelopeForm) {schema : Schema}

/-- An envelope is opened with the schema that its section gives on its own. -/
lemma ofBytes_bytes
    (section_ok : (SchemaSection.readSchema (.ofBytes form.schema.toByteArray)).1 = .ok schema) :
    Envelope.ofBytes form.bytes.toByteArray = .ok ⟨schema, form.objectCursor⟩ := by
  have current := SchemaSection.needs_readSchema _ _ section_ok
  have hschema : 0 < form.schema.length := by
    have covered := (Cursor.hasCurrent_iff.1 current).2
    change 0 < form.schema.toByteArray.size at covered
    rwa [List.size_toByteArray] at covered
  have mirror := Cursor.mirror_part (form.objectStart + form.object.length)
  have echoes := mirror.repeats SchemaSection.built_readSchema (form.schema_sameValue hschema)
  rw [section_ok] at echoes
  obtain ⟨_, hread, rfl⟩ := echoes.exists_of_ok
  rw [Envelope.ofBytes_of_length form.headerLength_bytes, List.drop_zero, form.read_bytes, hread]
  rfl

end EnvelopeForm

namespace Blob

variable {options : DecodeOptions} {schema : Schema} {bytes : ByteArray} {place : Cursor}

/-- The schema of a blob is the one of its envelope. -/
lemma schemaOfBytes_of_opened (h : Envelope.ofBytes bytes = .ok ⟨schema, place⟩) :
    schemaOfBytes bytes = .ok schema := by
  rw [schemaOfBytes, h]
  rfl

/-- The value of a blob is what its envelope's object gives against the schema. -/
lemma ofBytes_of_opened (h : Envelope.ofBytes bytes = .ok ⟨schema, place⟩) :
    ofBytes bytes options =
      ((Decoder.decodeAny ⟨schema, options⟩ place).1.mapError .decode).map fun value =>
        ⟨schema, value⟩ := by
  rw [ofBytes, h]
  rfl

end Blob

/-- A blob has the schema that its schema section gives on its own, whatever the object is, and the
value that the object gives on its own against this schema. An error of the object is that of the
blob, at another offset, if the object is an encoding or at least is not cut off. A header before the
envelope changes nothing. -/
theorem blob_of_parts (form : EnvelopeForm) (options : DecodeOptions) {schema : Schema}
    (section_ok : (SchemaSection.readSchema (.ofBytes form.schema.toByteArray)).1 = .ok schema) :
    Blob.schemaOfBytes form.bytes.toByteArray = .ok schema ∧
    (∀ value, (Decoder.decodeAny ⟨schema, options⟩ (.ofBytes form.object.toByteArray)).1 = .ok value →
      Blob.ofBytes form.bytes.toByteArray options = .ok ⟨schema, value⟩) ∧
    (∀ error,
      (Decoder.decodeAny ⟨schema, options⟩ (.ofBytes form.object.toByteArray)).1 = .error error →
      ((∃ object : Encoding, form.object = object.val.bytes none) ∨
        ¬∃ offset needed, error = .wire (.truncated offset needed)) →
      ∃ error', Blob.ofBytes form.bytes.toByteArray options = .error (.decode error') ∧
        error'.unplaced = error.unplaced) ∧
    Blob.schemaOfBytes (Envelope.headed form.bytes).toByteArray =
      Blob.schemaOfBytes form.bytes.toByteArray ∧
    Blob.ofBytes (Envelope.headed form.bytes).toByteArray options =
      Blob.ofBytes form.bytes.toByteArray options := by
  have opened := form.ofBytes_bytes section_ok
  have headed : Envelope.ofBytes (Envelope.headed form.bytes).toByteArray =
      Envelope.ofBytes form.bytes.toByteArray := by
    rw [Envelope.ofBytes_of_length (Envelope.headerLength_headed _),
      Envelope.ofBytes_of_length form.headerLength_bytes]
    rfl
  have built := @Decoder.built_decodeAny ⟨schema, options⟩
  have part := (Cursor.mirror_part form.objectStart).repeats built form.object_sameValue
  refine ⟨Blob.schemaOfBytes_of_opened opened, fun value hvalue => ?_, fun error herror excuse => ?_,
    ?_, ?_⟩
  · rw [hvalue] at part
    obtain ⟨_, hplaced, rfl⟩ := part.exists_of_ok
    rw [Blob.ofBytes_of_opened opened, hplaced]
    rfl
  · have strict : Echoes (fun _ => False) Eq
        (Decoder.decodeAny ⟨schema, options⟩ (.ofBytes form.object.toByteArray)).1
        (Decoder.decodeAny ⟨schema, options⟩ form.objectCursor).1 := by
      rcases excuse with ⟨object, hobject⟩ | untruncated
      · have stands := object.standsOn_ofBytes
        rw [← hobject] at stands
        exact (Cursor.mirror_encoding form.objectStart).repeats built
          ⟨form.object_sameValue, fun _ => ⟨_, stands⟩⟩
      · refine part.strict fun fault truncated hfault => untruncated ?_
        obtain ⟨offset, needed, rfl⟩ := truncated
        rw [herror] at hfault
        exact ⟨offset, needed, Except.error.inj hfault⟩
    rw [herror] at strict
    obtain ⟨error', hplaced, hunplaced⟩ := strict.exists_of_error
    refine ⟨error', ?_, hunplaced⟩
    rw [Blob.ofBytes_of_opened opened, hplaced]
    rfl
  · rw [Blob.schemaOfBytes, headed]
    rfl
  · rw [Blob.ofBytes, headed]
    rfl

/-- Five is written as a number of one byte. -/
lemma scalarForm_five :
    ScalarForm (.int (5 : Int8).toInt32) 0x54 (word 1 (5 : Int8).toUInt8.toNat) :=
  .smallInt 5

/-- A list of one number. -/
def sampleObject : Encoding :=
  .list .narrow [.scalar scalarForm_five] (by decide)

set_option maxRecDepth 4000 in
/-- An envelope of the list and a schema section of two types, with a third value behind them. -/
def sampleEnvelope : EnvelopeForm where
  descriptor := .scalar (.ulong EnvelopePart.envelope.code)
  width := .wide
  count := 3
  object := sampleObject.val.bytes none
  schema := sampleSection.val.bytes none
  rest := [0x45]
  describes := .inl rfl
  two_le_count := by decide
  count_lt := by decide
  fits := by decide
  objectStop := rfl

/-- With a header before it, the sample gives both types and the list of one number. -/
theorem blob_of_sampleEnvelope :
    ∃ schema, schema.types = [pointType, colourType] ∧
      Blob.schemaOfBytes sampleEnvelope.bytes.toByteArray = .ok schema ∧
      Blob.ofBytes (Envelope.headed sampleEnvelope.bytes).toByteArray {} =
        .ok ⟨schema, .collection [.single (.int 5)]⟩ := by
  have distinct : ([pointType, colourType].map (·.name)).Nodup := by decide
  obtain ⟨schema, built, htypes⟩ := Schema.exists_ofTypes distinct
  have section_ok : SchemaSection.readSchema (.ofBytes sampleEnvelope.schema.toByteArray) = _ :=
    SchemaSection.readSchema_stands sampleSection_form sampleSection.standsOn_ofBytes rfl built
  obtain ⟨schema_ok, value_ok, _, _, headed⟩ :=
    blob_of_parts sampleEnvelope {} (congrArg Prod.fst section_ok)
  exact ⟨schema, htypes, schema_ok, headed.trans (value_ok _ rfl)⟩

end AmqpBlob
