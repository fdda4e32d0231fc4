import AmqpBlob.Proofs.Composition
import AmqpBlob.Proofs.Conformance
import AmqpBlob.Proofs.Position
import AmqpBlob.Proofs.Reach

/-!
# Bytes that are cut off

Part of an element is never decoded. `NeedsWhole` says of a walk that it gives something only where the
current value ends within the bytes. Reading a scalar and entering a value do so, and therefore do all
ways to decode a value and to read an envelope; but a proper prefix of an element ends too early.
-/

namespace AmqpBlob

open Wire (Holds)

/-- The current value ends within the bytes. -/
def Cursor.IsWhole (c : Cursor) : Prop :=
  ∃ stop, c.stop = .ok stop ∧ stop ≤ c.bytes.size

/-- Null has one format code only. -/
lemma Kind.eq_of_ofCode?_null {code : UInt8} (h : ofCode? code = some .null) : code = 0x40 := by
  unfold ofCode? at h
  split at h
  case h_2 => rfl
  all_goals cases h

/-- Null is as long as its format code, so it is whole where it is seen. -/
lemma Cursor.isWhole_of_kind_null {c : Cursor} (inside : c.level.stop ≤ c.bytes.size)
    (h : c.kind = .ok .null) : c.IsWhole := by
  obtain ⟨code, data, hcode, hnull⟩ := exists_of_kind h
  have hscalar : c.scalar = .ok .null := by
    rw [Cursor.scalar, hcode, Kind.eq_of_ofCode?_null hnull]
    rfl
  exact stop_of_scalar inside hscalar

namespace Walk

variable {ε α β : Type}

/-- A walk that gives something only where the current value ends within the bytes. -/
def NeedsWhole (walk : Walk ε α) : Prop :=
  ∀ c value, c.level.stop ≤ c.bytes.size → (walk c).1 = .ok value → c.IsWhole

namespace NeedsWhole

/-- What fails gives nothing, whole or not. -/
lemma fail {error : ε} : NeedsWhole (fail error : Walk ε α) :=
  nofun

/-- A scalar is read only from a value that ends within the bytes. -/
lemma scalar [OfWireError ε] : NeedsWhole (scalar : Walk ε Scalar) := by
  intro c value inside h
  exact Cursor.stop_of_scalar inside (ok_of_look h)

/-- A value is entered only if it ends within the bytes. -/
lemma inside [OfWireError ε] {walk : Walk ε α} : NeedsWhole (inside walk) := by
  intro c value _ h
  obtain ⟨inner, henter, _⟩ := exists_of_inside h
  obtain ⟨_, _, hstop, hsize, _⟩ := Cursor.enter_levels henter
  exact ⟨_, hstop, hsize⟩

/-- The step to the next sibling needs no more than the walk before it. -/
lemma thenNext {walk : Walk ε α} (h : NeedsWhole walk) : NeedsWhole (thenNext walk) :=
  fun c => h c

/-- What the first walk needs, both together need. -/
lemma bind {walk : Walk ε α} {following : α → Walk ε β} (h : NeedsWhole walk) :
    NeedsWhole (walk >>= following) := by
  intro c value inside hvalue
  obtain ⟨first, _, hw, _⟩ := exists_of_bind hvalue
  exact h c first inside (by rw [hw])

/-- What follows a walk that does not move needs the value that this one started at. -/
lemma after {walk : Walk ε α} {following : α → Walk ε β} (rests : Rests walk)
    (h : ∀ value, NeedsWhole (following value)) : NeedsWhole (walk >>= following) := by
  intro c value inside hvalue
  obtain ⟨first, _, hfollowing⟩ := exists_of_rests rests hvalue
  exact h first c value inside hfollowing

/-- Null is whole, so only what is done for other kinds matters. -/
lemma of_kind [OfWireError ε] {following : Kind → Walk ε β}
    (h : ∀ found, found ≠ .null → NeedsWhole (following found)) :
    NeedsWhole (kind >>= following) := by
  intro c value inside hvalue
  obtain ⟨found, hfound, hfollowing⟩ := exists_of_look hvalue
  by_cases null : found = .null
  · exact Cursor.isWhole_of_kind_null inside (null ▸ hfound)
  · exact h found null c value inside hfollowing

end NeedsWhole

end Walk

open Walk (Rests NeedsWhole)

namespace Decoder

variable {decoder : Decoder} {child : Reading} {left : Nat} {path : Path}

/-- A scalar of a kind, or null, is read only where it is whole. -/
lemma needsWhole_readPrimitive (expected : Kind) : NeedsWhole (readPrimitive expected path) := by
  refine .after .kind fun found => ?_
  split
  · exact NeedsWhole.fail.bind
  · exact NeedsWhole.scalar.bind

/-- A list or an array of a type is read only where it is whole. -/
lemma needsWhole_readElements (element : String) :
    NeedsWhole (decoder.readElements left child element path) := by
  refine .of_kind fun found hfound => ?_
  rw [if_neg hfound]
  exact .after (built_expectKind _).rests fun _ => .after built_goDeeper.rests fun _ => .inside

/-- A value behind a descriptor is read only where both are whole. -/
lemma needsWhole_readDeclared (type : TypeDef) :
    NeedsWhole (decoder.readDeclared left child type path) := by
  refine .of_kind fun found hfound => ?_
  split
  · exact absurd rfl hfound
  · exact .after built_goDeeper.rests fun _ => .inside
  · exact .fail

/-- A value without a descriptor is read only where it is whole. -/
lemma needsWhole_readPlain : NeedsWhole (decoder.readPlain left child path) := by
  refine .after .kind fun found => ?_
  split
  · exact .after built_goDeeper.rests fun _ => .inside
  · exact .after built_goDeeper.rests fun _ => .inside
  · exact .after built_goDeeper.rests fun _ => .inside
  · exact NeedsWhole.scalar.bind

/-- So is a value that is read as its descriptor tells. -/
lemma needsWhole_readFound (descriptor? : Option Scalar) :
    NeedsWhole (decoder.readFound left child path descriptor?) := by
  unfold readFound
  split
  · exact needsWhole_readPlain
  · split
    · exact needsWhole_readDeclared _
    · split
      · exact .fail
      · exact .fail

/-- No part of a value is decoded. -/
lemma needsWhole_readValue (left : Nat) (name : String) (path : Path) :
    NeedsWhole (decoder.readValue left name path) := by
  cases left with
  | zero => exact .fail
  | succ left =>
    change NeedsWhole (decoder.readUse left (decoder.readValue left) name path)
    unfold readUse
    split
    · exact .after .descriptor? needsWhole_readFound
    · exact needsWhole_readPrimitive _
    · exact needsWhole_readDeclared _
    · exact needsWhole_readElements _
    · exact .fail

end Decoder

/-- An envelope is read only where it is whole. -/
lemma Envelope.needsWhole_read : NeedsWhole Envelope.read := by
  refine .after .kind fun found => ?_
  split
  · exact NeedsWhole.fail.bind
  · exact .inside

/-! ## Parts of one element -/

/-- The bytes are one element, as far as its extent tells. -/
def Wire.IsElement (bytes : List UInt8) : Prop :=
  elementStop bytes.toByteArray 0 = .ok bytes.length

variable {element part : List UInt8}

/-- A prefix of the bytes stands at their start. -/
lemma Wire.holds_of_prefix (cut : part <+: element) : Holds element.toByteArray 0 part := by
  obtain ⟨rest, rfl⟩ := cut
  exact ⟨[], rest, by rw [List.toList_data_toByteArray, List.nil_append], rfl⟩

/-- A proper prefix of an element ends before its value does. -/
lemma Cursor.not_isWhole_part (one : Wire.IsElement element) (cut : part <+: element)
    (proper : part ≠ element) : ¬(Cursor.ofBytes part.toByteArray).IsWhole := by
  rintro ⟨stop, hstop, covered⟩
  have within : Holds element.toByteArray 0 part.toByteArray.data.toList := by
    rw [List.toList_data_toByteArray]
    exact Wire.holds_of_prefix cut
  have enough : part.toByteArray.size ≤ element.toByteArray.size := by
    rw [List.size_toByteArray, List.size_toByteArray]
    exact cut.length_le
  -- What the prefix tells of its extent, all of the bytes tell as well.
  have echoes : Echoes _ _ (Wire.skip part.toByteArray part.toByteArray.size 1 0)
      (Wire.skip element.toByteArray element.toByteArray.size 1 (0 + 0)) :=
    Wire.echoes_skip within enough
  change Wire.skip part.toByteArray part.toByteArray.size 1 0 = _ at hstop
  rw [hstop] at echoes
  obtain ⟨_, hall, rfl⟩ := echoes.exists_of_ok
  have same : 0 + stop = element.length := Except.ok.inj (hall.symm.trans one)
  have shorter : part.length ≠ element.length := fun h => proper (cut.eq_of_length h)
  have hle := cut.length_le
  change stop ≤ part.toByteArray.size at covered
  rw [List.size_toByteArray] at covered
  omega

/-- A walk that needs whole values fails on a proper prefix of an element. -/
lemma Walk.NeedsWhole.error_of_part {ε α : Type} {walk : Walk ε α} (h : NeedsWhole walk)
    (one : Wire.IsElement element) (cut : part <+: element) (proper : part ≠ element) :
    ∃ error, (walk (.ofBytes part.toByteArray)).1 = .error error := by
  cases hwalk : (walk (.ofBytes part.toByteArray)).1 with
  | error error => exact ⟨error, rfl⟩
  | ok value =>
    have whole := h _ value (Nat.le_refl _) hwalk
    exact absurd whole (Cursor.not_isWhole_part one cut proper)

namespace Envelope

/-- Bytes that are shorter than the mark of a header have none. -/
lemma headerLength_of_lt (h : part.length < magic.length) :
    headerLength part.toByteArray = .ok 0 := by
  have hmagic : (part.toByteArray.extract 0 magic.length).data.toList ≠ magic := by
    rw [toList_extract]
    intro hmagic
    have hlength := congrArg List.length hmagic
    rw [List.length_take, List.drop_zero] at hlength
    omega
  rw [headerLength, if_neg hmagic]

/-- No element starts with a header: the code at its start is that of a number of two bytes. -/
lemma headerLength_of_isElement (one : Wire.IsElement element) (cut : part <+: element) :
    headerLength part.toByteArray = .ok 0 := by
  cases part with
  | nil => exact headerLength_of_lt (by decide)
  | cons byte rest =>
    by_cases letter : byte = 0x63
    · subst letter
      have first := (Wire.holds_of_prefix cut).byteAt
      have three := Wire.elementStop_of_length first (by decide) rfl
      have hlength : element.length = 3 := Except.ok.inj (one.symm.trans three)
      refine headerLength_of_lt (Nat.lt_of_le_of_lt cut.length_le ?_)
      rw [hlength]
      decide
    · exact headerLength_bare letter

/-- A header that is cut off, or that nothing follows, is not taken for an envelope. -/
lemma ofBytes_magic_part (cut : part <+: magic) :
    ∃ error, ofBytes part.toByteArray = .error error := by
  have refused : ∀ length ≤ magic.length, (ofBytes (magic.take length).toByteArray).isOk = false := by
    decide
  have hpart := refused part.length cut.length_le
  rw [← List.prefix_iff_eq_take.1 cut] at hpart
  cases hbytes : ofBytes part.toByteArray with
  | error error => exact ⟨error, rfl⟩
  | ok envelope =>
    rw [hbytes] at hpart
    cases hpart

/-- A part of an envelope, with or without a header before it, is refused. -/
lemma ofBytes_part (one : Wire.IsElement element) {blob : List UInt8}
    (form : blob = element ∨ blob = headed element) (cut : part <+: blob) (proper : part ≠ blob) :
    ∃ error, ofBytes part.toByteArray = .error error := by
  rcases form with rfl | rfl
  · rw [ofBytes_of_length (headerLength_of_isElement one cut), List.drop_zero]
    exact needsWhole_read.error_of_part one cut proper
  · rcases List.prefix_or_prefix_of_prefix cut (List.prefix_append _ _) with short | ⟨rest, rfl⟩
    · exact ofBytes_magic_part short
    · rw [headed, List.prefix_append_right_inj] at cut
      rcases List.prefix_cons_iff.1 cut with rfl | ⟨rest, rfl, inner⟩
      · rw [List.append_nil]
        exact ofBytes_magic_part (List.prefix_refl _)
      · change ∃ error, ofBytes (headed rest).toByteArray = .error error
        have body : (headed rest).drop (magic.length + 1) = rest := rfl
        rw [ofBytes_of_length (headerLength_headed rest), body]
        refine needsWhole_read.error_of_part one inner fun same => proper ?_
        rw [same]
        rfl

end Envelope

/-- Bytes that are one element are not decoded when some are cut off, whatever they hold, and neither
are blobs that are such an element, or a header and such an element. -/
theorem refuses_part (one : Wire.IsElement element) :
    (∀ part, part <+: element → part ≠ element → ∀ (decoder : Decoder) (type : String),
      (∃ error, (decoder.decode type (.ofBytes part.toByteArray)).1 = .error error) ∧
      ∃ error, (decoder.decodeAny (.ofBytes part.toByteArray)).1 = .error error) ∧
    (∀ blob, blob = element ∨ blob = Envelope.headed element →
      ∀ part, part <+: blob → part ≠ blob → ∀ options,
        (∃ error, Blob.ofBytes part.toByteArray options = .error error) ∧
        ∃ error, Blob.schemaOfBytes part.toByteArray = .error error) := by
  refine ⟨fun part cut proper decoder type => ⟨?_, ?_⟩, fun blob form part cut proper options => ?_⟩
  · exact (Decoder.needsWhole_readValue _ _ _).thenNext.error_of_part one cut proper
  · exact (Decoder.needsWhole_readValue _ _ _).thenNext.error_of_part one cut proper
  · obtain ⟨error, herror⟩ := Envelope.ofBytes_part one form cut proper
    rw [Blob.ofBytes, Blob.schemaOfBytes, herror]
    exact ⟨⟨error, rfl⟩, error, rfl⟩

/-- Without its last byte, the sample is refused in each of these ways. -/
theorem refuses_sampleEnvelope_part : Wire.IsElement sampleEnvelope.bytes ∧
    (∃ error, (chainDecoder.decodeAny
      (.ofBytes sampleEnvelope.bytes.dropLast.toByteArray)).1 = .error error) ∧
    (∃ error, Blob.ofBytes (Envelope.headed sampleEnvelope.bytes).dropLast.toByteArray {} =
      .error error) ∧
    ∃ error, Blob.schemaOfBytes (Envelope.headed sampleEnvelope.bytes).dropLast.toByteArray =
      .error error := by
  have one : Wire.IsElement sampleEnvelope.bytes := sampleEnvelope.elementStop_bytes
  have shorter {bytes : List UInt8} (h : bytes ≠ []) : bytes.dropLast ≠ bytes := by
    intro same
    have hlength := congrArg List.length same
    have := List.length_pos_iff.2 h
    rw [List.length_dropLast] at hlength
    omega
  obtain ⟨decoding, blobs⟩ := refuses_part one
  have part := blobs _ (.inr rfl) _ (List.dropLast_prefix _) (shorter (List.cons_ne_nil _ _)) {}
  have decoded := decoding _ (List.dropLast_prefix _) (shorter (List.cons_ne_nil _ _)) chainDecoder "*"
  exact ⟨one, decoded.2, part⟩

end AmqpBlob
