import AmqpBlob.Proofs.Wire.Scalar
import AmqpBlob.Proofs.Wire.Scan

/-!
# Well-formed data

`Formed` says of a format code and the data behind it that the data are as long as the code tells, with
the sizes and counts in them, and whole where they hold other data. It leaves open what a scalar is, and
takes arrays of any elements: also those whose elements have no data, and those of described values,
which are not entered.

The two main statements say how far well-formed data reach: `dataLength_formed` for the data behind a
format code, `elementStop_formed` for the format code with them.
-/

namespace AmqpBlob

open Wire (Holds SizeWidth Fits sized word describedCode)

/-- A format code with the data behind it. -/
structure Datum where
  code : UInt8
  /-- The data behind the format code. -/
  data : List UInt8

namespace Datum

/-- The bytes of a datum: where a format code is shared, it is not among them. -/
def bytes (shared? : Option UInt8) (datum : Datum) : List UInt8 :=
  match shared? with
  | none => datum.code :: datum.data
  | some _ => datum.data

/-- The bytes of data that follow each other. -/
def content (shared? : Option UInt8) (items : List Datum) : List UInt8 :=
  items.flatMap (bytes shared?)

/-- No data have no bytes. -/
@[simp]
lemma content_nil (shared? : Option UInt8) : content shared? [] = [] :=
  rfl

/-- The bytes of the first datum come first. -/
@[simp]
lemma content_cons (shared? : Option UInt8) (datum : Datum) (rest : List Datum) :
    content shared? (datum :: rest) = datum.bytes shared? ++ content shared? rest :=
  rfl

/-- Data that take a byte or more each are no more than their bytes. -/
lemma length_le_content {shared? : Option UInt8} {items : List Datum}
    (h : ∀ item ∈ items, 0 < (item.bytes shared?).length) :
    items.length ≤ (content shared? items).length := by
  induction items with
  | nil => exact Nat.le_refl _
  | cons item rest ih =>
    obtain ⟨hitem, hrest⟩ := List.forall_mem_cons.1 h
    have := ih hrest
    rw [List.length_cons, content_cons, List.length_append]
    omega

end Datum

open Datum (content)

/-- What is counted, behind the count and the size of both. -/
def compound (width : SizeWidth) (count : Nat) (body : List UInt8) : List UInt8 :=
  sized width (word width.bytes count ++ body)

/-- Count and size can be written in the width. -/
structure FitsCounted (width : SizeWidth) (count : Nat) (body : List UInt8) : Prop where
  count_lt : count < 256 ^ width.bytes
  size_lt : Fits width (word width.bytes count ++ body)

/-- The number of bytes behind a format code that fixes it. -/
def fixedWidth? (code : UInt8) : Option Nat :=
  match code.toNat / 16 with
  | 0x4 => some 0
  | 0x5 => some 1
  | 0x6 => some 2
  | 0x7 => some 4
  | 0x8 => some 8
  | 0x9 => some 16
  | _ => none

/-- The data may stand behind the format code. -/
inductive Formed : Datum → Prop where
  | fixed {code : UInt8} {data : List UInt8} :
    fixedWidth? code = some data.length →
    Formed ⟨code, data⟩
  | payload {width : SizeWidth} {narrowCode wideCode : UInt8} {payload : List UInt8} :
    narrowCode.toNat / 16 = 0xa →
    wideCode.toNat / 16 = 0xb →
    Fits width payload →
    Formed ⟨width.code narrowCode wideCode, sized width payload⟩
  | described {descriptor value : Datum} :
    Formed descriptor →
    Formed value →
    Formed ⟨describedCode, content none [descriptor, value]⟩
  | list {width : SizeWidth} {items : List Datum} :
    (∀ item ∈ items, Formed item) →
    FitsCounted width items.length (content none items) →
    Formed ⟨width.code 0xc0 0xd0, compound width items.length (content none items)⟩
  | map {width : SizeWidth} {items : List Datum} :
    (∀ item ∈ items, Formed item) →
    FitsCounted width items.length (content none items) →
    Formed ⟨width.code 0xc1 0xd1, compound width items.length (content none items)⟩
  | array {width : SizeWidth} {shared : UInt8} {items : List Datum} :
    shared ≠ describedCode →
    (∀ item ∈ items, Formed item) →
    (∀ item ∈ items, item.code = shared) →
    FitsCounted width items.length (shared :: content (some shared) items) →
    Formed ⟨width.code 0xe0 0xf0,
      compound width items.length (shared :: content (some shared) items)⟩
  | describedArray {width : SizeWidth} {count : Nat} {rest : List UInt8} :
    FitsCounted width count (describedCode :: rest) →
    Formed ⟨width.code 0xe0 0xf0, compound width count (describedCode :: rest)⟩

namespace Wire

variable {datum : Datum} {bytes : ByteArray} {start : Nat}

/-- Size and count take twice the width. -/
lemma length_compound (width : SizeWidth) (count : Nat) (body : List UInt8) :
    (compound width count body).length = 2 * width.bytes + body.length := by
  rw [compound, sized, List.length_append, List.length_append, length_word, length_word]
  omega

/-- Data behind a code that fixes their number. -/
lemma dataLength_of_fixedWidth {code : UInt8} {length : Nat} (h : fixedWidth? code = some length) :
    dataLength bytes code start = .ok length := by
  unfold fixedWidth? at h
  split at h
  case h_7 => cases h
  all_goals
    rename_i hcode
    cases h
    simp only [dataLength, hcode]

/-- The format code, with the sizes behind it, tells the extent of the data. -/
lemma dataLength_formed (h : Formed datum) (plain : datum.code ≠ describedCode)
    (holds : Holds bytes start datum.data) :
    dataLength bytes datum.code start = .ok datum.data.length := by
  cases h with
  | fixed hwidth => exact dataLength_of_fixedWidth hwidth
  | payload hnarrow hwide fits =>
    exact dataLength_sized (.inl hnarrow) (.inl hwide) fits holds
  | described => exact absurd rfl plain
  | list _ fits | map _ fits | array _ _ _ fits | describedArray fits =>
    exact dataLength_sized (by decide) (by decide) fits.size_lt holds

/-- With its size before it, even an empty payload takes a byte. -/
lemma length_pos_of_sized (width : SizeWidth) (payload : List UInt8) :
    0 < (sized width payload).length := by
  rw [sized, List.length_append, length_word]
  cases width
  all_goals
    simp only [SizeWidth.bytes]
    omega

/-- Behind a format code whose high half is `0x4` there are no data. -/
lemma data_eq_nil_of_formed (h : Formed datum) (narrow : datum.code.toNat / 16 = 0x4) :
    datum.data = [] := by
  cases h with
  | fixed hwidth =>
    simp only [fixedWidth?, narrow] at hwidth
    exact List.length_eq_zero_iff.1 (Option.some.inj hwidth).symm
  | described => exact absurd narrow (show ¬describedCode.toNat / 16 = 0x4 by decide)
  | @payload width _ _ _ hnarrow hwide =>
    cases width
    · exact absurd (hnarrow.symm.trans narrow) (by decide)
    · exact absurd (hwide.symm.trans narrow) (by decide)
  | @list width | @map width | @array width | @describedArray width =>
    dsimp only at narrow
    cases width <;> exact absurd narrow (by decide)

/-- Only behind such a format code there may be no data. -/
lemma length_pos_of_formed (h : Formed datum) (wide : datum.code.toNat / 16 ≠ 0x4) :
    0 < datum.data.length := by
  cases h with
  | @fixed code data hwidth =>
    unfold fixedWidth? at hwidth
    split at hwidth
    case h_1 hcode => exact absurd hcode wide
    case h_7 => cases hwidth
    all_goals
      have := Option.some.inj hwidth
      dsimp only
      omega
  | described =>
    rw [Datum.content_cons, List.length_append, Datum.bytes, List.length_cons]
    omega
  | payload | list | map | array | describedArray => exact length_pos_of_sized _ _

/-- Neither of two codes is that of described values, whichever width tells. -/
lemma code_ne_described {width : SizeWidth} {narrowCode wideCode : UInt8}
    (hnarrow : narrowCode ≠ describedCode) (hwide : wideCode ≠ describedCode) :
    width.code narrowCode wideCode ≠ describedCode := by
  cases width
  · exact hnarrow
  · exact hwide

/-- Well-formed data that are not described end where their length tells. -/
lemma elementStop_undescribed (h : Formed datum) (plain : datum.code ≠ describedCode)
    (holds : Holds bytes start (datum.code :: datum.data)) :
    elementStop bytes start = .ok (start + (datum.code :: datum.data).length) := by
  rw [elementStop_of_length holds.byteAt plain (dataLength_formed h plain holds.tail),
    List.length_cons, Nat.add_assoc, Nat.add_comm 1]

/-- The extent of well-formed data is found from their first byte. -/
lemma elementStop_formed (h : Formed datum) (holds : Holds bytes start (datum.code :: datum.data)) :
    elementStop bytes start = .ok (start + (datum.code :: datum.data).length) := by
  -- A described value ends where its two parts do, and the hypotheses pass over them in turn.
  induction h generalizing start with
  | @described descriptor value _ _ ihd ihv =>
    have hcontent : content none [descriptor, value] =
        (descriptor.code :: descriptor.data) ++ (value.code :: value.data) := by
      rw [Datum.content_cons, Datum.content_cons, Datum.content_nil, List.append_nil]
      rfl
    rw [hcontent] at holds ⊢
    have inner := holds.tail
    rw [elementStop_described holds.byteAt, ihd inner.left]
    refine (ihv inner.right).trans ?_
    simp only [List.length_cons, List.length_append]
    congr 1
    omega
  | fixed hwidth =>
    refine elementStop_undescribed (.fixed hwidth) ?_ holds
    rintro rfl
    cases hwidth
  | payload hnarrow hwide fits =>
    refine elementStop_undescribed (.payload hnarrow hwide fits) (code_ne_described ?_ ?_) holds
    · rintro rfl
      cases hnarrow
    · rintro rfl
      cases hwide
  | list hitems fits =>
    have formed := Formed.list hitems fits
    exact elementStop_undescribed formed (code_ne_described (by decide) (by decide)) holds
  | map hitems fits =>
    have formed := Formed.map hitems fits
    exact elementStop_undescribed formed (code_ne_described (by decide) (by decide)) holds
  | array hshared hitems hcodes fits =>
    have formed := Formed.array hshared hitems hcodes fits
    exact elementStop_undescribed formed (code_ne_described (by decide) (by decide)) holds
  | describedArray fits =>
    have formed := Formed.describedArray fits
    exact elementStop_undescribed formed (code_ne_described (by decide) (by decide)) holds

end Wire

end AmqpBlob
