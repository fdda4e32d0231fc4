import AmqpBlob.Proofs.Machine
import AmqpBlob.Proofs.Truncation

/-!
# Scalars and their extents

A cursor reads a scalar and passes over it by two computations. They agree wherever moves lead: a scalar
that is read ends where its extent does, within the bytes, and is made of nothing but the format code
and the bytes of that extent; and one that is not read is cut off just if its extent is, or else has
bytes that stand for none.
-/

namespace AmqpBlob

open Relation (ReflTransGen)
open Wire (Holds)
open WireError (Truncated Meaningless)

namespace Cursor

variable {c d : Cursor} {kind : Kind} {value : Scalar} {bytes : ByteArray} {count : Nat}
  {code : UInt8} {data : Nat} {part : List UInt8}

/-- All levels end within the bytes. -/
lemma within_of_moves (moves : ReflTransGen Move (starting bytes count) c) :
    Within (fun _ => True) bytes c := by
  induction moves with
  | refl =>
    refine ⟨rfl, List.forall_mem_singleton.2 (Nat.le_refl _), fun _ => ?_⟩
    exact List.pairwise_singleton _ _
  | tail _ move ih =>
    cases move with
    | next => exact ih.next
    | enter henter => exact ih.enter trivial henter
    | leave hleave => exact ih.leave hleave

/-- On the same bytes, in levels that share the same format code or none, cursors find the same format
code, before the same data. -/
lemma code_of_holds (holds : Holds c.bytes c.here.offset part)
    (holds' : Holds d.bytes d.here.offset part) (current : d.hasCurrent = true)
    (same : d.level.element? = c.level.element?) (hcode : c.code = .ok (code, data))
    (covered : data ≤ c.here.offset + part.length) :
    ∃ format content, part = format ++ content ∧ data = c.here.offset + format.length ∧
      d.code = .ok (code, d.here.offset + format.length) := by
  rw [Cursor.code, if_pos current, same]
  obtain ⟨_, ⟨shared, rfl⟩ | ⟨own, hbyte, rfl⟩⟩ := cases_of_code hcode
  · rw [shared]
    exact ⟨[], part, rfl, rfl, rfl⟩
  · rw [own]
    cases part with
    | nil =>
      rw [List.length_nil] at covered
      omega
    | cons first content =>
      rw [holds.byteAt] at hbyte
      cases hbyte
      refine ⟨[code], content, rfl, rfl, ?_⟩
      dsimp only
      rw [holds'.byteAt]
      rfl

/-- Where the bytes of its extent stand, a scalar is read again. -/
lemma scalar_of_holds (inside : c.level.stop ≤ c.bytes.size)
    (hstop : c.stop = .ok (c.here.offset + part.length)) (holds : Holds c.bytes c.here.offset part)
    (holds' : Holds d.bytes d.here.offset part) (current : d.hasCurrent = true)
    (same : d.level.element? = c.level.element?) (h : c.scalar = .ok value) :
    d.scalar = .ok value := by
  obtain ⟨code, data, length, hcode, hscalar, hlength, hstop', _⟩ := data_of_scalar inside h
  have hend : data + length = c.here.offset + part.length := Except.ok.inj (hstop'.symm.trans hstop)
  obtain ⟨format, content, rfl, rfl, hcode'⟩ :=
    code_of_holds holds holds' current same hcode (by omega)
  have hcontent : length = content.length := by
    rw [List.length_append] at hend
    omega
  rw [hcontent] at hlength
  have echoes : Echoes (fun _ => False) Eq
      (Wire.scalarAt c.bytes c.here.offset code (c.here.offset + format.length))
      (Wire.scalarAt d.bytes d.here.offset code (d.here.offset + format.length)) :=
    Wire.echoes_sameData holds.right holds'.right hlength
  rw [hscalar] at echoes
  obtain ⟨_, hvalue, rfl⟩ := echoes.exists_of_ok
  rw [Cursor.scalar, hcode']
  exact hvalue

/-- How a value of a scalar kind is read, and the extent that it has. -/
lemma scalarRead_of_kind (hkind : c.kind = .ok kind) (scalar : kind.isCompound = false) :
    ∃ code data, c.code = .ok (code, data) ∧
      c.stop = (Wire.dataLength c.bytes code data).map (data + ·) ∧
      Wire.ScalarRead c.bytes data c.scalar (Wire.dataLength c.bytes code data) := by
  obtain ⟨code, data, hcode, hfound⟩ := exists_of_kind hkind
  have plain : code ≠ Wire.describedCode := by
    rintro rfl
    cases hfound
    cases scalar
  have hscalar : c.scalar = Wire.scalarAt c.bytes c.here.offset code data := by
    rw [Cursor.scalar, hcode]
    rfl
  refine ⟨code, data, hcode, stop_of_code hcode plain, ?_⟩
  rw [hscalar]
  exact Wire.scalarRead_of_kind hfound scalar

/-- A scalar is cut off just if its extent does not end within the bytes. -/
lemma uncut_scalar_iff (inside : c.level.stop ≤ c.bytes.size) (hkind : c.kind = .ok kind)
    (scalar : kind.isCompound = false) : Uncut c.scalar ↔ c.IsWhole := by
  obtain ⟨code, data, hcode, hstop, read⟩ := scalarRead_of_kind hkind scalar
  constructor
  · intro uncut
    obtain ⟨length, hlength, hsize⟩ := read.covered (data_le_of_code inside hcode) uncut
    rw [hlength] at hstop
    exact ⟨data + length, hstop, hsize⟩
  · rintro ⟨stop, hwhole, hsize⟩
    rw [hstop] at hwhole
    cases hlength : Wire.dataLength c.bytes code data with
    | error fault =>
      rw [hlength] at hwhole
      cases hwhole
    | ok length =>
      rw [hlength] at hwhole
      cases hwhole
      exact read.uncut hlength hsize

/-- Wherever moves lead, a scalar that is read has an extent within the bytes, and is read as well
wherever the bytes of this extent stand, in levels that share the same format code or none. And a value
of a scalar kind is read unless its bytes are cut off or stand for none: bytes that stand for none are
there, and bytes are cut off just if no extent is found or it does not end within the bytes. -/
theorem scalar_of_extent (moves : ReflTransGen Move (starting bytes count) c) :
    (∀ value, c.scalar = .ok value → ∃ stop, c.stop = .ok stop ∧ stop ≤ bytes.size ∧
      ∀ d : Cursor, d.hasCurrent = true → d.level.element? = c.level.element? →
        Holds d.bytes d.here.offset (bytes.extract c.here.offset stop).data.toList →
        d.scalar = .ok value) ∧
    ∀ kind, c.kind = .ok kind → kind.isCompound = false →
      (∀ fault, c.scalar = .error fault → fault.Truncated ∨ fault.Meaningless ∧ c.IsWhole) ∧
      ((∃ fault, fault.Truncated ∧ c.scalar = .error fault) ↔ ¬c.IsWhole) := by
  have within := within_of_moves moves
  obtain rfl := within.sameBytes
  have inside := (List.forall_mem_cons.1 within.levels).1
  refine ⟨fun value h => ?_, fun kind hkind scalar => ?_⟩
  · obtain ⟨stop, hstop, hsize⟩ := stop_of_scalar inside h
    obtain ⟨length, rfl⟩ := Nat.exists_eq_add_of_le (le_stop hstop)
    refine ⟨_, hstop, hsize, fun d current same holds' => ?_⟩
    obtain ⟨holds, hlength⟩ := Wire.holds_extract hsize
    rw [← hlength] at hstop
    exact scalar_of_holds inside hstop holds holds' current same h
  · have whole := uncut_scalar_iff inside hkind scalar
    obtain ⟨_, _, _, _, read⟩ := scalarRead_of_kind hkind scalar
    refine ⟨fun fault hfault => ?_, ?_⟩
    · rcases read.readable fault hfault with truncated | meaningless
      · exact .inl truncated
      · refine .inr ⟨meaningless, whole.1 ?_⟩
        rw [hfault]
        exact .error meaningless.not_truncated
    · rw [← not_uncut_iff, whole]

/-- An array of two texts, of which the second one is no UTF-8, and behind it a text that is cut off. -/
def threeTexts : ByteArray :=
  ⟨#[0xe0, 0x07, 0x02, 0xa1, 0x01, 0x61, 0x02, 0xff, 0xfe, 0xa1, 0x05, 0x62]⟩

/-- The cursor on a text of the array. -/
def arrayText (offset index : Nat) : Cursor where
  bytes := threeTexts
  here := ⟨offset, index⟩
  level := ⟨⟨0, 0⟩, 9, 2, some 0xa1⟩
  outer := [⟨⟨0, 0⟩, 12, 12, none⟩]

/-- The cursor on the text that is cut off. -/
def cutText : Cursor where
  bytes := threeTexts
  here := ⟨9, 1⟩
  level := ⟨⟨0, 0⟩, 12, 12, none⟩
  outer := []

/-- The cursor on the first text, if there is nothing else. -/
def loneText : Cursor where
  bytes := ⟨#[0x01, 0x61]⟩
  here := ⟨0, 0⟩
  level := ⟨⟨0, 0⟩, 2, 1, some 0xa1⟩
  outer := []

/-- The first text is read, and so without the array around it; the second one is whole but no text,
and the last one is cut off. -/
theorem scalar_of_extent_threeTexts :
    (arrayText 4 0).scalar = .ok (.string "a") ∧ loneText.scalar = .ok (.string "a") ∧
    (arrayText 6 1).scalar = .error (.invalidUtf8 6) ∧ (arrayText 6 1).IsWhole ∧
    ¬cutText.IsWhole ∧ ∃ fault, fault.Truncated ∧ cutText.scalar = .error fault := by
  have start : ReflTransGen Move (starting threeTexts 12) (starting threeTexts 12) := .refl
  have first : ReflTransGen Move (starting threeTexts 12) (arrayText 4 0) := start.tail (.enter rfl)
  have second : ReflTransGen Move (starting threeTexts 12) (arrayText 6 1) := first.tail .next
  have last : ReflTransGen Move (starting threeTexts 12) cutText := start.tail .next
  have hfirst : (arrayText 4 0).scalar = .ok (.string "a") := by decide
  have hsecond : (arrayText 6 1).scalar = .error (.invalidUtf8 6) := by decide
  have hlast : cutText.scalar = .error (.truncated 11 5) := by decide
  obtain ⟨stop, hstop, _, again⟩ := (scalar_of_extent first).1 _ hfirst
  obtain rfl : 6 = stop := Except.ok.inj hstop
  have whole := ((scalar_of_extent second).2 .string rfl rfl).1 _ hsecond
  have cut := ((scalar_of_extent last).2 .string rfl rfl).2
  refine ⟨hfirst, again loneText rfl rfl ⟨[], [], rfl, rfl⟩, hsecond, ?_, ?_, ?_⟩
  · rcases whole with ⟨_, _, truncated⟩ | ⟨_, whole⟩
    · cases truncated
    · exact whole
  · exact cut.1 ⟨_, ⟨11, 5, rfl⟩, hlast⟩
  · exact ⟨_, ⟨11, 5, rfl⟩, hlast⟩

end Cursor

end AmqpBlob
