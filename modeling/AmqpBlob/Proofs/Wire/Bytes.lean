import AmqpBlob.Wire.Bytes
import Mathlib.Algebra.Group.Nat.Defs
import Mathlib.Tactic.Lemma

/-!
# Parts of encoded bytes

`Holds bytes offset part` says that a list of bytes stands in the encoded bytes at an offset, whatever
stands around it, and what bounded reads then give. `word` writes a number as the bytes that
`bigEndian` reads. A read that succeeds stays within the bytes, and one that is cut off passes their end.
-/

namespace AmqpBlob.Wire

/-- A number as bytes to the base 256, `width` of them and the highest one first. -/
def word : (width number : Nat) → List UInt8
  | 0, _ => []
  | width + 1, number => word width (number / 256) ++ [UInt8.ofNat number]

/-- A word has the width that was asked for. -/
@[simp]
lemma length_word (width number : Nat) : (word width number).length = width := by
  induction width generalizing number with
  | zero => rfl
  | succ width ih => simp only [word, List.length_append, ih, List.length_singleton]

/-- One more byte at the end is one more digit to the base 256. -/
lemma bigEndian_append_singleton (bytes : List UInt8) (byte : UInt8) :
    bigEndian (bytes ++ [byte]) = bigEndian bytes * 256 + byte.toNat := by
  simp only [bigEndian, List.foldl_append, List.foldl_cons, List.foldl_nil]

/-- A number that fits its width is read back from its bytes. -/
lemma bigEndian_word {width number : Nat} (h : number < 256 ^ width) :
    bigEndian (word width number) = number := by
  induction width generalizing number with
  | zero =>
    have : number = 0 := by simpa using h
    rw [this]
    rfl
  | succ width ih =>
    have hdiv : number / 256 < 256 ^ width := by
      rw [Nat.pow_succ] at h
      exact Nat.div_lt_of_lt_mul (by omega)
    have hlast : (UInt8.ofNat number).toNat = number % 256 := rfl
    rw [word, bigEndian_append_singleton, ih hdiv, hlast]
    omega

/-- The part stands in the bytes from the offset on. -/
def Holds (bytes : ByteArray) (offset : Nat) (part : List UInt8) : Prop :=
  ∃ before after, bytes.data.toList = before ++ part ++ after ∧ before.length = offset

variable {bytes : ByteArray} {offset : Nat} {first second part : List UInt8} {byte : UInt8}

/-- The beginning of a part stands where the part does. -/
lemma Holds.left (h : Holds bytes offset (first ++ second)) : Holds bytes offset first := by
  obtain ⟨before, after, hbytes, hlength⟩ := h
  refine ⟨before, second ++ after, ?_, hlength⟩
  rw [hbytes]
  simp only [List.append_assoc]

/-- The end of a part stands behind its beginning. -/
lemma Holds.right (h : Holds bytes offset (first ++ second)) :
    Holds bytes (offset + first.length) second := by
  obtain ⟨before, after, hbytes, hlength⟩ := h
  refine ⟨before ++ first, after, ?_, ?_⟩
  · rw [hbytes]
    simp only [List.append_assoc]
  · rw [List.length_append, hlength]

/-- What follows the first byte of a part stands one byte further. -/
lemma Holds.tail (h : Holds bytes offset (byte :: part)) : Holds bytes (offset + 1) part := by
  have happend : Holds bytes offset ([byte] ++ part) := h
  exact happend.right

/-- A part lies within the bytes. -/
lemma Holds.le_size (h : Holds bytes offset part) : offset + part.length ≤ bytes.size := by
  obtain ⟨before, after, hbytes, hlength⟩ := h
  have hsize : bytes.size = bytes.data.toList.length := rfl
  rw [hsize, hbytes, List.length_append, List.length_append]
  omega

/-- The first byte of a part is read where the part stands. -/
lemma Holds.byteAt (h : Holds bytes offset (byte :: part)) : byteAt bytes offset = .ok byte := by
  have hsize := h.le_size
  rw [List.length_cons] at hsize
  obtain ⟨before, after, hbytes, hlength⟩ := h
  have inside : offset < bytes.size := by omega
  have hget : bytes[offset] = byte := by
    rw [ByteArray.getElem_eq_getElem_data, ← Array.getElem_toList]
    rw [List.append_assoc, List.cons_append] at hbytes
    exact List.getElem_of_append hbytes hlength
  rw [Wire.byteAt, dif_pos inside, hget]

/-- A part is read where it stands. -/
lemma Holds.sliceAt (h : Holds bytes offset part) :
    sliceAt bytes offset part.length = .ok part.toByteArray := by
  have inside := h.le_size
  obtain ⟨before, after, hbytes, hlength⟩ := h
  have hslice : bytes.extract offset (offset + part.length) = part.toByteArray := by
    apply ByteArray.ext
    apply Array.toList_inj.1
    rw [ByteArray.data_extract, Array.toList_extract, hbytes, List.extract_eq_drop_take',
      List.toList_data_toByteArray, ← hlength, List.append_assoc, List.take_append, List.drop_append]
    simp
  rw [Wire.sliceAt, if_pos inside, hslice]

/-- The word that was written at an offset is the word that is read there. -/
lemma Holds.wordAt {width number : Nat} (h : Holds bytes offset (word width number))
    (hnumber : number < 256 ^ width) : wordAt bytes offset width = .ok number := by
  have hslice := h.sliceAt
  rw [length_word] at hslice
  rw [Wire.wordAt, hslice]
  change Except.ok (bigEndian (word width number).toByteArray.data.toList) = _
  rw [List.toList_data_toByteArray, bigEndian_word hnumber]

/-! ## Reads within bounds -/

/-- A read that follows another one succeeds only behind that one. -/
lemma exists_of_bind {α β : Type} {read : Except WireError α} {following : α → Except WireError β}
    {value : β} (h : read >>= following = .ok value) :
    ∃ first, read = .ok first ∧ following first = .ok value := by
  cases hr : read with
  | error fault =>
    rw [hr] at h
    cases h
  | ok first =>
    rw [hr] at h
    exact ⟨first, rfl, h⟩

/-- If a read that follows another one fails, it is the one or the other that does. -/
lemma error_of_bind {α β : Type} {read : Except WireError α} {following : α → Except WireError β}
    {fault : WireError} (h : read >>= following = .error fault) :
    read = .error fault ∨ ∃ first, read = .ok first ∧ following first = .error fault := by
  cases hr : read with
  | error cause =>
    rw [hr] at h
    cases h
    exact .inl rfl
  | ok first =>
    rw [hr] at h
    exact .inr ⟨first, rfl, h⟩

/-- A byte that is read is one of the bytes. -/
lemma lt_size_of_byteAt {byte : UInt8} (h : byteAt bytes offset = .ok byte) : offset < bytes.size := by
  rw [byteAt] at h
  split at h
  · assumption
  · cases h

/-- Bytes that are read end within the bytes. -/
lemma le_size_of_sliceAt {length : Nat} {slice : ByteArray}
    (h : sliceAt bytes offset length = .ok slice) : offset + length ≤ bytes.size := by
  rw [sliceAt] at h
  split at h
  · assumption
  · cases h

/-- A word that is read ends within the bytes. -/
lemma le_size_of_wordAt {width word : Nat} (h : wordAt bytes offset width = .ok word) :
    offset + width ≤ bytes.size := by
  obtain ⟨slice, hslice, _⟩ := exists_of_bind h
  exact le_size_of_sliceAt hslice

/-- A byte that is not read would stand behind the bytes. -/
lemma size_le_of_byteAt {fault : WireError} (h : byteAt bytes offset = .error fault) :
    bytes.size ≤ offset := by
  rw [byteAt] at h
  split at h
  · cases h
  · omega

/-- A word that is not read would pass the end of the bytes. -/
lemma size_lt_of_wordAt {fault : WireError} {width : Nat} (h : wordAt bytes offset width = .error fault) :
    bytes.size < offset + width := by
  rw [wordAt, sliceAt] at h
  split at h
  · cases h
  · omega

end AmqpBlob.Wire
