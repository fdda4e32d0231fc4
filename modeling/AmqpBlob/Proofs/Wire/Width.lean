import AmqpBlob.Proofs.Wire.Part
import AmqpBlob.Proofs.Wire.Scalar

/-!
# Widths of scalars

The width of a scalar's data is told twice: the high half of the format code tells it where the scalar
is passed over, and the whole code where the scalar is read. `scalarRead_or_refused` goes through the
codes once and sets the read of each beside the length that `dataLength` finds, and the rest follows
from that. A scalar is cut off only where its data do not end within the bytes (`uncut_scalarAt`, and
`ScalarRead.covered` the other way round), it is refused for nothing but its data
(`ScalarRead.readable`), and it is made of its format code and those data alone (`echoes_sameData`).
-/

namespace AmqpBlob

open WireError (Truncated)

variable {α β : Type}

/-- The result is not that data were cut off. -/
def Uncut (result : Except WireError α) : Prop :=
  ∀ fault, fault.Truncated → result ≠ .error fault

/-- A value is no fault. -/
lemma Uncut.ok (value : α) : Uncut (.ok value) := by
  rintro _ ⟨_, _, rfl⟩ ⟨⟩

/-- Another fault is not that data were cut off. -/
lemma Uncut.error {fault : WireError} (h : ¬fault.Truncated) :
    Uncut (.error fault : Except WireError α) := by
  intro _ truncated cut
  cases cut
  exact h truncated

/-- What is not cut off in any of its parts is not cut off. -/
lemma Uncut.bind {result : Except WireError α} {following : α → Except WireError β}
    (h : Uncut result) (h' : ∀ value, Uncut (following value)) : Uncut (result >>= following) := by
  intro fault truncated cut
  rcases Wire.error_of_bind cut with cut | ⟨value, _, cut⟩
  · exact h fault truncated cut
  · exact h' value fault truncated cut

/-- What is not cut off is not cut off in its first part. -/
lemma Uncut.of_bind {result : Except WireError α} {following : α → Except WireError β}
    (h : Uncut (result >>= following)) : Uncut result := by
  rintro fault truncated rfl
  exact h fault truncated rfl

/-- Data were cut off just if that is the fault. -/
lemma not_uncut_iff {result : Except WireError α} :
    ¬Uncut result ↔ ∃ fault, fault.Truncated ∧ result = .error fault := by
  simp only [Uncut, not_forall, exists_prop, ne_eq, not_not]

/-- The bytes of a scalar are there but stand for none: they are no UTF-8, or no character's number. -/
inductive WireError.Meaningless : WireError → Prop where
  | utf8 (offset : Nat) : Meaningless (.invalidUtf8 offset)
  | char (point : UInt32) : Meaningless (.invalidChar point)

open WireError (Meaningless)

/-- Bytes that stand for nothing are all there. -/
lemma WireError.Meaningless.not_truncated {fault : WireError} (h : fault.Meaningless) :
    ¬fault.Truncated := by
  rintro ⟨_, _, rfl⟩
  cases h

/-- The result is a value, unless the data are cut off or stand for none. -/
def Readable (result : Except WireError α) : Prop :=
  ∀ fault, result = .error fault → fault.Truncated ∨ fault.Meaningless

namespace Readable

/-- A value is readable. -/
lemma ok (value : α) : Readable (.ok value) :=
  nofun

/-- Data may be cut off. -/
lemma truncated (offset needed : Nat) :
    Readable (.error (.truncated offset needed) : Except WireError α) := by
  rintro _ ⟨⟩
  exact .inl ⟨offset, needed, rfl⟩

/-- Data may stand for nothing. -/
lemma meaningless {fault : WireError} (h : fault.Meaningless) :
    Readable (.error fault : Except WireError α) := by
  rintro _ ⟨⟩
  exact .inr h

/-- What is readable in each of its parts is readable. -/
lemma bind {result : Except WireError α} {following : α → Except WireError β} (h : Readable result)
    (h' : ∀ value, Readable (following value)) : Readable (result >>= following) := by
  intro fault hfault
  rcases Wire.error_of_bind hfault with hfault | ⟨value, _, hfault⟩
  · exact h fault hfault
  · exact h' value fault hfault

end Readable

namespace Wire

variable {bytes : ByteArray} {code : UInt8} {kind : Kind} {here data length : Nat}

/-! ## Data that are there -/

/-- Bytes that are there are not cut off. -/
lemma uncut_sliceAt (h : data + length ≤ bytes.size) : Uncut (sliceAt bytes data length) := by
  rw [sliceAt, if_pos h]
  exact .ok _

/-- A word whose bytes are there is not cut off. -/
lemma uncut_wordAt (h : data + length ≤ bytes.size) : Uncut (wordAt bytes data length) :=
  (uncut_sliceAt h).bind fun _ => .ok _

/-- A payload is not cut off where the length of the data is found and they are there. -/
lemma uncut_payloadAt (hcode : code.toNat / 16 = 0xa ∨ code.toNat / 16 = 0xb)
    (hlength : dataLength bytes code data = .ok length) (h : data + length ≤ bytes.size) :
    Uncut (payloadAt bytes code data) := by
  unfold payloadAt
  unfold dataLength at hlength
  rcases hcode with hcode | hcode
  · rw [if_pos hcode]
    simp only [hcode] at hlength
    obtain ⟨size, hsize, hlength⟩ := exists_of_bind hlength
    cases hlength
    rw [hsize]
    exact uncut_sliceAt (by omega)
  · rw [if_neg (by omega)]
    simp only [hcode] at hlength
    obtain ⟨size, hsize, hlength⟩ := exists_of_bind hlength
    cases hlength
    rw [hsize]
    exact uncut_sliceAt (by omega)

/-- A text is not cut off where its payload is not, though it may be no UTF-8. -/
lemma uncut_textAt (hcode : code.toNat / 16 = 0xa ∨ code.toNat / 16 = 0xb)
    (hlength : dataLength bytes code data = .ok length) (h : data + length ≤ bytes.size) :
    Uncut (textAt bytes code data) := by
  refine (uncut_payloadAt hcode hlength h).bind fun payload => ?_
  split
  · exact .ok _
  · exact .error nofun

/-- A character whose four bytes are there is not cut off, though they may be no character's number.
-/
lemma uncut_charAt (h : data + 4 ≤ bytes.size) : Uncut (charAt bytes data) := by
  refine (uncut_wordAt h).bind fun word => ?_
  dsimp only
  split
  · exact .ok _
  · exact .error nofun

/-- A byte that is not cut off is read. -/
lemma exists_of_uncut_byteAt (h : Uncut (byteAt bytes data)) : ∃ byte, byteAt bytes data = .ok byte := by
  by_cases inside : data < bytes.size
  · exact ⟨_, dif_pos inside⟩
  · exact absurd (dif_neg inside) (h _ ⟨data, 1, rfl⟩)

/-- Bytes that are not cut off are read. -/
lemma exists_of_uncut_sliceAt (h : Uncut (sliceAt bytes data length)) :
    ∃ slice, sliceAt bytes data length = .ok slice := by
  by_cases inside : data + length ≤ bytes.size
  · exact ⟨_, if_pos inside⟩
  · exact absurd (if_neg inside) (h _ ⟨data, length, rfl⟩)

/-- A word that is not cut off is read. -/
lemma exists_of_uncut_wordAt {width : Nat} (h : Uncut (wordAt bytes data width)) :
    ∃ word, wordAt bytes data width = .ok word := by
  obtain ⟨slice, hslice⟩ := exists_of_uncut_sliceAt h.of_bind
  rw [wordAt, hslice]
  exact ⟨_, rfl⟩

/-- A payload that is not cut off is read: its size and the bytes that the size tells. -/
lemma exists_of_uncut_payloadAt (h : Uncut (payloadAt bytes code data)) :
    ∃ payload, payloadAt bytes code data = .ok payload := by
  unfold payloadAt at h ⊢
  split at h
  next hcode =>
    obtain ⟨size, hsize⟩ := exists_of_uncut_byteAt h.of_bind
    rw [hsize] at h
    rw [if_pos hcode, hsize]
    exact exists_of_uncut_sliceAt h
  next hcode =>
    obtain ⟨size, hsize⟩ := exists_of_uncut_wordAt h.of_bind
    rw [hsize] at h
    rw [if_neg hcode, hsize]
    exact exists_of_uncut_sliceAt h

/-- A payload that is not cut off ends where its size tells. -/
lemma dataLength_of_uncut_payloadAt (hcode : code.toNat / 16 = 0xa ∨ code.toNat / 16 = 0xb)
    (h : Uncut (payloadAt bytes code data)) :
    ∃ length, dataLength bytes code data = .ok length ∧ data + length ≤ bytes.size := by
  obtain ⟨payload, hpayload⟩ := exists_of_uncut_payloadAt h
  unfold payloadAt at hpayload
  unfold dataLength
  rcases hcode with hcode | hcode
  · rw [if_pos hcode] at hpayload
    obtain ⟨size, hsize, hslice⟩ := exists_of_bind hpayload
    have := le_size_of_sliceAt hslice
    simp only [hcode, hsize]
    exact ⟨_, rfl, by omega⟩
  · rw [if_neg (by omega)] at hpayload
    obtain ⟨size, hsize, hslice⟩ := exists_of_bind hpayload
    have := le_size_of_sliceAt hslice
    simp only [hcode, hsize]
    exact ⟨_, rfl, by omega⟩

/-- The bytes of a word that is not cut off are there. -/
lemma le_size_of_uncut_wordAt {width : Nat} (h : Uncut (wordAt bytes data width)) :
    data + width ≤ bytes.size := by
  obtain ⟨word, hword⟩ := exists_of_uncut_wordAt h
  exact le_size_of_wordAt hword

/-! ## What data are refused for -/

/-- Reading bytes fails only if they are not there. -/
lemma readable_sliceAt (bytes : ByteArray) (data length : Nat) : Readable (sliceAt bytes data length) := by
  rw [sliceAt]
  split
  · exact .ok _
  · exact .truncated _ _

/-- Reading a byte fails only if it is not there. -/
lemma readable_byteAt (bytes : ByteArray) (data : Nat) : Readable (byteAt bytes data) := by
  rw [byteAt]
  split
  · exact .ok _
  · exact .truncated _ _

/-- Reading a word fails only if its bytes are not there. -/
lemma readable_wordAt (bytes : ByteArray) (data width : Nat) : Readable (wordAt bytes data width) :=
  (readable_sliceAt bytes data width).bind fun _ => .ok _

/-- Reading a payload fails only if its size or its bytes are not there. -/
lemma readable_payloadAt (bytes : ByteArray) (code : UInt8) (data : Nat) :
    Readable (payloadAt bytes code data) := by
  unfold payloadAt
  split
  · exact (readable_byteAt bytes data).bind fun length => readable_sliceAt bytes (data + 1) _
  · exact (readable_wordAt bytes data 4).bind fun length => readable_sliceAt bytes (data + 4) _

/-- Reading a text fails also if its bytes are no UTF-8. -/
lemma readable_textAt (bytes : ByteArray) (code : UInt8) (data : Nat) :
    Readable (textAt bytes code data) := by
  refine (readable_payloadAt bytes code data).bind fun payload => ?_
  split
  · exact .ok _
  · exact .meaningless (.utf8 data)

/-- Reading a character fails also if its bytes are no character's number. -/
lemma readable_charAt (bytes : ByteArray) (data : Nat) : Readable (charAt bytes data) := by
  refine (readable_wordAt bytes data 4).bind fun word => ?_
  dsimp only
  split
  · exact .ok _
  · exact .meaningless (.char _)

/-! ## The ways to read a scalar -/

/-- The ways to read a scalar from its data, each beside the length that the data are told to have. -/
inductive ScalarRead (bytes : ByteArray) (data : Nat) :
    Except WireError Scalar → Except WireError Nat → Prop where
  /-- The format code alone tells the value. -/
  | known (value : Scalar) : ScalarRead bytes data (.ok value) (.ok 0)
  | word (width : Nat) (give : Nat → Scalar) :
    ScalarRead bytes data (do return give (← wordAt bytes data width)) (.ok width)
  | char : ScalarRead bytes data (do return .char (← charAt bytes data)) (.ok 4)
  | payload {code : UInt8} (give : ByteArray → Scalar) :
    code.toNat / 16 = 0xa ∨ code.toNat / 16 = 0xb →
    ScalarRead bytes data (do return give (← payloadAt bytes code data)) (dataLength bytes code data)
  | text {code : UInt8} (give : String → Scalar) :
    code.toNat / 16 = 0xa ∨ code.toNat / 16 = 0xb →
    ScalarRead bytes data (do return give (← textAt bytes code data)) (dataLength bytes code data)

/-- A format code reads a scalar of the length that it tells, or is that of no scalar kind. -/
lemma scalarRead_or_refused (bytes : ByteArray) (here : Nat) (code : UInt8) (data : Nat) :
    ScalarRead bytes data (scalarAt bytes here code data) (dataLength bytes code data) ∨
    (∀ kind, Kind.ofCode? code = some kind → kind.isCompound = true) ∧
      Uncut (scalarAt bytes here code data) := by
  unfold scalarAt
  split
  -- Codes without data, those of texts, of characters and of no scalar; all others read a word.
  case h_1 | h_2 | h_3 | h_9 | h_12 => exact .inl (.known _)
  case h_24 => exact .inl .char
  case h_27 | h_28 => exact .inl (.payload _ (by decide))
  case h_29 | h_30 | h_31 | h_32 => exact .inl (.text _ (by decide))
  case h_33 =>
    refine .inr ⟨fun kind hcode => ?_, ?_⟩
    · unfold Kind.ofCode? at hcode
      split at hcode
      case h_1 | h_34 | h_35 | h_36 | h_37 | h_38 | h_39 | h_40 =>
        cases hcode
        rfl
      case h_41 => cases hcode
      all_goals contradiction
    · split
      · exact .error nofun
      · exact .error nofun
  all_goals exact .inl (.word _ _)

/-- The format code of a scalar kind reads a scalar of the length that it tells. -/
lemma scalarRead_of_kind (hcode : Kind.ofCode? code = some kind) (scalar : kind.isCompound = false) :
    ScalarRead bytes data (scalarAt bytes here code data) (dataLength bytes code data) := by
  rcases scalarRead_or_refused bytes here code data with read | ⟨compound, _⟩
  · exact read
  · rw [compound kind hcode] at scalar
    cases scalar

namespace ScalarRead

variable {read : Except WireError Scalar} {length? : Except WireError Nat}

/-- A scalar is not cut off where the length of the data is found and they are there. -/
lemma uncut (h : ScalarRead bytes data read length?) (hlength : length? = .ok length)
    (covered : data + length ≤ bytes.size) : Uncut read := by
  cases h with
  | known value => exact .ok value
  | word width give =>
    cases hlength
    exact (uncut_wordAt covered).bind fun _ => .ok _
  | char =>
    cases hlength
    exact (uncut_charAt covered).bind fun _ => .ok _
  | payload give hcode => exact (uncut_payloadAt hcode hlength covered).bind fun _ => .ok _
  | text give hcode => exact (uncut_textAt hcode hlength covered).bind fun _ => .ok _

/-- The data of a scalar that is not cut off end within the bytes. -/
lemma covered (h : ScalarRead bytes data read length?) (inside : data ≤ bytes.size)
    (uncut : Uncut read) : ∃ length, length? = .ok length ∧ data + length ≤ bytes.size := by
  cases h with
  | known value => exact ⟨0, rfl, inside⟩
  | word width give => exact ⟨width, rfl, le_size_of_uncut_wordAt uncut.of_bind⟩
  | char => exact ⟨4, rfl, le_size_of_uncut_wordAt uncut.of_bind.of_bind⟩
  | payload give hcode => exact dataLength_of_uncut_payloadAt hcode uncut.of_bind
  | text give hcode => exact dataLength_of_uncut_payloadAt hcode uncut.of_bind.of_bind

/-- A scalar is refused for nothing but its data. -/
lemma readable (h : ScalarRead bytes data read length?) : Readable read := by
  cases h with
  | known value => exact .ok value
  | word width give => exact (readable_wordAt bytes data width).bind fun _ => .ok _
  | char => exact (readable_charAt bytes data).bind fun _ => .ok _
  | payload give _ => exact (readable_payloadAt bytes _ data).bind fun _ => .ok _
  | text give _ => exact (readable_textAt bytes _ data).bind fun _ => .ok _

end ScalarRead

/-! ## Scalars and their extents -/

/-- A scalar is not cut off where the length of the data is found and they are there. -/
lemma uncut_scalarAt (hlength : dataLength bytes code data = .ok length)
    (h : data + length ≤ bytes.size) : Uncut (scalarAt bytes here code data) := by
  rcases scalarRead_or_refused bytes here code data with read | ⟨_, refused⟩
  · exact read.uncut hlength h
  · exact refused

/-- The data of a scalar that is read end within the bytes. -/
lemma dataLength_of_scalarAt {value : Scalar} (inside : data ≤ bytes.size)
    (h : scalarAt bytes here code data = .ok value) :
    ∃ length, dataLength bytes code data = .ok length ∧ data + length ≤ bytes.size := by
  have uncut : Uncut (scalarAt bytes here code data) := h ▸ .ok value
  exact (scalarRead_of_kind (ofCode?_of_scalarAt h) value.isCompound_kind).covered inside uncut

/-- Where the same data stand, as long as a format code tells, it reads the same scalar. -/
lemma echoes_sameData {whole whole' : ByteArray} {here' data' : Nat} {part : List UInt8}
    (holds : Holds whole data part) (holds' : Holds whole' data' part)
    (hlength : dataLength whole code data = .ok part.length) :
    Echoes (fun _ => False) Eq (scalarAt whole here code data) (scalarAt whole' here' code data') := by
  have alone : part.toByteArray.data.toList = part := List.toList_data_toByteArray
  have hsize : part.toByteArray.size = part.length := List.size_toByteArray
  rw [← alone] at holds holds'
  -- By themselves the data are as long as told, so nothing behind them is looked at.
  have found : dataLength part.toByteArray code 0 = .ok part.length := by
    cases hfound : dataLength part.toByteArray code 0 with
    | error fault =>
      have := dataLength_passes hfound hlength
      omega
    | ok length =>
      have same := echoes_dataLength holds code 0
      rw [hfound, Nat.add_zero, hlength] at same
      exact congrArg _ same.related_of_ok
  have uncut : Uncut (scalarAt part.toByteArray 0 code 0) := uncut_scalarAt found (by omega)
  exact ((echoes_scalarAt holds 0 here code 0).strict uncut).span
    ((echoes_scalarAt holds' 0 here' code 0).strict uncut)

end Wire

end AmqpBlob
