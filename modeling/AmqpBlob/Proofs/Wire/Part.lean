import AmqpBlob.Proofs.Echo
import AmqpBlob.Proofs.Wire.Scan

/-!
# Reads in a part of the bytes

Some bytes stand within others, from an offset on. A read in the part alone gives what the same read
gives in the whole, unless it passes the end of the part: then it is truncated in the part, and may
give anything in the whole. But an extent that is cut off in the part does not end within the part in
the whole either.
-/

namespace AmqpBlob

/-- The data ends too early. -/
def WireError.Truncated (fault : WireError) : Prop :=
  ∃ offset needed, fault = .truncated offset needed

namespace Wire

open WireError (Truncated)

variable {part whole : ByteArray} {start offset length : Nat} {inner : List UInt8}

/-- What stands in the part stands in the whole, as much further as the part does. -/
lemma Holds.inside (h : Holds part offset inner) (within : Holds whole start part.data.toList) :
    Holds whole (start + offset) inner := by
  obtain ⟨before, after, hbytes, hlength⟩ := h
  rw [hbytes, List.append_assoc] at within
  rw [← hlength]
  exact within.right.left

/-- Bytes stand where they are cut out. -/
lemma holds_extract (h : offset + length ≤ part.size) :
    Holds part offset (part.extract offset (offset + length)).data.toList ∧
      (part.extract offset (offset + length)).data.toList.length = length := by
  have hsize : part.data.toList.length = part.size := rfl
  rw [ByteArray.data_extract, Array.toList_extract, List.extract_eq_take_drop,
    Nat.add_sub_cancel_left]
  refine ⟨⟨part.data.toList.take offset, (part.data.toList.drop offset).drop length, ?_, ?_⟩, ?_⟩
  · rw [List.append_assoc, List.take_append_drop, List.take_append_drop]
  · rw [List.length_take]
    omega
  · rw [List.length_take, List.length_drop]
    omega

/-- A length that is cut off in the part passes its end in the whole. -/
lemma dataLength_passes {code : UInt8} {data data' length : Nat} {fault : WireError}
    (cut : dataLength part code data = .error fault)
    (found : dataLength whole code data' = .ok length) : part.size < data + length := by
  unfold dataLength at cut found
  split at cut
  case h_7 hcode | h_8 hcode | h_9 hcode =>
    simp only [hcode] at found
    obtain ⟨size, _, hlength⟩ := exists_of_bind found
    cases hlength
    rcases error_of_bind cut with hbyte | ⟨_, _, cut⟩
    · have := size_le_of_byteAt hbyte
      omega
    · cases cut
  case h_10 hcode | h_11 hcode | h_12 hcode =>
    simp only [hcode] at found
    obtain ⟨size, _, hlength⟩ := exists_of_bind found
    cases hlength
    rcases error_of_bind cut with hword | ⟨_, _, cut⟩
    · have := size_lt_of_wordAt hword
      omega
    · cases cut
  case h_13 =>
    split at found
    case h_13 => cases found
    all_goals contradiction
  all_goals cases cut

variable (within : Holds whole start part.data.toList)
include within

/-- Bytes read in the part are the ones read in the whole. -/
lemma echoes_sliceAt (offset length : Nat) :
    Echoes Truncated Eq (sliceAt part offset length) (sliceAt whole (start + offset) length) := by
  rw [sliceAt]
  split
  next h =>
    obtain ⟨holds, hlength⟩ := holds_extract h
    have hslice := (holds.inside within).sliceAt
    have hself : (part.extract offset (offset + length)).data.toList.toByteArray =
        part.extract offset (offset + length) := by
      apply ByteArray.ext
      apply Array.toList_inj.1
      rw [List.toList_data_toByteArray]
    rw [hlength, hself] at hslice
    rw [hslice]
    exact .ok rfl
  next => exact .excused ⟨offset, length, rfl⟩

/-- So is a byte. -/
lemma echoes_byteAt (offset : Nat) :
    Echoes Truncated Eq (byteAt part offset) (byteAt whole (start + offset)) := by
  rw [byteAt]
  split
  next h =>
    have holds : Holds part offset [part[offset]] := by
      refine ⟨part.data.toList.take offset, part.data.toList.drop (offset + 1), ?_, ?_⟩
      · have hget : part[offset] = part.data.toList[offset] := rfl
        rw [hget, List.append_assoc, List.singleton_append, List.getElem_cons_drop,
          List.take_append_drop]
      · rw [List.length_take]
        exact Nat.min_eq_left (Nat.le_of_lt h)
    rw [(holds.inside within).byteAt]
    exact .ok rfl
  next => exact .excused ⟨offset, 1, rfl⟩

/-- So is a word. -/
lemma echoes_wordAt (offset width : Nat) :
    Echoes Truncated Eq (wordAt part offset width) (wordAt whole (start + offset) width) :=
  (echoes_sliceAt within offset width).bind_eq fun _ => .refl _

/-- So is a payload, whose size stands in the part as well. -/
lemma echoes_payloadAt (code : UInt8) (data : Nat) :
    Echoes Truncated Eq (payloadAt part code data) (payloadAt whole code (start + data)) := by
  unfold payloadAt
  split
  · exact (echoes_byteAt within data).bind_eq fun _ => echoes_sliceAt within (data + 1) _
  · exact (echoes_wordAt within data 4).bind_eq fun _ => echoes_sliceAt within (data + 4) _

/-- A text of the part is one of the whole, and bytes that are no UTF-8 are none in the whole
either. -/
lemma echoes_textAt (code : UInt8) (data : Nat) :
    Echoes Truncated Eq (textAt part code data) (textAt whole code (start + data)) := by
  refine (echoes_payloadAt within code data).bind_eq fun payload => ?_
  split
  · exact .ok rfl
  · exact .fault rfl

/-- A character of the part is one of the whole, and a number of none is so in the whole. -/
lemma echoes_charAt (data : Nat) :
    Echoes Truncated Eq (charAt part data) (charAt whole (start + data)) :=
  (echoes_wordAt within data 4).bind_eq fun _ => .refl _

/-- A scalar of the part is one of the whole, wherever faults are told to be. -/
lemma echoes_scalarAt (here here' : Nat) (code : UInt8) (data : Nat) :
    Echoes Truncated Eq (scalarAt part here code data)
      (scalarAt whole here' code (start + data)) := by
  unfold scalarAt
  split
  -- Codes without data, those of texts, of characters and of no scalar; all others read a word.
  case h_1 | h_2 | h_3 | h_9 | h_12 => exact .ok rfl
  case h_24 => exact (echoes_charAt within data).bind_eq fun _ => .refl _
  case h_27 | h_28 => exact (echoes_payloadAt within _ data).bind_eq fun _ => .refl _
  case h_29 | h_30 | h_31 | h_32 => exact (echoes_textAt within _ data).bind_eq fun _ => .refl _
  case h_33 =>
    split
    · exact .refl _
    · exact .fault rfl
  all_goals exact (echoes_wordAt within data _).bind_eq fun _ => .refl _

/-- The length that is told for data in the part is told for them in the whole. -/
lemma echoes_dataLength (code : UInt8) (data : Nat) :
    Echoes Truncated Eq (dataLength part code data) (dataLength whole code (start + data)) := by
  unfold dataLength
  split
  case h_7 | h_8 | h_9 => exact (echoes_byteAt within data).bind_eq fun _ => .refl _
  case h_10 | h_11 | h_12 => exact (echoes_wordAt within data 4).bind_eq fun _ => .refl _
  case h_13 => exact .fault rfl
  all_goals exact .ok rfl

/-- One element is passed in the whole as in the part, only further on. -/
lemma echoes_skipOne (pending offset : Nat) :
    Echoes Truncated (fun behind behind' => behind' = (behind.1, start + behind.2))
      (skipOne part pending offset) (skipOne whole pending (start + offset)) := by
  refine (echoes_byteAt within offset).bind_eq fun code => ?_
  split
  · exact .ok rfl
  · refine (echoes_dataLength within code (offset + 1)).bind_eq fun length => .ok ?_
    rw [Nat.add_assoc, Nat.add_assoc, Nat.add_assoc]

/-- An extent is found in the part if it is found there at all, as much further in the whole. -/
lemma echoes_skip {left left' pending offset : Nat} (enough : left ≤ left') :
    Echoes Truncated (fun stop stop' => stop' = start + stop) (skip part left pending offset)
      (skip whole left' pending (start + offset)) := by
  induction left generalizing left' pending offset with
  | zero =>
    cases pending with
    | zero => cases left' <;> exact .ok rfl
    | succ pending => exact .excused ⟨offset, 1, rfl⟩
  | succ left ih =>
    obtain ⟨left', rfl⟩ : ∃ more, left' = more + 1 := ⟨left' - 1, by omega⟩
    cases pending with
    | zero => exact .ok rfl
    | succ pending =>
      rw [skip_succ, skip_succ]
      refine (echoes_skipOne within pending offset).bind fun behind behind' same => ?_
      rw [same]
      exact ih (by omega)

/-- An element that is cut off in the part passes its end in the whole. -/
lemma skipOne_passes {pending : Nat} {behind : Nat × Nat} {fault : WireError}
    (cut : skipOne part pending offset = .error fault)
    (found : skipOne whole pending (start + offset) = .ok behind) :
    start + part.size < behind.2 := by
  rcases error_of_bind cut with hbyte | ⟨code, hbyte, cut⟩
  · have := size_le_of_byteAt hbyte
    have := lt_of_skipOne found
    omega
  · obtain ⟨code', hbyte', found⟩ := exists_of_bind found
    have same := echoes_byteAt within offset
    rw [hbyte, hbyte'] at same
    cases same.related_of_ok
    split at cut
    · cases cut
    next hcode =>
      rw [if_neg hcode] at found
      obtain ⟨length, hlength, hbehind⟩ := exists_of_bind found
      cases hbehind
      rcases error_of_bind cut with hcut | ⟨_, _, hcut⟩
      · have := dataLength_passes hcut hlength
        omega
      · cases hcut

/-- An extent that is cut off in the part passes its end in the whole. -/
lemma skip_passes {left left' pending stop : Nat} {fault : WireError}
    (enough : part.size ≤ left + offset) (cut : skip part left pending offset = .error fault)
    (found : skip whole left' pending (start + offset) = .ok stop) : start + part.size < stop := by
  induction left generalizing left' pending offset with
  | zero =>
    cases pending with
    | zero => cases cut
    | succ pending =>
      have := le_of_skip found
      omega
  | succ left ih =>
    cases pending with
    | zero => cases cut
    | succ pending =>
      cases left' with
      | zero => cases found
      | succ left' =>
        rw [skip_succ] at cut found
        obtain ⟨behind', hone', found⟩ := exists_of_bind found
        rcases error_of_bind cut with hone | ⟨behind, hone, cut⟩
        · have := skipOne_passes within hone hone'
          have := le_of_skip found
          omega
        · have same := echoes_skipOne within pending offset
          rw [hone, hone'] at same
          cases same.related_of_ok
          have := lt_of_skipOne hone
          exact ih (by omega) cut found

end Wire

end AmqpBlob
