import AmqpBlob.Proofs.Wire.Bytes
import AmqpBlob.Wire.Extent

/-!
# The scan of an extent

An element is a format code with its data or, behind the code of a described value, two elements. The
scan that tells how far an element reaches goes from code to code and keeps count of the elements that
are pending, so that nesting takes no recursion. `elementsStop_add` is what makes both the same: the
elements that are pending are passed over one after the other, whatever was pending before.
`elementStop_eq_nestedStop` says that the scan finds what the recursion finds, and how soon.
-/

namespace AmqpBlob.Wire

variable {bytes : ByteArray} {code : UInt8} {offset length left left' pending count stop : Nat}
  {behind : Nat × Nat}

/-- Passing over one element: the elements that are pending then, and the offset behind it. -/
def skipOne (bytes : ByteArray) (pending offset : Nat) : Except WireError (Nat × Nat) := do
  let code ← byteAt bytes offset
  if code = describedCode then
    return (pending + 2, offset + 1)
  else
    return (pending, offset + 1 + (← dataLength bytes code (offset + 1)))

/-- A turn of the scan passes over one element, and the scan goes on behind it. -/
lemma skip_succ (bytes : ByteArray) (left pending offset : Nat) :
    skip bytes (left + 1) (pending + 1) offset =
      skipOne bytes pending offset >>= fun behind => skip bytes left behind.1 behind.2 := by
  rw [skip, skipOne]
  cases byteAt bytes offset with
  | error fault => rfl
  | ok code =>
    change (if code = describedCode then _ else _) = (if code = describedCode then _ else _) >>= _
    split
    · rfl
    · cases dataLength bytes code (offset + 1) with
      | error fault => rfl
      | ok length => rfl

/-- What is pending or passed over gets more. -/
lemma lt_of_skipOne (h : skipOne bytes pending offset = .ok behind) :
    offset + pending < behind.2 + behind.1 ∧ offset < behind.2 := by
  rw [skipOne] at h
  obtain ⟨code, _, h⟩ := exists_of_bind h
  split at h
  · cases h
    dsimp only
    omega
  · obtain ⟨length, _, h⟩ := exists_of_bind h
    cases h
    dsimp only
    omega

/-- An element that is passed over starts within the bytes. -/
lemma lt_size_of_skipOne (h : skipOne bytes pending offset = .ok behind) : offset < bytes.size := by
  obtain ⟨code, hbyte, _⟩ := exists_of_bind h
  exact lt_size_of_byteAt hbyte

/-- What else is pending stays so. -/
lemma skipOne_add (bytes : ByteArray) (pending more offset : Nat) :
    skipOne bytes (pending + more) offset =
      (skipOne bytes pending offset).map fun behind => (behind.1 + more, behind.2) := by
  unfold skipOne
  cases byteAt bytes offset with
  | error fault => rfl
  | ok code =>
    change (if code = describedCode then _ else _) = Except.map _ (if code = describedCode then _ else _)
    split
    · rw [Nat.add_right_comm]
      rfl
    · cases dataLength bytes code (offset + 1) with
      | error fault => rfl
      | ok length => rfl

/-- Each pending element takes a byte or more. -/
lemma le_of_skip (h : skip bytes left pending offset = .ok stop) : offset + pending ≤ stop := by
  induction left generalizing pending offset with
  | zero =>
    cases pending with
    | zero =>
      cases h
      exact Nat.le_refl _
    | succ pending => cases h
  | succ left ih =>
    cases pending with
    | zero =>
      cases h
      exact Nat.le_refl _
    | succ pending =>
      rw [skip_succ] at h
      obtain ⟨behind, hone, h⟩ := exists_of_bind h
      have := lt_of_skipOne hone
      have := ih h
      omega

/-- Behind the bytes no element is passed over. -/
lemma skip_of_size_le (outside : bytes.size ≤ offset) :
    skip bytes left (pending + 1) offset = .error (.truncated offset 1) := by
  cases left with
  | zero => rfl
  | succ left =>
    have cut : byteAt bytes offset = .error (.truncated offset 1) := dif_neg (Nat.not_lt.2 outside)
    rw [skip, cut]
    rfl

/-- The scan of an extent ends with the bytes, so that all bounds that reach as far find the same. -/
lemma skip_eq_of_le (enough : bytes.size - offset ≤ left) (enough' : bytes.size - offset ≤ left') :
    skip bytes left pending offset = skip bytes left' pending offset := by
  induction left generalizing left' pending offset with
  | zero =>
    cases pending with
    | zero => cases left' <;> rfl
    | succ pending =>
      have outside : bytes.size ≤ offset := by omega
      rw [skip_of_size_le outside, skip_of_size_le outside]
  | succ left ih =>
    cases pending with
    | zero => cases left' <;> rfl
    | succ pending =>
      by_cases outside : bytes.size ≤ offset
      · rw [skip_of_size_le outside, skip_of_size_le outside]
      · obtain ⟨left', rfl⟩ : ∃ fewer, left' = fewer + 1 := ⟨left' - 1, by omega⟩
        rw [skip_succ, skip_succ]
        cases hone : skipOne bytes pending offset with
        | error fault => rfl
        | ok passed =>
          have further := (lt_of_skipOne hone).2
          exact ih (by omega) (by omega)

/-! ## Elements that follow each other -/

/-- The offset behind `count` elements that start at `offset`. -/
def elementsStop (bytes : ByteArray) (count offset : Nat) : Except WireError Nat :=
  skip bytes (bytes.size - offset) count offset

/-- No elements end where they start. -/
lemma elementsStop_zero (bytes : ByteArray) (offset : Nat) : elementsStop bytes 0 offset = .ok offset := by
  unfold elementsStop
  cases bytes.size - offset <;> rfl

/-- The scan goes on behind the first format code, and the bytes that are left are enough for it. -/
lemma elementsStop_succ (bytes : ByteArray) (count offset : Nat) :
    elementsStop bytes (count + 1) offset =
      skipOne bytes count offset >>= fun behind => elementsStop bytes behind.1 behind.2 := by
  unfold elementsStop
  rw [skip_eq_of_le (Nat.le_refl _) (Nat.le_succ _), skip_succ]
  cases hone : skipOne bytes count offset with
  | error fault => rfl
  | ok behind =>
    have further := (lt_of_skipOne hone).2
    exact skip_eq_of_le (by omega) (Nat.le_refl _)

/-- Elements are passed over one after the other, whatever else is pending. -/
lemma elementsStop_add (bytes : ByteArray) (count more offset : Nat) :
    elementsStop bytes (count + more) offset =
      elementsStop bytes count offset >>= elementsStop bytes more := by
  -- The induction is on the bytes that are left, as a described value raises the count.
  induction hleft : bytes.size - offset using Nat.strongRecOn generalizing count offset with
  | ind left ih =>
    cases count with
    | zero =>
      rw [Nat.zero_add, elementsStop_zero]
      rfl
    | succ count =>
      rw [Nat.add_right_comm, elementsStop_succ, elementsStop_succ, skipOne_add]
      cases hone : skipOne bytes count offset with
      | error fault => rfl
      | ok behind =>
        have further := (lt_of_skipOne hone).2
        have inside := lt_size_of_skipOne hone
        exact ih _ (by omega) behind.1 behind.2 rfl

/-- The extent of an element is found by passing over its format code and all that is pending then.
-/
lemma elementStop_eq (bytes : ByteArray) (offset : Nat) :
    elementStop bytes offset =
      skipOne bytes 0 offset >>= fun behind => elementsStop bytes behind.1 behind.2 :=
  elementsStop_succ bytes 0 offset

/-- Without a format code no extent is found. -/
lemma elementStop_of_cut {fault : WireError} (h : byteAt bytes offset = .error fault) :
    elementStop bytes offset = .error fault := by
  rw [elementStop_eq, skipOne, h]
  rfl

/-- A described value ends where its second part does, which starts where its first one ends. -/
lemma elementStop_described (h : byteAt bytes offset = .ok describedCode) :
    elementStop bytes offset = elementStop bytes (offset + 1) >>= elementStop bytes := by
  rw [elementStop_eq, skipOne, h]
  exact elementsStop_add bytes 1 1 (offset + 1)

/-- An element that is no described value ends where the length of its data tells. -/
lemma elementStop_of_plain (hbyte : byteAt bytes offset = .ok code) (plain : code ≠ describedCode) :
    elementStop bytes offset = (dataLength bytes code (offset + 1)).map (offset + 1 + ·) := by
  have hone : skipOne bytes 0 offset =
      (dataLength bytes code (offset + 1)).map fun length => (0, offset + 1 + length) := by
    rw [skipOne, hbyte]
    exact if_neg plain
  rw [elementStop_eq, hone]
  cases dataLength bytes code (offset + 1) with
  | error fault => rfl
  | ok length => exact elementsStop_zero bytes (offset + 1 + length)

/-- The extent of a value that is not described is that of its data, behind the format code. -/
lemma elementStop_of_length (hbyte : byteAt bytes offset = .ok code) (plain : code ≠ describedCode)
    (hlength : dataLength bytes code (offset + 1) = .ok length) :
    elementStop bytes offset = .ok (offset + 1 + length) := by
  rw [elementStop_of_plain hbyte plain, hlength]
  rfl

/-- An element takes a byte or more. -/
lemma lt_of_elementStop (h : elementStop bytes offset = .ok stop) : offset < stop :=
  le_of_skip h

/-! ## Elements within elements -/

/-- The offset behind the element that starts at `offset`, told by what the element is made of: two
elements behind the code of a described value, and data behind any other code. -/
def nestedStop (bytes : ByteArray) (offset : Nat) : Except WireError { stop // offset < stop } :=
  match hbyte : byteAt bytes offset with
  | .error fault => .error fault
  | .ok code =>
    have inside := lt_size_of_byteAt hbyte
    if code = describedCode then do
      let ⟨middle, hmiddle⟩ ← nestedStop bytes (offset + 1)
      let ⟨stop, hstop⟩ ← nestedStop bytes middle
      return ⟨stop, by omega⟩
    else do
      let length ← dataLength bytes code (offset + 1)
      return ⟨offset + 1 + length, by omega⟩
termination_by bytes.size - offset

/-- The scan that has `pending` elements to pass over from `offset` on ends with the result after `turns`
turns. A turn that fails is one of them, and nothing else bounds their number. -/
inductive Scans (bytes : ByteArray) :
    (turns pending offset : Nat) → Except WireError Nat → Prop where
  | done {offset : Nat} : Scans bytes 0 0 offset (.ok offset)
  | failed {pending offset : Nat} {fault : WireError} :
    skipOne bytes pending offset = .error fault →
    Scans bytes 1 (pending + 1) offset (.error fault)
  | again {turns pending offset : Nat} {behind : Nat × Nat} {result : Except WireError Nat} :
    skipOne bytes pending offset = .ok behind →
    Scans bytes turns behind.1 behind.2 result →
    Scans bytes (turns + 1) (pending + 1) offset result

/-- There is one run of the scan only. -/
lemma Scans.unique {turns turns' : Nat} {result result' : Except WireError Nat}
    (h : Scans bytes turns pending offset result) (h' : Scans bytes turns' pending offset result') :
    turns' = turns ∧ result' = result := by
  induction h generalizing turns' with
  | done =>
    cases h'
    exact ⟨rfl, rfl⟩
  | failed hone =>
    cases h' with
    | failed hone' =>
      cases hone.symm.trans hone'
      exact ⟨rfl, rfl⟩
    | again hone' _ => cases hone.symm.trans hone'
  | again hone _ ih =>
    cases h' with
    | failed hone' => cases hone.symm.trans hone'
    | again hone' rest =>
      cases hone.symm.trans hone'
      obtain ⟨rfl, rfl⟩ := ih rest
      exact ⟨rfl, rfl⟩

/-- The scan ends, as each turn but the last one passes over a byte or more. -/
lemma exists_scans (bytes : ByteArray) (pending offset : Nat) :
    ∃ turns, turns ≤ bytes.size - offset + 1 ∧
      Scans bytes turns pending offset (elementsStop bytes pending offset) := by
  induction hleft : bytes.size - offset using Nat.strongRecOn generalizing pending offset with
  | ind left ih =>
    cases pending with
    | zero =>
      rw [elementsStop_zero]
      exact ⟨0, Nat.zero_le _, .done⟩
    | succ pending =>
      rw [elementsStop_succ]
      cases hone : skipOne bytes pending offset with
      | error fault => exact ⟨1, by omega, .failed hone⟩
      | ok behind =>
        have further := (lt_of_skipOne hone).2
        have inside := lt_size_of_skipOne hone
        obtain ⟨turns, few, scans⟩ := ih _ (by omega) behind.1 behind.2 rfl
        exact ⟨turns + 1, by omega, .again hone scans⟩

/-- What is described ends the same in both, its descriptor first and then its value. -/
lemma elementStop_eq_map (bytes : ByteArray) (offset : Nat) :
    elementStop bytes offset = (nestedStop bytes offset).map Subtype.val := by
  fun_induction nestedStop bytes offset with
  | case1 offset fault cut =>
    rw [elementStop_of_cut cut]
    rfl
  | case2 offset hbyte inside ihdescriptor ihvalue =>
    rw [elementStop_described hbyte, ihdescriptor]
    cases nestedStop bytes (offset + 1) with
    | error fault => rfl
    | ok descriptor =>
      obtain ⟨middle, further⟩ := descriptor
      simp only [bind, Except.bind, Except.map, ihvalue middle further]
      cases nestedStop bytes middle with
      | error fault => rfl
      | ok value => rfl
  | case3 offset code hbyte inside plain =>
    rw [elementStop_of_plain hbyte plain]
    cases dataLength bytes code (offset + 1) with
    | error fault => rfl
    | ok length => rfl

/-- The scan of an extent finds what the recursion over the nested elements finds: the same end, or the
same fault. It has one run, which takes no more turns than there are bytes from the offset on, and one. -/
theorem elementStop_eq_nestedStop (bytes : ByteArray) (offset : Nat) :
    elementStop bytes offset = (nestedStop bytes offset).map Subtype.val ∧
    ∃ turns, turns ≤ bytes.size - offset + 1 ∧ ∀ taken result,
      Scans bytes taken 1 offset result ↔ taken = turns ∧ result = elementStop bytes offset := by
  refine ⟨elementStop_eq_map bytes offset, ?_⟩
  obtain ⟨turns, few, scans⟩ := exists_scans bytes 1 offset
  refine ⟨turns, few, fun taken result => ⟨scans.unique, ?_⟩⟩
  rintro ⟨rfl, rfl⟩
  exact scans

/-- A described value whose descriptor is a described value itself, and a byte behind it. -/
def describedTwice : ByteArray :=
  ⟨#[0x00, 0x00, 0xa3, 0x01, 0x6b, 0x40, 0x54, 0x07, 0xff]⟩

/-- The codes of three described values, of which none is whole. -/
def describedOnly : ByteArray :=
  ⟨#[0x00, 0x00, 0x00]⟩

/-- The second scan takes as many turns as it may. -/
theorem elementStop_eq_nestedStop_described :
    (nestedStop describedTwice 0).map Subtype.val = .ok 8 ∧
    Scans describedTwice 5 1 0 (.ok 8) ∧
    (nestedStop describedOnly 0).map Subtype.val = .error (.truncated 3 1) ∧
    ∀ taken result, Scans describedOnly taken 1 0 result ↔
      taken = 4 ∧ result = .error (.truncated 3 1) := by
  obtain ⟨twice, _⟩ := elementStop_eq_nestedStop describedTwice 0
  obtain ⟨only, turns, _, scansOnly⟩ := elementStop_eq_nestedStop describedOnly 0
  have stopTwice : elementStop describedTwice 0 = .ok 8 := rfl
  have stopOnly : elementStop describedOnly 0 = .error (.truncated 3 1) := rfl
  rw [stopTwice] at twice
  rw [stopOnly] at only scansOnly
  have four : Scans describedOnly 4 1 0 (.error (.truncated 3 1)) :=
    .again rfl (.again rfl (.again rfl (.failed rfl)))
  obtain ⟨rfl, _⟩ := (scansOnly _ _).1 four
  exact ⟨twice.symm, .again rfl (.again rfl (.again rfl (.again rfl (.again rfl .done)))),
    only.symm, scansOnly⟩

end AmqpBlob.Wire
