import AmqpBlob.Proofs.Embedding
import AmqpBlob.Proofs.Wire.Width

/-!
# Where moves lead

The cursors that moves lead to from the start of the bytes, and how far their levels and scalars
reach. Moving on stops at the end of a level, but entering a value and reading a scalar look at the
end of the bytes only: every level ends within the bytes, and levels end within those around them if
no value is entered that passes the end of its level.
-/

namespace AmqpBlob

namespace Cursor

/-- The current value ends within its level. -/
def Covered (c : Cursor) : Prop :=
  ∃ stop, c.stop = .ok stop ∧ stop ≤ c.level.stop

/-- The cursors that moves lead to from the start of the bytes, if values are entered only where
`may` holds. -/
inductive Reachable (may : Cursor → Prop) (bytes : ByteArray) : Cursor → Prop where
  | start : Reachable may bytes (.ofBytes bytes)
  | next {c : Cursor} : Reachable may bytes c → Reachable may bytes c.next
  | enter {c inner : Cursor} :
    Reachable may bytes c →
    may c →
    c.enter = .ok inner →
    Reachable may bytes inner
  | leave {c outer : Cursor} :
    Reachable may bytes c →
    c.leave? = some outer →
    Reachable may bytes outer

variable {may : Cursor → Prop} {bytes : ByteArray} {c inner outer : Cursor} {code : UInt8} {data : Nat}

/-- What is looked at where a value is entered, and where that leads. -/
lemma exists_of_enter (h : c.enter = .ok inner) :
    ∃ code data stop inside, c.code = .ok (code, data) ∧ c.stop = .ok stop ∧
      stop ≤ c.bytes.size ∧ c.interior code data = .ok inside ∧ inner = { c with
        here := ⟨inside.first, 0⟩
        level := ⟨c.here, stop, inside.count, inside.element?⟩
        outer := c.level :: c.outer } := by
  obtain ⟨⟨code, data⟩, hcode, h⟩ := Wire.exists_of_bind h
  obtain ⟨stop, hstop, h⟩ := Wire.exists_of_bind h
  dsimp only at h
  split at h
  · cases h
  next covered =>
    obtain ⟨inside, hinside, hinner⟩ := Wire.exists_of_bind h
    cases hinner
    exact ⟨code, data, stop, inside, hcode, hstop, Nat.le_of_not_lt covered, hinside, rfl⟩

/-- What entering a value does, whatever the value is. -/
lemma enter_levels (h : c.enter = .ok inner) :
    inner.bytes = c.bytes ∧ inner.here.index = 0 ∧ c.stop = .ok inner.level.stop ∧
      inner.level.stop ≤ c.bytes.size ∧ inner.outer = c.level :: c.outer := by
  obtain ⟨_, _, _, _, _, hstop, covered, _, rfl⟩ := exists_of_enter h
  exact ⟨rfl, rfl, hstop, covered, rfl⟩

/-- Entering a value opens a level within the one around it just if the value ends there. -/
lemma stop_le_of_enter_iff (h : c.enter = .ok inner) :
    inner.level.stop ≤ c.level.stop ↔ c.Covered := by
  obtain ⟨_, _, hstop, _, _⟩ := enter_levels h
  constructor
  · exact fun covered => ⟨_, hstop, covered⟩
  · rintro ⟨stop, hfound, covered⟩
    rw [hstop] at hfound
    cases hfound
    exact covered

/-- Leaving a level leads to the first one around it, in the same bytes. -/
lemma leave_levels (h : c.leave? = some outer) :
    outer.bytes = c.bytes ∧ c.outer = outer.level :: outer.outer := by
  unfold leave? at h
  split at h
  · cases h
  next level rest houter =>
    cases h
    exact ⟨rfl, houter⟩

/-- The format code is that of the array, or it stands before the data. -/
lemma cases_of_code (h : c.code = .ok (code, data)) : c.hasCurrent = true ∧
    (c.level.element? = some code ∧ data = c.here.offset ∨
      c.level.element? = none ∧ Wire.byteAt c.bytes c.here.offset = .ok code ∧
        data = c.here.offset + 1) := by
  rw [Cursor.code] at h
  split at h
  next current =>
    refine ⟨current, ?_⟩
    cases hshared : c.level.element? with
    | some shared =>
      rw [hshared] at h
      cases h
      exact .inl ⟨rfl, rfl⟩
    | none =>
      rw [hshared] at h
      obtain ⟨byte, hbyte, hdata⟩ := Wire.exists_of_bind h
      cases hdata
      exact .inr ⟨rfl, hbyte, rfl⟩
  · cases h

/-- The kind is that of the format code. -/
lemma exists_of_kind {kind : Kind} (h : c.kind = .ok kind) :
    ∃ code data, c.code = .ok (code, data) ∧ Kind.ofCode? code = some kind := by
  obtain ⟨⟨code, data⟩, hcode, h⟩ := Wire.exists_of_bind h
  dsimp only at h
  split at h
  next found hfound =>
    cases h
    exact ⟨code, data, hcode, hfound⟩
  · cases h

/-- The data of the current value start within the bytes if its level ends there. -/
lemma data_le_of_code (inside : c.level.stop ≤ c.bytes.size) (hcode : c.code = .ok (code, data)) :
    data ≤ c.bytes.size := by
  obtain ⟨current, ⟨_, rfl⟩ | ⟨_, hbyte, rfl⟩⟩ := cases_of_code hcode
  · have := (hasCurrent_iff.1 current).2
    omega
  · exact Wire.lt_size_of_byteAt hbyte

/-- A value that is not described ends where the length of its data tells. -/
lemma stop_of_code (hcode : c.code = .ok (code, data)) (plain : code ≠ Wire.describedCode) :
    c.stop = (Wire.dataLength c.bytes code data).map (data + ·) := by
  obtain ⟨_, ⟨shared, rfl⟩ | ⟨own, hbyte, rfl⟩⟩ := cases_of_code hcode
  · rw [Cursor.stop, shared]
    rfl
  · rw [Cursor.stop, own]
    exact Wire.elementStop_of_plain hbyte plain

/-- The extent of a scalar that is read is that of its data. -/
lemma data_of_scalar {value : Scalar} (inside : c.level.stop ≤ c.bytes.size)
    (h : c.scalar = .ok value) :
    ∃ code data length, c.code = .ok (code, data) ∧
      Wire.scalarAt c.bytes c.here.offset code data = .ok value ∧
      Wire.dataLength c.bytes code data = .ok length ∧
      c.stop = .ok (data + length) ∧ data + length ≤ c.bytes.size := by
  obtain ⟨⟨code, data⟩, hcode, hscalar⟩ := Wire.exists_of_bind h
  obtain ⟨length, hlength, hsize⟩ :=
    Wire.dataLength_of_scalarAt (data_le_of_code inside hcode) hscalar
  have plain : code ≠ Wire.describedCode := by
    rintro rfl
    cases hscalar
  refine ⟨code, data, length, hcode, hscalar, hlength, ?_, hsize⟩
  rw [stop_of_code hcode plain, hlength]
  rfl

/-- A scalar that is read ends within the bytes. -/
lemma stop_of_scalar {value : Scalar} (inside : c.level.stop ≤ c.bytes.size)
    (h : c.scalar = .ok value) : ∃ stop, c.stop = .ok stop ∧ stop ≤ c.bytes.size := by
  obtain ⟨_, _, _, _, _, _, hstop, hsize⟩ := data_of_scalar inside h
  exact ⟨_, hstop, hsize⟩

/-- What holds of the levels wherever moves lead. -/
structure Within (may : Cursor → Prop) (bytes : ByteArray) (c : Cursor) : Prop where
  sameBytes : c.bytes = bytes
  /-- Each level ends within the bytes. -/
  levels : ∀ level ∈ c.level :: c.outer, level.stop ≤ bytes.size
  /-- Each level ends within those around it, if only covered values were entered. -/
  nested : (∀ c, may c → c.Covered) → (c.level :: c.outer).Pairwise (·.stop ≤ ·.stop)

/-- A step to the next sibling keeps all levels. -/
lemma Within.next (h : Within may bytes c) : Within may bytes c.next where
  sameBytes := c.bytes_next.trans h.sameBytes
  levels := by
    rw [level_next, outer_next]
    exact h.levels
  nested covered := by
    rw [level_next, outer_next]
    exact h.nested covered

/-- The level of a value that is entered ends within the bytes, and within the level around it if
the value is covered. -/
lemma Within.enter (h : Within may bytes c) (hmay : may c) (henter : c.enter = .ok inner) :
    Within may bytes inner := by
  obtain ⟨hbytes, _, _, hsize, houter⟩ := enter_levels henter
  rw [h.sameBytes] at hbytes hsize
  refine ⟨hbytes, ?_, fun covered => ?_⟩
  · rw [houter]
    exact List.forall_mem_cons.2 ⟨hsize, h.levels⟩
  · have nested := h.nested covered
    have first := (stop_le_of_enter_iff henter).2 (covered c hmay)
    rw [houter]
    refine List.pairwise_cons.2 ⟨?_, nested⟩
    have outward := (List.pairwise_cons.1 nested).1
    exact List.forall_mem_cons.2
      ⟨first, fun level member => Nat.le_trans first (outward level member)⟩

/-- Leaving keeps the levels around. -/
lemma Within.leave (h : Within may bytes c) (hleave : c.leave? = some outer) :
    Within may bytes outer := by
  obtain ⟨hbytes, houter⟩ := leave_levels hleave
  refine ⟨hbytes.trans h.sameBytes, ?_, fun covered => ?_⟩
  · rw [← houter]
    exact (List.forall_mem_cons.1 h.levels).2
  · rw [← houter]
    exact (List.pairwise_cons.1 (h.nested covered)).2

/-- Wherever moves lead, each level ends within the bytes and so does each scalar that is read; and if
only values are entered that end within their level, then levels end within those around them, and so
does each value that ends within its own level. -/
theorem Reachable.contained (h : Reachable may bytes c) :
    (∀ level ∈ c.level :: c.outer, level.stop ≤ bytes.size) ∧
    (∀ value, c.scalar = .ok value → ∃ stop, c.stop = .ok stop ∧ stop ≤ bytes.size) ∧
    ((∀ c, may c → c.Covered) →
      (c.level :: c.outer).Pairwise (·.stop ≤ ·.stop) ∧
      ∀ stop, c.stop = .ok stop → stop ≤ c.level.stop →
        ∀ level ∈ c.level :: c.outer, stop ≤ level.stop) := by
  have within : Within may bytes c := by
    induction h with
    | start =>
      exact ⟨rfl, List.forall_mem_singleton.2 (Nat.le_refl _), fun _ => List.pairwise_singleton _ _⟩
    | next _ ih => exact ih.next
    | enter _ hmay henter ih => exact ih.enter hmay henter
    | leave _ hleave ih => exact ih.leave hleave
  refine ⟨within.levels, fun value hvalue => ?_, fun covered => ?_⟩
  · have hstop := (List.forall_mem_cons.1 within.levels).1
    rw [← within.sameBytes] at hstop ⊢
    exact stop_of_scalar hstop hvalue
  · have nested := within.nested covered
    have outward := (List.pairwise_cons.1 nested).1
    refine ⟨nested, fun stop _ inside => ?_⟩
    exact List.forall_mem_cons.2
      ⟨inside, fun level member => Nat.le_trans inside (outward level member)⟩

/-- Two lists, one in the other, of which the inner one holds a null. -/
def nestedLists : ByteArray :=
  ⟨#[0xc0, 0x05, 0x01, 0xc0, 0x02, 0x01, 0x40]⟩

/-- The cursor on the null. -/
def nestedNull : Cursor where
  bytes := nestedLists
  here := ⟨6, 0⟩
  level := ⟨⟨3, 0⟩, 7, 1, none⟩
  outer := [⟨⟨0, 0⟩, 7, 1, none⟩, ⟨⟨0, 0⟩, 7, 7, none⟩]

/-- The levels around the null end within each other, and the null within the bytes. -/
theorem contained_nestedNull : nestedNull.scalar = .ok .null ∧
    (∃ stop, nestedNull.stop = .ok stop ∧ stop ≤ nestedLists.size) ∧
    (nestedNull.level :: nestedNull.outer).Pairwise (·.stop ≤ ·.stop) := by
  have list : Reachable Covered nestedLists
      ⟨nestedLists, ⟨3, 0⟩, ⟨⟨0, 0⟩, 7, 1, none⟩, [⟨⟨0, 0⟩, 7, 7, none⟩]⟩ :=
    .enter .start ⟨7, rfl, by decide⟩ rfl
  have null : Reachable Covered nestedLists nestedNull := .enter list ⟨7, rfl, by decide⟩ rfl
  obtain ⟨_, scalar, nested⟩ := Reachable.contained null
  exact ⟨rfl, scalar .null rfl, (nested fun _ covered => covered).1⟩

/-- Two lists, of which the inner one passes the end of the outer one, and a number in it that passes
the end of both. -/
def overlapping (byte : UInt8) : ByteArray :=
  ⟨#[0xc0, 0x03, 0x01, 0xc0, 0x02, 0x01, 0x54, byte]⟩

/-- The cursor on the number. -/
def overlap (byte : UInt8) : Cursor where
  bytes := overlapping byte
  here := ⟨6, 0⟩
  level := ⟨⟨3, 0⟩, 7, 1, none⟩
  outer := [⟨⟨0, 0⟩, 5, 1, none⟩, ⟨⟨0, 0⟩, 8, 8, none⟩]

/-- A level need not end within the one around it, and a scalar may be read from a byte behind its
level, so that it differs with that byte. -/
theorem not_contained : Reachable (fun _ => True) (overlapping 0x41) (overlap 0x41) ∧
    (¬∀ level ∈ (overlap 0x41).outer, (overlap 0x41).level.stop ≤ level.stop) ∧
    (¬∀ value, (overlap 0x41).scalar = .ok value →
      ∃ stop, (overlap 0x41).stop = .ok stop ∧ stop ≤ (overlap 0x41).level.stop) ∧
    (overlap 0x41).scalar = .ok (.int 65) ∧ (overlap 0x42).scalar = .ok (.int 66) := by
  have hscalar : (overlap 0x41).scalar = .ok (.int 65) := rfl
  have hstop : (overlap 0x41).stop = .ok 8 := rfl
  refine ⟨?_, fun nested => ?_, fun covered => ?_, hscalar, rfl⟩
  · have list : Reachable (fun _ => True) (overlapping 0x41)
        ⟨overlapping 0x41, ⟨3, 0⟩, ⟨⟨0, 0⟩, 5, 1, none⟩, [⟨⟨0, 0⟩, 8, 8, none⟩]⟩ :=
      .enter .start trivial rfl
    exact .enter list trivial rfl
  · exact absurd (nested ⟨⟨0, 0⟩, 5, 1, none⟩ List.mem_cons_self) (by decide)
  · obtain ⟨stop, hfound, hle⟩ := covered _ hscalar
    rw [hstop] at hfound
    cases hfound
    exact absurd hle (by decide)

end Cursor

end AmqpBlob
