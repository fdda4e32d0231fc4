import AmqpBlob.Proofs.Shows
import AmqpBlob.Proofs.Wire.Part

/-!
# Cursors over a part of the bytes

A walk over bytes that stand within others gives the same there, with offsets moved, as long as it is
not cut off. There are two such laws: `mirror_part` holds of any bytes and excuses truncation, and
`mirror_encoding` holds of encodings, which are never cut off.
-/

namespace AmqpBlob

open Wire (Holds)
open WireError (Truncated)

namespace Cursor

/-- The second cursor is on the value that the first one is on, whose bytes stand in those of the
second one from `start` on. -/
structure SameValue (start : Nat) (c c' : Cursor) : Prop where
  within : Holds c'.bytes start c.bytes.data.toList
  offset : c'.here.offset = start + c.here.offset
  element? : c'.level.element? = c.level.element?
  hasCurrent : c'.hasCurrent = c.hasCurrent

/-- The second cursor is also in the level that the first one is in, which ends within the bytes of
the first one. -/
structure SameSiblings (start : Nat) (c c' : Cursor) : Prop where
  within : Holds c'.bytes start c.bytes.data.toList
  offset : c'.here.offset = start + c.here.offset
  index : c'.here.index = c.here.index
  stop : c'.level.stop = start + c.level.stop
  count : c'.level.count = c.level.count
  element? : c'.level.element? = c.level.element?
  stop_le : c.level.stop ≤ c.bytes.size

variable {start : Nat} {c c' : Cursor}

/-- Cursors on the same siblings are on the same value. -/
lemma SameSiblings.sameValue (h : SameSiblings start c c') : SameValue start c c' where
  within := h.within
  offset := h.offset
  element? := h.element?
  hasCurrent := by
    simp only [Cursor.hasCurrent, h.index, h.count, h.offset, h.stop, Nat.add_lt_add_iff_left]

/-- The format code of the value is the same, and its data stand as much further on as the value. -/
lemma SameValue.code (h : SameValue start c c') :
    Echoes Truncated (fun code code' => code' = (code.1, start + code.2)) c.code c'.code := by
  unfold Cursor.code
  rw [h.hasCurrent, h.element?, h.offset]
  split
  · split
    · exact .ok rfl
    · exact (Wire.echoes_byteAt h.within _).bind_eq fun byte => .ok rfl
  · exact .fault rfl

/-- The kind of the value is the same. -/
lemma SameValue.kind (h : SameValue start c c') : Echoes Truncated Eq c.kind c'.kind := by
  refine h.code.bind fun code code' same => ?_
  rw [same]
  dsimp only
  split
  · exact .ok rfl
  · exact .fault rfl

/-- The value is the same scalar. -/
lemma SameValue.scalar (h : SameValue start c c') : Echoes Truncated Eq c.scalar c'.scalar := by
  refine h.code.bind fun code code' same => ?_
  rw [same]
  exact Wire.echoes_scalarAt h.within _ _ _ _

/-- The value ends as much further on as it starts. -/
lemma SameValue.stop (h : SameValue start c c') :
    Echoes Truncated (fun stop stop' => stop' = start + stop) c.stop c'.stop := by
  have hsize := h.within.le_size
  unfold Cursor.stop
  rw [h.element?, h.offset]
  split
  · refine (Wire.echoes_dataLength h.within _ _).bind_eq fun length => .ok ?_
    exact Nat.add_assoc _ _ _
  · refine Wire.echoes_skip h.within ?_
    change start + c.bytes.size ≤ c'.bytes.size at hsize
    omega

/-- A value that is cut off passes the end of the bytes that it is cut off by. -/
lemma SameValue.stop_passes {fault : WireError} {stop : Nat} (h : SameValue start c c')
    (cut : c.stop = .error fault) (found : c'.stop = .ok stop) : start + c.bytes.size < stop := by
  unfold Cursor.stop at cut found
  rw [h.element?, h.offset] at found
  split at cut
  next code hcode =>
    simp only [hcode] at found
    obtain ⟨length, hlength, hstop⟩ := Wire.exists_of_bind found
    cases hstop
    rcases Wire.error_of_bind cut with hcut | ⟨_, _, hcut⟩
    · have := Wire.dataLength_passes hcut hlength
      omega
    · cases hcut
  next hcode =>
    simp only [hcode] at found
    refine Wire.skip_passes h.within ?_ cut found
    omega

/-- The next siblings are the same too: a value that is cut off in the part passes the end of its
level in the whole. -/
lemma SameSiblings.next (h : SameSiblings start c c') : SameSiblings start c.next c'.next := by
  have value := h.sameValue
  have exhausted : SameSiblings start c.exhaust c'.exhaust :=
    ⟨h.within, h.stop, h.count, h.stop, h.count, h.element?, h.stop_le⟩
  unfold Cursor.next
  rw [value.hasCurrent]
  split
  · have hstop := value.stop
    cases hc : c.stop with
    | ok stop =>
      rw [hc] at hstop
      cases hc' : c'.stop with
      | error fault =>
        rw [hc'] at hstop
        cases hstop
      | ok stop' =>
        rw [hc'] at hstop
        cases hstop.related_of_ok
        simp only [h.stop, Nat.add_le_add_iff_left]
        split
        · exact ⟨h.within, rfl, congrArg (· + 1) h.index, h.stop, h.count, h.element?, h.stop_le⟩
        · exact exhausted
    | error fault =>
      cases hc' : c'.stop with
      | error fault => exact exhausted
      | ok stop' =>
        have passes := value.stop_passes hc hc'
        have hstop := h.stop
        have hsize := h.stop_le
        dsimp only
        rw [if_neg (by omega)]
        exact exhausted
  · exact h

/-- The elements of an array stand as much further on, as many as in the part. -/
lemma SameValue.arrayInterior (h : SameValue start c c') (count offset : Nat) :
    Echoes Truncated (fun inside inside' =>
        inside' = ⟨start + inside.first, inside.count, inside.element?⟩)
      (c.arrayInterior count offset) (c'.arrayInterior count (start + offset)) := by
  refine (Wire.echoes_byteAt h.within offset).bind_eq fun element => ?_
  split
  · exact .fault rfl
  · exact .ok rfl

/-- So do the children of whatever else is compound. -/
lemma SameValue.interior (h : SameValue start c c') (code : UInt8) (data : Nat) :
    Echoes Truncated (fun inside inside' =>
        inside' = ⟨start + inside.first, inside.count, inside.element?⟩)
      (c.interior code data) (c'.interior code (start + data)) := by
  unfold Cursor.interior
  split
  case h_1 =>
    rw [h.element?]
    split
    · exact .fault rfl
    · exact .ok rfl
  case h_2 => exact .ok rfl
  case h_3 | h_4 => exact (Wire.echoes_byteAt h.within _).bind_eq fun count => .ok rfl
  case h_5 | h_6 => exact (Wire.echoes_wordAt h.within _ _).bind_eq fun count => .ok rfl
  case h_7 => exact (Wire.echoes_byteAt h.within _).bind_eq fun count => h.arrayInterior _ _
  case h_8 => exact (Wire.echoes_wordAt h.within _ _).bind_eq fun count => h.arrayInterior _ _
  case h_9 => exact h.kind.bind_eq fun kind => .error _

/-- Inside the value the children are the same siblings. -/
lemma SameValue.enter (h : SameValue start c c') :
    Echoes Truncated (SameSiblings start) c.enter c'.enter := by
  have hsize : start + c.bytes.size ≤ c'.bytes.size := h.within.le_size
  unfold Cursor.enter
  refine h.code.bind fun code code' same => h.stop.bind fun stop stop' same' => ?_
  rw [same, same']
  dsimp only
  by_cases cut : c.bytes.size < stop
  · rw [if_pos cut]
    exact .excused ⟨_, _, rfl⟩
  · rw [if_neg cut, if_neg (by omega)]
    refine (h.interior code.1 code.2).bind fun inside inside' hinside => .ok ?_
    rw [hinside]
    exact ⟨h.within, rfl, rfl, rfl, rfl, rfl, Nat.le_of_not_lt cut⟩

/-- Walks over a part of the bytes echo in the whole, unless they are cut off. -/
theorem mirror_part (start : Nat) : Mirror Truncated (SameValue start) (SameSiblings start) where
  value_of_level h := h.sameValue
  kind h := h.kind
  scalar h := h.scalar
  hasCurrent h := h.hasCurrent
  enter h := h.enter
  next h := h.next
  remaining h := by rw [h.count, h.index]

/-! ## Encodings are not cut off -/

/-- If there is a value at the position, it is an encoding. -/
def OnEncoding (c : Cursor) : Prop :=
  c.hasCurrent = true → ∃ element, c.StandsOn element

/-- A level that encodings fill to its end has an encoding wherever it has a value. -/
lemma Shows.onEncoding {trees : List WireTree} (h : c.Shows trees) : c.OnEncoding := by
  intro current
  cases trees with
  | nil =>
    rw [h.exhausted] at current
    cases current
  | cons tree rest =>
    obtain ⟨element, stands, _⟩ := h.first
    exact ⟨element, stands⟩

/-- Behind an encoding in a level that encodings fill, the rest of them fill it. -/
lemma Shows.next_shows {trees : List WireTree} (h : c.Shows trees) : ∃ rest, c.next.Shows rest := by
  cases trees with
  | nil =>
    rw [next_of_not_hasCurrent h.exhausted]
    exact ⟨[], h⟩
  | cons tree rest =>
    obtain ⟨_, _, _, shows⟩ := h.first
    exact ⟨rest, shows⟩

/-- A compound value is no scalar. -/
lemma scalar_of_compound {element : Element} (h : c.StandsOn element)
    (hcompound : element.tree.kind.isCompound = true) :
    c.scalar = .error (.notScalar element.tree.kind) := by
  rw [Cursor.scalar, h.code]
  exact Wire.scalarAt_of_compound (Wire.ofCode?_encodes h.encoded) hcompound

/-- What is asked of an encoding is not cut off. -/
lemma OnEncoding.not_truncated {fault : WireError} (h : c.OnEncoding) (truncated : fault.Truncated) :
    c.kind ≠ .error fault ∧ c.scalar ≠ .error fault ∧ c.enter ≠ .error fault := by
  obtain ⟨offset, needed, rfl⟩ := truncated
  cases current : c.hasCurrent with
  | false =>
    rw [Cursor.kind, Cursor.scalar, Cursor.enter, code_of_exhausted current]
    exact ⟨by rintro ⟨⟩, by rintro ⟨⟩, by rintro ⟨⟩⟩
  | true =>
    obtain ⟨element, stands⟩ := h current
    rw [stands.kind]
    rcases element.tree.scalar_or_compound with ⟨value, htree⟩ | hcompound
    · rw [stands.scalar htree, stands.enter_scalar htree]
      exact ⟨by rintro ⟨⟩, by rintro ⟨⟩, by rintro ⟨⟩⟩
    · obtain ⟨inner, _, henter, _⟩ := stands.enter hcompound
      rw [scalar_of_compound stands hcompound, henter]
      exact ⟨by rintro ⟨⟩, by rintro ⟨⟩, by rintro ⟨⟩⟩

/-- The inside of an encoding is filled with encodings. -/
lemma OnEncoding.shows_of_enter {inner : Cursor} (h : c.OnEncoding) (henter : c.enter = .ok inner) :
    ∃ trees, inner.Shows trees := by
  cases current : c.hasCurrent with
  | false =>
    rw [Cursor.enter, code_of_exhausted current] at henter
    cases henter
  | true =>
    obtain ⟨element, stands⟩ := h current
    rcases element.tree.scalar_or_compound with ⟨value, htree⟩ | hcompound
    · rw [stands.enter_scalar htree] at henter
      cases henter
    · obtain ⟨inner', hinner, shows⟩ := stands.shows rfl hcompound
      rw [hinner] at henter
      cases henter
      exact ⟨_, shows⟩

/-- Encodings are not cut off, so walks over them echo in the whole always. -/
theorem mirror_encoding (start : Nat) :
    Mirror (fun _ => False) (fun c c' => c.SameValue start c' ∧ c.OnEncoding)
      (fun c c' => c.SameSiblings start c' ∧ ∃ trees, c.Shows trees) where
  value_of_level h := by
    obtain ⟨same, trees, shows⟩ := h
    exact ⟨same.sameValue, shows.onEncoding⟩
  kind h := h.1.kind.strict fun _ truncated => (h.2.not_truncated truncated).1
  scalar h := h.1.scalar.strict fun _ truncated => (h.2.not_truncated truncated).2.1
  hasCurrent h := h.1.hasCurrent
  enter h := by
    have echoes := h.1.enter.strict fun _ truncated => (h.2.not_truncated truncated).2.2
    exact echoes.and fun _ => h.2.shows_of_enter
  next h := by
    obtain ⟨same, trees, shows⟩ := h
    exact ⟨same.next, shows.next_shows⟩
  remaining h := by rw [h.1.count, h.1.index]

end Cursor

end AmqpBlob
