import AmqpBlob.Proofs.Count
import AmqpBlob.Proofs.Machine

/-!
# How moves use up the bytes

Each move makes some measure smaller, whatever sizes and counts the bytes tell. A step from a value
to the next sibling raises the index, in a level of a fixed count, or leaves the level behind; a value
that is entered has its first child at a higher offset, if there is one, so that no more values are
entered, one in the other, than there are bytes.
-/

namespace AmqpBlob

open Relation (ReflTransGen)

namespace Cursor

variable {c d inner outer : Cursor} {code : UInt8} {data : Nat}

/-- Behind the last sibling there is no value. -/
lemma hasCurrent_exhaust (c : Cursor) : c.exhaust.hasCurrent = false := by
  rw [← Bool.not_eq_true, hasCurrent_iff]
  exact fun inside => Nat.lt_irrefl _ inside.1

/-- The second cursor is in the level of the first one, not before it. -/
structure Reaches (c d : Cursor) : Prop where
  sameLevel : c.SameLevel d
  ahead : d.hasCurrent = true → c.hasCurrent = true ∧ c.here.offset ≤ d.here.offset

/-- A cursor is not before itself. -/
lemma Reaches.refl (c : Cursor) : c.Reaches c :=
  ⟨.refl c, fun current => ⟨current, Nat.le_refl _⟩⟩

/-- What is not before a later cursor is not before an earlier one. -/
lemma Reaches.trans {e : Cursor} (h : c.Reaches d) (h' : d.Reaches e) : c.Reaches e where
  sameLevel := h.sameLevel.trans h'.sameLevel
  ahead current := by
    obtain ⟨before, further⟩ := h'.ahead current
    obtain ⟨first, far⟩ := h.ahead before
    exact ⟨first, Nat.le_trans far further⟩

/-- The next sibling is not before the value. -/
lemma reaches_next (c : Cursor) : c.Reaches c.next := by
  refine ⟨c.sameLevel_next, fun behind => ?_⟩
  by_cases current : c.hasCurrent = true
  · refine ⟨current, ?_⟩
    obtain ⟨stop, hstop, hnext⟩ | hnext := next_of_hasCurrent current
    · rw [hnext]
      exact le_stop hstop
    · rw [hnext, hasCurrent_exhaust] at behind
      cases behind
  · rw [next_of_not_hasCurrent (Bool.eq_false_iff.2 current)] at behind
    exact absurd behind current

/-- Where the format code was read, the data start behind it. -/
lemma le_data_of_code (h : c.code = .ok (code, data)) :
    c.here.offset ≤ data ∧ (c.level.element? = none → data = c.here.offset + 1) := by
  obtain ⟨_, ⟨shared, rfl⟩ | ⟨_, _, rfl⟩⟩ := cases_of_code h
  · refine ⟨Nat.le_refl _, fun own => ?_⟩
    rw [own] at shared
    cases shared
  · exact ⟨Nat.le_succ _, fun _ => rfl⟩

/-- The first element of an array stands behind the shared format code. -/
lemma lt_first_of_arrayInterior {count offset : Nat} {inside : Interior}
    (h : c.arrayInterior count offset = .ok inside) : offset < inside.first := by
  obtain ⟨element, _, h⟩ := Wire.exists_of_bind h
  split at h
  · cases h
  · cases h
    exact Nat.lt_succ_self _

/-- The first child stands behind the header, and only a described value has none. -/
lemma lt_first_of_interior {inside : Interior} (h : c.interior code data = .ok inside)
    (some : 0 < inside.count) :
    data < inside.first ∨ inside.first = data ∧ c.level.element? = none := by
  unfold interior at h
  split at h
  case h_1 =>
    split at h
    · cases h
    next own =>
      cases h
      exact .inr ⟨rfl, Option.not_isSome_iff_eq_none.1 own⟩
  case h_2 =>
    cases h
    exact absurd some (Nat.lt_irrefl _)
  case h_3 | h_4 | h_5 | h_6 =>
    obtain ⟨count, _, h⟩ := Wire.exists_of_bind h
    cases h
    exact .inl (by dsimp only; omega)
  case h_7 | h_8 =>
    obtain ⟨count, _, h⟩ := Wire.exists_of_bind h
    have := lt_first_of_arrayInterior h
    exact .inl (by omega)
  case h_9 =>
    obtain ⟨_, _, h⟩ := Wire.exists_of_bind h
    cases h

/-- Only where there is a value one can be entered. -/
lemma hasCurrent_of_enter (h : c.enter = .ok inner) : c.hasCurrent = true := by
  by_contra none
  rw [enter_of_exhausted (Bool.eq_false_iff.2 none)] at h
  cases h

/-- The value that was entered is where the level goes back to. -/
lemma parent_of_enter (h : c.enter = .ok inner) : inner.level.parent = c.here := by
  have back := leave?_of_enter h
  obtain ⟨_, _, _, _, houter⟩ := enter_levels h
  rw [leave?, houter] at back
  exact congrArg Cursor.here (Option.some.inj back)

/-- The first child of a value that is entered stands at a higher offset. -/
lemma offset_lt_of_enter (h : c.enter = .ok inner) (current : inner.hasCurrent = true) :
    c.here.offset < inner.here.offset := by
  obtain ⟨code, data, stop, inside, hcode, _, _, hinside, rfl⟩ := exists_of_enter h
  obtain ⟨hdata, hown⟩ := le_data_of_code hcode
  have some : 0 < inside.count := (hasCurrent_iff.1 current).1
  -- Children that start at the data stand behind a format code that the value has to itself.
  rcases lt_first_of_interior hinside some with behind | ⟨hfirst, own⟩
  · exact Nat.lt_of_le_of_lt hdata behind
  · have := hown own
    change c.here.offset < inside.first
    omega

end Cursor

/-! ## How deep values nest -/

/-- There is a value at the position in the level. -/
def Position.In (here : Position) (level : Level) : Prop :=
  here.index < level.count ∧ here.offset < level.stop

/-- Each level was entered from a value, and a value in it stands at a higher offset than that one. -/
inductive Sunk : Position → Level → List Level → Prop where
  | outermost {here : Position} {level : Level} : Sunk here level []
  | inside {here : Position} {level around : Level} {outer : List Level} :
    (here.In level → level.parent.offset < here.offset) →
    level.parent.In around →
    Sunk level.parent around outer →
    Sunk here level (around :: outer)

/-- In the same level one may be further on. -/
lemma Sunk.move {here there : Position} {level : Level} {outer : List Level}
    (h : Sunk here level outer)
    (ahead : there.In level → here.In level ∧ here.offset ≤ there.offset) :
    Sunk there level outer := by
  cases h with
  | outermost => exact .outermost
  | inside deeper entered around =>
    refine .inside (fun current => ?_) entered around
    obtain ⟨before, further⟩ := ahead current
    exact Nat.lt_of_lt_of_le (deeper before) further

/-- Around a value there are no more levels than bytes before it. -/
lemma Sunk.length_le {here : Position} {level : Level} {outer : List Level}
    (h : Sunk here level outer) (current : here.In level) : outer.length ≤ here.offset := by
  induction h with
  | outermost => exact Nat.zero_le _
  | inside deeper entered _ ih =>
    have := ih entered
    have := deeper current
    rw [List.length_cons]
    omega

namespace Cursor

variable {c d inner outer : Cursor}

/-- Further on in a level, the levels around still lead down. -/
lemma Reaches.sunk (h : c.Reaches d) (sunk : Sunk c.here c.level c.outer) :
    Sunk d.here d.level d.outer := by
  obtain ⟨⟨_, hlevel, houter⟩, ahead⟩ := h
  rw [hasCurrent_iff, hasCurrent_iff, hlevel] at ahead
  rw [hlevel, houter]
  exact sunk.move ahead

/-- One move keeps that levels lead down. -/
lemma sunk_move (sunk : Sunk c.here c.level c.outer) (hmove : Move c d) :
    Sunk d.here d.level d.outer := by
  cases hmove with
  | next => exact c.reaches_next.sunk sunk
  | enter henter =>
    obtain ⟨_, _, _, _, houter⟩ := enter_levels henter
    have hparent := parent_of_enter henter
    rw [houter]
    refine .inside (fun current => ?_) ?_ ?_
    · rw [hparent]
      exact offset_lt_of_enter henter (hasCurrent_iff.2 current)
    · rw [hparent]
      exact hasCurrent_iff.1 (hasCurrent_of_enter henter)
    · rw [hparent]
      exact sunk
  | leave hleave =>
    unfold leave? at hleave
    split at hleave
    · cases hleave
    next level around houter =>
      cases hleave
      rw [houter] at sunk
      cases sunk with
      | inside _ _ around => exact around

/-- Wherever moves lead, the levels with a value in the last one are no more than bytes before it. -/
lemma depth_le_of_moves {bytes : ByteArray} {count : Nat}
    (moves : ReflTransGen Move (starting bytes count) c) (current : c.hasCurrent = true) :
    c.depth ≤ c.here.offset := by
  have sunk : Sunk c.here c.level c.outer := by
    clear current
    induction moves with
    | refl => exact .outermost
    | tail _ move ih => exact sunk_move ih move
  exact sunk.length_le (hasCurrent_iff.1 current)

end Cursor

end AmqpBlob
