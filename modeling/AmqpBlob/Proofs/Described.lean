import AmqpBlob.Proofs.Calls

/-!
# The parts of described values

A described value is entered with the end that one scan finds for both of its parts, and each part is
passed over by a scan of its own. `Cursor.Tiled` says of a position that the elements from there on fill
their level, and each step keeps it. `Cursor.two_parts` says what follows for described values: whoever
enters one finds its descriptor and, one step further, its value, and may leave it unasked whether they
are there.
-/

namespace AmqpBlob

/-- Only one format code is that of described values. -/
lemma Kind.eq_of_ofCode?_described {code : UInt8} (h : ofCode? code = some .described) :
    code = Wire.describedCode := by
  unfold ofCode? at h
  split at h
  case h_1 => rfl
  all_goals cases h

namespace Cursor

variable {c inner : Cursor} {rest : Nat}

/-- As many elements as told stand from the position to the end of the level, and the level counts no
other ones. -/
structure Tiled (c : Cursor) (rest : Nat) : Prop where
  /-- Each element has its own format code. -/
  own : c.level.element? = none
  counted : c.here.index + rest = c.level.count
  filled : Wire.elementsStop c.bytes rest c.here.offset = .ok c.level.stop

namespace Tiled

/-- With no element to come there is no value. -/
lemma exhausted (h : c.Tiled 0) : c.hasCurrent = false := by
  refine Bool.eq_false_iff.2 fun current => ?_
  have counted := h.counted
  have below := (hasCurrent_iff.1 current).1
  omega

/-- The first element to come is the value that is stood on. -/
lemma hasCurrent (h : c.Tiled (rest + 1)) : c.hasCurrent = true := by
  have counted := h.counted
  have filled := Wire.le_of_skip h.filled
  exact hasCurrent_iff.2 ⟨by omega, by omega⟩

/-- The first element ends where the other ones start, and these are reached by a step. -/
lemma next (h : c.Tiled (rest + 1)) : c.stop = .ok c.next.here.offset ∧ c.next.Tiled rest := by
  have counted := h.counted
  have filled := h.filled
  rw [Nat.add_comm, Wire.elementsStop_add] at filled
  obtain ⟨middle, hfirst, hrest⟩ := Wire.exists_of_bind filled
  have hstop : c.stop = .ok middle := by
    rw [Cursor.stop, h.own]
    exact hfirst
  have inside : middle ≤ c.level.stop := Nat.le_trans (Nat.le_add_right _ _) (Wire.le_of_skip hrest)
  have hnext : c.next = { c with here := ⟨middle, c.here.index + 1⟩ } := by
    rw [Cursor.next, if_pos h.hasCurrent, hstop]
    exact if_pos inside
  rw [hnext]
  refine ⟨hstop, h.own, ?_, hrest⟩
  dsimp only
  omega

/-- A single element ends where the level does. -/
lemma stop (h : c.Tiled 1) : c.stop = .ok c.level.stop := by
  rw [Cursor.stop, h.own]
  exact h.filled

end Tiled

/-- A described value is filled by two elements, behind its format code. -/
lemma tiled_of_enter (described : c.kind = .ok .described) (henter : c.enter = .ok inner) :
    inner.here.offset = c.here.offset + 1 ∧ inner.Tiled 2 := by
  obtain ⟨code, data, hcode, hkind⟩ := exists_of_kind described
  obtain rfl := Kind.eq_of_ofCode?_described hkind
  obtain ⟨code', data', stop, inside, hcode', hstop, _, hinside, rfl⟩ := exists_of_enter henter
  cases hcode.symm.trans hcode'
  obtain ⟨own, rfl⟩ := interior_described_iff.1 hinside
  -- The value is no element of an array, so its format code stands before its parts.
  obtain ⟨_, ⟨shared, _⟩ | ⟨_, hbyte, rfl⟩⟩ := cases_of_code hcode
  · rw [own] at shared
    cases shared
  · rw [Cursor.stop, own] at hstop
    have both : Wire.elementsStop c.bytes 2 (c.here.offset + 1) = .ok stop :=
      calc Wire.elementsStop c.bytes 2 (c.here.offset + 1)
        _ = Wire.elementStop c.bytes (c.here.offset + 1) >>= Wire.elementStop c.bytes :=
          Wire.elementsStop_add c.bytes 1 1 _
        _ = Wire.elementStop c.bytes c.here.offset := (Wire.elementStop_described hbyte).symm
        _ = .ok stop := hstop
    exact ⟨rfl, rfl, rfl, both⟩

/-- Whoever enters a described value, wherever it stands and whatever is in it, stands on its descriptor,
right behind its format code. The first step tells that there is another part, the value, which starts
where the descriptor ends and ends where the level does, and the second step tells that there is none
behind it. -/
theorem two_parts (described : c.kind = .ok .described) (entered : c.enter = .ok inner) :
    inner.hasCurrent = true ∧ inner.here.offset = c.here.offset + 1 ∧
    (Walk.advance inner : Except WireError Bool × Cursor) = (.ok true, inner.next) ∧
    inner.stop = .ok inner.next.here.offset ∧
    inner.next.stop = .ok inner.level.stop ∧
    (Walk.advance inner.next : Except WireError Bool × Cursor) = (.ok false, inner.next.next) := by
  obtain ⟨behind, both⟩ := tiled_of_enter described entered
  obtain ⟨hstop, second⟩ := both.next
  obtain ⟨_, none⟩ := second.next
  have last := second.stop
  rw [level_next] at last
  refine ⟨both.hasCurrent, behind, ?_, hstop, last, ?_⟩
  · rw [Walk.advance_apply, second.hasCurrent]
  · rw [Walk.advance_apply, none.exhausted]

/-- A described value whose descriptor is described itself and whose value tells more items than it
holds, and a byte behind it that is no format code. -/
def oddParts : ByteArray :=
  ⟨#[0x00, 0x00, 0x45, 0x40, 0xc0, 0x01, 0x03, 0xff]⟩

/-- The cursor on the descriptor. -/
def oddDescriptor : Cursor where
  bytes := oddParts
  here := ⟨1, 0⟩
  level := ⟨⟨0, 0⟩, 7, 2, none⟩
  outer := [⟨⟨0, 0⟩, 8, 8, none⟩]

/-- The cursor on the value. -/
def oddValue : Cursor :=
  { oddDescriptor with here := ⟨4, 1⟩ }

/-- Both parts of the odd value are met, for all that is wrong inside and behind them. -/
theorem two_parts_odd :
    (ofBytes oddParts).kind = .ok .described ∧ (ofBytes oddParts).enter = .ok oddDescriptor ∧
    (Walk.advance oddDescriptor : Except WireError Bool × Cursor) = (.ok true, oddValue) ∧
    oddDescriptor.stop = .ok 4 ∧ oddValue.stop = .ok 7 ∧
    (Walk.advance oddValue : Except WireError Bool × Cursor) = (.ok false, oddValue.next) := by
  have described : (ofBytes oddParts).kind = .ok .described := rfl
  have entered : (ofBytes oddParts).enter = .ok oddDescriptor := rfl
  obtain ⟨_, _, first, hstop, last, second⟩ := two_parts described entered
  exact ⟨described, entered, first, hstop, last, second⟩

end Cursor

end AmqpBlob
