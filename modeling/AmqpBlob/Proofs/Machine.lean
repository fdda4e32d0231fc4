import AmqpBlob.Proofs.Reach
import AmqpBlob.Proofs.Wire.Guarded
import Mathlib.Logic.Relation

/-!
# Cursors with machine words

The looks and the moves of a cursor as a machine runs them whose words have 64 bits, and the states that
moves lead to on it. Sizes and counts in the bytes may tell anything: the first child of a level may
stand behind its end, and a value may pass the end of its level or of the bytes. Still each offset and
the end of each level stay within the bytes, so nothing that the machine computes next is too large for
it.

How many values the data as a whole may hold makes no difference if it is no fewer than there are bytes
(`Cursor.alike_of_moves`), so counting the bytes does as well as counting to the largest word.
-/

namespace AmqpBlob

open Relation (ReflTransGen)

namespace Guarded

open Cursor (Interior)

/-- The format code of the current value and the offset of its data. -/
def code (c : Cursor) : Guarded (UInt8 × Nat) :=
  if c.hasCurrent then
    match c.level.element? with
    | some code => return (code, c.here.offset)
    | none => do return (← byteAt c.bytes c.here.offset, ← sum c.here.offset 1)
  else
    throw (.exhausted c.here.offset)

/-- The kind of the current value. -/
def kind (c : Cursor) : Guarded Kind := do
  let (code, data) ← code c
  match Kind.ofCode? code with
  | some kind => return kind
  | none => throw (.invalidFormatCode code (data - 1))

/-- The current value as a scalar. -/
def scalar (c : Cursor) : Guarded Scalar := do
  let (code, data) ← code c
  scalarAt c.bytes c.here.offset code data

/-- The offset behind the current value. -/
def stop (c : Cursor) : Guarded Nat :=
  match c.level.element? with
  | some code => do sum c.here.offset (← dataLength c.bytes code c.here.offset)
  | none => elementStop c.bytes c.here.offset

/-- The cursor on the next sibling. -/
def next (c : Cursor) : Option Cursor :=
  if c.hasCurrent then do
    match ← (stop c).run with
    | .ok stop =>
      if stop ≤ c.level.stop then return { c with here := ⟨stop, ← sum c.here.index 1⟩ }
      else return c.exhaust
    | .error _ => return c.exhaust
  else
    some c

/-- The inside of an array with `count` elements whose shared format code stands at `offset`. -/
def arrayInterior (c : Cursor) (count offset : Nat) : Guarded Interior := do
  let element ← byteAt c.bytes offset
  if element = Wire.describedCode then
    throw (.unread offset .arrayOfDescribed)
  else
    return ⟨← sum offset 1, count, some element⟩

/-- The inside of the current value, whose format code is `code` and whose data starts at `data`. -/
def interior (c : Cursor) (code : UInt8) (data : Nat) : Guarded Interior := do
  match code with
  | 0x00 =>
    if c.level.element?.isSome then
      throw (.unread c.here.offset .describedElement)
    else
      return ⟨data, 2, none⟩
  | 0x45 => return ⟨data, 0, none⟩
  | 0xc0 | 0xc1 => return ⟨← sum data 2, (← byteAt c.bytes (← sum data 1)).toNat, none⟩
  | 0xd0 | 0xd1 => return ⟨← sum data 8, ← wordAt c.bytes (← sum data 4) 4, none⟩
  | 0xe0 => arrayInterior c (← byteAt c.bytes (← sum data 1)).toNat (← sum data 2)
  | 0xf0 => arrayInterior c (← wordAt c.bytes (← sum data 4) 4) (← sum data 8)
  | _ => throw (.notCompound (← kind c))

/-- Enters the current value: the cursor on its first child. -/
def enter (c : Cursor) : Guarded Cursor := do
  let (code, data) ← code c
  let stop ← stop c
  if c.bytes.size < stop then
    throw (.truncated c.here.offset (← difference stop c.here.offset))
  let inside ← interior c code data
  return { c with
    here := ⟨inside.first, 0⟩
    level := ⟨c.here, stop, inside.count, inside.element?⟩
    outer := c.level :: c.outer }

end Guarded

/-- What holds of a position and of the level that it is in, on data of a size. -/
structure Placed (size : Nat) (here : Position) (level : Level) : Prop where
  offset_le : here.offset ≤ size
  stop_le : level.stop ≤ size
  index_le : here.index ≤ level.count
  /-- The count fits into a word. -/
  count_lt : level.count < Guarded.wordLimit
  /-- The elements of an array are no described values. -/
  plain : level.element? ≠ some Wire.describedCode

/-- A position with the levels around it, each of which was entered from a position in the next one. -/
inductive Nested (size : Nat) : Position → Level → List Level → Prop where
  | outermost {here : Position} {level : Level} :
    Placed size here level →
    Nested size here level []
  | inside {here : Position} {level around : Level} {outer : List Level} :
    Placed size here level →
    Nested size level.parent around outer →
    Nested size here level (around :: outer)

namespace Nested

variable {size : Nat} {here : Position} {level : Level} {outer : List Level}

/-- The innermost position is placed like all of them. -/
lemma placed (h : Nested size here level outer) : Placed size here level := by
  cases h with
  | outermost placed => exact placed
  | inside placed _ => exact placed

/-- In the same level one may be at another position. -/
lemma move (h : Nested size here level outer) {there : Position} (offset_le : there.offset ≤ size)
    (index_le : there.index ≤ level.count) : Nested size there level outer := by
  have hplaced : Placed size there level := { h.placed with offset_le, index_le }
  cases h with
  | outermost _ => exact .outermost hplaced
  | inside _ around => exact .inside hplaced around

/-- Each level ends within the bytes, and none is of described elements. -/
lemma forall_levels (h : Nested size here level outer) :
    ∀ entered ∈ level :: outer, entered.stop ≤ size ∧ entered.element? ≠ some Wire.describedCode := by
  induction h with
  | outermost placed => exact List.forall_mem_singleton.2 ⟨placed.stop_le, placed.plain⟩
  | inside placed _ ih => exact List.forall_mem_cons.2 ⟨⟨placed.stop_le, placed.plain⟩, ih⟩

end Nested

namespace Cursor

/-- The cursor on the first value of the bytes, where the data as a whole may hold `count` values,
however many bytes there are. -/
def starting (bytes : ByteArray) (count : Nat) : Cursor :=
  { ofBytes bytes with level := { (ofBytes bytes).level with count } }

/-- The cursor that bytes are read with counts the bytes. -/
lemma ofBytes_eq_starting (bytes : ByteArray) : ofBytes bytes = starting bytes bytes.size :=
  rfl

/-- One move of a cursor. A value that is not entered is none. -/
inductive Move : Cursor → Cursor → Prop where
  | next {c : Cursor} : Move c c.next
  | enter {c inner : Cursor} :
    c.enter = .ok inner →
    Move c inner
  | leave {c outer : Cursor} :
    c.leave? = some outer →
    Move c outer

variable {c inner outer : Cursor} {code : UInt8} {data : Nat}

/-- The cursor's position and levels are as the bytes allow. -/
def Bounded (c : Cursor) : Prop :=
  Nested c.bytes.size c.here c.level c.outer

/-- The data of the current value start within the bytes, or right behind them. -/
lemma Bounded.data_le (h : c.Bounded) (hcode : c.code = .ok (code, data)) : data ≤ c.bytes.size :=
  data_le_of_code h.placed.stop_le hcode

/-- The next sibling keeps the bounds, as a step does not pass the end of the level. -/
lemma Bounded.next (h : c.Bounded) : c.next.Bounded := by
  unfold Bounded at h ⊢
  unfold Cursor.next exhaust
  split
  next current =>
    split
    next stop hstop =>
      split
      next inside =>
        exact h.move (Nat.le_trans inside h.placed.stop_le) (hasCurrent_iff.1 current).1
      next => exact h.move h.placed.stop_le (Nat.le_refl _)
    next => exact h.move h.placed.stop_le (Nat.le_refl _)
  next => exact h

/-- The elements of an array start within the bytes and are not described. -/
lemma arrayInterior_bounds {count offset : Nat} {inside : Interior}
    (h : c.arrayInterior count offset = .ok inside) :
    inside.first ≤ c.bytes.size ∧ inside.count = count ∧
      inside.element? ≠ some Wire.describedCode := by
  obtain ⟨element, helement, h⟩ := Wire.exists_of_bind h
  have := Wire.lt_size_of_byteAt helement
  split at h
  · cases h
  next plain =>
    cases h
    exact ⟨this, rfl, fun same => plain (Option.some.inj same)⟩

/-- The children of a value start within the bytes, and their count is told by four bytes at most.
-/
lemma interior_bounds {inside : Interior} (hdata : data ≤ c.bytes.size)
    (h : c.interior code data = .ok inside) :
    inside.first ≤ c.bytes.size ∧ inside.count < 2 ^ 32 ∧
      inside.element? ≠ some Wire.describedCode := by
  unfold interior at h
  split at h
  case h_1 =>
    split at h
    · cases h
    · cases h
      exact ⟨hdata, (by decide : 2 < 2 ^ 32), nofun⟩
  case h_2 =>
    cases h
    exact ⟨hdata, (by decide : 0 < 2 ^ 32), nofun⟩
  case h_3 | h_4 =>
    obtain ⟨count, hcount, h⟩ := Wire.exists_of_bind h
    have := Wire.lt_size_of_byteAt hcount
    have := count.toNat_lt
    cases h
    exact ⟨by dsimp only; omega, by dsimp only; omega, nofun⟩
  case h_5 | h_6 =>
    obtain ⟨count, hcount, h⟩ := Wire.exists_of_bind h
    have := Wire.le_size_of_wordAt hcount
    have := Guarded.lt_of_wordAt hcount
    cases h
    exact ⟨by dsimp only; omega, by dsimp only; omega, nofun⟩
  case h_7 =>
    obtain ⟨count, hcount, h⟩ := Wire.exists_of_bind h
    obtain ⟨hfirst, hcount, hplain⟩ := arrayInterior_bounds h
    have := count.toNat_lt
    exact ⟨hfirst, by omega, hplain⟩
  case h_8 =>
    obtain ⟨count, hword, h⟩ := Wire.exists_of_bind h
    obtain ⟨hfirst, hcount, hplain⟩ := arrayInterior_bounds h
    have := Guarded.lt_of_wordAt hword
    exact ⟨hfirst, by omega, hplain⟩
  case h_9 =>
    obtain ⟨_, _, h⟩ := Wire.exists_of_bind h
    cases h

/-- Entering a value keeps the bounds, as its end is checked against the bytes. -/
lemma Bounded.enter (h : c.Bounded) (henter : c.enter = .ok inner) : inner.Bounded := by
  obtain ⟨_, _, _, _, hcode, _, within, hinside, rfl⟩ := exists_of_enter henter
  obtain ⟨hfirst, hcount, hplain⟩ := interior_bounds (h.data_le hcode) hinside
  refine .inside ⟨hfirst, within, Nat.zero_le _, ?_, hplain⟩ h
  exact Nat.lt_trans hcount (by decide)

/-- Leaving a level keeps the bounds, as it leads back to a position that kept them. -/
lemma Bounded.leave (h : c.Bounded) (hleave : c.leave? = some outer) : outer.Bounded := by
  unfold Bounded at h
  unfold leave? at hleave
  split at hleave
  · cases hleave
  next level around houter =>
    cases hleave
    rw [houter] at h
    cases h with
    | inside _ around => exact around

/-- One move keeps the bounds. -/
lemma Bounded.move (h : c.Bounded) {moved : Cursor} (hmove : Move c moved) : moved.Bounded := by
  cases hmove with
  | next => exact h.next
  | enter henter => exact h.enter henter
  | leave hleave => exact h.leave hleave

/-- A move stays in the same bytes. -/
lemma bytes_move {moved : Cursor} (hmove : Move c moved) : moved.bytes = c.bytes := by
  cases hmove with
  | next => exact c.bytes_next
  | enter henter => exact (enter_levels henter).1
  | leave hleave => exact (leave_levels hleave).1

/-- All moves stay in the same bytes. -/
lemma bytes_of_moves {bytes : ByteArray} {count : Nat}
    (moves : ReflTransGen Move (starting bytes count) c) : c.bytes = bytes := by
  induction moves with
  | refl => rfl
  | tail _ move ih => exact (bytes_move move).trans ih

/-- All moves keep the bounds. -/
lemma bounded_of_moves {bytes : ByteArray} {count : Nat} (fits : count < Guarded.wordLimit)
    (moves : ReflTransGen Move (starting bytes count) c) : c.Bounded := by
  induction moves with
  | refl => exact .outermost ⟨Nat.zero_le _, Nat.le_refl _, Nat.zero_le _, fits, nofun⟩
  | tail _ move ih => exact ih.move move

/-- No value ends before it starts. -/
lemma le_stop {stop : Nat} (h : c.stop = .ok stop) : c.here.offset ≤ stop := by
  unfold Cursor.stop at h
  split at h
  · obtain ⟨length, _, hstop⟩ := Wire.exists_of_bind h
    cases hstop
    exact Nat.le_add_right _ _
  · exact Nat.le_of_lt (Wire.lt_of_elementStop h)

end Cursor

/-! ## The count of the data as a whole -/

/-- A position in data that may hold as many values as bytes. Each value before it took a byte or
more. -/
structure Ample (here : Position) (level : Level) : Prop where
  own : level.element? = none
  stop_le : level.stop ≤ level.count
  index_le : here.offset < level.stop → here.index ≤ here.offset

/-- Positions with the levels around them that differ only in how many values the data as a whole
may hold, and in how many of them were before. -/
inductive Recounted : Position → Level → List Level → Position → Level → List Level → Prop where
  | outermost {here here' : Position} {level level' : Level} :
    Ample here level →
    Ample here' level' →
    here.offset = here'.offset →
    level.stop = level'.stop →
    Recounted here level [] here' level' []
  | inside {here parent' : Position} {level around around' : Level} {outer outer' : List Level} :
    Recounted level.parent around outer parent' around' outer' →
    Recounted here level (around :: outer) here { level with parent := parent' } (around' :: outer')

/-- Where bytes are left, another value may stand. -/
lemma Ample.index_lt {here : Position} {level : Level} (h : Ample here level)
    (left : here.offset < level.stop) : here.index < level.count :=
  calc here.index
      ≤ here.offset := h.index_le left
    _ < level.stop := left
    _ ≤ level.count := h.stop_le

namespace Recounted

variable {here here' : Position} {level level' : Level} {outer outer' : List Level}
  (h : Recounted here level outer here' level' outer')
include h

/-- The offsets are the same, and so is what the levels tell of their values. -/
lemma same : here.offset = here'.offset ∧ level.stop = level'.stop ∧
    level.element? = level'.element? ∧ outer.length = outer'.length := by
  induction h with
  | outermost ample ample' offset stop =>
    exact ⟨offset, stop, ample.own.trans ample'.own.symm, rfl⟩
  | inside _ ih => exact ⟨rfl, rfl, rfl, congrArg (· + 1) ih.2.2.2⟩

/-- At both positions there is a value or at none. -/
lemma current_iff : here.index < level.count ∧ here.offset < level.stop ↔
    here'.index < level'.count ∧ here'.offset < level'.stop := by
  cases h with
  | outermost ample ample' offset stop =>
    constructor
    · rintro ⟨_, left⟩
      rw [offset, stop] at left
      exact ⟨ample'.index_lt left, left⟩
    · rintro ⟨_, left⟩
      rw [← offset, ← stop] at left
      exact ⟨ample.index_lt left, left⟩
  | inside _ => exact Iff.rfl

/-- Behind all siblings nothing else differs either. -/
lemma exhaust : Recounted ⟨level.stop, level.count⟩ level outer
    ⟨level'.stop, level'.count⟩ level' outer' := by
  cases h with
  | outermost ample ample' _ stop =>
    refine .outermost ⟨ample.own, ample.stop_le, ?_⟩ ⟨ample'.own, ample'.stop_le, ?_⟩ stop stop
    · exact fun left => absurd left (Nat.lt_irrefl _)
    · exact fun left => absurd left (Nat.lt_irrefl _)
  | inside around => exact .inside around

/-- A step over a value leads to positions of this kind again. -/
lemma step {stop : Nat} (current : here.offset < level.stop)
    (longer : level.element? = none → here.offset < stop) :
    Recounted ⟨stop, here.index + 1⟩ level outer ⟨stop, here'.index + 1⟩ level' outer' := by
  cases h with
  | outermost ample ample' offset hstop =>
    have behind := longer ample.own
    refine .outermost { ample with index_le := fun _ => ?_ } { ample' with index_le := fun _ => ?_ }
      rfl hstop
    · exact Nat.lt_of_le_of_lt (ample.index_le current) behind
    · rw [offset] at behind current
      rw [hstop] at current
      exact Nat.lt_of_le_of_lt (ample'.index_le current) behind
  | inside around => exact .inside around

end Recounted

namespace Cursor

/-- The cursors are in one place of the same bytes, of which a different number of values may be
expected. -/
structure Alike (c c' : Cursor) : Prop where
  bytes : c.bytes = c'.bytes
  places : Recounted c.here c.level c.outer c'.here c'.level c'.outer

variable {c c' inner outer : Cursor}

/-- There is a value in both places or in none. -/
lemma Alike.hasCurrent (h : c.Alike c') : c.hasCurrent = c'.hasCurrent := by
  rw [Bool.eq_iff_iff, hasCurrent_iff, hasCurrent_iff]
  exact h.places.current_iff

/-- The value has the same format code and the same data. -/
lemma Alike.code (h : c.Alike c') : c.code = c'.code := by
  obtain ⟨offset, _, shared, _⟩ := h.places.same
  rw [Cursor.code, Cursor.code, h.hasCurrent, h.bytes, offset, shared]

/-- The value has the same kind. -/
lemma Alike.kind (h : c.Alike c') : c.kind = c'.kind := by
  rw [Cursor.kind, Cursor.kind, h.code]

/-- The value is the same scalar. -/
lemma Alike.scalar (h : c.Alike c') : c.scalar = c'.scalar := by
  rw [Cursor.scalar, Cursor.scalar, h.code, h.bytes, h.places.same.1]

/-- The value ends at the same offset. -/
lemma Alike.stop (h : c.Alike c') : c.stop = c'.stop := by
  obtain ⟨offset, _, shared, _⟩ := h.places.same
  rw [Cursor.stop, Cursor.stop, h.bytes, offset, shared]

/-- Its children stand in the same place and are as many. -/
lemma Alike.interior (h : c.Alike c') (code : UInt8) (data : Nat) :
    c.interior code data = c'.interior code data := by
  obtain ⟨offset, _, shared, _⟩ := h.places.same
  unfold Cursor.interior arrayInterior
  rw [h.kind, h.bytes, offset, shared]

/-- The next siblings are in one place too. -/
lemma Alike.next (h : c.Alike c') : c.next.Alike c'.next := by
  obtain ⟨_, hstop, _, _⟩ := h.places.same
  have exhausted : c.exhaust.Alike c'.exhaust := ⟨h.bytes, h.places.exhaust⟩
  unfold Cursor.next
  rw [← h.hasCurrent, ← h.stop, ← hstop]
  split
  next current =>
    split
    next stop found =>
      split
      · refine ⟨h.bytes, h.places.step (hasCurrent_iff.1 current).2 fun own => ?_⟩
        rw [Cursor.stop, own] at found
        exact Wire.lt_of_elementStop found
      · exact exhausted
    · exact exhausted
  · exact h

/-- A value is entered from both or, for the same fault, from neither. -/
lemma Alike.enter (h : c.Alike c') :
    (∃ inner inner', c.enter = .ok inner ∧ c'.enter = .ok inner' ∧ inner.Alike inner') ∨
      ∃ fault, c.enter = .error fault ∧ c'.enter = .error fault := by
  unfold Cursor.enter
  rw [← h.code, ← h.stop, ← h.bytes, ← h.places.same.1]
  cases c.code with
  | error fault => exact .inr ⟨fault, rfl, rfl⟩
  | ok code =>
    cases c.stop with
    | error fault => exact .inr ⟨fault, rfl, rfl⟩
    | ok stop =>
      simp only [bind, Except.bind, ← h.interior]
      split
      · exact .inr ⟨_, rfl, rfl⟩
      · cases c.interior code.1 code.2 with
        | error fault => exact .inr ⟨fault, rfl, rfl⟩
        | ok inside => exact .inl ⟨_, _, rfl, rfl, rfl, .inside h.places⟩

/-- If one of the levels can be left, so can the other one. -/
lemma Alike.leave (h : c.Alike c') (hleave : c.leave? = some outer) :
    ∃ outer', c'.leave? = some outer' ∧ outer.Alike outer' := by
  obtain ⟨bytes, here, level, around⟩ := c
  obtain ⟨bytes', here', level', around'⟩ := c'
  obtain ⟨hbytes, places⟩ := h
  cases places with
  | outermost => cases hleave
  | inside places =>
    cases hleave
    exact ⟨_, rfl, hbytes, places⟩

/-- Each move from one of the cursors can be made from the other one. -/
lemma Alike.move {moved : Cursor} (h : c.Alike c') (hmove : Move c moved) :
    ∃ moved', Move c' moved' ∧ moved.Alike moved' := by
  cases hmove with
  | next => exact ⟨_, .next, h.next⟩
  | enter henter =>
    obtain ⟨inner, inner', hinner, henter', alike⟩ | ⟨fault, hfault, _⟩ := h.enter
    · rw [henter] at hinner
      cases hinner
      exact ⟨inner', .enter henter', alike⟩
    · rw [henter] at hfault
      cases hfault
  | leave hleave =>
    obtain ⟨outer', hleave', alike⟩ := h.leave hleave
    exact ⟨outer', .leave hleave', alike⟩

/-- Both counts are enough for what stands at the start. -/
lemma alike_starting {bytes : ByteArray} {count count' : Nat} (ample : bytes.size ≤ count)
    (ample' : bytes.size ≤ count') : (starting bytes count).Alike (starting bytes count') :=
  ⟨rfl, .outermost ⟨rfl, ample, fun _ => Nat.zero_le _⟩ ⟨rfl, ample', fun _ => Nat.zero_le _⟩ rfl rfl⟩

/-- No look and no move tells how many values the data as a whole may hold, if these are no fewer than
its bytes: wherever moves lead, the same moves lead to what looks the same, and on in the same way. -/
lemma alike_of_moves {bytes : ByteArray} {count count' : Nat} (ample : bytes.size ≤ count)
    (ample' : bytes.size ≤ count') (moves : ReflTransGen Move (starting bytes count) c) :
    ∃ c', ReflTransGen Move (starting bytes count') c' ∧ c.Alike c' := by
  induction moves with
  | refl => exact ⟨_, .refl, alike_starting ample ample'⟩
  | tail _ move ih =>
    obtain ⟨c', moves', alike⟩ := ih
    obtain ⟨moved', move', alike'⟩ := alike.move move
    exact ⟨moved', moves'.tail move', alike'⟩

end Cursor

/-! ## Cursors that do not halt -/

namespace Guarded

variable {c : Cursor} (short : c.bytes.size < 2 ^ 63) (bounded : c.Bounded)
include short bounded

/-- The format code is told without halting, as its offset is within the bytes. -/
lemma agrees_code : Agrees (code c) c.code := by
  have hoffset := bounded.placed.offset_le
  unfold code Cursor.code
  split
  · cases c.level.element? with
    | some shared => exact .pure _
    | none =>
      refine (agrees_byteAt short c.here.offset).bind fun byte _ => ?_
      exact .lift (sum_of_lt (by rw [wordLimit]; omega)) (.pure _)
  · exact .throw _

/-- The kind is told without halting. -/
lemma agrees_kind : Agrees (kind c) c.kind := by
  refine (agrees_code short bounded).bind fun ⟨code, data⟩ _ => ?_
  dsimp only
  cases Kind.ofCode? code with
  | some kind => exact .pure kind
  | none => exact .throw _

/-- A scalar is read without halting. -/
lemma agrees_scalar : Agrees (scalar c) c.scalar :=
  (agrees_code short bounded).bind fun found _ => agrees_scalarAt short c.here.offset found.1 found.2

/-- The end of a value is told without halting, also where it passes the bytes. -/
lemma agrees_stop : Agrees (stop c) c.stop := by
  have hoffset := bounded.placed.offset_le
  unfold stop Cursor.stop
  cases c.level.element? with
  | some shared =>
    refine (agrees_dataLength short shared c.here.offset).bind fun length hlength => ?_
    have := dataLength_lt hlength
    exact .step (sum_of_lt (by rw [wordLimit]; omega))
  | none => exact agrees_elementStop short c.here.offset

/-- A step does not halt, as the count of the level fits into a word. -/
lemma agrees_next : next c = some c.next := by
  have hcount := bounded.placed.count_lt
  unfold next Cursor.next
  split
  next current =>
    have hindex := (Cursor.hasCurrent_iff.1 current).1
    have hsum : sum c.here.index 1 = some (c.here.index + 1) := sum_of_lt (by omega)
    rw [agrees_stop short bounded]
    cases c.stop with
    | error fault => rfl
    | ok stop =>
      change (if stop ≤ c.level.stop then _ else _) = some (if stop ≤ c.level.stop then _ else _)
      split
      · rw [hsum]
        rfl
      · rfl
  next => rfl

omit bounded in
/-- The inside of an array is told without halting. -/
lemma agrees_arrayInterior (count offset : Nat) :
    Agrees (arrayInterior c count offset) (c.arrayInterior count offset) := by
  refine (agrees_byteAt short offset).bind fun element helement => ?_
  have := Wire.lt_size_of_byteAt helement
  split
  · exact .throw _
  · exact .lift (sum_of_lt (by rw [wordLimit]; omega)) (.pure _)

/-- The inside of a value is told without halting, if its data start within the bytes. -/
lemma agrees_interior {code : UInt8} {data : Nat} (hdata : data ≤ c.bytes.size) :
    Agrees (interior c code data) (c.interior code data) := by
  have header (size : Nat) (hsize : size ≤ 8) : sum data size = some (data + size) :=
    sum_of_lt (by rw [wordLimit]; omega)
  unfold interior
  split
  case h_1 =>
    unfold Cursor.interior
    split
    · exact .throw _
    · exact .pure _
  case h_2 => exact .pure _
  case h_3 | h_4 =>
    refine .lift (header 2 (by decide)) (.lift (header 1 (by decide)) ?_)
    exact (agrees_byteAt short (data + 1)).bind fun _ _ => .pure _
  case h_5 | h_6 =>
    refine .lift (header 8 (by decide)) (.lift (header 4 (by decide)) ?_)
    exact (agrees_wordAt short (data + 4) 4).bind fun _ _ => .pure _
  case h_7 =>
    refine .lift (header 1 (by decide)) ((agrees_byteAt short (data + 1)).bind fun count _ => ?_)
    exact .lift (header 2 (by decide)) (agrees_arrayInterior short _ _)
  case h_8 =>
    refine .lift (header 4 (by decide)) ((agrees_wordAt short (data + 4) 4).bind fun count _ => ?_)
    exact .lift (header 8 (by decide)) (agrees_arrayInterior short _ _)
  case h_9 =>
    unfold Cursor.interior
    split
    case h_9 => exact (agrees_kind short bounded).bind fun _ _ => .throw _
    all_goals contradiction

/-- Entering does not halt: if the end passes the bytes, it is still not before the offset. -/
lemma agrees_enter : Agrees (enter c) c.enter := by
  refine (agrees_code short bounded).bind fun found hcode => ?_
  refine (agrees_stop short bounded).bind fun stop hstop => ?_
  dsimp only
  split
  · exact .lift (difference_of_le (Cursor.le_stop hstop)) (.throw _)
  · exact (agrees_interior short bounded (bounded.data_le hcode)).bind fun inside _ => .pure _

end Guarded

/-- Wherever moves lead, failed ones included, on data shorter than half of what words count, the
offset and the ends of all levels are within the bytes, the index is within the count of its level and
no level is of described elements; and a machine with words of 64 bits does not halt at any look or
move, but gives the kind, the scalar, the next sibling and the first child, or the fault, that there
are. Leaving a level takes no computation. -/
theorem Cursor.guarded_of_moves {bytes : ByteArray} {count : Nat} {c : Cursor}
    (short : bytes.size < 2 ^ 63) (fits : count < Guarded.wordLimit)
    (moves : ReflTransGen Move (starting bytes count) c) :
    c.here.offset ≤ bytes.size ∧
    (∀ level ∈ c.level :: c.outer,
      level.stop ≤ bytes.size ∧ level.element? ≠ some Wire.describedCode) ∧
    c.here.index ≤ c.level.count ∧
    Guarded.Agrees (Guarded.kind c) c.kind ∧
    Guarded.Agrees (Guarded.scalar c) c.scalar ∧
    Guarded.next c = some c.next ∧
    Guarded.Agrees (Guarded.enter c) c.enter := by
  have bounded := bounded_of_moves fits moves
  rw [← bytes_of_moves moves] at short ⊢
  exact ⟨bounded.placed.offset_le, bounded.forall_levels, bounded.placed.index_le,
    Guarded.agrees_kind short bounded, Guarded.agrees_scalar short bounded,
    Guarded.agrees_next short bounded, Guarded.agrees_enter short bounded⟩

/-- An array of two small numbers, and a list that tells a size far beyond the bytes. -/
def arrayAndList : ByteArray :=
  ⟨#[0xe0, 0x04, 0x02, 0x50, 0x07, 0x09, 0xd0, 0xff, 0xff, 0xff, 0xff]⟩

/-- The cursor on the second number, if nothing but a word limits how many values there are. -/
def secondNumber : Cursor where
  bytes := arrayAndList
  here := ⟨5, 1⟩
  level := ⟨⟨0, 0⟩, 6, 2, some 0x50⟩
  outer := [⟨⟨0, 0⟩, 11, 2 ^ 64 - 1, none⟩]

/-- The cursor on the list, which can not be entered. -/
def longList : Cursor where
  bytes := arrayAndList
  here := ⟨6, 1⟩
  level := ⟨⟨0, 0⟩, 11, 2 ^ 64 - 1, none⟩
  outer := []

/-- Counting to the largest word, a machine reads the second number and passes over the list. -/
theorem guarded_of_moves_arrayAndList :
    (Guarded.scalar secondNumber).run = some (.ok (.ubyte 9)) ∧
    Guarded.next secondNumber = some { secondNumber with here := ⟨6, 2⟩ } ∧
    (Guarded.enter longList).run = some (.error (.truncated 6 4294967300)) ∧
    Guarded.next longList = some { longList with here := ⟨11, 2 ^ 64 - 1⟩ } := by
  have short : arrayAndList.size < 2 ^ 63 := by decide
  have start : ReflTransGen Cursor.Move (.starting arrayAndList (2 ^ 64 - 1))
    (.starting arrayAndList (2 ^ 64 - 1)) := .refl
  have first : ReflTransGen Cursor.Move (.starting arrayAndList (2 ^ 64 - 1))
    { secondNumber with here := ⟨4, 0⟩ } := start.tail (.enter rfl)
  have second : ReflTransGen Cursor.Move (.starting arrayAndList (2 ^ 64 - 1)) secondNumber :=
    first.tail .next
  have list : ReflTransGen Cursor.Move (.starting arrayAndList (2 ^ 64 - 1)) longList :=
    start.tail .next
  obtain ⟨_, _, _, _, scalar, next, _⟩ := Cursor.guarded_of_moves short (by decide) second
  obtain ⟨_, _, _, _, _, next', enter⟩ := Cursor.guarded_of_moves short (by decide) list
  exact ⟨scalar, next, enter, next'⟩

end AmqpBlob
