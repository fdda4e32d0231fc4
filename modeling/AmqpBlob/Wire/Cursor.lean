import AmqpBlob.Wire.Payload

/-!
# Cursors over encoded bytes

A cursor stands on one value among its siblings. A compound value is entered with `enter`, which
moves to its first child, and left with `leave?`, which moves back to the compound; `next` moves to
the following sibling. A cursor is a plain value, so keeping one is keeping the place.
-/

namespace AmqpBlob

/-- A place among siblings. -/
structure Position where
  /-- Offset of the value's format code or, inside an array, of its data. -/
  offset : Nat
  /-- Number of siblings before the value. -/
  index : Nat
  deriving DecidableEq, Repr

/-- A compound value that was entered, or the whole of the data. -/
structure Level where
  /-- The position to go back to when the level is left. -/
  parent : Position
  /-- The offset behind the level. -/
  stop : Nat
  /-- The number of its children. -/
  count : Nat
  /-- The format code that the elements of an array share. -/
  element? : Option UInt8
  deriving DecidableEq, Repr

/-- A position in encoded bytes, with the levels around it. -/
structure Cursor where
  /-- The encoded bytes. -/
  bytes : ByteArray
  /-- The position of the current value. -/
  here : Position
  /-- The level that the position is in. -/
  level : Level
  /-- The levels around it, the innermost first. -/
  outer : List Level

namespace Cursor

/-- The cursor on the first value of the bytes. The data as a whole holds at most as many values as
bytes. -/
def ofBytes (bytes : ByteArray) : Cursor where
  bytes := bytes
  here := ⟨0, 0⟩
  level := ⟨⟨0, 0⟩, bytes.size, bytes.size, none⟩
  outer := []

/-- The number of levels that were entered. -/
def depth (c : Cursor) : Nat :=
  c.outer.length

/-- Whether there is a value at the position. -/
def hasCurrent (c : Cursor) : Bool :=
  c.here.index < c.level.count && c.here.offset < c.level.stop

/-- The format code of the current value and the offset of its data. -/
def code (c : Cursor) : Except WireError (UInt8 × Nat) :=
  if c.hasCurrent then
    match c.level.element? with
    | some code => .ok (code, c.here.offset)
    | none => do return (← Wire.byteAt c.bytes c.here.offset, c.here.offset + 1)
  else
    .error (.exhausted c.here.offset)

/-- The kind of the current value. -/
def kind (c : Cursor) : Except WireError Kind := do
  let (code, data) ← c.code
  match Kind.ofCode? code with
  | some kind => return kind
  | none => throw (.invalidFormatCode code (data - 1))

/-- The current value as a scalar. -/
def scalar (c : Cursor) : Except WireError Scalar := do
  let (code, data) ← c.code
  Wire.scalarAt c.bytes c.here.offset code data

/-- The current value as a value of the type that is wanted. -/
def read (α : Type) [OfScalar α] (c : Cursor) : Except WireError α := do
  match (← c.scalar).read α with
  | .ok value => return value
  | .error cause => throw (.mismatch cause)

/-- The offset behind the current value. -/
def stop (c : Cursor) : Except WireError Nat :=
  match c.level.element? with
  | some code => do return c.here.offset + (← Wire.dataLength c.bytes code c.here.offset)
  | none => Wire.elementStop c.bytes c.here.offset

/-- The cursor behind the last sibling. -/
def exhaust (c : Cursor) : Cursor :=
  { c with here := ⟨c.level.stop, c.level.count⟩ }

/-- The cursor on the next sibling. A value whose extent cannot be told, or that would pass the end
of its level, is the last one. -/
def next (c : Cursor) : Cursor :=
  if c.hasCurrent then
    match c.stop with
    | .ok stop =>
      if stop ≤ c.level.stop then { c with here := ⟨stop, c.here.index + 1⟩ } else c.exhaust
    | .error _ => c.exhaust
  else
    c

/-- Where the children of a compound value stand. -/
structure Interior where
  /-- Offset of the first child. -/
  first : Nat
  /-- Number of the children. -/
  count : Nat
  /-- The format code that the elements of an array share. -/
  element? : Option UInt8

/-- The inside of an array with `count` elements whose shared format code stands at `offset`. -/
def arrayInterior (c : Cursor) (count offset : Nat) : Except WireError Interior := do
  let element ← Wire.byteAt c.bytes offset
  if element = Wire.describedCode then
    throw (.unread offset .arrayOfDescribed)
  else
    return ⟨offset + 1, count, some element⟩

/-- The inside of the current value, whose format code is `code` and whose data starts at `data`. -/
def interior (c : Cursor) (code : UInt8) (data : Nat) : Except WireError Interior := do
  match code with
  | 0x00 =>
    if c.level.element?.isSome then
      throw (.unread c.here.offset .describedElement)
    else
      return ⟨data, 2, none⟩
  | 0x45 => return ⟨data, 0, none⟩
  | 0xc0 | 0xc1 => return ⟨data + 2, (← Wire.byteAt c.bytes (data + 1)).toNat, none⟩
  | 0xd0 | 0xd1 => return ⟨data + 8, ← Wire.wordAt c.bytes (data + 4) 4, none⟩
  | 0xe0 => c.arrayInterior (← Wire.byteAt c.bytes (data + 1)).toNat (data + 2)
  | 0xf0 => c.arrayInterior (← Wire.wordAt c.bytes (data + 4) 4) (data + 8)
  | _ => throw (.notCompound (← c.kind))

/-- Enters the current value: the cursor on its first child. -/
def enter (c : Cursor) : Except WireError Cursor := do
  let (code, data) ← c.code
  let stop ← c.stop
  if c.bytes.size < stop then
    throw (.truncated c.here.offset (stop - c.here.offset))
  let inside ← c.interior code data
  return { c with
    here := ⟨inside.first, 0⟩
    level := ⟨c.here, stop, inside.count, inside.element?⟩
    outer := c.level :: c.outer }

/-- Leaves the level: the cursor on the compound value that was entered last. -/
def leave? (c : Cursor) : Option Cursor :=
  match c.outer with
  | [] => none
  | level :: outer => some { c with here := c.level.parent, level := level, outer := outer }

/-- The next sibling is in the same bytes. -/
@[simp]
theorem bytes_next (c : Cursor) : c.next.bytes = c.bytes := by
  unfold next exhaust
  repeat' split
  all_goals rfl

/-- The next sibling is in the same level. -/
@[simp]
theorem level_next (c : Cursor) : c.next.level = c.level := by
  unfold next exhaust
  repeat' split
  all_goals rfl

/-- The next sibling has the same levels around it. -/
@[simp]
theorem outer_next (c : Cursor) : c.next.outer = c.outer := by
  unfold next exhaust
  repeat' split
  all_goals rfl

/-- Behind the last sibling nothing moves. -/
theorem next_of_not_hasCurrent {c : Cursor} (h : c.hasCurrent = false) : c.next = c := by
  simp [next, h]

/-- Leaving a value leads back to where it was entered. -/
theorem leave?_of_enter {c entered : Cursor} (h : c.enter = .ok entered) :
    entered.leave? = some c := by
  unfold enter at h
  simp only [bind, Except.bind] at h
  repeat' split at h
  all_goals cases h
  all_goals rfl

end Cursor

end AmqpBlob
