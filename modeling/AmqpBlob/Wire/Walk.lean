import AmqpBlob.Wire.Cursor

/-!
# Walks

A walk reads from a cursor and moves it, and may fail with an error; the cursor has a place after a
failure too. The combinators keep moves in pairs on every way out: `inside` leaves the value that it
entered, and `thenNext` ends on the following sibling.
-/

namespace AmqpBlob

/-- A computation that moves a cursor and may fail. -/
abbrev Walk (ε : Type) := ExceptT ε (StateM Cursor)

namespace Walk

variable {ε α : Type}

/-- A walk that follows another one starts where that one ends, and only if it succeeds. -/
theorem bind_apply {β : Type} (walk : Walk ε α) (following : α → Walk ε β) (c : Cursor) :
    (walk >>= following) c =
      match walk c with
      | (.ok value, c) => following value c
      | (.error error, c) => (.error error, c) := by
  change ExceptT.bind walk following c = _
  simp only [ExceptT.bind, ExceptT.mk, bind, StateT.bind]
  rcases walk c with ⟨_ | _, _⟩ <;> rfl

/-- Ends the walk with an error. -/
def fail (error : ε) : Walk ε α :=
  fun c => (.error error, c)

/-- Looks at the cursor without moving it. -/
def look [OfWireError ε] (query : Cursor → Except WireError α) : Walk ε α :=
  fun c => ((query c).mapError OfWireError.ofWireError, c)

/-- Whether there is a value at the position. -/
def hasCurrent : Walk ε Bool :=
  fun c => (.ok c.hasCurrent, c)

/-- The kind of the current value. -/
def kind [OfWireError ε] : Walk ε Kind :=
  look Cursor.kind

/-- The current value as a scalar. -/
def scalar [OfWireError ε] : Walk ε Scalar :=
  look Cursor.scalar

/-- The current value as a value of the type that is wanted. -/
def read (α : Type) [OfScalar α] [OfWireError ε] : Walk ε α :=
  look (Cursor.read α)

/-- The cursor at this place. -/
def here : Walk ε Cursor :=
  fun c => (.ok c, c)

/-- Gives an error of a walk another form. -/
def mapError {ε' : Type} (form : ε → ε') (walk : Walk ε α) : Walk ε' α := fun c =>
  let (result, c) := walk c
  (result.mapError form, c)

/-- Moves to the next sibling. -/
def next : Walk ε Unit :=
  fun c => (.ok (), c.next)

/-- Walks inside the current value and leaves it, however the walk ends. -/
def inside [OfWireError ε] (walk : Walk ε α) : Walk ε α := fun c =>
  match c.enter with
  | .error fault => (.error (OfWireError.ofWireError fault), c)
  | .ok entered =>
    let (result, c) := walk entered
    (result, c.leave?.getD c)

/-- The descriptor of the current value, if it is described. -/
def descriptor? [OfWireError ε] : Walk ε (Option Scalar) := do
  if (← kind) = .described then
    return some (← inside scalar)
  else
    return none

/-- Moves to the next sibling behind a walk, however the walk ends. -/
def thenNext (walk : Walk ε α) : Walk ε α := fun c =>
  let (result, c) := walk c
  (result, c.next)

/-- Repeats a step `limit` times at most, while there is a value at the position, and puts what the
steps give before `taken`, the last one first. Each step is told how many steps were `done`. -/
def collectFrom (step : Nat → Walk ε α) : (limit : Nat) → (taken : List α) → (done : Nat) →
    Cursor → Except ε (List α) × Cursor
  | 0, taken, _, c => (.ok taken.reverse, c)
  | limit + 1, taken, done, c =>
    if c.hasCurrent then
      match step done c with
      | (.ok value, c) => collectFrom step limit (value :: taken) (done + 1) c
      | (.error error, c) => (.error error, c)
    else
      (.ok taken.reverse, c)

/-- Repeats a step until the level is exhausted. A step passes over one sibling or more, so there
are at most as many steps as siblings. -/
def collect (step : Nat → Walk ε α) : Walk ε (List α) := fun c =>
  collectFrom step (c.level.count - c.here.index) [] 0 c

end Walk

end AmqpBlob
