import AmqpBlob.Schema.Precedence

/-!
# Order of declarations

Types are listed so that each comes after the types it uses, and otherwise as they were declared.
`arrange` does this for any relation. It counts for each item how many must precede it, places one item
after the other and counts down: the next one is the first item that waits for no other, and where each
remaining item waits for another one, the first of them all.
-/

namespace AmqpBlob

/-- An item that is not placed yet, with the number of such items that must precede it. -/
structure Waiting (α : Type) where
  /-- The item. -/
  item : α
  /-- The number of items that it waits for. -/
  count : Nat

section

variable {α : Type} (precedes : α → α → Bool)

/-- The items before any is placed. -/
def waitingItems (items : List α) : List (Waiting α) :=
  items.map fun item => ⟨item, items.countP (precedes · item)⟩

/-- The place of the first item that waits for none, or of the first item if all of them wait. -/
def nextPlace (queue : List (Waiting α)) : Nat :=
  (queue.findIdx? fun waiting => waiting.count == 0).getD 0

/-- An item when another one is placed: it waits for one less if that one must precede it. -/
def Waiting.countDown (placed : α) (waiting : Waiting α) : Waiting α :=
  if precedes placed waiting.item then { waiting with count := waiting.count - 1 } else waiting

/-- Places `left` items of a queue, or all of them if there are not as many. -/
def placeItems : (left : Nat) → List (Waiting α) → List α
  | 0, _ => []
  | left + 1, queue =>
    match queue[nextPlace queue]? with
    | none => []
    | some next =>
      let remaining := queue.eraseIdx (nextPlace queue)
      next.item :: placeItems left (remaining.map (Waiting.countDown precedes next.item))

/-- The items with each behind those that must precede it, as far as they allow it. -/
def arrange (items : List α) : List α :=
  placeItems precedes items.length (waitingItems precedes items)

end

/-- Whether a type must come before another one. Each stands with the place of its declaration, and
the one that was declared earlier comes first in the comparison. -/
def mustPrecede (first second : TypeDef × Nat) : Bool :=
  if first.2 < second.2 then first.1.precedence second.1 = .before
  else if second.2 < first.2 then second.1.precedence first.1 = .after
  else false

/-- The places of the types, in an order in which each comes after those that it uses. -/
def declarationOrder (types : List TypeDef) : List Nat :=
  (arrange mustPrecede types.zipIdx).map Prod.snd

end AmqpBlob
