import AmqpBlob.Decimal.Digits

/-!
# Shortest decimals

A value that stands for a whole interval of numbers, as a rounded one does, is written with the
fewest digits that still name it: `Interval.shortest` finds the coarsest decimal grid that meets the
interval and takes its point nearest to the value, the upper one of two equally near points.
-/

namespace AmqpBlob.Decimal

/-- The numbers that stand for one value, which lies among them. -/
structure Interval where
  /-- The lower end. -/
  low : Nat
  /-- The value itself. -/
  value : Nat
  /-- The upper end. -/
  high : Nat
  /-- Whether the two ends belong to the interval. -/
  closed : Bool

namespace Interval

/-- Whether a number stands for the value. -/
def contains (i : Interval) (n : Nat) : Bool :=
  if i.closed then i.low ≤ n && n ≤ i.high else i.low < n && n < i.high

/-- How often `unit` goes into the multiple of it that is nearest to the value, among the multiples
that stand for the value. -/
def nearest? (i : Interval) (unit : Nat) : Option Nat :=
  let below := i.value / unit
  let above := below + 1
  match i.contains (below * unit), i.contains (above * unit) with
  | true, true =>
    if i.value - below * unit < above * unit - i.value then some below else some above
  | true, false => some below
  | false, true => some above
  | false, false => none

/-- The first hit on the grids of `10 ^ zeros` and finer ones, as a coefficient and its number of
zeros. -/
def shortestFrom (i : Interval) : Nat → Nat × Nat
  | 0 => (i.value, 0)
  | zeros + 1 =>
    match i.nearest? (Nat.pow 10 (zeros + 1)) with
    | some coefficient => (coefficient, zeros + 1)
    | none => i.shortestFrom zeros

/-- The shortest decimal that stands for the value, as a coefficient and its number of zeros. -/
def shortest (i : Interval) : Nat × Nat :=
  i.shortestFrom (digits i.high).length

end Interval

end AmqpBlob.Decimal
