/-!
# Ranges of code points

Properties of characters that a standard lists are kept as increasing lists of ranges.
`inRanges` looks a code point up in such a list.
-/

namespace AmqpBlob.Text

/-- Whether a code point lies in one of the ranges `(first, last)`, given in increasing order. -/
def inRanges (point : Nat) : List (Nat × Nat) → Bool
  | [] => false
  | (first, last) :: rest => first ≤ point && (point ≤ last || inRanges point rest)

end AmqpBlob.Text
