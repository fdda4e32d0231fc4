import AmqpBlob.Decimal.Digits

/-!
# Paths into values

A path says where in a value something was found: it starts at a name and goes through fields, items
and the keys and values of map entries.
-/

namespace AmqpBlob

/-- One step from a value into it. -/
inductive PathStep where
  /-- Into a field. -/
  | field (name : String)
  /-- Into an item of a list. -/
  | item (index : Nat)
  /-- Into the key of a map's entry. -/
  | key (index : Nat)
  /-- Into the value of a map's entry. -/
  | value (index : Nat)
  deriving DecidableEq, Repr

/-- A way from a named value into it. -/
structure Path where
  /-- The name that the path starts at. -/
  root : String
  /-- The steps of the path, the last one first. -/
  steps : List PathStep
  deriving DecidableEq, Repr

/-- The text of a step. -/
def PathStep.text : PathStep → String
  | field name => "." ++ name
  | item index => "[" ++ Decimal.natural index ++ "]"
  | key index => "[" ++ Decimal.natural index ++ "].key"
  | value index => "[" ++ Decimal.natural index ++ "].value"

namespace Path

/-- The path that only names a value. -/
def start (root : String) : Path :=
  ⟨root, []⟩

/-- The path with one more step. -/
def push (path : Path) (step : PathStep) : Path :=
  { path with steps := step :: path.steps }

/-- The text of a path. -/
def text (path : Path) : String :=
  path.steps.reverse.foldl (fun text step => text ++ step.text) path.root

end Path

end AmqpBlob
