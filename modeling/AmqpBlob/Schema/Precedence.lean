import AmqpBlob.Schema.Type

/-!
# Precedence between types

A type is declared after the types that it uses. `TypeDef.precedence` compares two types by the
names that they use. Two types may use each other, and then one use decides: if the second type is
composite, that the first uses it; otherwise, that it uses the first.
-/

namespace AmqpBlob

/-- How one type stands to another in the order of declarations. -/
inductive Precedence where
  /-- Neither uses the other. -/
  | unrelated
  /-- The first is declared before the second, which uses it. -/
  | before
  /-- The first is declared after the second, which it uses. -/
  | after
  deriving DecidableEq, Repr

namespace Precedence

/-- The number of a precedence. -/
def code : Precedence → Nat
  | unrelated => 0
  | before => 1
  | after => 2

/-- The precedence seen from the other type. -/
def flip : Precedence → Precedence
  | unrelated => unrelated
  | before => after
  | after => before

/-- Two types are exchanged twice for nothing. -/
theorem flip_flip (precedence : Precedence) : precedence.flip.flip = precedence := by
  cases precedence <;> rfl

end Precedence

/-- How `first` stands to `second` in the order of declarations. -/
def TypeDef.precedence (first second : TypeDef) : Precedence :=
  match first.refersTo second.name, second.refersTo first.name with
  | false, false => .unrelated
  | false, true => .before
  | true, false => .after
  | true, true => if second.isComposite then .after else .before

end AmqpBlob
