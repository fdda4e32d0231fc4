import AmqpBlob.Scalar

/-!
# Decoded values

A decoded value is a tree: scalars at the leaves, collections inside, and a name in front of each
value that comes from a field. The accessors look through names.
-/

namespace AmqpBlob

/-- A decoded value. -/
inductive Value where
  /-- A scalar. -/
  | single (scalar : Scalar)
  /-- A value under the name of its field. -/
  | pair (name : String) (value : Value)
  /-- The fields of a composite, the elements of a list or the entries of a map. -/
  | collection (items : List Value)

namespace Value

mutual

/-- Decides whether two values are equal. -/
def decideEq : (a b : Value) → Decidable (a = b)
  | single a, single b => decidable_of_iff (a = b) (by simp)
  | pair name a, pair other b =>
    have := decideEq a b
    decidable_of_iff (name = other ∧ a = b) (by simp)
  | collection as, collection bs =>
    have := decideEqList as bs
    decidable_of_iff (as = bs) (by simp)
  | single _, pair _ _ | single _, collection _ => isFalse nofun
  | pair _ _, single _ | pair _ _, collection _ => isFalse nofun
  | collection _, single _ | collection _, pair _ _ => isFalse nofun

/-- Decides whether two lists of values are equal. -/
def decideEqList : (as bs : List Value) → Decidable (as = bs)
  | [], [] => isTrue rfl
  | a :: as, b :: bs =>
    have := decideEq a b
    have := decideEqList as bs
    decidable_of_iff (a = b ∧ as = bs) (by simp)
  | [], _ :: _ | _ :: _, [] => isFalse nofun

end

instance : DecidableEq Value :=
  decideEq

/-- The collection without items. -/
def empty : Value :=
  collection []

instance : Inhabited Value where
  default := empty

/-- An entry of a map: its key and its value. -/
def entry (key value : Value) : Value :=
  collection [key, value]

/-- The name in front of a value. -/
def name? : Value → Option String
  | pair name _ => some name
  | _ => none

/-- The scalar, looked for behind names. -/
def scalar? : Value → Option Scalar
  | single scalar => some scalar
  | pair _ value => value.scalar?
  | collection _ => none

/-- The items of a collection, looked for behind names. -/
def children? : Value → Option (List Value)
  | single _ => none
  | pair _ value => value.children?
  | collection items => some items

/-- What stands under a name, if `value` is a pair of that name. -/
def under? (name : String) : Value → Option Value
  | pair other value => if other = name then some value else none
  | _ => none

/-- The value of the first field with the name among the items. -/
def field? (value : Value) (name : String) : Option Value :=
  value.children?.bind fun items => items.findSome? (under? name)

/-- Whether the value has items and all of them are named. -/
def isRecord (value : Value) : Bool :=
  match value.children? with
  | some items => !items.isEmpty && items.all fun item => item.name?.isSome
  | none => false

end Value

end AmqpBlob
