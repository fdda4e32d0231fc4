import AmqpBlob.Scalar.Text
import AmqpBlob.Value

/-!
# Texts of values

A value is written over several lines: a scalar inline, a name before its value, and a collection as
a block with each item on a line of its own, four places further in. A block of named items stands
in braces, another one in brackets.
-/

namespace AmqpBlob.Value

/-- The blanks at the start of a line. -/
def padding (indent : Nat) : String :=
  String.ofList (List.replicate indent ' ')

mutual

/-- Writes a value after `out`; its later lines start at column `indent` or further in. -/
def write (indent : Nat) (out : String) : Value → String
  | single scalar => out ++ scalar.text
  | pair name value => value.write indent (out ++ name ++ ": ")
  | collection [] => out ++ "[]"
  | collection (item :: items) =>
    let record := (collection (item :: items)).isRecord
    let out := out ++ (if record then "\x7b" else "[") ++ "\n"
    let out := writeItems (indent + 4) out (item :: items)
    out ++ padding indent ++ (if record then "\x7d" else "]")

/-- Writes items on lines that start at column `indent`. -/
def writeItems (indent : Nat) (out : String) : List Value → String
  | [] => out
  | item :: items => writeItems indent (item.write indent (out ++ padding indent) ++ "\n") items

end

/-- The text of a value. -/
def text (value : Value) : String :=
  value.write 0 ""

/-- The text of a value as it stands in a dump, with a line break at its end. -/
def dump (value : Value) : String :=
  value.text ++ "\n"

end AmqpBlob.Value
