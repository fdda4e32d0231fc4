import AmqpBlob.Text.Extender
import AmqpBlob.Text.Hex
import AmqpBlob.Text.Unprintable

/-!
# Quoted texts

A quoted text stands between double quotes, with an escape for every character that could not be
read off a line of output: quotes, backslashes, line breaks, characters without a printed form and
characters that would attach to the one before them.
-/

namespace AmqpBlob.Text

/-- The escape `\u{…}` that names a character by its code point. -/
def codePointEscape (c : Char) : List Char :=
  ['\\', 'u', '{'] ++ Hex.digits c.toNat ++ ['}']

/-- A character as it is written between quotes. -/
def escape (c : Char) : List Char :=
  match c with
  | '\x00' => ['\\', '0']
  | '\t' => ['\\', 't']
  | '\r' => ['\\', 'r']
  | '\n' => ['\\', 'n']
  | '"' => ['\\', '"']
  | '\\' => ['\\', '\\']
  | c => if isExtender c || isUnprintable c then codePointEscape c else [c]

/-- A text between double quotes, with its escapes. -/
def quoted (text : String) : String :=
  String.ofList ('"' :: text.toList.flatMap escape ++ ['"'])

end AmqpBlob.Text
