import AmqpBlob.Scalar.Text

/-!
# Descriptors

A described value carries a descriptor on the wire, a symbol or a number, that tells its type. A
type declares which symbol, which number, or both stand for it.
-/

namespace AmqpBlob

/-- The symbolic name and the numeric code that stand for a type. -/
structure Descriptor where
  /-- The symbolic name. -/
  name? : Option String
  /-- The numeric code. -/
  code? : Option UInt64
  deriving DecidableEq, Repr

namespace Descriptor

/-- A descriptor's numeric code as it is written in texts. -/
def codeText (code : UInt64) : String :=
  Hex.number 16 code.toNat

/-- Whether a descriptor on the wire stands for the type. A string counts as a symbol. -/
def accepts (descriptor : Descriptor) : Scalar → Bool
  | .symbol name | .string name => descriptor.name? = some name
  | .ulong code => descriptor.code? = some code
  | _ => false

/-- The text of a declared descriptor. -/
def text : Descriptor → String
  | ⟨some name, some code⟩ => name ++ " (" ++ codeText code ++ ")"
  | ⟨some name, none⟩ => name
  | ⟨none, some code⟩ => codeText code
  | ⟨none, none⟩ => "<none>"

/-- The text of what stands in the place of a descriptor on the wire. -/
def wireText : Option Scalar → String
  | some (.ulong code) => codeText code
  | some other => other.text
  | none => "no descriptor"

end Descriptor

end AmqpBlob
