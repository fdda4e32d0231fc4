import AmqpBlob.Scalar.Text
import Mathlib.Data.List.Basic

/-!
# Scalars within a line

The texts of numbers, words, bytes and identifiers are made of digits and marks, without blanks and line
feeds, and a string is written with escapes for its line feeds. But a character and a symbol are written
as they are, so their line feeds, and no other ones, stand in the texts of scalars:
`Scalar.text_inline`.
-/

namespace AmqpBlob

/-- A text without blanks and line feeds. -/
def Solid (text : List Char) : Prop :=
  ∀ c ∈ text, c ≠ ' ' ∧ c ≠ '\n'

/-- Whether a text is solid can be told from its characters. -/
instance (text : List Char) : Decidable (Solid text) :=
  List.decidableBAll _ text

namespace Solid

variable {text following : List Char}

/-- Two texts without blanks and line feeds make one. -/
lemma append (h : Solid text) (h' : Solid following) : Solid (text ++ following) :=
  List.forall_mem_append.2 ⟨h, h'⟩

/-- A character that is no blank and no line feed may be put before such a text. -/
lemma cons {c : Char} (hc : c ≠ ' ' ∧ c ≠ '\n') (h : Solid text) : Solid (c :: text) :=
  List.forall_mem_cons.2 ⟨hc, h⟩

/-- Leaving characters out brings in no blanks and line feeds. -/
lemma sublist (h : Solid text) (part : following.Sublist text) : Solid following :=
  fun c member => h c (part.subset member)

/-- The first characters of such a text are one. -/
lemma take (h : Solid text) (count : Nat) : Solid (text.take count) :=
  h.sublist (List.take_sublist count text)

/-- What is behind the first characters of such a text is one. -/
lemma drop (h : Solid text) (count : Nat) : Solid (text.drop count) :=
  h.sublist (List.drop_sublist count text)

/-- A character repeated is such a text if the character is no blank and no line feed. -/
lemma replicate {c : Char} (hc : c ≠ ' ' ∧ c ≠ '\n') (count : Nat) :
    Solid (List.replicate count c) := by
  intro found member
  rw [List.eq_of_mem_replicate member]
  exact hc

/-- A text without blanks and line feeds stays in its line and starts where it does. -/
lemma inline (h : Solid text) : text.count '\n' = 0 ∧ text.head? ≠ some ' ' :=
  ⟨List.count_eq_zero.2 fun member => (h _ member).2 rfl,
    fun first => (h _ (List.mem_of_mem_head? first)).1 rfl⟩

/-- No digit is written as a blank or a line feed. -/
lemma digitChar {digit : Nat} (h : digit < 16) : digit.digitChar ≠ ' ' ∧ digit.digitChar ≠ '\n' := by
  have all : ∀ digit < 16, digit.digitChar ≠ ' ' ∧ digit.digitChar ≠ '\n' := by decide
  exact all digit h

/-- The digits of a number are such a text, in every base up to sixteen. -/
lemma toDigits {base : Nat} (h : 1 < base) (h' : base ≤ 16) (n : Nat) : Solid (Nat.toDigits base n) := by
  induction n using Nat.strongRecOn with
  | ind n ih =>
    rw [Nat.toDigits_eq_if h]
    split
    next small => exact .cons (digitChar (by omega)) nofun
    next large =>
      have smaller : n / base < n := Nat.div_lt_self (by omega) h
      have last : n % base < 16 := Nat.lt_of_lt_of_le (Nat.mod_lt n (by omega)) h'
      exact (ih _ smaller).append (.cons (digitChar last) nofun)

end Solid

/-! ## Numbers -/

namespace Decimal

/-- A natural number is written in digits. -/
lemma solid_natural (n : Nat) : Solid (natural n).toList := by
  rw [natural, String.toList_ofList]
  exact .toDigits (by decide) (by decide) n

/-- An integer is written in digits, with a sign before them if it is negative. -/
lemma solid_integer (n : Int) : Solid (integer n).toList := by
  cases n with
  | ofNat n => exact solid_natural n
  | negSucc n =>
    rw [integer, String.toList_append]
    exact .append (by decide) (solid_natural (n + 1))

/-- A decimal number is written in digits and a point. -/
lemma solid_positional (coefficient : Nat) (exponent : Int) : Solid (positional coefficient exponent) := by
  have shown : Solid (digits coefficient) := .toDigits (by decide) (by decide) coefficient
  cases exponent with
  | ofNat zeros => exact shown.append (.replicate (by decide) zeros)
  | negSucc n =>
    have padded := (Solid.replicate (by decide : '0' ≠ ' ' ∧ '0' ≠ '\n')
      (n + 1 + 1 - (digits coefficient).length)).append shown
    exact (padded.take _).append (.cons (by decide) (padded.drop _))

end Decimal

namespace Hex

/-- A hexadecimal number of a width is written in digits. -/
lemma solid_fixed (width n : Nat) : Solid (fixed width n) := by
  induction width generalizing n with
  | zero => exact nofun
  | succ width ih => exact (ih (n / 16)).append (.cons (Solid.digitChar (Nat.mod_lt n (by decide))) nofun)

/-- A hexadecimal number is written in digits behind its mark. -/
lemma solid_number (width n : Nat) : Solid (number width n).toList := by
  rw [number, String.toList_append]
  refine .append (by decide) ?_
  rw [String.toList_ofList]
  exact solid_fixed _ n

/-- Bytes are written in two digits each. -/
lemma solid_bytes (data : List UInt8) : Solid (bytes data) := by
  intro c member
  obtain ⟨byte, _, member⟩ := List.mem_flatMap.1 member
  exact solid_fixed 2 byte.toNat c member

end Hex

/-- A floating-point number is written in digits, a point and a sign, or as one of the words for
what is not finite. -/
lemma BinaryFormat.solid_text (format : BinaryFormat) (word : Nat) : Solid (format.text word).toList := by
  have sign (negative : Prop) [Decidable negative] :
      Solid (if negative then "-" else "").toList := by
    split
    · decide
    · decide
  unfold text
  dsimp only
  split
  · split
    · rw [String.toList_append]
      exact (sign _).append (by decide)
    · decide
  · split
    · rw [String.toList_append]
      exact (sign _).append (by decide)
    · rw [String.toList_append]
      refine (sign _).append ?_
      rw [String.toList_ofList]
      exact Decimal.solid_positional _ _

namespace Text

/-- The escape of a code point is written in digits between its marks. -/
lemma solid_codePointEscape (c : Char) : Solid (codePointEscape c) :=
  .append (.append (by decide) (.toDigits (by decide) (by decide) c.toNat)) (by decide)

/-- No character is written with a line feed inside quotes. -/
lemma count_escape (c : Char) : (escape c).count '\n' = 0 := by
  unfold escape
  split
  case h_7 line _ _ =>
    split
    · exact (solid_codePointEscape c).inline.1
    · exact List.count_eq_zero.2 fun member => line (List.mem_singleton.1 member).symm
  all_goals rfl

/-- A quoted text has no line feeds, whatever text it is. -/
lemma count_quoted (text : String) : (quoted text).toList.count '\n' = 0 := by
  have escapes : (text.toList.flatMap escape).count '\n' = 0 := by
    rw [List.count_eq_zero, List.mem_flatMap]
    rintro ⟨c, _, member⟩
    exact List.count_eq_zero.1 (count_escape c) member
  rw [quoted, String.toList_ofList, List.cons_append, List.count_cons, List.count_append, escapes]
  rfl

end Text

/-! ## Scalars -/

namespace Scalar

/-- The number of line feeds in the text of a scalar. -/
def breaks : Scalar → Nat
  | char value => [value].count '\n'
  | symbol text => text.toList.count '\n'
  | _ => 0

/-- An identifier is written in five groups of digits with dashes between them. -/
lemma solid_uuidText (bits : BitVec 128) : Solid (uuidText bits).toList := by
  have hdigits := Hex.solid_fixed 32 bits.toNat
  rw [uuidText, String.toList_ofList]
  dsimp only
  generalize Hex.fixed 32 bits.toNat = digits at hdigits
  have group (start width : Nat) : Solid ((digits.drop start).take width) :=
    (hdigits.drop start).take width
  have next (start width : Nat) : Solid ('-' :: (digits.drop start).take width) :=
    .cons (by decide) (group start width)
  exact ((((group 0 8).append (next 8 4)).append (next 12 4)).append (next 16 4)).append (next 20 12)

/-- A text between two marks is solid if the marks are. -/
lemma solid_between {mark text close : String} (hmark : Solid mark.toList) (htext : Solid text.toList)
    (hclose : Solid close.toList) : Solid (mark ++ text ++ close).toList := by
  rw [String.toList_append, String.toList_append]
  exact (hmark.append htext).append hclose

/-- A character and a symbol alone may have line feeds in their texts, and no text starts with a
blank. -/
lemma text_inline (scalar : Scalar) :
    scalar.text.toList.count '\n' = scalar.breaks ∧ scalar.text.toList.head? ≠ some ' ' := by
  cases scalar with
  | null => exact Solid.inline (by decide)
  | boolean value => cases value <;> exact Solid.inline (by decide)
  | ubyte value | ushort value | uint value | ulong value => exact (Decimal.solid_natural _).inline
  | byte value | short value | int value | long value => exact (Decimal.solid_integer _).inline
  | float value => exact (BinaryFormat.solid_text _ _).inline
  | double value => exact (BinaryFormat.solid_text _ _).inline
  | decimal32 bits | decimal64 bits | decimal128 bits =>
    exact (solid_between (by decide) (Hex.solid_number _ _) (by decide)).inline
  | timestamp milliseconds =>
    exact (solid_between (by decide) (Decimal.solid_integer _) (by decide)).inline
  | uuid bits => exact (solid_uuidText bits).inline
  | binary bytes =>
    have mark : Solid "0x".toList := by decide
    have digits : Solid (String.ofList (Hex.bytes bytes)).toList := by
      rw [String.toList_ofList]
      exact Hex.solid_bytes bytes
    rw [text, String.toList_append]
    exact (mark.append digits).inline
  | char value =>
    have quote : "'".toList = ['\''] := rfl
    rw [text, String.toList_append, String.toList_append, quote, Char.toString_eq_singleton,
      String.toList_singleton, List.count_append, List.count_append]
    exact ⟨Nat.zero_add _, nofun⟩
  | string content =>
    refine ⟨Text.count_quoted content, ?_⟩
    rw [text, Text.quoted, String.toList_ofList]
    exact nofun
  | symbol content =>
    have colon : ":".toList = [':'] := rfl
    rw [text, String.toList_append, colon, List.count_append]
    exact ⟨Nat.zero_add _, nofun⟩

end Scalar

end AmqpBlob
