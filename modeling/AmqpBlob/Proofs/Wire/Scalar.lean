import AmqpBlob.Proofs.Wire.Bytes
import AmqpBlob.Wire.Payload

/-!
# Written forms of scalars

`ScalarForm scalar code data` lists the ways to write a scalar: each format code with the data behind
it. Numbers are words, those of signed numbers in two's complement, and small numbers have shorter
forms; a size of one or four bytes stands before the bytes of a binary or a text. Whatever form a
scalar is written in, its kind and the scalar itself are read back (`ofCode?_form`, `scalarAt_form`).
Conversely, what is read as a scalar, from any bytes, is of the kind that its format code tells
(`ofCode?_of_scalarAt`).
-/

namespace AmqpBlob

namespace Wire

/-- How many bytes the sizes and counts of a value take. -/
inductive SizeWidth where
  | narrow
  | wide
  deriving DecidableEq, Repr

namespace SizeWidth

/-- The number of bytes of a size. -/
def bytes : SizeWidth → Nat
  | narrow => 1
  | wide => 4

/-- The format code for a width, of two codes that differ in the width only. -/
def code (width : SizeWidth) (narrowCode wideCode : UInt8) : UInt8 :=
  match width with
  | narrow => narrowCode
  | wide => wideCode

end SizeWidth

/-- Bytes with their number before them. -/
def sized (width : SizeWidth) (content : List UInt8) : List UInt8 :=
  word width.bytes content.length ++ content

/-- Whether the number of the bytes can be written before them. -/
def Fits (width : SizeWidth) (content : List UInt8) : Prop :=
  content.length < 256 ^ width.bytes

/-- Whether a length fits is a comparison. -/
instance (width : SizeWidth) (content : List UInt8) : Decidable (Fits width content) :=
  inferInstanceAs (Decidable (content.length < 256 ^ width.bytes))

end Wire

open Wire (word sized Fits SizeWidth Holds)

/-- The forms of a scalar: the format code and the data behind it. -/
inductive ScalarForm : Scalar → (code : UInt8) → (data : List UInt8) → Prop where
  | null : ScalarForm .null 0x40 []
  | true : ScalarForm (.boolean true) 0x41 []
  | false : ScalarForm (.boolean false) 0x42 []
  | boolean (byte : UInt8) : ScalarForm (.boolean (byte ≠ 0)) 0x56 (word 1 byte.toNat)
  | ubyte (value : UInt8) : ScalarForm (.ubyte value) 0x50 (word 1 value.toNat)
  | ushort (value : UInt16) : ScalarForm (.ushort value) 0x60 (word 2 value.toNat)
  | uint (value : UInt32) : ScalarForm (.uint value) 0x70 (word 4 value.toNat)
  | smallUint (value : UInt8) : ScalarForm (.uint value.toUInt32) 0x52 (word 1 value.toNat)
  | zeroUint : ScalarForm (.uint 0) 0x43 []
  | ulong (value : UInt64) : ScalarForm (.ulong value) 0x80 (word 8 value.toNat)
  | smallUlong (value : UInt8) : ScalarForm (.ulong value.toUInt64) 0x53 (word 1 value.toNat)
  | zeroUlong : ScalarForm (.ulong 0) 0x44 []
  | byte (value : Int8) : ScalarForm (.byte value) 0x51 (word 1 value.toUInt8.toNat)
  | short (value : Int16) : ScalarForm (.short value) 0x61 (word 2 value.toUInt16.toNat)
  | int (value : Int32) : ScalarForm (.int value) 0x71 (word 4 value.toUInt32.toNat)
  | smallInt (value : Int8) : ScalarForm (.int value.toInt32) 0x54 (word 1 value.toUInt8.toNat)
  | long (value : Int64) : ScalarForm (.long value) 0x81 (word 8 value.toUInt64.toNat)
  | smallLong (value : Int8) : ScalarForm (.long value.toInt64) 0x55 (word 1 value.toUInt8.toNat)
  | float (value : Binary32) : ScalarForm (.float value) 0x72 (word 4 value.bits.toNat)
  | double (value : Binary64) : ScalarForm (.double value) 0x82 (word 8 value.bits.toNat)
  | decimal32 (bits : UInt32) : ScalarForm (.decimal32 bits) 0x74 (word 4 bits.toNat)
  | decimal64 (bits : UInt64) : ScalarForm (.decimal64 bits) 0x84 (word 8 bits.toNat)
  | decimal128 (bits : BitVec 128) : ScalarForm (.decimal128 bits) 0x94 (word 16 bits.toNat)
  | char (value : Char) : ScalarForm (.char value) 0x73 (word 4 value.val.toNat)
  | timestamp (value : Int64) : ScalarForm (.timestamp value) 0x83 (word 8 value.toUInt64.toNat)
  | uuid (bits : BitVec 128) : ScalarForm (.uuid bits) 0x98 (word 16 bits.toNat)
  | binary {width : SizeWidth} {bytes : List UInt8} (fits : Fits width bytes) :
    ScalarForm (.binary bytes) (width.code 0xa0 0xb0) (sized width bytes)
  | string {width : SizeWidth} {text : String} (fits : Fits width text.toByteArray.data.toList) :
    ScalarForm (.string text) (width.code 0xa1 0xb1) (sized width text.toByteArray.data.toList)
  | symbol {width : SizeWidth} {text : String} (fits : Fits width text.toByteArray.data.toList) :
    ScalarForm (.symbol text) (width.code 0xa3 0xb3) (sized width text.toByteArray.data.toList)

namespace Wire

variable {scalar : Scalar} {code : UInt8} {data : List UInt8} {bytes : ByteArray} {start : Nat}

/-- The format code of a form tells the kind of the scalar. -/
lemma ofCode?_form (form : ScalarForm scalar code data) : Kind.ofCode? code = some scalar.kind := by
  cases form with
  | @binary width => cases width <;> rfl
  | @string width => cases width <;> rfl
  | @symbol width => cases width <;> rfl
  | _ => rfl

/-- The size that was written before bytes is read back. -/
lemma sizeAt_sized {width : SizeWidth} {content : List UInt8} (fits : Fits width content)
    (h : Holds bytes start (sized width content)) :
    wordAt bytes start width.bytes = .ok content.length :=
  h.left.wordAt fits

/-- A size of one byte may be read as a byte. -/
lemma byteAt_sized {content : List UInt8} (fits : Fits .narrow content)
    (h : Holds bytes start (sized .narrow content)) :
    byteAt bytes start = .ok (UInt8.ofNat content.length) ∧
      (UInt8.ofNat content.length).toNat = content.length := by
  have hcons : Holds bytes start (UInt8.ofNat content.length :: content) := h
  exact ⟨hcons.byteAt, Nat.mod_eq_of_lt fits⟩

/-- The extent of data that starts with its size. Two format codes that differ in the width of the
size have `0xa`, `0xc` or `0xe` in the high half, and the next number. -/
lemma dataLength_sized {width : SizeWidth} {narrowCode wideCode : UInt8} {content : List UInt8}
    (hnarrow : narrowCode.toNat / 16 = 0xa ∨ narrowCode.toNat / 16 = 0xc ∨ narrowCode.toNat / 16 = 0xe)
    (hwide : wideCode.toNat / 16 = 0xb ∨ wideCode.toNat / 16 = 0xd ∨ wideCode.toNat / 16 = 0xf)
    (fits : Fits width content) (h : Holds bytes start (sized width content)) :
    dataLength bytes (width.code narrowCode wideCode) start = .ok (sized width content).length := by
  unfold dataLength
  cases width with
  | narrow =>
    obtain ⟨hbyte, hsize⟩ := byteAt_sized fits h
    have hlength : (sized .narrow content).length = 1 + content.length := by
      rw [sized, List.length_append, length_word]
      rfl
    rw [hlength, hbyte]
    rcases hnarrow with hcode | hcode | hcode
    all_goals
      simp only [SizeWidth.code, hcode]
      exact congrArg (fun n => Except.ok (1 + n)) hsize
  | wide =>
    have hword := sizeAt_sized fits h
    have hlength : (sized .wide content).length = 4 + content.length := by
      rw [sized, List.length_append, length_word]
      rfl
    rw [hlength]
    rcases hwide with hcode | hcode | hcode
    all_goals
      simp only [SizeWidth.code, hcode]
      rw [show wordAt bytes start 4 = .ok content.length from hword]
      rfl

/-- The bytes behind a size are read back. The two codes differ in the high half. -/
lemma payloadAt_sized {width : SizeWidth} {narrowCode wideCode : UInt8} {content : List UInt8}
    (hnarrow : narrowCode.toNat / 16 = 0xa) (hwide : wideCode.toNat / 16 ≠ 0xa)
    (fits : Fits width content) (h : Holds bytes start (sized width content)) :
    payloadAt bytes (width.code narrowCode wideCode) start = .ok content.toByteArray := by
  have hcontent := h.right.sliceAt
  rw [length_word] at hcontent
  unfold payloadAt
  cases width with
  | narrow =>
    obtain ⟨hbyte, hsize⟩ := byteAt_sized fits h
    rw [SizeWidth.code, if_pos hnarrow, hbyte]
    change sliceAt bytes (start + 1) (UInt8.ofNat content.length).toNat = _
    rw [hsize]
    exact hcontent
  | wide =>
    rw [SizeWidth.code, if_neg hwide, show wordAt bytes start 4 = _ from sizeAt_sized fits h]
    exact hcontent

/-- The text behind a size is read back. -/
lemma textAt_sized {width : SizeWidth} {narrowCode wideCode : UInt8} {text : String}
    (hnarrow : narrowCode.toNat / 16 = 0xa) (hwide : wideCode.toNat / 16 ≠ 0xa)
    (fits : Fits width text.toByteArray.data.toList)
    (h : Holds bytes start (sized width text.toByteArray.data.toList)) :
    textAt bytes (width.code narrowCode wideCode) start = .ok text := by
  have hpayload := payloadAt_sized hnarrow hwide fits h
  have hbytes : text.toByteArray.data.toList.toByteArray = text.toByteArray := by
    apply ByteArray.ext
    rw [List.data_toByteArray]
  have htext : String.fromUTF8? text.toByteArray = some text := by
    rw [String.fromUTF8?, dif_pos text.isValidUTF8]
    rfl
  rw [textAt, hpayload, hbytes]
  simp only [bind, Except.bind, htext]
  rfl

/-- The character whose code point was written is read back. -/
lemma charAt_word {value : Char} (h : Holds bytes start (word 4 value.val.toNat)) :
    charAt bytes start = .ok value := by
  have hword := h.wordAt value.val.toNat_lt
  have hpoint : value.val.toNat.toUInt32 = value.val := UInt32.ofNat_toNat
  rw [charAt, hword]
  change (if h : value.val.toNat.toUInt32.isValidChar then
      return ⟨value.val.toNat.toUInt32, h⟩
    else throw (.invalidChar value.val.toNat.toUInt32) : Except WireError Char) = _
  simp only [hpoint]
  rw [dif_pos value.valid]
  rfl

/-- A scalar that is made of a word is read back if the word that was written makes it. -/
lemma scalar_of_word {width number : Nat} {give : Nat → Scalar}
    (h : Holds bytes start (word width number)) (fits : number < 256 ^ width)
    (hgive : give number = scalar) :
    (do return give (← wordAt bytes start width) : Except WireError Scalar) = .ok scalar := by
  rw [h.wordAt fits, ← hgive]
  rfl

/-- A scalar is read back from each of its forms. -/
lemma scalarAt_form (form : ScalarForm scalar code data) (offset : Nat)
    (h : Holds bytes start data) : scalarAt bytes offset code start = .ok scalar := by
  cases form with
  | null | true | false | zeroUint | zeroUlong => rfl
  | boolean byte => exact scalar_of_word h byte.toNat_lt (by simp [← UInt8.toNat_inj])
  | ubyte value => exact scalar_of_word h value.toNat_lt (by simp)
  | ushort value => exact scalar_of_word h value.toNat_lt (by simp)
  | uint value => exact scalar_of_word h value.toNat_lt (by simp)
  | smallUint value => exact scalar_of_word h value.toNat_lt (by simp)
  | ulong value => exact scalar_of_word h value.toNat_lt (by simp)
  | smallUlong value => exact scalar_of_word h value.toNat_lt (by simp)
  | byte value => exact scalar_of_word h value.toUInt8.toNat_lt (by simp [Int8.ofNat])
  | short value => exact scalar_of_word h value.toUInt16.toNat_lt (by simp [Int16.ofNat])
  | int value => exact scalar_of_word h value.toUInt32.toNat_lt (by simp [Int32.ofNat])
  | smallInt value => exact scalar_of_word h value.toUInt8.toNat_lt (by simp [Int8.ofNat])
  | long value => exact scalar_of_word h value.toUInt64.toNat_lt (by simp [Int64.ofNat])
  | smallLong value => exact scalar_of_word h value.toUInt8.toNat_lt (by simp [Int8.ofNat])
  | float value => exact scalar_of_word h value.bits.toNat_lt (by simp)
  | double value => exact scalar_of_word h value.bits.toNat_lt (by simp)
  | decimal32 bits => exact scalar_of_word h bits.toNat_lt (by simp)
  | decimal64 bits => exact scalar_of_word h bits.toNat_lt (by simp)
  | decimal128 bits => exact scalar_of_word h bits.isLt (by simp)
  | timestamp value => exact scalar_of_word h value.toUInt64.toNat_lt (by simp [Int64.ofNat])
  | uuid bits => exact scalar_of_word h bits.isLt (by simp)
  | char value =>
    unfold scalarAt
    simp only [charAt_word h]
    rfl
  | @binary width content fits =>
    have hpayload := @payloadAt_sized _ _ _ 0xa0 0xb0 _ rfl (by decide) fits h
    have hbytes : content.toByteArray.data.toList = content := List.toList_data_toByteArray
    cases width
    all_goals
      unfold scalarAt
      simp only [SizeWidth.code] at hpayload ⊢
      rw [hpayload]
      exact congrArg (fun bytes => Except.ok (Scalar.binary bytes)) hbytes
  | @string width text fits =>
    have htext := @textAt_sized _ _ _ 0xa1 0xb1 _ rfl (by decide) fits h
    cases width
    all_goals
      unfold scalarAt
      simp only [SizeWidth.code] at htext ⊢
      rw [htext]
      rfl
  | @symbol width text fits =>
    have htext := @textAt_sized _ _ _ 0xa3 0xb3 _ rfl (by decide) fits h
    cases width
    all_goals
      unfold scalarAt
      simp only [SizeWidth.code] at htext ⊢
      rw [htext]
      rfl

/-- A scalar that is given behind a read is made of what was read. -/
lemma exists_of_return {α : Type} {read : Except WireError α} {give : α → Scalar}
    (h : (do return give (← read) : Except WireError Scalar) = .ok scalar) :
    ∃ value, scalar = give value := by
  cases hr : read with
  | error fault =>
    rw [hr] at h
    cases h
  | ok value =>
    rw [hr] at h
    cases h
    exact ⟨value, rfl⟩

/-- A scalar is of the kind that its format code tells, whatever the bytes behind the code are. -/
lemma ofCode?_of_scalarAt {offset : Nat} (h : scalarAt bytes offset code start = .ok scalar) :
    Kind.ofCode? code = some scalar.kind := by
  unfold scalarAt at h
  split at h
  -- Codes without data, then the codes of no scalar; all others read their data.
  case h_1 | h_2 | h_3 | h_9 | h_12 =>
    cases h
    rfl
  case h_33 =>
    split at h
    · cases h
    · cases h
  all_goals
    obtain ⟨value, rfl⟩ := exists_of_return h
    rfl

/-- The format code of a compound value is that of no scalar. -/
lemma scalarAt_of_compound {offset : Nat} {kind : Kind} (hcode : Kind.ofCode? code = some kind)
    (hcompound : kind.isCompound = true) :
    scalarAt bytes offset code start = .error (.notScalar kind) := by
  unfold scalarAt
  split
  case h_33 =>
    rw [hcode]
    rfl
  all_goals
    cases hcode
    cases hcompound

end Wire

end AmqpBlob
