import AmqpBlob.Proofs.Wire.Part
import Mathlib.Data.List.Induction

/-!
# Readers with machine words

The readers of encoded bytes as a machine runs them whose words have 64 bits. It halts where a sum does
not fit into a word, where a difference would be below zero, and where a slice has no byte at a place
or is not as long as the word that is taken from it. The data of such a machine is shorter than half of
what its words count, and then the readers never halt: each `agrees_` lemma says that one of them gives
what the reader gives that has no such bounds.
-/

namespace AmqpBlob

/-- A computation that may halt the machine. -/
abbrev Guarded := ExceptT WireError Option

namespace Guarded

open Wire (bigEndian describedCode)

/-- How many numbers there are in a word. -/
def wordLimit : Nat :=
  2 ^ 64

/-- A sum that must fit into a word. -/
def sum (a b : Nat) : Option Nat :=
  if a + b < wordLimit then some (a + b) else none

/-- A difference that must not be below zero. -/
def difference (a b : Nat) : Option Nat :=
  if b ≤ a then some (a - b) else none

/-- The byte at a place that must be in the slice. -/
def item (slice : ByteArray) (place : Nat) : Option UInt8 :=
  if h : place < slice.size then some slice[place] else none

/-- The word that a slice of its width stands for. -/
def wordOf (width : Nat) (slice : ByteArray) : Option Nat :=
  if slice.size = width then some (bigEndian slice.data.toList) else none

/-- The `length` bytes from `offset` on. A slice whose end does not fit into a word is not in the
bytes, and neither is one whose end passes theirs. -/
def sliceAt (bytes : ByteArray) (offset length : Nat) : Guarded ByteArray :=
  match sum offset length with
  | some stop =>
    if stop ≤ bytes.size then return bytes.extract offset stop
    else throw (.truncated offset length)
  | none => throw (.truncated offset length)

/-- The byte at `offset`. -/
def byteAt (bytes : ByteArray) (offset : Nat) : Guarded UInt8 := do
  item (← sliceAt bytes offset 1) 0

/-- The word of `width` bytes at `offset`. -/
def wordAt (bytes : ByteArray) (offset width : Nat) : Guarded Nat := do
  wordOf width (← sliceAt bytes offset width)

/-- The bytes of a binary or a text. -/
def payloadAt (bytes : ByteArray) (code : UInt8) (data : Nat) : Guarded ByteArray := do
  if code.toNat / 16 = 0xa then
    let length ← byteAt bytes data
    sliceAt bytes (← sum data 1) length.toNat
  else
    let length ← wordAt bytes data 4
    sliceAt bytes (← sum data 4) length

/-- The text of a string or a symbol. -/
def textAt (bytes : ByteArray) (code : UInt8) (data : Nat) : Guarded String := do
  let payload ← payloadAt bytes code data
  match String.fromUTF8? payload with
  | some text => return text
  | none => throw (.invalidUtf8 data)

/-- The character whose code point is the word at `data`. -/
def charAt (bytes : ByteArray) (data : Nat) : Guarded Char := do
  let point := (← wordAt bytes data 4).toUInt32
  if h : point.isValidChar then return ⟨point, h⟩ else throw (.invalidChar point)

/-- The scalar whose format code is `code` and whose data starts at `data`; `offset` is where the
value stands. -/
def scalarAt (bytes : ByteArray) (offset : Nat) (code : UInt8) (data : Nat) : Guarded Scalar := do
  let word := wordAt bytes data
  match code with
  | 0x40 => return .null
  | 0x41 => return .boolean true
  | 0x42 => return .boolean false
  | 0x56 => return .boolean ((← word 1) ≠ 0)
  | 0x50 => return .ubyte (← word 1).toUInt8
  | 0x60 => return .ushort (← word 2).toUInt16
  | 0x70 => return .uint (← word 4).toUInt32
  | 0x52 => return .uint (← word 1).toUInt32
  | 0x43 => return .uint 0
  | 0x80 => return .ulong (← word 8).toUInt64
  | 0x53 => return .ulong (← word 1).toUInt64
  | 0x44 => return .ulong 0
  | 0x51 => return .byte (← word 1).toInt8
  | 0x61 => return .short (← word 2).toInt16
  | 0x71 => return .int (← word 4).toInt32
  | 0x54 => return .int (← word 1).toInt8.toInt32
  | 0x81 => return .long (← word 8).toInt64
  | 0x55 => return .long (← word 1).toInt8.toInt64
  | 0x72 => return .float ⟨(← word 4).toUInt32⟩
  | 0x82 => return .double ⟨(← word 8).toUInt64⟩
  | 0x74 => return .decimal32 (← word 4).toUInt32
  | 0x84 => return .decimal64 (← word 8).toUInt64
  | 0x94 => return .decimal128 (.ofNat 128 (← word 16))
  | 0x73 => return .char (← charAt bytes data)
  | 0x83 => return .timestamp (← word 8).toInt64
  | 0x98 => return .uuid (.ofNat 128 (← word 16))
  | 0xa0 | 0xb0 => return .binary (← payloadAt bytes code data).data.toList
  | 0xa1 | 0xb1 => return .string (← textAt bytes code data)
  | 0xa3 | 0xb3 => return .symbol (← textAt bytes code data)
  | _ =>
    match Kind.ofCode? code with
    | some kind => throw (.notScalar kind)
    | none => throw (.invalidFormatCode code offset)

/-- The number of bytes that the data of a format code takes, its size included. -/
def dataLength (bytes : ByteArray) (code : UInt8) (data : Nat) : Guarded Nat :=
  match code.toNat / 16 with
  | 0x4 => return 0
  | 0x5 => return 1
  | 0x6 => return 2
  | 0x7 => return 4
  | 0x8 => return 8
  | 0x9 => return 16
  | 0xa | 0xc | 0xe => do sum 1 (← byteAt bytes data).toNat
  | 0xb | 0xd | 0xf => do sum 4 (← wordAt bytes data 4)
  | _ => throw (.invalidFormatCode code (data - 1))

/-- The offset behind `pending` elements that start at `offset`. -/
def skip (bytes : ByteArray) : (left pending offset : Nat) → Guarded Nat
  | _, 0, offset => return offset
  | 0, _ + 1, offset => throw (.truncated offset 1)
  | left + 1, pending + 1, offset => do
    let code ← byteAt bytes offset
    if code = describedCode then
      let offset ← sum offset 1
      let pending ← sum (pending + 1) 1
      skip bytes left pending offset
    else
      let length ← dataLength bytes code (← sum offset 1)
      let offset ← sum offset (← sum 1 length)
      let pending ← difference (pending + 1) 1
      skip bytes left pending offset

/-- The offset behind the element that starts at `offset`. -/
def elementStop (bytes : ByteArray) (offset : Nat) : Guarded Nat :=
  skip bytes (bytes.size - offset) 1 offset

/-- The machine does not halt, and gives what is computed without bounds. -/
def Agrees {α : Type} (guarded : Guarded α) (plain : Except WireError α) : Prop :=
  guarded.run = some plain

variable {α β : Type}

namespace Agrees

/-- Giving a value takes no computation. -/
lemma pure (value : α) : Agrees (pure value) (.ok value) :=
  rfl

/-- Telling a fault takes no computation. -/
lemma throw (fault : WireError) : Agrees (throw fault : Guarded α) (.error fault) :=
  rfl

/-- Steps agree one after the other if the second one does so for each value that the first one
gives. -/
lemma bind {guarded : Guarded α} {plain : Except WireError α} {following : α → Guarded β}
    {following' : α → Except WireError β} (h : Agrees guarded plain)
    (hfollowing : ∀ value, plain = .ok value → Agrees (following value) (following' value)) :
    Agrees (guarded >>= following) (plain >>= following') := by
  rw [Agrees, ExceptT.run_bind, h]
  cases plain with
  | ok value => exact hfollowing value rfl
  | error fault => rfl

/-- A step that does not halt gives its value. -/
lemma step {step : Option α} {value : α} (hstep : step = some value) :
    Agrees (liftM step) (.ok value) := by
  rw [hstep]
  rfl

/-- What does not halt is passed over. -/
lemma lift {step : Option α} {value : α} {following : α → Guarded β} {plain : Except WireError β}
    (hstep : step = some value) (h : Agrees (following value) plain) :
    Agrees (liftM step >>= following) plain := by
  rw [hstep]
  exact h

end Agrees

/-- A sum that fits into a word is the sum. -/
lemma sum_of_lt {a b : Nat} (h : a + b < wordLimit) : sum a b = some (a + b) :=
  if_pos h

/-- A difference that is not below zero is the difference. -/
lemma difference_of_le {a b : Nat} (h : b ≤ a) : difference a b = some (a - b) :=
  if_pos h

/-! ## Readers that do not halt -/

variable {bytes : ByteArray} {offset data : Nat}

/-- Bytes stand for a number that fits into as many bytes. -/
lemma bigEndian_lt (part : List UInt8) : bigEndian part < 256 ^ part.length := by
  induction part using List.reverseRec with
  | nil => exact Nat.one_pos
  | append_singleton part byte ih =>
    have hbyte := byte.toNat_lt
    rw [Wire.bigEndian_append_singleton, List.length_append, List.length_singleton, Nat.pow_succ]
    omega

/-- A slice is as long as it was asked to be. -/
lemma size_of_sliceAt {length : Nat} {slice : ByteArray}
    (h : Wire.sliceAt bytes offset length = .ok slice) : slice.size = length := by
  rw [Wire.sliceAt] at h
  split at h
  · cases h
    rw [ByteArray.size_extract]
    omega
  · cases h

/-- A word of four bytes is below 2 to the power of 32. -/
lemma lt_of_wordAt {word : Nat} (h : Wire.wordAt bytes data 4 = .ok word) : word < 2 ^ 32 := by
  obtain ⟨slice, hslice, hword⟩ := Wire.exists_of_bind h
  have hsize : slice.data.toList.length = 4 := size_of_sliceAt hslice
  have hlt := bigEndian_lt slice.data.toList
  cases hword
  rw [hsize] at hlt
  exact hlt

/-- No data is longer than its size can tell, and the size itself. -/
lemma dataLength_lt {code : UInt8} {length : Nat} (h : Wire.dataLength bytes code data = .ok length) :
    length < 2 ^ 32 + 4 := by
  unfold Wire.dataLength at h
  split at h
  case h_7 | h_8 | h_9 =>
    obtain ⟨size, _, hlength⟩ := Wire.exists_of_bind h
    have := size.toNat_lt
    cases hlength
    omega
  case h_10 | h_11 | h_12 =>
    obtain ⟨size, hsize, hlength⟩ := Wire.exists_of_bind h
    have := lt_of_wordAt hsize
    cases hlength
    omega
  case h_13 => cases h
  all_goals
    cases h
    omega

variable (short : bytes.size < 2 ^ 63)
include short

/-- A slice is taken without halting. If its end does not fit into a word, it is behind the bytes.
-/
lemma agrees_sliceAt (offset length : Nat) :
    Agrees (sliceAt bytes offset length) (Wire.sliceAt bytes offset length) := by
  unfold sliceAt Wire.sliceAt sum wordLimit
  by_cases fits : offset + length < 2 ^ 64
  · rw [if_pos fits]
    dsimp only
    split
    · exact .pure _
    · exact .throw _
  · rw [if_neg fits, if_neg (by omega)]
    exact .throw _

omit short in
/-- A slice of one byte has that byte at its start. -/
lemma item_extract (inside : offset < bytes.size) :
    item (bytes.extract offset (offset + 1)) 0 = some bytes[offset] := by
  have hsize : (bytes.extract offset (offset + 1)).size = 1 := by
    rw [ByteArray.size_extract]
    omega
  rw [item, dif_pos (by omega)]
  simp only [ByteArray.getElem_extract, Nat.add_zero]

/-- A byte is read without halting, as a slice of one byte that is there. -/
lemma agrees_byteAt (offset : Nat) : Agrees (byteAt bytes offset) (Wire.byteAt bytes offset) := by
  have hslice := agrees_sliceAt short offset 1
  unfold Wire.sliceAt at hslice
  unfold Wire.byteAt
  by_cases inside : offset < bytes.size
  · rw [if_pos (Nat.succ_le_of_lt inside)] at hslice
    rw [dif_pos inside]
    have hbyte : Agrees (byteAt bytes offset)
        (.ok (bytes.extract offset (offset + 1)) >>= fun _ => .ok bytes[offset]) := by
      refine hslice.bind fun slice h => ?_
      cases h
      exact .step (item_extract inside)
    exact hbyte
  · rw [if_neg (by omega)] at hslice
    rw [dif_neg inside]
    have hcut : Agrees (byteAt bytes offset)
        (.error (.truncated offset 1) >>= fun _ : ByteArray => .ok 0) := hslice.bind nofun
    exact hcut

/-- A word is read without halting, as its slice has its width. -/
lemma agrees_wordAt (offset width : Nat) :
    Agrees (wordAt bytes offset width) (Wire.wordAt bytes offset width) := by
  refine (agrees_sliceAt short offset width).bind fun slice hslice => ?_
  rw [wordOf, if_pos (size_of_sliceAt hslice)]
  rfl

/-- A payload is read without halting. -/
lemma agrees_payloadAt (code : UInt8) (data : Nat) :
    Agrees (payloadAt bytes code data) (Wire.payloadAt bytes code data) := by
  unfold payloadAt Wire.payloadAt
  split
  · refine (agrees_byteAt short data).bind fun length hlength => ?_
    have := Wire.lt_size_of_byteAt hlength
    exact .lift (sum_of_lt (by rw [wordLimit]; omega)) (agrees_sliceAt short _ _)
  · refine (agrees_wordAt short data 4).bind fun length hlength => ?_
    have := Wire.le_size_of_wordAt hlength
    exact .lift (sum_of_lt (by rw [wordLimit]; omega)) (agrees_sliceAt short _ _)

/-- A text is read without halting. -/
lemma agrees_textAt (code : UInt8) (data : Nat) :
    Agrees (textAt bytes code data) (Wire.textAt bytes code data) := by
  refine (agrees_payloadAt short code data).bind fun payload _ => ?_
  cases String.fromUTF8? payload with
  | some text => exact .pure _
  | none => exact .throw _

/-- A character is read without halting. -/
lemma agrees_charAt (data : Nat) : Agrees (charAt bytes data) (Wire.charAt bytes data) := by
  refine (agrees_wordAt short data 4).bind fun word _ => ?_
  dsimp only
  split
  · exact .pure _
  · exact .throw _

/-- A scalar is read without halting, or refused for what it is refused for. -/
lemma agrees_scalarAt (offset : Nat) (code : UInt8) (data : Nat) :
    Agrees (scalarAt bytes offset code data) (Wire.scalarAt bytes offset code data) := by
  unfold scalarAt
  split
  -- Codes without data, those of texts, of characters and of no scalar; all others read a word.
  case h_1 | h_2 | h_3 | h_9 | h_12 => exact .pure _
  case h_24 => exact (agrees_charAt short data).bind fun _ _ => .pure _
  case h_27 | h_28 => exact (agrees_payloadAt short _ data).bind fun _ _ => .pure _
  case h_29 | h_30 | h_31 | h_32 => exact (agrees_textAt short _ data).bind fun _ _ => .pure _
  case h_33 =>
    unfold Wire.scalarAt
    cases Kind.ofCode? code
    all_goals
      dsimp only
      split
      case h_33 => exact .throw _
      all_goals contradiction
  all_goals exact (agrees_wordAt short data _).bind fun _ _ => .pure _

/-- The length of data is told without halting, the size itself counted. -/
lemma agrees_dataLength (code : UInt8) (data : Nat) :
    Agrees (dataLength bytes code data) (Wire.dataLength bytes code data) := by
  unfold dataLength
  split
  case h_7 hcode | h_8 hcode | h_9 hcode =>
    simp only [Wire.dataLength, hcode]
    refine (agrees_byteAt short data).bind fun size _ => ?_
    have := size.toNat_lt
    exact .step (sum_of_lt (by rw [wordLimit]; omega))
  case h_10 hcode | h_11 hcode | h_12 hcode =>
    simp only [Wire.dataLength, hcode]
    refine (agrees_wordAt short data 4).bind fun size hsize => ?_
    have := lt_of_wordAt hsize
    exact .step (sum_of_lt (by rw [wordLimit]; omega))
  case h_13 =>
    unfold Wire.dataLength
    split
    case h_13 => exact .throw _
    all_goals contradiction
  all_goals
    rename_i hcode
    simp only [Wire.dataLength, hcode]
    exact .pure _

/-- What is pending never outnumbers the bytes that were passed over by more than one. -/
lemma agrees_skip {left pending offset : Nat} (h : pending ≤ offset + 1) :
    Agrees (skip bytes left pending offset) (Wire.skip bytes left pending offset) := by
  induction left generalizing pending offset with
  | zero =>
    cases pending with
    | zero => exact .pure offset
    | succ pending => exact .throw _
  | succ left ih =>
    cases pending with
    | zero => exact .pure offset
    | succ pending =>
      rw [skip, Wire.skip]
      refine (agrees_byteAt short offset).bind fun code hcode => ?_
      have inside := Wire.lt_size_of_byteAt hcode
      have here : sum offset 1 = some (offset + 1) := sum_of_lt (by rw [wordLimit]; omega)
      split
      · refine .lift here (.lift (sum_of_lt ?_) (ih (by omega)))
        rw [wordLimit]
        omega
      · refine .lift here ((agrees_dataLength short code (offset + 1)).bind fun length hlength => ?_)
        have hle := dataLength_lt hlength
        have hone : sum 1 length = some (1 + length) := sum_of_lt (by rw [wordLimit]; omega)
        have hbehind : sum offset (1 + length) = some (offset + 1 + length) := by
          rw [sum_of_lt (by rw [wordLimit]; omega), Nat.add_assoc]
        refine .lift hone (.lift hbehind (.lift (difference_of_le (by omega)) (ih (by omega))))

/-- An extent is scanned without halting, as only one element is pending where the scan starts. -/
lemma agrees_elementStop (offset : Nat) :
    Agrees (elementStop bytes offset) (Wire.elementStop bytes offset) :=
  agrees_skip short (Nat.le_add_left 1 offset)

end Guarded

end AmqpBlob
