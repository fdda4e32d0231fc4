import AmqpBlob.Proofs.Walk
import AmqpBlob.Proofs.Wire.Tree
import Mathlib.Logic.Function.Iterate

/-!
# Traversal of encoded values

A cursor on an encoding goes over the tree that was encoded: it tells the kind, reads the scalar,
enters each compound value, meets the trees in it one after the other and nothing behind them, finds
its way back, and moves on to the byte behind the encoding. `Traverses` says all this of a cursor and
an element, and of each element inside again; the main statement is that a cursor does so wherever it
stands on an element.

What carries the proof is `Spans`: the elements that are still to come fill the rest of the level,
byte by byte and in number.
-/

namespace AmqpBlob

open Wire (Holds SizeWidth Fits sized word)
open Element (content counted)

/-- Elements can share the format code: it has data, and not that of a described value. -/
structure Shareable (code : UInt8) : Prop where
  /-- It is not the code of described values. -/
  plain : code ≠ Wire.describedCode
  /-- It is not the code of values without data. -/
  wide : code.toNat / 16 ≠ 0x4

/-- The elements stand in the bytes one behind the other, from an offset on. -/
structure Siblings (bytes : ByteArray) (shared? : Option UInt8) (offset : Nat)
    (elements : List Element) : Prop where
  /-- Each of them is an encoding. -/
  encoded : ∀ element ∈ elements, element.Encoded
  /-- A shared format code is the one of each of them. -/
  shared : ∀ code ∈ shared?, Shareable code ∧ ∀ element ∈ elements, element.code = code
  /-- Their bytes stand at the offset. -/
  holds : Holds bytes offset (content shared? elements)

namespace Siblings

variable {bytes : ByteArray} {shared? : Option UInt8} {offset : Nat} {element : Element}
  {elements rest : List Element}

/-- The first sibling stands where the siblings do. -/
lemma head (h : Siblings bytes shared? offset (element :: rest)) :
    Siblings bytes shared? offset [element] where
  encoded other member := by
    rw [List.mem_singleton.1 member]
    exact h.encoded element List.mem_cons_self
  shared code hcode := by
    obtain ⟨shareable, hcodes⟩ := h.shared code hcode
    refine ⟨shareable, fun other member => ?_⟩
    rw [List.mem_singleton.1 member]
    exact hcodes element List.mem_cons_self
  holds := by
    rw [Element.content_cons, Element.content_nil, List.append_nil]
    exact h.holds.left

/-- The other siblings stand behind the first one. -/
lemma tail (h : Siblings bytes shared? offset (element :: rest)) :
    Siblings bytes shared? (offset + (element.bytes shared?).length) rest where
  encoded other member := h.encoded other (List.mem_cons_of_mem _ member)
  shared code hcode := by
    obtain ⟨shareable, hcodes⟩ := h.shared code hcode
    exact ⟨shareable, fun other member => hcodes other (List.mem_cons_of_mem _ member)⟩
  holds := h.holds.right

/-- Each sibling takes a byte or more. -/
lemma length_pos (h : Siblings bytes shared? offset (element :: rest)) :
    0 < (element.bytes shared?).length := by
  cases shared? with
  | none => exact Nat.succ_pos _
  | some code =>
    obtain ⟨shareable, hcodes⟩ := h.shared code rfl
    have hcode := hcodes element List.mem_cons_self
    refine Wire.length_pos_of_encodes (h.encoded element List.mem_cons_self) ?_
    rw [hcode]
    exact shareable.wide

/-- There are at most as many siblings as bytes. -/
lemma length_le (h : Siblings bytes shared? offset elements) :
    elements.length ≤ (content shared? elements).length := by
  induction elements generalizing offset with
  | nil => exact Nat.le_refl _
  | cons element rest ih =>
    have hpos := h.length_pos
    have hrest := ih h.tail
    rw [List.length_cons, Element.content_cons, List.length_append]
    omega

end Siblings

namespace Cursor

/-- The cursor is on the element, in a level that reaches at least as far. -/
structure StandsOn (c : Cursor) (element : Element) : Prop where
  /-- The element stands at the position. -/
  siblings : Siblings c.bytes c.level.element? c.here.offset [element]
  /-- The level has not passed its count. -/
  counted : c.here.index < c.level.count
  /-- The level covers the element. -/
  covered : c.here.offset + (element.bytes c.level.element?).length ≤ c.level.stop

/-- The cursor is on the first one of the elements, which fill the rest of the level. -/
structure Spans (c : Cursor) (elements : List Element) : Prop where
  /-- The elements stand from the position on. -/
  siblings : Siblings c.bytes c.level.element? c.here.offset elements
  /-- The level counts no other ones behind the position. -/
  counted : c.here.index + elements.length = c.level.count
  /-- The level ends behind the last one. -/
  covered : c.here.offset + (content c.level.element? elements).length = c.level.stop

/-- The cursor one sibling further, on the byte behind the element. -/
def past (c : Cursor) (element : Element) : Cursor :=
  { c with here := ⟨c.here.offset + (element.bytes c.level.element?).length, c.here.index + 1⟩ }

/-- The offset of the data of the current value. -/
def dataStart (c : Cursor) : Nat :=
  match c.level.element? with
  | none => c.here.offset + 1
  | some _ => c.here.offset

/-- An element ends where its data end. -/
lemma dataStart_add (c : Cursor) (element : Element) : c.dataStart + element.data.length =
    c.here.offset + (element.bytes c.level.element?).length := by
  unfold dataStart
  cases c.level.element? with
  | none =>
    simp only [Element.bytes, List.length_cons]
    omega
  | some code => rfl

/-- What a cursor on an element does: it tells the kind, reads a scalar and enters a compound value
only, meets the elements inside in their order and nothing behind them, leads back, and moves on to
the byte behind the element. -/
inductive Traverses : Cursor → Element → Prop where
  | scalar {c : Cursor} {element : Element} {value : Scalar} :
    element.tree = .scalar value →
    c.StandsOn element →
    c.hasCurrent = true →
    c.kind = .ok value.kind →
    c.scalar = .ok value →
    c.enter = .error (.notCompound value.kind) →
    c.next = c.past element →
    Traverses c element
  | compound {c inner : Cursor} {element : Element} {elements : List Element} :
    element.tree.kind.isCompound = true →
    elements.map Element.tree = element.tree.children →
    c.StandsOn element →
    c.hasCurrent = true →
    c.kind = .ok element.tree.kind →
    c.enter = .ok inner →
    (∀ index (inside : index < elements.length),
      Traverses (Cursor.next^[index] inner) elements[index]) →
    (Cursor.next^[elements.length] inner).hasCurrent = false →
    (∀ index, (Cursor.next^[index] inner).leave? = some c) →
    c.next = c.past element →
    Traverses c element

namespace StandsOn

variable {c : Cursor} {element : Element}

/-- What is stood on is an encoding. -/
lemma encoded (h : c.StandsOn element) : element.Encoded :=
  h.siblings.encoded element List.mem_cons_self

/-- Its bytes stand at the cursor. -/
lemma holds (h : c.StandsOn element) :
    Holds c.bytes c.here.offset (element.bytes c.level.element?) := by
  have hcontent := h.siblings.holds
  rw [Element.content_cons, Element.content_nil, List.append_nil] at hcontent
  exact hcontent

/-- There is a value at the cursor. -/
lemma hasCurrent (h : c.StandsOn element) : c.hasCurrent = true := by
  have hpos := h.siblings.length_pos
  have hcovered := h.covered
  have hcounted := h.counted
  simp only [Cursor.hasCurrent, Bool.and_eq_true, decide_eq_true_eq]
  omega

/-- The data of the element stand behind its format code, if that is not shared. -/
lemma holds_data (h : c.StandsOn element) : Holds c.bytes c.dataStart element.data := by
  have holds := h.holds
  unfold dataStart
  cases hshared : c.level.element? with
  | none =>
    rw [hshared] at holds
    exact Holds.tail holds
  | some code =>
    rw [hshared] at holds
    exact holds

/-- The format code is read from the bytes or, inside an array, known already. -/
lemma code (h : c.StandsOn element) : c.code = .ok (element.code, c.dataStart) := by
  have holds := h.holds
  rw [Cursor.code, if_pos h.hasCurrent]
  unfold dataStart
  cases hshared : c.level.element? with
  | none =>
    rw [hshared] at holds
    simp only [Holds.byteAt holds]
    rfl
  | some code =>
    obtain ⟨_, hcodes⟩ := h.siblings.shared code hshared
    rw [hcodes element List.mem_cons_self]

/-- The kind that is told is that of the tree. -/
lemma kind (h : c.StandsOn element) : c.kind = .ok element.tree.kind := by
  have hkind := Wire.ofCode?_encodes h.encoded
  rw [Cursor.kind, h.code]
  simp only [bind, Except.bind, hkind]
  rfl

/-- The end that is told is behind its bytes. -/
lemma stop (h : c.StandsOn element) :
    c.stop = .ok (c.here.offset + (element.bytes c.level.element?).length) := by
  have holds := h.holds
  unfold Cursor.stop
  cases hshared : c.level.element? with
  | none =>
    rw [hshared] at holds
    exact Wire.elementStop_encodes h.encoded holds
  | some code =>
    obtain ⟨shareable, hcodes⟩ := h.siblings.shared code hshared
    have hcode := hcodes element List.mem_cons_self
    rw [hshared] at holds
    have hlength := Wire.dataLength_encodes h.encoded (hcode ▸ shareable.plain) holds
    rw [hcode] at hlength
    simp only [hlength]
    rfl

/-- The next sibling stands right behind it. -/
lemma next (h : c.StandsOn element) : c.next = c.past element := by
  rw [Cursor.next, if_pos h.hasCurrent, h.stop]
  exact if_pos h.covered

/-- The scalar that was encoded is read. -/
lemma scalar {value : Scalar} (h : c.StandsOn element) (htree : element.tree = .scalar value) :
    c.scalar = .ok value := by
  have hencoded := h.encoded
  rw [Element.Encoded, htree] at hencoded
  rw [Cursor.scalar, h.code]
  cases hencoded with
  | scalar form => exact Wire.scalarAt_form form _ h.holds_data

end StandsOn

/-! ## Entering -/

section Interior

variable {c : Cursor} {tree : WireTree} {code shared : UInt8} {data body : List UInt8}
  {start count : Nat} {width : SizeWidth} {elements : List Element}

/-- The count stands behind the size. -/
lemma holds_count (holds : Holds c.bytes start (sized width (word width.bytes count ++ body))) :
    Holds c.bytes (start + width.bytes) (word width.bytes count) := by
  have hcounted := holds.right
  rw [Wire.length_word] at hcounted
  exact hcounted.left

/-- What is counted stands behind the size and the count. -/
lemma holds_counted (holds : Holds c.bytes start (sized width (word width.bytes count ++ body))) :
    Holds c.bytes (start + 2 * width.bytes) body := by
  have hbody := holds.right.right
  rw [Wire.length_word, Wire.length_word, Nat.add_assoc, ← Nat.two_mul] at hbody
  exact hbody

/-- Size and count take twice the width. -/
lemma length_counted : (sized width (counted width elements body)).length =
    2 * width.bytes + body.length :=
  Wire.length_compound width elements.length body

/-- A count of one byte may be read as a byte. -/
lemma byteAt_count (bound : count < 256 ^ SizeWidth.narrow.bytes)
    (holds : Holds c.bytes start (sized .narrow (word SizeWidth.narrow.bytes count ++ body))) :
    Wire.byteAt c.bytes (start + 1) = .ok (UInt8.ofNat count) ∧
      (UInt8.ofNat count).toNat = count :=
  ⟨Holds.byteAt (holds_count holds), Nat.mod_eq_of_lt bound⟩

/-- The inside of a list or a map starts behind the count. -/
lemma interior_counted {narrowCode wideCode : UInt8}
    (hcodes : narrowCode = 0xc0 ∧ wideCode = 0xd0 ∨ narrowCode = 0xc1 ∧ wideCode = 0xd1)
    (bound : count < 256 ^ width.bytes)
    (holds : Holds c.bytes start (sized width (word width.bytes count ++ body))) :
    c.interior (width.code narrowCode wideCode) start =
      .ok ⟨start + 2 * width.bytes, count, none⟩ := by
  cases width with
  | narrow =>
    obtain ⟨hbyte, hcount⟩ := byteAt_count bound holds
    have hinterior : (do
        return ⟨start + 2, (← Wire.byteAt c.bytes (start + 1)).toNat, none⟩ :
          Except WireError Interior) = .ok ⟨start + 2, count, none⟩ := by
      rw [hbyte]
      exact congrArg (fun count => Except.ok (Interior.mk (start + 2) count none)) hcount
    rcases hcodes with ⟨rfl, rfl⟩ | ⟨rfl, rfl⟩
    · exact hinterior
    · exact hinterior
  | wide =>
    have hinterior : (do
        return ⟨start + 8, ← Wire.wordAt c.bytes (start + 4) 4, none⟩ :
          Except WireError Interior) = .ok ⟨start + 8, count, none⟩ := by
      rw [show Wire.wordAt c.bytes (start + 4) 4 = _ from (holds_count holds).wordAt bound]
      rfl
    rcases hcodes with ⟨rfl, rfl⟩ | ⟨rfl, rfl⟩
    · exact hinterior
    · exact hinterior

/-- The inside of an array starts behind the format code that its elements share. -/
lemma arrayInterior_shared (holds : Holds c.bytes start (shared :: data))
    (plain : shared ≠ Wire.describedCode) :
    c.arrayInterior count start = .ok ⟨start + 1, count, some shared⟩ := by
  rw [arrayInterior, holds.byteAt]
  exact if_neg plain

/-- The format code that the elements of an array share stands behind the count. -/
lemma interior_array (bound : count < 256 ^ width.bytes)
    (holds : Holds c.bytes start (sized width (word width.bytes count ++ body))) :
    c.interior (width.code 0xe0 0xf0) start = c.arrayInterior count (start + 2 * width.bytes) := by
  cases width with
  | narrow =>
    obtain ⟨hbyte, hcount⟩ := byteAt_count bound holds
    change (Wire.byteAt c.bytes (start + 1) >>= fun count =>
      c.arrayInterior count.toNat (start + 2)) = _
    rw [hbyte]
    change c.arrayInterior (UInt8.ofNat count).toNat (start + 2) = _
    rw [hcount]
    rfl
  | wide =>
    change (Wire.wordAt c.bytes (start + 4) 4 >>= fun count =>
      c.arrayInterior count (start + 8)) = _
    rw [show Wire.wordAt c.bytes (start + 4) 4 = _ from (holds_count holds).wordAt bound]
    rfl

/-- A described value has two parts, from the data on, but as an element of an array it has no inside. -/
lemma interior_described_iff {inside : Interior} :
    c.interior Wire.describedCode start = .ok inside ↔
      c.level.element? = none ∧ inside = ⟨start, 2, none⟩ := by
  change (if c.level.element?.isSome then throw (.unread c.here.offset .describedElement)
    else return ⟨start, 2, none⟩ : Except WireError Interior) = _ ↔ _
  cases c.level.element? with
  | none => exact ⟨fun h => ⟨rfl, (Except.ok.inj h).symm⟩, fun h => congrArg Except.ok h.2.symm⟩
  | some shared => exact ⟨nofun, nofun⟩

/-- What is found inside a compound value: its elements, one behind the other up to its end. -/
structure Interior.Has (inside : Interior) (bytes : ByteArray) (elements : List Element)
    (stop : Nat) : Prop where
  /-- The elements stand from the first child on. -/
  siblings : Siblings bytes inside.element? inside.first elements
  /-- They are counted. -/
  counted : inside.count = elements.length
  /-- They reach to the end of the value. -/
  covered : inside.first + (content inside.element? elements).length = stop

/-- Elements that share no format code are siblings if their bytes follow each other. -/
lemma siblings_own (hitems : ∀ element ∈ elements, element.Encoded) {offset : Nat}
    (holds : Holds c.bytes offset (content none elements)) :
    Siblings c.bytes none offset elements where
  encoded := hitems
  shared := nofun
  holds := holds

/-- Inside a compound value stand encodings of the trees that it holds, and nothing else. -/
lemma interior_encodes (h : Encodes tree code data) (hcompound : tree.kind.isCompound = true)
    (hplain : code = Wire.describedCode → c.level.element? = none) (holds : Holds c.bytes start data) :
    ∃ inside elements, c.interior code start = .ok inside ∧
      elements.map Element.tree = tree.children ∧
      inside.Has c.bytes elements (start + data.length) := by
  cases h with
  | @scalar value =>
    have hscalar := value.isCompound_kind
    rw [show value.kind.isCompound = true from hcompound] at hscalar
    cases hscalar
  | @described descriptor value hdescriptor hvalue =>
    have hitems : ∀ element ∈ [descriptor, value], element.Encoded :=
      List.forall_mem_cons.2 ⟨hdescriptor, List.forall_mem_singleton.2 hvalue⟩
    refine ⟨⟨start, 2, none⟩, [descriptor, value], ?_, rfl, siblings_own hitems holds, rfl, rfl⟩
    exact interior_described_iff.2 ⟨hplain rfl, rfl⟩
  | emptyList =>
    exact ⟨⟨start, 0, none⟩, [], rfl, rfl, siblings_own (List.forall_mem_nil _) holds, rfl, rfl⟩
  | @list width elements hitems fits =>
    have hsiblings := siblings_own hitems (holds_counted holds)
    have hbound := Wire.length_lt_of_fits fits hsiblings.length_le
    refine ⟨_, elements, interior_counted (.inl ⟨rfl, rfl⟩) hbound holds, rfl, hsiblings, rfl, ?_⟩
    rw [length_counted, Nat.add_assoc]
  | @map width elements hitems fits =>
    have hsiblings := siblings_own hitems (holds_counted holds)
    have hbound := Wire.length_lt_of_fits fits hsiblings.length_le
    refine ⟨_, elements, interior_counted (.inr ⟨rfl, rfl⟩) hbound holds, rfl, hsiblings, rfl, ?_⟩
    rw [length_counted, Nat.add_assoc]
  | @array width shared elements hitems hcodes hshared hwide fits =>
    have shareable : Shareable shared := ⟨hshared, hwide⟩
    have hsiblings : Siblings c.bytes (some shared) (start + 2 * width.bytes + 1) elements := by
      refine ⟨hitems, fun code hcode => ?_, (holds_counted holds).tail⟩
      cases hcode
      exact ⟨shareable, hcodes⟩
    have hbound := Wire.length_lt_of_fits fits (Nat.le_succ_of_le hsiblings.length_le)
    have hinterior := (interior_array hbound holds).trans
      (arrayInterior_shared (holds_counted holds) hshared)
    refine ⟨_, elements, hinterior, rfl, hsiblings, rfl, ?_⟩
    rw [length_counted, List.length_cons]
    dsimp only
    omega

end Interior

variable {c : Cursor} {element : Element} {elements rest : List Element}

/-- A value that is there as a whole is entered if it has an inside, and where that starts. -/
lemma enter_eq {code : UInt8} {data stop : Nat} (hcode : c.code = .ok (code, data))
    (hstop : c.stop = .ok stop) (hsize : stop ≤ c.bytes.size) :
    c.enter = (c.interior code data).map fun inside => { c with
      here := ⟨inside.first, 0⟩
      level := ⟨c.here, stop, inside.count, inside.element?⟩
      outer := c.level :: c.outer } := by
  simp only [Cursor.enter, hcode, hstop, bind, Except.bind, if_neg (Nat.not_lt.2 hsize)]
  cases c.interior code data with
  | error fault => rfl
  | ok inside => rfl

/-- A compound value that is entered is spanned by encodings of the trees that it holds. -/
lemma StandsOn.enter (h : c.StandsOn element) (hcompound : element.tree.kind.isCompound = true) :
    ∃ inner elements, c.enter = .ok inner ∧ elements.map Element.tree = element.tree.children ∧
      inner.Spans elements := by
  -- A described value cannot be entered among the elements of an array, but it cannot be there.
  have hplain : element.code = Wire.describedCode → c.level.element? = none := by
    intro hcode
    cases hshared : c.level.element? with
    | none => rfl
    | some code =>
      obtain ⟨shareable, hcodes⟩ := h.siblings.shared code hshared
      rw [hcodes element List.mem_cons_self] at hcode
      exact absurd hcode shareable.plain
  obtain ⟨inside, elements, hinterior, htrees, hhas⟩ :=
    interior_encodes h.encoded hcompound hplain h.holds_data
  have henter := enter_eq h.code h.stop h.holds.le_size
  rw [hinterior] at henter
  refine ⟨_, elements, henter, htrees, hhas.siblings, ?_, ?_⟩
  · exact (Nat.zero_add _).trans hhas.counted.symm
  · exact hhas.covered.trans (dataStart_add c element)

/-- The format code of a scalar tells no inside. -/
lemma interior_of_scalar {kind : Kind} {code : UInt8} {data : Nat} (hkind : c.kind = .ok kind)
    (hcode : Kind.ofCode? code = some kind) (hscalar : kind.isCompound = false) :
    c.interior code data = .error (.notCompound kind) := by
  unfold interior
  split
  -- The last case is for the codes without an inside; the codes of all others are compound.
  case h_9 =>
    rw [hkind]
    rfl
  all_goals
    cases hcode
    cases hscalar

/-- A scalar is not entered. -/
lemma StandsOn.enter_scalar {value : Scalar} (h : c.StandsOn element)
    (htree : element.tree = .scalar value) : c.enter = .error (.notCompound value.kind) := by
  have hcode := Wire.ofCode?_encodes h.encoded
  have hkind := h.kind
  rw [htree] at hcode hkind
  rw [enter_eq h.code h.stop h.holds.le_size,
    interior_of_scalar hkind hcode (Scalar.isCompound_kind value)]
  rfl

/-- The first of the elements that span a level is stood on. -/
lemma Spans.standsOn (h : c.Spans (element :: rest)) : c.StandsOn element where
  siblings := h.siblings.head
  counted := by
    have := h.counted
    rw [List.length_cons] at this
    omega
  covered := by
    have := h.covered
    rw [Element.content_cons, List.length_append] at this
    omega

/-- One sibling further, the other elements span the rest of the level. -/
lemma Spans.next (h : c.Spans (element :: rest)) : c.next.Spans rest := by
  have hcounted := h.counted
  have hcovered := h.covered
  rw [List.length_cons] at hcounted
  rw [Element.content_cons, List.length_append] at hcovered
  rw [h.standsOn.next]
  refine ⟨h.siblings.tail, ?_, ?_⟩
  · simp only [past]
    omega
  · simp only [past]
    omega

/-- A level is exhausted if no elements are left that span it. -/
lemma Spans.exhausted (h : c.Spans []) : c.hasCurrent = false := by
  have hcounted := h.counted
  rw [List.length_nil, Nat.add_zero] at hcounted
  simp only [Cursor.hasCurrent, hcounted, Nat.lt_irrefl, decide_false, Bool.false_and]

/-- Some siblings further, what is left of the elements spans the rest of the level. -/
lemma Spans.iterate (h : c.Spans elements) (index : Nat) (hindex : index ≤ elements.length) :
    (Cursor.next^[index] c).Spans (elements.drop index) := by
  induction index generalizing c elements with
  | zero => exact h
  | succ index ih =>
    cases elements with
    | nil => cases hindex
    | cons element rest => exact ih h.next (Nat.le_of_succ_le_succ hindex)

/-- Steps to siblings stay in the level. -/
lemma sameLevel_iterate (c : Cursor) (index : Nat) : c.SameLevel (Cursor.next^[index] c) := by
  induction index generalizing c with
  | zero => exact .refl c
  | succ index ih => exact c.sameLevel_next.trans (ih c.next)

/-- A cursor on an encoding, whatever bytes stand around it, goes over the encoded tree, and so does
it inside of the tree, however deep. -/
theorem StandsOn.traverses (h : c.StandsOn element) : c.Traverses element := by
  -- The elements inside span the entered level, so each of them is stood on when its turn comes, and
  -- its tree is one of the children.
  generalize htree : element.tree = tree
  induction tree using WireTree.induction generalizing c element with
  | step tree ih =>
    cases hcompound : element.tree.kind.isCompound with
    | false =>
      cases hvalue : element.tree with
      | scalar value =>
        have hkind := h.kind
        rw [hvalue] at hkind
        exact .scalar hvalue h h.hasCurrent hkind (h.scalar hvalue) (h.enter_scalar hvalue) h.next
      | described | list | map | array =>
        rw [hvalue] at hcompound
        cases hcompound
    | true =>
      obtain ⟨inner, elements, henter, htrees, hspans⟩ := h.enter hcompound
      refine .compound hcompound htrees h h.hasCurrent h.kind henter ?_ ?_ ?_ h.next
      · intro index inside
        have hchild := hspans.iterate index (Nat.le_of_lt inside)
        rw [List.drop_eq_getElem_cons inside] at hchild
        refine ih elements[index].tree ?_ hchild.standsOn rfl
        rw [← htree, ← htrees]
        exact List.mem_map_of_mem (List.getElem_mem inside)
      · have hlast := hspans.iterate elements.length (Nat.le_refl _)
        rw [List.drop_length] at hlast
        exact hlast.exhausted
      · intro index
        exact (sameLevel_iterate inner index).leave?_of_enter henter

end Cursor

/-- The cursor on an encoding between other bytes. -/
def Encoding.between (encoding : Encoding) (before after : List UInt8) : Cursor where
  bytes := ⟨(before ++ encoding.val.bytes none ++ after).toArray⟩
  here := ⟨before.length, 0⟩
  level := ⟨⟨0, 0⟩, before.length + (encoding.val.bytes none).length, 1, none⟩
  outer := []

/-- The cursor between other bytes stands on the encoding. -/
lemma Encoding.standsOn_between (encoding : Encoding) (before after : List UInt8) :
    (encoding.between before after).StandsOn encoding.val where
  siblings := by
    refine ⟨List.forall_mem_singleton.2 encoding.property, nofun, ?_⟩
    rw [Element.content_cons, Element.content_nil, List.append_nil]
    exact ⟨before, after, rfl, rfl⟩
  counted := Nat.zero_lt_one
  covered := Nat.le_refl _

/-- A described list of a number, an array and a map. -/
def nestedElement : Element where
  tree := .described (.scalar (.symbol "d")) (.list [.scalar (.int 5),
    .array [.scalar (.ubyte 1), .scalar (.ubyte 2)], .map [.scalar (.string "k"), .scalar .null]])
  code := 0x00
  data := [0xa3, 0x01, 0x64, 0xc0, 0x10, 0x03, 0x54, 0x05, 0xe0, 0x04, 0x02, 0x50, 0x01, 0x02,
    0xc1, 0x05, 0x02, 0xa1, 0x01, 0x6b, 0x40]

/-- The cursor on the list between two other bytes. -/
def nestedCursor : Cursor where
  bytes := ⟨(0xff :: nestedElement.bytes none ++ [0xff]).toArray⟩
  here := ⟨1, 0⟩
  level := ⟨⟨0, 0⟩, 24, 2, none⟩
  outer := []

/-- The list is an encoding, part for part. -/
lemma nestedElement_encoded : nestedElement.Encoded := by
  have array := @Encodes.array .narrow 0x50
    [⟨.scalar (.ubyte 1), 0x50, [0x01]⟩, ⟨.scalar (.ubyte 2), 0x50, [0x02]⟩]
    (List.forall_mem_cons.2 ⟨.scalar (.ubyte 1), List.forall_mem_singleton.2 (.scalar (.ubyte 2))⟩)
    (by decide) (by decide) (by decide) (by decide)
  have map := @Encodes.map .narrow
    [⟨.scalar (.string "k"), 0xa1, [0x01, 0x6b]⟩, ⟨.scalar .null, 0x40, []⟩]
    (List.forall_mem_cons.2 ⟨.scalar (@ScalarForm.string .narrow "k" (by decide)),
      List.forall_mem_singleton.2 (.scalar .null)⟩) (by decide)
  have list := @Encodes.list .narrow [⟨.scalar (.int 5), 0x54, [0x05]⟩, ⟨_, _, _⟩, ⟨_, _, _⟩]
    (List.forall_mem_cons.2 ⟨.scalar (.smallInt 5), List.forall_mem_cons.2 ⟨array,
      List.forall_mem_singleton.2 map⟩⟩) (by decide)
  exact @Encodes.described ⟨.scalar (.symbol "d"), 0xa3, [0x01, 0x64]⟩ ⟨_, _, _⟩
    (.scalar (@ScalarForm.symbol .narrow "d" (by decide))) list

/-- The cursor goes over the list and what is nested in it. -/
theorem traverses_nested : nestedCursor.StandsOn nestedElement ∧
    nestedCursor.Traverses nestedElement := by
  have stands : nestedCursor.StandsOn nestedElement := by
    refine ⟨⟨List.forall_mem_singleton.2 nestedElement_encoded, nofun, ?_⟩, by decide, by decide⟩
    exact ⟨[0xff], [0xff], rfl, rfl⟩
  exact ⟨stands, stands.traverses⟩

end AmqpBlob
