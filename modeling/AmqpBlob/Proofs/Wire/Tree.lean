import AmqpBlob.Proofs.Wire.Formed

/-!
# Encoded values as trees

A `WireTree` is an encoded value without the choices of its encoding, and `Encodes tree code data`
says that the tree may be written as a format code with data behind it. Each list is written with the
sizes and counts that its width allows, the empty one without any data too; the elements of an array
share one format code, which stands before the first of them only. An `Element` is a tree together
with one of its encodings.

The two main statements say how far an encoding reaches: `dataLength_encodes` for the data behind a
format code, `elementStop_encodes` for a whole element.
-/

namespace AmqpBlob

open Wire (word sized Fits SizeWidth Holds)

/-- An encoded value, whichever bytes it is written with. -/
inductive WireTree where
  | scalar (value : Scalar)
  /-- A value with a descriptor before it. -/
  | described (descriptor value : WireTree)
  | list (items : List WireTree)
  /-- A map, as its keys and values in turns. -/
  | map (items : List WireTree)
  /-- A list whose elements are of one form. -/
  | array (items : List WireTree)

namespace WireTree

/-- The kind that the format code of each encoding tells. -/
def kind : WireTree → Kind
  | scalar value => value.kind
  | described _ _ => .described
  | list _ => .list
  | map _ => .map
  | array _ => .array

/-- The trees that a tree holds. -/
def children : WireTree → List WireTree
  | scalar _ => []
  | described descriptor value => [descriptor, value]
  | list items | map items | array items => items

/-- A tree is a scalar, or its kind is one that is entered. -/
lemma scalar_or_compound (tree : WireTree) :
    (∃ value, tree = scalar value) ∨ tree.kind.isCompound = true := by
  cases tree with
  | scalar value => exact .inl ⟨value, rfl⟩
  | described | list | map | array => exact .inr rfl

/-- What holds of a tree if it holds of the trees in it holds of every tree. -/
theorem induction {motive : WireTree → Prop}
    (step : ∀ tree, (∀ child ∈ tree.children, motive child) → motive tree) (tree : WireTree) :
    motive tree := by
  refine step tree fun child member => ?_
  have smaller : sizeOf child < sizeOf tree := by
    cases tree with
    | scalar value => cases member
    | described descriptor value =>
      simp only [children, List.mem_cons, List.not_mem_nil, or_false] at member
      rcases member with rfl | rfl
      all_goals
        rw [WireTree.described.sizeOf_spec]
        omega
    | list items | map items | array items =>
      have := List.sizeOf_lt_of_mem member
      simp only [children, WireTree.list.sizeOf_spec, WireTree.map.sizeOf_spec,
        WireTree.array.sizeOf_spec] at this ⊢
      omega
  exact induction step child
termination_by sizeOf tree

end WireTree

/-- A tree with one of its encodings. -/
structure Element where
  tree : WireTree
  code : UInt8
  /-- The data behind the format code. -/
  data : List UInt8

namespace Element

/-- The bytes of an element: where elements share a format code, that code is not among them. -/
def bytes (shared? : Option UInt8) (element : Element) : List UInt8 :=
  match shared? with
  | none => element.code :: element.data
  | some _ => element.data

/-- The bytes of elements that follow each other. -/
def content (shared? : Option UInt8) (elements : List Element) : List UInt8 :=
  elements.flatMap (bytes shared?)

/-- No elements have no bytes. -/
@[simp]
lemma content_nil (shared? : Option UInt8) : content shared? [] = [] :=
  rfl

/-- The bytes of the first element come first. -/
@[simp]
lemma content_cons (shared? : Option UInt8) (element : Element) (rest : List Element) :
    content shared? (element :: rest) = element.bytes shared? ++ content shared? rest :=
  rfl

/-- The element's format code and data, whatever tree it is. -/
def datum (element : Element) : Datum :=
  ⟨element.code, element.data⟩

/-- Elements with their number before them. -/
def counted (width : SizeWidth) (elements : List Element) (body : List UInt8) : List UInt8 :=
  word width.bytes elements.length ++ body

end Element

open Element (content counted)

/-- The tree may be written as the format code with the data behind it. -/
inductive Encodes : WireTree → (code : UInt8) → (data : List UInt8) → Prop where
  | scalar {scalar : Scalar} {code : UInt8} {data : List UInt8} :
    ScalarForm scalar code data →
    Encodes (.scalar scalar) code data
  | described {descriptor value : Element} :
    Encodes descriptor.tree descriptor.code descriptor.data →
    Encodes value.tree value.code value.data →
    Encodes (.described descriptor.tree value.tree) Wire.describedCode
      (content none [descriptor, value])
  | emptyList :
    Encodes (.list []) 0x45 []
  | list {width : SizeWidth} {elements : List Element} :
    (∀ element ∈ elements, Encodes element.tree element.code element.data) →
    Fits width (counted width elements (content none elements)) →
    Encodes (.list (elements.map Element.tree)) (width.code 0xc0 0xd0)
      (sized width (counted width elements (content none elements)))
  | map {width : SizeWidth} {elements : List Element} :
    (∀ element ∈ elements, Encodes element.tree element.code element.data) →
    Fits width (counted width elements (content none elements)) →
    Encodes (.map (elements.map Element.tree)) (width.code 0xc1 0xd1)
      (sized width (counted width elements (content none elements)))
  | array {width : SizeWidth} {shared : UInt8} {elements : List Element} :
    (∀ element ∈ elements, Encodes element.tree element.code element.data) →
    (∀ element ∈ elements, element.code = shared) →
    shared ≠ Wire.describedCode →
    shared.toNat / 16 ≠ 0x4 →
    Fits width (counted width elements (shared :: content (some shared) elements)) →
    Encodes (.array (elements.map Element.tree)) (width.code 0xe0 0xf0)
      (sized width (counted width elements (shared :: content (some shared) elements)))

/-- The element's bytes are an encoding of its tree. -/
def Element.Encoded (element : Element) : Prop :=
  Encodes element.tree element.code element.data

/-- An element that is an encoding of its tree. -/
abbrev Encoding := { element : Element // element.Encoded }

namespace Encoding

/-- A scalar in one of its forms. -/
def scalar {value : Scalar} {code : UInt8} {data : List UInt8} (form : ScalarForm value code data) :
    Encoding :=
  ⟨⟨.scalar value, code, data⟩, .scalar form⟩

/-- A value with a descriptor before it. -/
def described (descriptor value : Encoding) : Encoding :=
  ⟨⟨.described descriptor.1.tree value.1.tree, Wire.describedCode,
    content none [descriptor.1, value.1]⟩, .described descriptor.2 value.2⟩

/-- A list whose sizes and counts are of a width. -/
def list (width : SizeWidth) (items : List Encoding)
    (fits : Fits width (counted width (items.map Subtype.val)
      (content none (items.map Subtype.val)))) : Encoding where
  val.tree := .list ((items.map Subtype.val).map Element.tree)
  val.code := width.code 0xc0 0xd0
  val.data := sized width (counted width (items.map Subtype.val)
    (content none (items.map Subtype.val)))
  property := by
    refine .list (fun element member => ?_) fits
    obtain ⟨item, _, rfl⟩ := List.mem_map.1 member
    exact item.property

end Encoding

namespace Wire

variable {tree : WireTree} {code : UInt8} {data : List UInt8} {bytes : ByteArray} {start : Nat}

/-- The format code of an encoding tells the kind of the tree. -/
lemma ofCode?_encodes (h : Encodes tree code data) : Kind.ofCode? code = some tree.kind := by
  cases h with
  | scalar form => exact ofCode?_form form
  | described | emptyList => rfl
  | @list width | @map width | @array width => cases width <;> rfl

/-- The data of a scalar's form are well-formed. -/
lemma formed_of_form {scalar : Scalar} (form : ScalarForm scalar code data) : Formed ⟨code, data⟩ := by
  cases form with
  | binary fits | string fits | symbol fits => exact .payload (by decide) (by decide) fits
  | _ => exact .fixed (by simp only [length_word, List.length_nil]; rfl)

/-- Data are well-formed if the elements are. -/
lemma forall_datums {elements : List Element}
    (h : ∀ element ∈ elements, Formed ⟨element.code, element.data⟩) :
    ∀ item ∈ elements.map Element.datum, Formed item := by
  intro item member
  obtain ⟨element, helement, rfl⟩ := List.mem_map.1 member
  exact h element helement

/-- Elements have the same bytes as their data. -/
lemma content_datums (shared? : Option UInt8) (elements : List Element) :
    Datum.content shared? (elements.map Element.datum) = content shared? elements := by
  rw [Datum.content, content, List.flatMap_map]
  cases shared? <;> rfl

/-- Elements are as many as their data, so both are counted alike. -/
lemma compound_datums (width : SizeWidth) (elements : List Element) (body : List UInt8) :
    compound width (elements.map Element.datum).length body =
      sized width (counted width elements body) := by
  rw [List.length_map]
  rfl

/-- Where there are not more elements than bytes, a count fits its width if the bytes do. -/
lemma length_lt_of_fits {width : SizeWidth} {elements : List Element} {body : List UInt8}
    (fits : Fits width (counted width elements body)) (hlength : elements.length ≤ body.length) :
    elements.length < 256 ^ width.bytes := by
  rw [Fits, counted, List.length_append] at fits
  omega

/-- Elements that are no more than bytes are counted in the width that the bytes fit. -/
lemma fitsCounted_datums {width : SizeWidth} {elements : List Element} {body : List UInt8}
    (fits : Fits width (counted width elements body))
    (hlength : (elements.map Element.datum).length ≤ body.length) :
    FitsCounted width (elements.map Element.datum).length body := by
  rw [List.length_map] at hlength ⊢
  exact ⟨length_lt_of_fits fits hlength, fits⟩

/-- Elements with their own format codes take a byte or more each. -/
lemma length_le_own (elements : List Element) :
    (elements.map Element.datum).length ≤
      (Datum.content none (elements.map Element.datum)).length :=
  Datum.length_le_content fun _ _ => Nat.succ_pos _

/-- Encodings are well-formed. -/
lemma formed_of_encodes (h : Encodes tree code data) : Formed ⟨code, data⟩ := by
  induction h with
  | scalar form => exact formed_of_form form
  | described _ _ ihd ihv => exact .described ihd ihv
  | emptyList => exact .fixed rfl
  | list _ fits ih =>
    rw [← content_datums, ← compound_datums]
    rw [← content_datums] at fits
    exact .list (forall_datums ih) (fitsCounted_datums fits (length_le_own _))
  | map _ fits ih =>
    rw [← content_datums, ← compound_datums]
    rw [← content_datums] at fits
    exact .map (forall_datums ih) (fitsCounted_datums fits (length_le_own _))
  | @array _ shared elements _ hcodes hplain hwide fits ih =>
    rw [← content_datums, ← compound_datums]
    rw [← content_datums] at fits
    have codes : ∀ item ∈ elements.map Element.datum, item.code = shared := by
      intro item member
      obtain ⟨element, helement, rfl⟩ := List.mem_map.1 member
      exact hcodes element helement
    have hlength := @Datum.length_le_content (some shared) _ fun item member =>
      length_pos_of_formed (forall_datums ih item member) (codes item member ▸ hwide)
    exact .array hplain (forall_datums ih) codes
      (fitsCounted_datums fits (Nat.le_succ_of_le hlength))

/-- Data is empty only behind a format code whose high half is `0x4`. -/
lemma length_pos_of_encodes (h : Encodes tree code data) (hcode : code.toNat / 16 ≠ 0x4) :
    0 < data.length :=
  length_pos_of_formed (formed_of_encodes h) hcode

/-- The format code of an encoding, with what was written before the data, tells the extent. -/
lemma dataLength_encodes (h : Encodes tree code data) (hcode : code ≠ describedCode)
    (holds : Holds bytes start data) : dataLength bytes code start = .ok data.length :=
  dataLength_formed (formed_of_encodes h) hcode holds

/-- The extent of an element is found from its first byte. -/
lemma elementStop_encodes (h : Encodes tree code data) (holds : Holds bytes start (code :: data)) :
    elementStop bytes start = .ok (start + (code :: data).length) :=
  elementStop_formed (formed_of_encodes h) holds

end Wire

end AmqpBlob
