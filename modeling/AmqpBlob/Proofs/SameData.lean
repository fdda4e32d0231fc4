import AmqpBlob.Proofs.Embedding
import AmqpBlob.Proofs.Wire.Width

/-!
# Cursors on the same data

Two cursors on the same well-formed data tell the same, wherever the data stand, and whether their
format code stands before them or is shared by the elements of an array. What a cursor meets inside of
well-formed data follows from the data alone (the `opens_` lemmas), so two cursors that are on the same
data, or have the same data before them, stay so wherever they go: `mirror_data`.
-/

namespace AmqpBlob

open Wire (Holds SizeWidth word describedCode)
open Datum (content)

namespace Cursor

/-- The cursor is on the datum. -/
structure On (c : Cursor) (datum : Datum) : Prop where
  hasCurrent : c.hasCurrent = true
  /-- The datum stands at the position. -/
  holds : Holds c.bytes c.here.offset (datum.bytes c.level.element?)
  /-- A shared format code is the one of the datum. -/
  shared : ∀ code ∈ c.level.element?, code ≠ describedCode ∧ datum.code = code

namespace On

variable {c : Cursor} {datum : Datum}

/-- The data of the datum stand behind its format code or, in an array, at the position. -/
lemma holds_data (h : c.On datum) : Holds c.bytes c.dataStart datum.data := by
  have holds := h.holds
  unfold dataStart
  cases hshared : c.level.element? with
  | none =>
    rw [hshared] at holds
    exact Holds.tail holds
  | some code =>
    rw [hshared] at holds
    exact holds

/-- The data end where the datum does. -/
lemma dataStart_add (c : Cursor) (datum : Datum) : c.dataStart + datum.data.length =
    c.here.offset + (datum.bytes c.level.element?).length := by
  unfold dataStart
  cases c.level.element? with
  | none =>
    simp only [Datum.bytes, List.length_cons]
    omega
  | some code => rfl

/-- The format code is that of the datum, its own one or the shared one. -/
lemma code (h : c.On datum) : c.code = .ok (datum.code, c.dataStart) := by
  have holds := h.holds
  rw [Cursor.code, if_pos h.hasCurrent]
  unfold dataStart
  cases hshared : c.level.element? with
  | none =>
    rw [hshared] at holds
    simp only [Holds.byteAt holds]
    rfl
  | some code => rw [(h.shared code hshared).2]

/-- A formed datum ends where its bytes do. -/
lemma stop (h : c.On datum) (formed : Formed datum) :
    c.stop = .ok (c.here.offset + (datum.bytes c.level.element?).length) := by
  have holds := h.holds
  unfold Cursor.stop
  cases hshared : c.level.element? with
  | none =>
    rw [hshared] at holds
    exact Wire.elementStop_formed formed holds
  | some code =>
    obtain ⟨plain, rfl⟩ := h.shared code hshared
    rw [hshared] at holds
    simp only [Wire.dataLength_formed formed plain holds]
    rfl

/-- A described value is not an element of an array. -/
lemma element?_of_described (h : c.On datum) (hcode : datum.code = describedCode) :
    c.level.element? = none := by
  cases hshared : c.level.element? with
  | none => rfl
  | some code =>
    obtain ⟨plain, same⟩ := h.shared code hshared
    exact absurd (same.symm.trans hcode) plain

/-- Where a whole value is entered, and with what inside. -/
lemma enter (h : c.On datum) (formed : Formed datum) :
    c.enter = (c.interior datum.code c.dataStart).map fun inside => { c with
      here := ⟨inside.first, 0⟩
      level := ⟨c.here, c.dataStart + datum.data.length, inside.count, inside.element?⟩
      outer := c.level :: c.outer } := by
  rw [dataStart_add]
  exact enter_eq h.code (h.stop formed) h.holds.le_size

end On

/-- The data stand from the position on, one behind the other, and fill the rest of the level. -/
structure Fills (c : Cursor) (items : List Datum) : Prop where
  formed : ∀ item ∈ items, Formed item
  /-- A shared format code is the one of each of them, and there are data behind it. -/
  shared : ∀ code ∈ c.level.element?,
    code ≠ describedCode ∧ code.toNat / 16 ≠ 0x4 ∧ ∀ item ∈ items, item.code = code
  holds : Holds c.bytes c.here.offset (content c.level.element? items)
  /-- The level counts no other ones. -/
  counted : c.here.index + items.length = c.level.count
  /-- The level ends behind the last one. -/
  covered : c.here.offset + (content c.level.element? items).length = c.level.stop

/-- The cursor meets the data one after the other, and then no other ones. -/
def Awaits : Cursor → List Datum → Prop
  | c, [] => c.hasCurrent = false
  | c, item :: rest =>
    Formed item ∧ c.On item ∧ c.next.here.index = c.here.index + 1 ∧ c.next.Awaits rest

namespace Fills

variable {c : Cursor} {item : Datum} {items rest : List Datum}

/-- The cursor is on the first of the data. -/
lemma on (h : c.Fills (item :: rest)) : c.On item where
  hasCurrent := by
    have hcounted := h.counted
    have hcovered := h.covered
    have hpos : 0 < (item.bytes c.level.element?).length := by
      cases hshared : c.level.element? with
      | none => exact Nat.succ_pos _
      | some code =>
        obtain ⟨_, wide, hcodes⟩ := h.shared code hshared
        have hcode := hcodes item List.mem_cons_self
        exact Wire.length_pos_of_formed (h.formed item List.mem_cons_self) (hcode ▸ wide)
    rw [List.length_cons] at hcounted
    rw [Datum.content_cons, List.length_append] at hcovered
    exact hasCurrent_iff.2 ⟨by omega, by omega⟩
  holds := by
    have holds := h.holds
    rw [Datum.content_cons] at holds
    exact holds.left
  shared code hcode := by
    obtain ⟨plain, _, hcodes⟩ := h.shared code hcode
    exact ⟨plain, hcodes item List.mem_cons_self⟩

/-- A step passes over the bytes of the first of the data. -/
lemma next_eq (h : c.Fills (item :: rest)) : c.next =
    { c with here := ⟨c.here.offset + (item.bytes c.level.element?).length, c.here.index + 1⟩ } := by
  have hcovered := h.covered
  rw [Datum.content_cons, List.length_append] at hcovered
  rw [Cursor.next, if_pos h.on.hasCurrent, h.on.stop (h.formed item List.mem_cons_self)]
  exact if_pos (by omega)

/-- Behind the first of the data the others fill what is left. -/
lemma next (h : c.Fills (item :: rest)) : c.next.Fills rest := by
  have holds := h.holds
  have hcounted := h.counted
  have hcovered := h.covered
  rw [Datum.content_cons] at holds hcovered
  rw [List.length_cons] at hcounted
  rw [List.length_append] at hcovered
  rw [h.next_eq]
  refine ⟨fun other member => h.formed other (List.mem_cons_of_mem _ member), fun code hcode => ?_,
    holds.right, by dsimp only; omega, by dsimp only; omega⟩
  obtain ⟨plain, wide, hcodes⟩ := h.shared code hcode
  exact ⟨plain, wide, fun other member => hcodes other (List.mem_cons_of_mem _ member)⟩

/-- Data that fill a level are met in it one after the other. -/
lemma awaits (h : c.Fills items) : c.Awaits items := by
  induction items generalizing c with
  | nil =>
    have hcounted := h.counted
    rw [List.length_nil] at hcounted
    refine Bool.eq_false_iff.2 fun current => ?_
    have := (hasCurrent_iff.1 current).1
    omega
  | cons item rest ih =>
    refine ⟨h.formed item List.mem_cons_self, h.on, ?_, ih h.next⟩
    rw [h.next_eq]

end Fills

/-! ## Entering -/

/-- The value is entered, and the cursor then has the items before it, in a level that counts as many
children as told. -/
def Opens (c : Cursor) (items : List Datum) (count : Nat) : Prop :=
  ∃ inner, c.enter = .ok inner ∧ inner.Awaits items ∧ inner.level.count - inner.here.index = count

section Opens

variable {c : Cursor} {datum : Datum} {items : List Datum} {width : SizeWidth} {count : Nat}
  {shared : UInt8} {body : List UInt8}

/-- A value is opened if its items fill it. -/
lemma On.opens {first : Nat} {element? : Option UInt8} (on : c.On datum) (formed : Formed datum)
    (hinterior : c.interior datum.code c.dataStart = .ok ⟨first, items.length, element?⟩)
    (hitems : ∀ item ∈ items, Formed item)
    (hshared : ∀ code ∈ element?,
      code ≠ describedCode ∧ code.toNat / 16 ≠ 0x4 ∧ ∀ item ∈ items, item.code = code)
    (holds : Holds c.bytes first (content element? items))
    (covered : first + (content element? items).length = c.dataStart + datum.data.length) :
    c.Opens items items.length := by
  have henter := on.enter formed
  rw [hinterior] at henter
  refine ⟨_, henter, Fills.awaits ?_, rfl⟩
  exact ⟨hitems, hshared, holds, Nat.zero_add _, covered⟩

/-- A value is opened to nothing if no bytes are left in it. -/
lemma On.opens_nil {first : Nat} {element? : Option UInt8} (on : c.On datum) (formed : Formed datum)
    (hinterior : c.interior datum.code c.dataStart = .ok ⟨first, count, element?⟩)
    (none : first = c.dataStart + datum.data.length) : c.Opens [] count := by
  have henter := on.enter formed
  rw [hinterior, none] at henter
  refine ⟨_, henter, Bool.eq_false_iff.2 fun current => ?_, rfl⟩
  exact Nat.lt_irrefl _ (hasCurrent_iff.1 current).2

/-- The empty list is opened to nothing. -/
lemma opens_emptyList (on : c.On ⟨0x45, []⟩) : c.Opens [] 0 :=
  on.opens_nil (.fixed rfl) rfl rfl

/-- Inside of a described value stand its descriptor and its value. -/
lemma opens_described {descriptor value : Datum} (hdescriptor : Formed descriptor)
    (hvalue : Formed value) (on : c.On ⟨describedCode, content none [descriptor, value]⟩) :
    c.Opens [descriptor, value] 2 := by
  have hinterior : c.interior describedCode c.dataStart = .ok ⟨c.dataStart, 2, none⟩ :=
    interior_described_iff.2 ⟨on.element?_of_described rfl, rfl⟩
  have hitems := List.forall_mem_cons.2 ⟨hdescriptor, List.forall_mem_singleton.2 hvalue⟩
  exact on.opens (.described hdescriptor hvalue) hinterior hitems nofun on.holds_data rfl

/-- Inside of a list stand its items. -/
lemma opens_list (hitems : ∀ item ∈ items, Formed item)
    (fits : FitsCounted width items.length (content none items))
    (on : c.On ⟨width.code 0xc0 0xd0, compound width items.length (content none items)⟩) :
    c.Opens items items.length := by
  have hinterior := interior_counted (.inl ⟨rfl, rfl⟩) fits.count_lt on.holds_data
  refine on.opens (.list hitems fits) hinterior hitems nofun (holds_counted on.holds_data) ?_
  rw [Wire.length_compound, Nat.add_assoc]

/-- Inside of a map stand its keys and values. -/
lemma opens_map (hitems : ∀ item ∈ items, Formed item)
    (fits : FitsCounted width items.length (content none items))
    (on : c.On ⟨width.code 0xc1 0xd1, compound width items.length (content none items)⟩) :
    c.Opens items items.length := by
  have hinterior := interior_counted (.inr ⟨rfl, rfl⟩) fits.count_lt on.holds_data
  refine on.opens (.map hitems fits) hinterior hitems nofun (holds_counted on.holds_data) ?_
  rw [Wire.length_compound, Nat.add_assoc]

/-- The elements of an array stand behind the format code that they share. -/
lemma interior_arrayForm (plain : shared ≠ describedCode)
    (fits : FitsCounted width count (shared :: body))
    (on : c.On ⟨width.code 0xe0 0xf0, compound width count (shared :: body)⟩) :
    c.interior (width.code 0xe0 0xf0) c.dataStart =
      .ok ⟨c.dataStart + 2 * width.bytes + 1, count, some shared⟩ :=
  (interior_array fits.count_lt on.holds_data).trans
    (arrayInterior_shared (holds_counted on.holds_data) plain)

/-- Inside of an array stand its elements, if they have data. -/
lemma opens_array (plain : shared ≠ describedCode) (wide : shared.toNat / 16 ≠ 0x4)
    (hitems : ∀ item ∈ items, Formed item) (hcodes : ∀ item ∈ items, item.code = shared)
    (fits : FitsCounted width items.length (shared :: content (some shared) items))
    (on : c.On ⟨width.code 0xe0 0xf0,
      compound width items.length (shared :: content (some shared) items)⟩) :
    c.Opens items items.length := by
  refine on.opens (.array plain hitems hcodes fits) (interior_arrayForm plain fits on) hitems ?_
    (holds_counted on.holds_data).tail ?_
  · intro code hcode
    cases hcode
    exact ⟨plain, wide, hcodes⟩
  · rw [Wire.length_compound, List.length_cons]
    omega

/-- In an array whose elements have no data nothing is met, however many it counts. -/
lemma opens_array_without_data (plain : shared ≠ describedCode) (narrow : shared.toNat / 16 = 0x4)
    (hitems : ∀ item ∈ items, Formed item) (hcodes : ∀ item ∈ items, item.code = shared)
    (fits : FitsCounted width items.length (shared :: content (some shared) items))
    (on : c.On ⟨width.code 0xe0 0xf0,
      compound width items.length (shared :: content (some shared) items)⟩) :
    c.Opens [] items.length := by
  have hempty : content (some shared) items = [] := by
    refine List.flatMap_eq_nil_iff.2 fun item member => ?_
    exact Wire.data_eq_nil_of_formed (hitems item member) ((hcodes item member).symm ▸ narrow)
  refine on.opens_nil (.array plain hitems hcodes fits) (interior_arrayForm plain fits on) ?_
  rw [Wire.length_compound, hempty, List.length_singleton, Nat.add_assoc]

end Opens

/-! ## Walks -/

/-- Both cursors are on the same datum, or behind all of them. -/
inductive SameDatum : Cursor → Cursor → Prop where
  | on {c c' : Cursor} {datum : Datum} :
    Formed datum →
    c.On datum →
    c'.On datum →
    SameDatum c c'
  | exhausted {c c' : Cursor} :
    c.hasCurrent = false →
    c'.hasCurrent = false →
    SameDatum c c'

/-- Both cursors have the same data before them. -/
structure SameData (c c' : Cursor) : Prop where
  items : ∃ items, c.Awaits items ∧ c'.Awaits items
  remaining : c'.level.count - c'.here.index = c.level.count - c.here.index

variable {c c' : Cursor}

/-- The first of the same data is the same datum. -/
lemma SameData.sameDatum (h : SameData c c') : SameDatum c c' := by
  obtain ⟨⟨items, awaits, awaits'⟩, _⟩ := h
  cases items with
  | nil => exact .exhausted awaits awaits'
  | cons item rest => exact .on awaits.1 awaits.2.1 awaits'.2.1

/-- Behind the first of the same data the same data are left. -/
lemma SameData.next (h : SameData c c') : SameData c.next c'.next := by
  obtain ⟨⟨items, awaits, awaits'⟩, remaining⟩ := h
  cases items with
  | nil =>
    rw [next_of_not_hasCurrent awaits, next_of_not_hasCurrent awaits']
    exact ⟨⟨[], awaits, awaits'⟩, remaining⟩
  | cons item rest =>
    obtain ⟨_, _, index, awaits⟩ := awaits
    obtain ⟨_, _, index', awaits'⟩ := awaits'
    refine ⟨⟨rest, awaits, awaits'⟩, ?_⟩
    rw [index, index', level_next, level_next]
    omega

/-- Values that are opened to the same data have the same data inside. -/
lemma Opens.sameData {items : List Datum} {count : Nat} (h : c.Opens items count)
    (h' : c'.Opens items count) : Echoes (fun _ => False) SameData c.enter c'.enter := by
  obtain ⟨inner, henter, awaits, remaining⟩ := h
  obtain ⟨inner', henter', awaits', remaining'⟩ := h'
  rw [henter, henter']
  exact .ok ⟨⟨items, awaits, awaits'⟩, remaining'.trans remaining.symm⟩

/-- The format codes of values that may hold other ones. -/
def compoundCodes : List UInt8 :=
  [0x00, 0x45, 0xc0, 0xc1, 0xd0, 0xd1, 0xe0, 0xf0]

/-- Only values with a compound format code have an inside. -/
lemma interior_of_plain {code : UInt8} {data : Nat} (plain : code ∉ compoundCodes) :
    c.interior code data = c.kind >>= fun kind => .error (.notCompound kind) := by
  unfold interior
  split
  case h_9 => rfl
  all_goals exact absurd (by decide) plain

/-- Only the empty list has a format code of such values that fixes the number of its bytes. -/
lemma eq_of_fixedWidth {code : UInt8} (member : code ∈ compoundCodes)
    (fixed : (fixedWidth? code).isSome = true) : code = 0x45 := by
  have all : compoundCodes.all fun code => (fixedWidth? code).isSome = true → code = 0x45 := by decide
  exact of_decide_eq_true (List.all_eq_true.1 all code member) fixed

namespace On

variable {datum : Datum}

/-- A datum has one kind wherever it stands. -/
lemma sameKind (h : c.On datum) (h' : c'.On datum) :
    Echoes (fun _ => False) Eq c.kind c'.kind := by
  rw [Cursor.kind, Cursor.kind, h.code, h'.code]
  dsimp only [bind, Except.bind]
  cases Kind.ofCode? datum.code with
  | some kind => exact .ok rfl
  | none => exact .fault rfl

/-- Scalars are read alike. -/
lemma sameScalar (formed : Formed datum) (h : c.On datum) (h' : c'.On datum) :
    Echoes (fun _ => False) Eq c.scalar c'.scalar := by
  rw [Cursor.scalar, Cursor.scalar, h.code, h'.code]
  by_cases hcode : datum.code = describedCode
  · rw [hcode]
    exact .error _
  · have hlength := Wire.dataLength_formed formed hcode h.holds_data
    exact Wire.echoes_sameData h.holds_data h'.holds_data hlength

/-- Values that hold no other ones are not entered. -/
lemma sameEnter_of_plain (formed : Formed datum) (h : c.On datum) (h' : c'.On datum)
    (plain : datum.code ∉ compoundCodes) :
    Echoes (fun _ => False) SameData c.enter c'.enter := by
  rw [h.enter formed, h'.enter formed, interior_of_plain plain, interior_of_plain plain]
  have refused : Echoes (fun _ => False) (fun _ _ => False)
      (c.kind >>= fun kind => (.error (.notCompound kind) : Except WireError Interior))
      (c'.kind >>= fun kind => (.error (.notCompound kind) : Except WireError Interior)) :=
    (h.sameKind h').bind_eq fun kind => .error _
  exact refused.map fun _ _ => False.elim

/-- An array of described values is not entered. -/
lemma sameEnter_describedArray {width : SizeWidth} {count : Nat} {rest : List UInt8}
    (fits : FitsCounted width count (describedCode :: rest))
    (h : c.On ⟨width.code 0xe0 0xf0, compound width count (describedCode :: rest)⟩)
    (h' : c'.On ⟨width.code 0xe0 0xf0, compound width count (describedCode :: rest)⟩) :
    Echoes (fun _ => False) SameData c.enter c'.enter := by
  have refused (d : Cursor)
      (on : d.On ⟨width.code 0xe0 0xf0, compound width count (describedCode :: rest)⟩) :
      d.enter = .error (.unread (d.dataStart + 2 * width.bytes) .arrayOfDescribed) := by
    rw [on.enter (.describedArray fits), interior_array fits.count_lt on.holds_data, arrayInterior,
      (holds_counted on.holds_data).byteAt]
    rfl
  rw [refused c h, refused c' h']
  exact .fault rfl

/-- Inside of the same data stand the same data. -/
lemma sameEnter (formed : Formed datum) (h : c.On datum) (h' : c'.On datum) :
    Echoes (fun _ => False) SameData c.enter c'.enter := by
  cases formed with
  | @fixed code data hwidth =>
    by_cases hlist : code = 0x45
    · subst hlist
      cases List.length_eq_zero_iff.1 (Option.some.inj hwidth).symm
      exact (opens_emptyList h).sameData (opens_emptyList h')
    · refine sameEnter_of_plain (.fixed hwidth) h h' fun member => hlist ?_
      exact eq_of_fixedWidth member (Option.isSome_of_eq_some hwidth)
  | @payload width narrowCode wideCode _ hnarrow hwide fits =>
    refine sameEnter_of_plain (.payload hnarrow hwide fits) h h' fun member => ?_
    have all : compoundCodes.all fun code => code.toNat / 16 ≠ 0xa ∧ code.toNat / 16 ≠ 0xb := by
      decide
    have none_of := of_decide_eq_true (List.all_eq_true.1 all _ member)
    cases width
    · exact none_of.1 hnarrow
    · exact none_of.2 hwide
  | described hdescriptor hvalue =>
    exact (opens_described hdescriptor hvalue h).sameData (opens_described hdescriptor hvalue h')
  | list hitems fits => exact (opens_list hitems fits h).sameData (opens_list hitems fits h')
  | map hitems fits => exact (opens_map hitems fits h).sameData (opens_map hitems fits h')
  | @array _ shared _ plain hitems hcodes fits =>
    by_cases narrow : shared.toNat / 16 = 0x4
    · exact (opens_array_without_data plain narrow hitems hcodes fits h).sameData
        (opens_array_without_data plain narrow hitems hcodes fits h')
    · exact (opens_array plain narrow hitems hcodes fits h).sameData
        (opens_array plain narrow hitems hcodes fits h')
  | describedArray fits => exact sameEnter_describedArray fits h h'

end On

/-- Walks over the same data echo each other. -/
theorem mirror_data : Mirror (fun _ => False) SameDatum SameData where
  value_of_level h := h.sameDatum
  kind h := by
    cases h with
    | on _ on on' => exact on.sameKind on'
    | exhausted none none' =>
      rw [kind_of_exhausted none, kind_of_exhausted none']
      exact .fault rfl
  scalar h := by
    cases h with
    | on formed on on' => exact on.sameScalar formed on'
    | exhausted none none' =>
      rw [scalar_of_exhausted none, scalar_of_exhausted none']
      exact .fault rfl
  hasCurrent h := by
    cases h with
    | on _ on on' => rw [on.hasCurrent, on'.hasCurrent]
    | exhausted none none' => rw [none, none']
  enter h := by
    cases h with
    | on formed on on' => exact on.sameEnter formed on'
    | exhausted none none' =>
      rw [enter_of_exhausted none, enter_of_exhausted none']
      exact .fault rfl
  next h := h.next
  remaining h := h.remaining

end Cursor

end AmqpBlob
