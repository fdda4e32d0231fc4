import AmqpBlob.Proofs.Wire.Traversal

/-!
# Walks over trees

What a walk gives where encodings of known trees stand. `Shows` says which trees are still to come in
a level; a walk looks at the first of them, and a step that takes trees from the front is repeated
until none is left.
-/

namespace AmqpBlob

open Walk (Rests)

namespace Cursor

/-- The cursor is on the first of encodings of the trees, which fill the rest of the level. -/
def Shows (c : Cursor) (trees : List WireTree) : Prop :=
  ∃ elements, c.Spans elements ∧ elements.map Element.tree = trees

variable {c : Cursor} {element : Element} {tree : WireTree} {trees : List WireTree}

/-- Inside of an encoding of a compound value stand encodings of the trees that it holds. -/
lemma StandsOn.shows (h : c.StandsOn element) (htree : element.tree = tree)
    (hcompound : tree.kind.isCompound = true) :
    ∃ inner, c.enter = .ok inner ∧ inner.Shows tree.children := by
  rw [← htree] at hcompound ⊢
  obtain ⟨inner, elements, henter, htrees, spans⟩ := h.enter hcompound
  exact ⟨inner, henter, elements, spans, htrees⟩

/-- A level without trees to come is exhausted. -/
lemma Shows.exhausted (h : c.Shows []) : c.hasCurrent = false := by
  obtain ⟨elements, spans, htrees⟩ := h
  cases List.map_eq_nil_iff.1 htrees
  exact spans.exhausted

/-- The first tree to come stands at the position, and the others from the next sibling on. -/
lemma Shows.first (h : c.Shows (tree :: trees)) :
    ∃ element, c.StandsOn element ∧ element.tree = tree ∧ c.next.Shows trees := by
  obtain ⟨elements, spans, htrees⟩ := h
  obtain ⟨element, rest, rfl, htree, hrest⟩ := List.map_eq_cons_iff.1 htrees
  exact ⟨element, spans.standsOn, htree, rest, spans.next, hrest⟩

/-- There are as many trees to come as the level counts. -/
lemma Shows.counted (h : c.Shows trees) : c.level.count - c.here.index = trees.length := by
  obtain ⟨elements, spans, rfl⟩ := h
  rw [List.length_map, ← spans.counted]
  omega

/-- The inside of a described value is its descriptor and, one sibling further, its value. -/
lemma StandsOn.enter_described {descriptor : Scalar} (stands : c.StandsOn element)
    (htree : element.tree = .described (.scalar descriptor) tree) :
    ∃ inner first second, c.enter = .ok inner ∧
      inner.StandsOn first ∧ first.tree = .scalar descriptor ∧
      inner.next.StandsOn second ∧ second.tree = tree := by
  obtain ⟨inner, henter, shows⟩ := stands.shows htree rfl
  obtain ⟨first, onFirst, hfirst, shows⟩ := shows.first
  obtain ⟨second, onSecond, hsecond, _⟩ := shows.first
  exact ⟨inner, first, second, henter, onFirst, hfirst, onSecond, hsecond⟩

/-- The current value has the descriptor. -/
structure DescribedBy (c : Cursor) (descriptor : Scalar) : Prop where
  kind : c.kind = .ok .described
  descriptor : ∃ inner, c.enter = .ok inner ∧ inner.scalar = .ok descriptor

/-- A cursor on a described value can tell its descriptor. -/
lemma StandsOn.describedBy {descriptor : Scalar} (stands : c.StandsOn element)
    (htree : element.tree = .described (.scalar descriptor) tree) : c.DescribedBy descriptor := by
  obtain ⟨inner, first, _, henter, onFirst, hfirst, _⟩ := stands.enter_described htree
  refine ⟨?_, inner, henter, onFirst.scalar hfirst⟩
  rw [stands.kind, htree]
  rfl

end Cursor

namespace Walk

variable {ε α β : Type}

/-- What a walk inside a value gives is what it gives from the first child on. -/
lemma inside_apply [OfWireError ε] {walk : Walk ε α} {c inner : Cursor} (h : c.enter = .ok inner) :
    (inside walk c).1 = (walk inner).1 := by
  rw [inside, h]
  rfl

/-- Inside of a value, only what a walk does from its first child on counts. -/
lemma inside_congr [OfWireError ε] {walk walk' : Walk ε α} {c inner : Cursor}
    (h : c.enter = .ok inner) (same : walk inner = walk' inner) : inside walk c = inside walk' c := by
  unfold inside
  rw [h]
  dsimp only
  rw [same]

/-- Moving on keeps what a walk gives. -/
lemma fst_thenNext (walk : Walk ε α) (c : Cursor) : (thenNext walk c).1 = (walk c).1 :=
  rfl

/-- A walk that does not move ends on the next sibling if it moves on. -/
lemma thenNext_apply {walk : Walk ε α} {c : Cursor} {value : α} (rests : Rests walk)
    (h : (walk c).1 = .ok value) : thenNext walk c = (.ok value, c.next) :=
  Prod.ext h (congrArg Cursor.next (rests c))

/-- What follows a walk that does not move is read where the walk was. -/
lemma bind_of_rests {walk : Walk ε α} {following : α → Walk ε β} {c : Cursor} {value : α}
    (rests : Rests walk) (h : (walk c).1 = .ok value) :
    (walk >>= following) c = following value c := by
  have hw : walk c = (.ok value, c) := Prod.ext h (rests c)
  rw [bind_apply, hw]

/-- What follows a look at the cursor is read where the look was. -/
lemma bind_look [OfWireError ε] {query : Cursor → Except WireError α} {following : α → Walk ε β}
    {c : Cursor} {value : α} (h : query c = .ok value) :
    (look query >>= following) c = following value c :=
  bind_of_rests (.look query) (congrArg (Except.mapError OfWireError.ofWireError) h)

/-- What follows a step is read on the next sibling. -/
lemma bind_next (following : Unit → Walk ε β) (c : Cursor) :
    (next >>= following) c = following () c.next :=
  rfl

/-- What asks for the cursor is given it. -/
lemma bind_here (following : Cursor → Walk ε β) (c : Cursor) :
    (here >>= following) c = following c c :=
  rfl

/-- What is made of the value that a walk gives. -/
lemma return_apply {walk : Walk ε α} {give : α → β} {c : Cursor} {value : α}
    (h : (walk c).1 = .ok value) :
    ((do return give (← walk) : Walk ε β) c).1 = .ok (give value) := by
  rw [bind_apply]
  cases hw : walk c with
  | mk result c' =>
    rw [hw] at h
    cases h
    rfl

/-- A step that reads the trees of each part reads them all, part for part. -/
lemma collectFrom_shows {step : Nat → Walk ε α} {give : β → α} {trees : β → List WireTree}
    {parts : List β} {limit done : Nat} {taken : List α} {c : Cursor}
    (first : ∀ part ∈ parts, ∀ rest index c, Cursor.Shows c (trees part ++ rest) →
      c.hasCurrent = true ∧ ∃ c', step index c = (.ok (give part), c') ∧ c'.Shows rest)
    (h : c.Shows (parts.flatMap trees)) (enough : parts.length ≤ limit) :
    (collectFrom step limit taken done c).1 = .ok (taken.reverse ++ parts.map give) := by
  induction limit generalizing taken done c parts with
  -- A step takes a part off the list, so no part is left when the steps are used up.
  | zero =>
    rw [List.eq_nil_of_length_eq_zero (Nat.le_zero.1 enough), List.map_nil, List.append_nil]
    rfl
  | succ limit ih =>
    unfold collectFrom
    cases parts with
    | nil =>
      have current := h.exhausted
      rw [if_neg (Bool.eq_false_iff.1 current), List.map_nil, List.append_nil]
    | cons part rest =>
      rw [List.length_cons] at enough
      obtain ⟨hpart, hrest⟩ := List.forall_mem_cons.1 first
      obtain ⟨current, c', hstep, shows⟩ := hpart _ done c h
      have htail := @ih _ (done + 1) (give part :: taken) c' hrest shows (by omega)
      rw [List.reverse_cons, List.append_assoc, List.singleton_append, ← List.map_cons] at htail
      rw [if_pos current, hstep]
      exact htail

/-- Parts of a tree or more each are read until the level is exhausted. -/
lemma collect_shows {step : Nat → Walk ε α} {give : β → α} {trees : β → List WireTree}
    {parts : List β} {c : Cursor}
    (first : ∀ part ∈ parts, ∀ rest index c, Cursor.Shows c (trees part ++ rest) →
      c.hasCurrent = true ∧ ∃ c', step index c = (.ok (give part), c') ∧ c'.Shows rest)
    (h : c.Shows (parts.flatMap trees)) (enough : parts.length ≤ (parts.flatMap trees).length) :
    (collect step c).1 = .ok (parts.map give) := by
  rw [← h.counted] at enough
  exact collectFrom_shows first h enough

section Look

variable [OfWireError ε] {c : Cursor} {element : Element} {tree : WireTree}

/-- What follows the kind is read with the kind that is told. -/
lemma bind_kind_of_eq {found : Kind} {following : Kind → Walk ε β} (h : c.kind = .ok found) :
    (kind >>= following) c = following found c :=
  bind_look h

/-- What follows a scalar is read with the scalar that is told. -/
lemma bind_scalar_of_eq {value : Scalar} {following : Scalar → Walk ε β}
    (h : c.scalar = .ok value) : (scalar >>= following) c = following value c :=
  bind_look h

/-- A scalar that is told is what is read. -/
lemma fst_scalar_of_eq {value : Scalar} (h : c.scalar = .ok value) :
    (scalar c : Except ε Scalar × Cursor).1 = .ok value :=
  congrArg (Except.mapError OfWireError.ofWireError) h

/-- The descriptor of a described value is looked at on its first child. -/
lemma fst_descriptor? {value : Scalar} (h : c.DescribedBy value) :
    (descriptor? c : Except ε (Option Scalar) × Cursor).1 = .ok (some value) := by
  obtain ⟨inner, henter, hscalar⟩ := h.descriptor
  have inside : (inside scalar c : Except ε Scalar × Cursor).1 = .ok value := by
    rw [inside_apply henter]
    exact fst_scalar_of_eq hscalar
  rw [descriptor?, bind_kind_of_eq h.kind]
  exact return_apply inside

/-- Where the value is not described, no descriptor is told. -/
lemma fst_descriptor?_of_plain {found : Kind} (h : c.kind = .ok found) (plain : found ≠ .described) :
    (descriptor? c : Except ε (Option Scalar) × Cursor).1 = .ok none := by
  rw [descriptor?, bind_kind_of_eq h, if_neg plain]
  rfl

/-- The kind of an element is looked at without moving. -/
lemma bind_kind {following : Kind → Walk ε β} (h : c.StandsOn element)
    (htree : element.tree = tree) : (kind >>= following) c = following tree.kind c := by
  rw [← htree]
  exact bind_kind_of_eq h.kind

/-- A scalar is read without moving. -/
lemma bind_scalar {value : Scalar} {following : Scalar → Walk ε β} (h : c.StandsOn element)
    (htree : element.tree = .scalar value) : (scalar >>= following) c = following value c :=
  bind_scalar_of_eq (h.scalar htree)

/-- A scalar is read as a value of the wanted type. -/
lemma fst_read [OfScalar α] {scalar : Scalar} {value : α} (h : c.StandsOn element)
    (htree : element.tree = .scalar scalar) (hread : scalar.read α = .ok value) :
    (read α c : Except ε α × Cursor).1 = .ok value := by
  change ((c.read α).mapError OfWireError.ofWireError : Except ε α) = _
  rw [Cursor.read, h.scalar htree]
  simp only [bind, Except.bind, hread]
  rfl

/-- A scalar is read as a value of the wanted type without moving. -/
lemma bind_read [OfScalar α] {scalar : Scalar} {value : α} {following : α → Walk ε β}
    (h : c.StandsOn element) (htree : element.tree = .scalar scalar)
    (hread : scalar.read α = .ok value) : (read α >>= following) c = following value c :=
  bind_of_rests (Rests.read α) (fst_read h htree hread)

end Look

end Walk

end AmqpBlob
