import AmqpBlob.Proofs.Arrangement
import Mathlib.Data.List.Lex

/-!
# Places of declarations

In which order types are declared. Each type is compared once with each other one, and comparing two
types may tell that one must be declared before the other. `least_declarationOrder` says that all types
are declared once, and in the least order that respects the comparisons if these have no cycle;
`precedes_iff` says, whatever cycles there are, when a type is declared before one that it must precede.
-/

namespace AmqpBlob

open Relation (TransGen)

/-- The type at place `i` must be declared before the one at place `j`. Of two types the one that was
declared earlier comes first in the comparison. -/
inductive MustPrecede (types : List TypeDef) : (i j : Nat) → Prop where
  | earlier {i j : Nat} {first second : TypeDef} :
    i < j →
    types[i]? = some first →
    types[j]? = some second →
    first.precedence second = .before →
    MustPrecede types i j
  | later {i j : Nat} {first second : TypeDef} :
    i < j →
    types[i]? = some first →
    types[j]? = some second →
    first.precedence second = .after →
    MustPrecede types j i

/-- Each type is declared before those that it must precede. -/
def Respects (types : List TypeDef) (order : List Nat) : Prop :=
  ∀ i j, MustPrecede types i j → [i, j].Sublist order

variable {types : List TypeDef} {i j : Nat}

namespace MustPrecede

/-- What must precede is a place of the types. -/
lemma left_lt (h : MustPrecede types i j) : i < types.length := by
  cases h with
  | earlier _ first _ _ => exact (List.getElem?_eq_some_iff.1 first).1
  | later _ _ second _ => exact (List.getElem?_eq_some_iff.1 second).1

/-- What must come later is a place of the types. -/
lemma right_lt (h : MustPrecede types i j) : j < types.length := by
  cases h with
  | earlier _ _ second _ => exact (List.getElem?_eq_some_iff.1 second).1
  | later _ first _ _ => exact (List.getElem?_eq_some_iff.1 first).1

/-- No type must precede itself. -/
lemma ne (h : MustPrecede types i j) : i ≠ j := by
  cases h with
  | earlier lt _ _ _ => exact Nat.ne_of_lt lt
  | later lt _ _ _ => exact Nat.ne_of_gt lt

/-- Types are arranged by how they compare. -/
lemma iff_mustPrecede {first second : TypeDef} (hi : types[i]? = some first)
    (hj : types[j]? = some second) :
    MustPrecede types i j ↔ mustPrecede (first, i) (second, j) = true := by
  unfold mustPrecede
  constructor
  · rintro (⟨lt, hfirst, hsecond, tells⟩ | ⟨lt, hfirst, hsecond, tells⟩)
    · rw [hi] at hfirst
      rw [hj] at hsecond
      cases hfirst
      cases hsecond
      rw [if_pos lt, tells]
      rfl
    · rw [hj] at hfirst
      rw [hi] at hsecond
      cases hfirst
      cases hsecond
      rw [if_neg (Nat.not_lt_of_gt lt), if_pos lt, tells]
      rfl
  · intro h
    split at h
    · exact .earlier ‹_› hi hj (of_decide_eq_true h)
    · split at h
      · exact .later ‹_› hj hi (of_decide_eq_true h)
      · cases h

/-- Whether a type must precede another one is found by comparing both. -/
instance : Decidable (MustPrecede types i j) :=
  decidable_of_iff
    ((types[i]?.any fun first => types[j]?.any fun second => mustPrecede (first, i) (second, j)) = true)
    (by
      constructor
      · intro h
        obtain ⟨first, hfirst, h⟩ := (Option.any_eq_true _ _).1 h
        obtain ⟨second, hsecond, h⟩ := (Option.any_eq_true _ _).1 h
        exact (iff_mustPrecede hfirst hsecond).2 h
      · intro h
        have hi := List.getElem?_eq_getElem h.left_lt
        have hj := List.getElem?_eq_getElem h.right_lt
        rw [hi, hj]
        exact (iff_mustPrecede hi hj).1 h)

end MustPrecede

/-- The places of the types are arranged by how the types compare. -/
lemma arranges_declarationOrder (types : List TypeDef) :
    Arranges (MustPrecede types) (List.range types.length) (declarationOrder types) := by
  have same : ∀ a ∈ types.zipIdx, ∀ b ∈ types.zipIdx,
      mustPrecede a b = true ↔ MustPrecede types a.2 b.2 := by
    intro a ha b hb
    have hi := List.mem_zipIdx_iff_getElem?.1 ha
    have hj := List.mem_zipIdx_iff_getElem?.1 hb
    exact (MustPrecede.iff_mustPrecede hi hj).symm
  have arranged := (arranges_arrange mustPrecede types.zipIdx).map same
  rw [List.zipIdx_map_snd, ← List.range_eq_range'] at arranged
  exact arranged

/-- In an order that respects the comparisons, nothing comes behind what it must precede. -/
lemma Respects.pairwise {order : List Nat} (h : Respects types order) (nodup : order.Nodup) :
    order.Pairwise fun a b => ¬MustPrecede types b a :=
  List.pairwise_iff_forall_sublist.2 fun first precedes =>
    not_sublist_swap nodup first (h _ _ precedes)

/-- What has no cycle is respected. -/
lemma respects_of_acyclic (acyclic : ∀ i, ¬TransGen (MustPrecede types) i i) :
    Respects types (declarationOrder types) := by
  intro i j precedes
  have placed := (arranges_declarationOrder types).sublist_or_behindCycle List.pairwise_lt_range
    (List.mem_range.2 precedes.left_lt) (List.mem_range.2 precedes.right_lt) precedes.ne precedes
  refine placed.resolve_right ?_
  rintro ⟨start, cycle, _⟩
  exact acyclic start (TransGen.mono (fun _ _ h => h.1) _ _ cycle)

/-- Each type is declared once, in an order that respects how the types compare if that has no cycle;
then no other such order is less, place by place. -/
theorem least_declarationOrder (types : List TypeDef) :
    (declarationOrder types).Perm (List.range types.length) ∧
    ((∀ i, ¬TransGen (MustPrecede types) i i) →
      Respects types (declarationOrder types) ∧
      ∀ order, order.Perm (List.range types.length) → Respects types order →
        order = declarationOrder types ∨ List.Lex (· < ·) (declarationOrder types) order) := by
  have arranged := arranges_declarationOrder types
  refine ⟨arranged.perm, fun acyclic => ⟨respects_of_acyclic acyclic, fun order perm respects => ?_⟩⟩
  have nodup := perm.nodup_iff.2 List.nodup_range
  exact arranged.lex_of_acyclic List.pairwise_lt_range acyclic perm (respects.pairwise nodup)

/-- A record whose fields are of types of these names. -/
def recordType (name : String) (uses : List String) : TypeDef :=
  ⟨⟨name, none, [], ⟨none, none⟩⟩,
    .composite (uses.map fun type => ⟨type, type, [], none, none, false, false⟩)⟩

/-- A list of elements of a type. -/
def listType (element : String) : TypeDef :=
  ⟨⟨"List<" ++ element ++ ">", none, [], ⟨none, none⟩⟩,
    .restricted "list" (.list (some "List") element)⟩

/-- Types each of which must be declared after those behind it. Two have one name, which the first of
them uses. -/
def crateTypes : List TypeDef :=
  [recordType "Crate" ["List<Box>"], listType "Box", recordType "Box" ["int", "Box"],
    recordType "Box" []]

/-- The crate types are declared from the last one to the first, and no other order that respects
how they compare is less. -/
theorem least_crateTypes : (∀ i, ¬TransGen (MustPrecede crateTypes) i i) ∧
    declarationOrder crateTypes = [3, 2, 1, 0] ∧ Respects crateTypes [3, 2, 1, 0] ∧
    ∀ order, order.Perm (List.range 4) → Respects crateTypes order →
      order = [3, 2, 1, 0] ∨ List.Lex (· < ·) [3, 2, 1, 0] order := by
  have falls (i j : Nat) (h : MustPrecede crateTypes i j) : j < i := by
    have bounded : ∀ i < 4, ∀ j < 4, MustPrecede crateTypes i j → j < i := by decide +kernel
    exact bounded i h.left_lt j h.right_lt h
  have acyclic (i : Nat) (cycle : TransGen (MustPrecede crateTypes) i i) : False := by
    have descending := TransGen.mono (p := fun i j => j < i) falls _ _ cycle
    rw [Relation.transGen_eq_self] at descending
    exact Nat.lt_irrefl i descending
  have order : declarationOrder crateTypes = [3, 2, 1, 0] := by decide +kernel
  obtain ⟨_, least⟩ := least_declarationOrder crateTypes
  rw [order] at least
  exact ⟨acyclic, order, least acyclic⟩

/-- A type is declared before one that it must precede just if it is neither on nor behind a cycle of
types none of which was declared before that one. -/
theorem precedes_iff (h : MustPrecede types i j) :
    [i, j].Sublist (declarationOrder types) ↔ ¬BehindCycle (MustPrecede types) (j ≤ ·) i := by
  have arranged := arranges_declarationOrder types
  constructor
  · intro first behind
    have sub (k : Nat) (hk : BehindCycle (MustPrecede types) (j ≤ ·) k) :
        k ∈ List.range types.length := by
      obtain ⟨_, _, precedes, _⟩ := hk.exists_before
      exact List.mem_range.2 precedes.right_lt
    have swapped := arranged.sublist_of_behindCycle List.pairwise_lt_range
      (List.mem_range.2 h.right_lt) h.ne sub behind
    exact not_sublist_swap (arranged.perm.nodup_iff.2 List.nodup_range) first swapped
  · intro free
    have placed := arranged.sublist_or_behindCycle List.pairwise_lt_range
      (List.mem_range.2 h.left_lt) (List.mem_range.2 h.right_lt) h.ne h
    exact placed.resolve_right free

/-- Three types that use each other in a cycle. -/
def penTypes : List TypeDef :=
  [recordType "Page" ["Ink"], recordType "Ink" ["Pen"], recordType "Pen" ["Page"]]

/-- A type that uses one of them, and that none uses. -/
def letterType : TypeDef :=
  recordType "Letter" ["Page"]

/-- If it comes last, the type that uses one of the cycle is declared behind that one. -/
theorem precedes_letterType : MustPrecede (penTypes ++ [letterType]) 0 3 ∧
    TransGen (MustPrecede (penTypes ++ [letterType])) 0 0 ∧
    [0, 3].Sublist (declarationOrder (penTypes ++ [letterType])) := by
  have uses : MustPrecede (penTypes ++ [letterType]) 0 3 := by decide +kernel
  have pen : MustPrecede (penTypes ++ [letterType]) 0 2 := by decide +kernel
  have ink : MustPrecede (penTypes ++ [letterType]) 2 1 := by decide +kernel
  have page : MustPrecede (penTypes ++ [letterType]) 1 0 := by decide +kernel
  refine ⟨uses, ((TransGen.single pen).tail ink).tail page, (precedes_iff uses).2 fun behind => ?_⟩
  -- The cycle was declared before the type that uses it.
  obtain ⟨_, _, _, hle⟩ := behind.exists_before
  omega

/-- A type that no other one uses, and that so is on no cycle, is declared before a type that it uses, if
it comes before all of a cycle that this one is on. -/
theorem letterType_first : MustPrecede (letterType :: penTypes) 1 0 ∧
    (∀ i, ¬MustPrecede (letterType :: penTypes) 0 i) ∧
    ¬TransGen (MustPrecede (letterType :: penTypes)) 0 1 ∧
    ¬[1, 0].Sublist (declarationOrder (letterType :: penTypes)) := by
  have unused (i : Nat) : ¬MustPrecede (letterType :: penTypes) 0 i := by
    intro h
    have bounded : ∀ i < 4, ¬MustPrecede (letterType :: penTypes) 0 i := by decide +kernel
    exact bounded i h.right_lt h
  refine ⟨by decide +kernel, unused, fun leads => ?_, by decide +kernel⟩
  obtain ⟨i, h, _⟩ := TransGen.head'_iff.1 leads
  exact unused i h

end AmqpBlob
