import AmqpBlob.Proofs.Restricted

/-!
# Comparing two types

What the comparison of two types tells of their uses of each other, and when it tells the same from the
other side. Two types that use each other are ordered by what they are, not by which of them stands
first, unless both are composite. For two restricted types no such rule is needed, as the names of both
would have to be the shorter one.
-/

namespace AmqpBlob

variable {type first second : TypeDef}

namespace TypeDef

/-- Of two types that use each other one is composite. -/
lemma isComposite_of_mutual (hfirst : first.WellNamed) (hsecond : second.WellNamed)
    (uses : first.refersTo second.name = true) (used : second.refersTo first.name = true) :
    first.isComposite = true ∨ second.isComposite = true := by
  by_contra neither
  rw [not_or, Bool.not_eq_true, Bool.not_eq_true] at neither
  have unused := (hfirst.named neither.1).not_mutual (hsecond.named neither.2) used
  rw [unused] at uses
  cases uses

/-- Two types are unrelated if neither uses the other. -/
lemma precedence_eq_unrelated_iff : first.precedence second = .unrelated ↔
    first.refersTo second.name = false ∧ second.refersTo first.name = false := by
  unfold precedence
  cases first.refersTo second.name with
  | false => cases second.refersTo first.name <;> simp
  | true => cases second.refersTo first.name <;> cases second.isComposite <;> simp

/-- From the other side the comparison tells the converse, unless two composite types use each other:
then each of them comes after the other. -/
lemma precedence_swap (hfirst : first.WellNamed) (hsecond : second.WellNamed) :
    second.precedence first = (first.precedence second).flip ↔
      ¬((first.isComposite = true ∧ second.isComposite = true) ∧
        first.refersTo second.name = true ∧ second.refersTo first.name = true) := by
  have oneComposite := isComposite_of_mutual hfirst hsecond
  unfold precedence
  cases uses : first.refersTo second.name with
  | false => cases second.refersTo first.name <;> simp [Precedence.flip]
  | true =>
    cases used : second.refersTo first.name with
    | false => simp [Precedence.flip]
    | true =>
      have composite := oneComposite uses used
      cases hfirst : first.isComposite <;> cases hsecond : second.isComposite
      · rw [hfirst, hsecond] at composite
        cases composite <;> contradiction
      all_goals simp [Precedence.flip]

end TypeDef

/-- Comparing two types tells whether and in which direction one uses the other, and from the other side
it tells the converse, unless both are composite; then it does so just if they do not use each other. -/
theorem precedence_faithful (hfirst : first.WellNamed) (hsecond : second.WellNamed) :
    (first.precedence second = .unrelated ↔
      first.refersTo second.name = false ∧ second.refersTo first.name = false) ∧
    (first.refersTo second.name = true → second.refersTo first.name = false →
      first.precedence second = .after) ∧
    (first.refersTo second.name = false → second.refersTo first.name = true →
      first.precedence second = .before) ∧
    (¬(first.isComposite = true ∧ second.isComposite = true) →
      second.precedence first = (first.precedence second).flip) ∧
    (first.isComposite = true → second.isComposite = true →
      (second.precedence first = (first.precedence second).flip ↔
        ¬(first.refersTo second.name = true ∧ second.refersTo first.name = true))) := by
  have swap := TypeDef.precedence_swap hfirst hsecond
  refine ⟨TypeDef.precedence_eq_unrelated_iff, fun uses unused => ?_, fun unused uses => ?_,
    fun mixed => ?_, fun composite composite' => ?_⟩
  · rw [TypeDef.precedence, uses, unused]
  · rw [TypeDef.precedence, uses, unused]
  · exact swap.2 fun both => mixed both.1
  · rw [swap, and_iff_right ⟨composite, composite'⟩]

/-- A list and a record that use each other. -/
def shelfType : TypeDef :=
  restrictedType "List<Shelf>" (.list (some "List") "Shelf")

/-- A shelf and the list of its shelves use each other: the composite type comes before the list. -/
theorem precedence_shelves : shelfType.WellNamed ∧ (recordType "Shelf" ["List<Shelf>"]).WellNamed ∧
    shelfType.precedence (recordType "Shelf" ["List<Shelf>"]) = .after ∧
    (recordType "Shelf" ["List<Shelf>"]).precedence shelfType = .before := by
  have list : shelfType.WellNamed := .inr (.mk rfl (.list rfl))
  have record : (recordType "Shelf" ["List<Shelf>"]).WellNamed := .inl rfl
  obtain ⟨_, _, _, swap, _⟩ := precedence_faithful list record
  have after : shelfType.precedence (recordType "Shelf" ["List<Shelf>"]) = .after := by
    decide +kernel
  have before := swap (by decide)
  rw [after] at before
  exact ⟨list, record, after, before⟩

end AmqpBlob
