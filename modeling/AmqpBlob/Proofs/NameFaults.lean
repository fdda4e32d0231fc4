import AmqpBlob.Proofs.Spelling

/-!
# What is wrong with a name

Which names are refused as the names of generic types, and for what. `faults_of_generic` gives for each
fault the names that have it. The brackets of a name need not match in front of the first opening one.
-/

namespace AmqpBlob.TypeName

variable {name : String}

/-- A name is refused as a generic name for what it cannot be taken apart for. -/
lemma generic_eq_error_iff {error : TypeNameError} :
    generic name = .error error ↔ parts name = .error error := by
  rw [generic]
  cases parts name with
  | error fault =>
    constructor
    all_goals
      intro h
      cases h
      rfl
  | ok taken =>
    constructor
    all_goals
      intro h
      cases h

/-- A name that can be taken apart is read as a generic name. -/
lemma exists_generic_iff : (∃ taken, generic name = .ok taken) ↔ ∃ taken, parts name = .ok taken := by
  rw [generic]
  cases parts name with
  | error fault =>
    constructor
    all_goals
      rintro ⟨_, h⟩
      cases h
  | ok taken => exact ⟨fun _ => ⟨_, rfl⟩, fun _ => ⟨_, rfl⟩⟩

/-- Where the last character closes the first bracket, only a closing bracket in front of that one keeps
the brackets of the whole name from matching. -/
lemma balanced_iff_of_encloses (h : Encloses name) :
    Balanced 0 name.toList ↔ '>' ∉ name.toList.takeWhile (· ≠ '<') := by
  obtain ⟨outer, inner, opens, hname, balanced⟩ := h
  rw [(span_of_opens opens hname).1, hname]
  constructor
  · intro whole member
    have within := whole.within outer (List.prefix_append _ _)
    rw [List.count_eq_zero.2 opens] at within
    exact absurd (List.count_pos_iff.2 member) (Nat.not_lt.2 within)
  · intro closes
    have last : Balanced 1 ['>'] := (balanced_cons .closing).2 (balanced_nil.2 rfl)
    exact (balanced_of_not_mem opens closes).append ((balanced_cons .opening).2 (balanced.append last))

/-- A name without an opening bracket has no parameters; any other one is refused for its brackets if
its last character does not close the first of them, else for a blank parameter if it has one, and else
it is taken apart. The brackets of the name as a whole need not match: with one closed in front of the
first opening one they do not, and the name is not refused for that. -/
theorem faults_of_generic (name : String) :
    (generic name = .error ⟨name, .missingParameters⟩ ↔ '<' ∉ name.toList) ∧
    (generic name = .error ⟨name, .unbalanced⟩ ↔ '<' ∈ name.toList ∧ ¬Encloses name) ∧
    (generic name = .error ⟨name, .emptyParameter⟩ ↔ ∃ outer params, Spells name outer params ∧
      ∃ param ∈ params, param.toList.all Text.isBlank = true) ∧
    ((∃ taken, generic name = .ok taken) ↔ ∃ outer params, Spells name outer params ∧
      ∀ param ∈ params, Parameter param) ∧
    (¬Balanced 0 name.toList ∨ ¬Encloses name ↔
      '>' ∈ name.toList.takeWhile (· ≠ '<') ∨ ¬Encloses name) := by
  have takes := takes_parts name
  rw [generic_eq_error_iff, generic_eq_error_iff, generic_eq_error_iff, exists_generic_iff]
  refine ⟨⟨fun h => ?_, parts_of_not_mem⟩, ⟨fun h => ?_, fun h => parts_of_not_encloses h.1 h.2⟩,
    ⟨fun h => ?_, ?_⟩, ⟨?_, ?_⟩, ?_⟩
  · rw [h] at takes
    cases takes with
    | missing closed => exact closed
  · rw [h] at takes
    cases takes with
    | unbalanced opens apart => exact ⟨opens, apart⟩
  · rw [h] at takes
    cases takes with
    | blank spells blank => exact ⟨_, _, spells, blank⟩
  · rintro ⟨outer, params, spells, blank⟩
    rw [spells.parts_eq, if_pos (List.any_eq_true.2 blank)]
  · rintro ⟨taken, h⟩
    exact spells_of_parts h
  · rintro ⟨outer, params, spells, parameters⟩
    exact ⟨_, spells.parts_of_parameters parameters⟩
  · by_cases encloses : Encloses name
    · rw [balanced_iff_of_encloses encloses, Classical.not_not]
    · exact ⟨fun _ => .inr encloses, fun _ => .inr encloses⟩

/-- The first bracket of this name closes none, so its brackets do not match, and yet it is taken
apart. -/
theorem stray_bracket_taken : '<' ∈ "A>B<C>".toList ∧ ¬Balanced 0 "A>B<C>".toList ∧
    generic "A>B<C>" = .ok ("A>B", ["C"]) :=
  ⟨by decide, by decide, rfl⟩

end AmqpBlob.TypeName
