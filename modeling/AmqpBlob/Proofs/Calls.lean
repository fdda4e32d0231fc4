import AmqpBlob.Proofs.Machine
import Mathlib.Data.List.Infix

/-!
# Calls that move a cursor in place

The moves of a cursor as calls that change it: each one looks at the cursor, changes one part of it
after the other and may end early. `Walk.enter_apply`, `Walk.advance_apply` and `Walk.leave_apply` say
that they end where the moves lead, and that a value that cannot be entered is not left half entered.
`Walk.leave_of_enter` says that entering a value and leaving it undo each other, whatever calls are made
in between.
-/

namespace AmqpBlob

namespace Walk

variable {ε β α : Type}

/-- Moves to a position in the same level. -/
def moveTo (there : Position) : Walk ε Unit := do
  modify fun c => { c with here.offset := there.offset }
  modify fun c => { c with here.index := there.index }

/-- Moves to the next sibling, and tells whether there is one. -/
def advance : Walk ε Bool := do
  if ← hasCurrent then
    let c ← here
    match c.stop with
    | .ok stop =>
      if stop ≤ c.level.stop then moveTo ⟨stop, c.here.index + 1⟩
      else moveTo ⟨c.level.stop, c.level.count⟩
    | .error _ => moveTo ⟨c.level.stop, c.level.count⟩
    hasCurrent
  else
    return false

/-- Enters the current value. -/
def enter : Walk WireError Unit := do
  let (code, data) ← look Cursor.code
  let stop ← look Cursor.stop
  let c ← here
  if c.bytes.size < stop then
    fail (.truncated c.here.offset (stop - c.here.offset))
  else
    let inside ← look fun c => c.interior code data
    modify fun c => { c with level := ⟨c.here, stop, inside.count, inside.element?⟩ }
    modify fun d => { d with outer := c.level :: d.outer }
    moveTo ⟨inside.first, 0⟩

/-- Leaves the level, and tells whether there was one to leave. -/
def leave : Walk ε Bool := do
  match (← here).outer with
  | [] => return false
  | around :: outer =>
    modify fun c => { c with outer }
    modify fun c => { c with here := c.level.parent }
    modify fun c => { c with level := around }
    return true

/-- Step for step, moving on leads to the next sibling and tells whether there is one. -/
lemma advance_apply (c : Cursor) :
    (advance : Walk ε Bool) c = (.ok c.next.hasCurrent, c.next) := by
  unfold advance Cursor.next
  rw [bind_apply]
  simp only [hasCurrent]
  cases current : c.hasCurrent with
  | false =>
    simp only [Bool.false_eq_true, if_false, current]
    rfl
  | true =>
    simp only [if_true]
    rw [bind_here]
    cases c.stop with
    | error fault => rfl
    | ok stop =>
      dsimp only
      split
      · rfl
      · rfl

/-- What follows a look is done where the look was, or not at all. -/
lemma look_bind (query : Cursor → Except WireError α) (following : α → Walk WireError β) (c : Cursor) :
    (look query >>= following) c =
      match query c with
      | .ok value => following value c
      | .error fault => (.error fault, c) := by
  rw [bind_apply, look]
  cases query c with
  | ok value => rfl
  | error fault => rfl

/-- Whatever it is that a value cannot be entered for, it is met before anything is changed. -/
lemma enter_apply (c : Cursor) : enter c =
    match c.enter with
    | .ok inner => (.ok (), inner)
    | .error fault => (.error fault, c) := by
  unfold enter Cursor.enter
  rw [look_bind]
  cases c.code with
  | error fault => rfl
  | ok code =>
    dsimp only
    rw [look_bind]
    cases c.stop with
    | error fault => rfl
    | ok stop =>
      dsimp only
      rw [bind_here]
      by_cases cut : c.bytes.size < stop
      · rw [if_pos cut]
        simp only [bind, Except.bind, if_pos cut]
        rfl
      · rw [if_neg cut, look_bind]
        simp only [bind, Except.bind, if_neg cut]
        cases c.interior code.1 code.2 with
        | error fault => rfl
        | ok inside => rfl

/-- Step for step, leaving leads to the value that was entered, or changes nothing if there is none.
-/
lemma leave_apply (c : Cursor) : (leave : Walk ε Bool) c =
    match c.leave? with
    | some outer => (.ok true, outer)
    | none => (.ok false, c) := by
  unfold leave Cursor.leave?
  rw [bind_here]
  cases c.outer with
  | nil => rfl
  | cons around outer => rfl

end Walk

/-- The calls that move a cursor. -/
inductive Call where
  | next
  | enter
  | leave

/-- What a call does and tells. -/
def Call.run : Call → Walk WireError Bool
  | next => Walk.advance
  | enter => do
    Walk.enter
    return true
  | leave => Walk.leave

namespace Cursor

variable {c d entered : Cursor}

/-- The cursor behind calls, one after the other, whatever they tell. -/
def after (c : Cursor) (calls : List Call) : Cursor :=
  calls.foldl (fun c call => (call.run c).2) c

/-- Behind the first call, the other ones follow. -/
lemma after_cons (c : Cursor) (call : Call) (calls : List Call) :
    c.after (call :: calls) = (call.run c).2.after calls :=
  rfl

/-- A call is a move, or it changes nothing. -/
lemma move_or_same (c : Cursor) (call : Call) :
    Move c (call.run c).2 ∨ (call.run c).2 = c := by
  cases call with
  | next =>
    rw [Call.run, Walk.advance_apply]
    exact .inl .next
  | enter =>
    rw [Call.run, Walk.bind_apply, Walk.enter_apply]
    cases henter : c.enter with
    | error fault => exact .inr rfl
    | ok inner => exact .inl (.enter henter)
  | leave =>
    rw [Call.run, Walk.leave_apply]
    cases hleave : c.leave? with
    | none => exact .inr rfl
    | some outer => exact .inl (.leave hleave)

/-- The second cursor is in the level of the first one or further inside. -/
structure Inside (entered c : Cursor) : Prop where
  bytes : c.bytes = entered.bytes
  /-- The levels around the first cursor are the outermost ones around the second one. -/
  levels : entered.level :: entered.outer <:+ c.level :: c.outer

/-- A cursor is in its own level. -/
lemma Inside.refl (c : Cursor) : c.Inside c :=
  ⟨rfl, List.suffix_rfl⟩

/-- A move leaves the level, or it is still inside. -/
lemma Inside.move (h : entered.Inside c) (hmove : Move c d) (above : entered.depth ≤ d.depth) :
    entered.Inside d := by
  refine ⟨(bytes_move hmove).trans h.bytes, ?_⟩
  cases hmove with
  | next =>
    rw [level_next, outer_next]
    exact h.levels
  | enter henter =>
    obtain ⟨_, _, _, _, houter⟩ := enter_levels henter
    rw [houter]
    exact h.levels.trans (List.suffix_cons _ _)
  | leave hleave =>
    obtain ⟨_, houter⟩ := leave_levels hleave
    have levels := h.levels
    rw [houter] at levels
    rcases List.suffix_cons_iff.1 levels with same | inside
    · have longer := congrArg List.length same
      simp only [List.length_cons] at longer
      unfold depth at above
      omega
    · exact inside

/-- Calls that never go below a level are made inside it. -/
lemma Inside.after (h : entered.Inside c) {calls : List Call}
    (above : ∀ before, before <+: calls → entered.depth ≤ (c.after before).depth) :
    entered.Inside (c.after calls) := by
  induction calls generalizing c with
  | nil => exact h
  | cons call calls ih =>
    rw [after_cons]
    have first : entered.Inside (call.run c).2 := by
      rcases move_or_same c call with hmove | same
      · exact h.move hmove (above [call] (List.prefix_append [call] calls))
      · rw [same]
        exact h
    refine ih first fun before part => ?_
    exact above (call :: before) (List.cons_prefix_cons.2 ⟨rfl, part⟩)

/-- Inside a level, but not further inside, there is only the level itself. -/
lemma Inside.sameLevel (h : entered.Inside c) (back : c.depth = entered.depth) :
    entered.SameLevel c := by
  have same := h.levels.eq_of_length (congrArg Nat.succ back.symm)
  obtain ⟨hlevel, houter⟩ := List.cons.inj same
  exact ⟨h.bytes, hlevel.symm, houter.symm⟩

end Cursor

/-- Entering a value that cannot be entered changes nothing. If it can be, then after any calls to move
on, to enter and to leave, however they end, that never go below the depth that was entered and that
end at it, leaving once leads back to what there was before, the offset, the index, the level and all
levels around it. -/
theorem Walk.leave_of_enter (c : Cursor) :
    (∀ fault d, Walk.enter c = (.error fault, d) → d = c) ∧
    ∀ entered calls, Walk.enter c = (.ok (), entered) →
      (∀ before, before <+: calls → entered.depth ≤ (entered.after before).depth) →
      (entered.after calls).depth = entered.depth →
      (Walk.leave (entered.after calls) : Except WireError Bool × Cursor) = (.ok true, c) := by
  rw [Walk.enter_apply]
  cases henter : c.enter with
  | error fault =>
    constructor
    · rintro _ _ ⟨⟩
      rfl
    · rintro _ _ ⟨⟩
  | ok inner =>
    constructor
    · rintro _ _ ⟨⟩
    · rintro _ calls ⟨⟩ above back
      have inside : inner.Inside (inner.after calls) := (Cursor.Inside.refl inner).after above
      rw [Walk.leave_apply, (inside.sameLevel back).leave?_of_enter henter]

/-- The cursor on the inner one of two nested lists. -/
def innerList : Cursor where
  bytes := Cursor.nestedLists
  here := ⟨3, 0⟩
  level := ⟨⟨0, 0⟩, 7, 1, none⟩
  outer := [⟨⟨0, 0⟩, 7, 7, none⟩]

/-- The inner list is entered, the null in it is not, and the inner list is left and passed over, behind
which there is nothing to enter. -/
def callsInside : List Call :=
  [.enter, .enter, .next, .leave, .next, .enter]

/-- After calls that go further inside, one of which fails and another of which ends behind the last
sibling, the outer list is found again. -/
theorem Walk.leave_of_enter_nestedLists :
    Walk.enter (.ofBytes Cursor.nestedLists) = (.ok (), innerList) ∧
    innerList.after callsInside = innerList.exhaust ∧
    Walk.leave (innerList.after callsInside) =
      ((.ok true, .ofBytes Cursor.nestedLists) : Except WireError Bool × Cursor) := by
  have henter : Walk.enter (.ofBytes Cursor.nestedLists) = (.ok (), innerList) := rfl
  have above : ∀ before ∈ callsInside.inits, 1 ≤ (innerList.after before).depth := by decide
  refine ⟨henter, rfl, (Walk.leave_of_enter _).2 _ callsInside henter ?_ rfl⟩
  intro before part
  exact above before ((List.mem_inits before callsInside).2 part)

end AmqpBlob
