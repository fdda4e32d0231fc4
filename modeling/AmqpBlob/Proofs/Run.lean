import AmqpBlob.Proofs.Descent
import AmqpBlob.Proofs.InStep

/-!
# Runs of walks

What a walk does, told move by move. `Walk.Runs` is the relation of a walk, a cursor and what the walk
ends with there, in which a loop goes on as long as there is a value, without any bound: there is a run
only if the walk ends. `Walk.RunsAs` says that the first of two walks runs to what the second one
gives, and it is kept when walks are put together.
-/

namespace AmqpBlob

open OfWireError (ofWireError)

namespace Walk

mutual

/-- The walk, started at the cursor, ends with the outcome after finitely many moves. There is a rule
for each way to put walks together, and no rule for any other walk. -/
inductive Runs {ε : Type} [OfWireError ε] :
    {α : Type} → Walk ε α → Cursor → Except ε α × Cursor → Prop where
  | pure {α : Type} (value : α) (c : Cursor) : Runs (pure value) c (.ok value, c)
  | fail {α : Type} (error : ε) (c : Cursor) : Runs (fail error : Walk ε α) c (.error error, c)
  | look {α : Type} {query : Cursor → Except WireError α} (c : Cursor) :
    Cursor.Look query →
    Runs (look query) c ((query c).mapError ofWireError, c)
  | hasCurrent (c : Cursor) : Runs hasCurrent c (.ok c.hasCurrent, c)
  | next (c : Cursor) : Runs next c (.ok (), c.next)
  | bind {α β : Type} {walk : Walk ε α} {following : α → Walk ε β} {c d : Cursor} {value : α}
    {outcome : Except ε β × Cursor} :
    Runs walk c (.ok value, d) →
    Runs (following value) d outcome →
    Runs (walk >>= following) c outcome
  | bindError {α β : Type} {walk : Walk ε α} {following : α → Walk ε β} {c d : Cursor} {error : ε} :
    Runs walk c (.error error, d) →
    Runs (walk >>= following) c (.error error, d)
  | inside {α : Type} {walk : Walk ε α} {c inner d : Cursor} {result : Except ε α} :
    c.enter = .ok inner →
    Runs walk inner (result, d) →
    Runs (inside walk) c (result, d.leave?.getD d)
  | refused {α : Type} {walk : Walk ε α} {c : Cursor} {fault : WireError} :
    c.enter = .error fault →
    Runs (inside walk) c (.error (ofWireError fault), c)
  | thenNext {α : Type} {walk : Walk ε α} {c d : Cursor} {result : Except ε α} :
    Runs walk c (result, d) →
    Runs (thenNext walk) c (result, d.next)
  | collect {α : Type} {step : Nat → Walk ε α} {c : Cursor} {outcome : Except ε (List α) × Cursor} :
    Loops step [] 0 c outcome →
    Runs (collect step) c outcome

/-- The step, repeated as long as there is a value, ends with the outcome, if `taken` was taken before
in `done` turns. -/
inductive Loops {ε : Type} [OfWireError ε] :
    {α : Type} → (Nat → Walk ε α) → List α → Nat → Cursor → Except ε (List α) × Cursor → Prop where
  | exhausted {α : Type} {step : Nat → Walk ε α} {taken : List α} {done : Nat} {c : Cursor} :
    c.hasCurrent = false →
    Loops step taken done c (.ok taken.reverse, c)
  | again {α : Type} {step : Nat → Walk ε α} {taken : List α} {done : Nat} {c d : Cursor} {value : α}
    {outcome : Except ε (List α) × Cursor} :
    c.hasCurrent = true →
    Runs (step done) c (.ok value, d) →
    Loops step (value :: taken) (done + 1) d outcome →
    Loops step taken done c outcome
  | failed {α : Type} {step : Nat → Walk ε α} {taken : List α} {done : Nat} {c d : Cursor} {error : ε} :
    c.hasCurrent = true →
    Runs (step done) c (.error error, d) →
    Loops step taken done c (.error error, d)

end

variable {ε α β : Type} [OfWireError ε] {may : Cursor → Prop}

/-- From the cursors that `may` holds of, the first walk runs to what the second one gives, and does
not go back. -/
def RunsAs (may : Cursor → Prop) (walk walk' : Walk ε α) : Prop :=
  ∀ c, may c → Runs walk c (walk' c) ∧ c.Reaches (walk' c).2

/-- The cursors among siblings that `may` holds of go on to the end. -/
def Lasts (may : Cursor → Prop) : Prop :=
  ∀ c d : Cursor, c.Reaches d → may c → may d

namespace RunsAs

variable {walk walk' : Walk ε α}

/-- Runs follow each other as the walks do. -/
lemma bind {following following' : α → Walk ε β} (lasts : Lasts may) (h : RunsAs may walk walk')
    (h' : ∀ value, RunsAs may (following value) (following' value)) :
    RunsAs may (walk >>= following) (walk' >>= following') := by
  intro c hc
  obtain ⟨runs, reaches⟩ := h c hc
  rw [bind_apply]
  cases hw : walk' c with
  | mk result d =>
    rw [hw] at runs reaches
    cases result with
    | error error => exact ⟨.bindError runs, reaches⟩
    | ok value =>
      obtain ⟨further, behind⟩ := h' value d (lasts c d reaches hc)
      exact ⟨.bind runs further, reaches.trans behind⟩

/-- A run that moves on behind the walk goes on to a later sibling. -/
lemma thenNext (h : RunsAs may walk walk') : RunsAs may (thenNext walk) (Walk.thenNext walk') := by
  intro c hc
  obtain ⟨runs, reaches⟩ := h c hc
  exact ⟨.thenNext runs, reaches.trans (Cursor.reaches_next _)⟩

/-- A walk inside a value ends where it started. -/
lemma inside {within : Cursor → Prop}
    (enters : ∀ c inner : Cursor, c.enter = .ok inner → may c → within inner)
    (h : RunsAs within walk walk') : RunsAs may (inside walk) (Walk.inside walk') := by
  intro c hc
  unfold Walk.inside
  cases henter : c.enter with
  | error fault => exact ⟨.refused henter, .refl c⟩
  | ok inner =>
    obtain ⟨runs, reaches⟩ := h inner (enters c inner henter hc)
    have back := reaches.sameLevel.leave?_of_enter henter
    refine ⟨.inside henter runs, ?_⟩
    change c.Reaches ((walk' inner).2.leave?.getD (walk' inner).2)
    rw [back]
    exact .refl c

/-- Turns that pass siblings are as many as siblings at most. -/
lemma loops {step step' : Nat → Walk ε α} {width limit done : Nat} {taken : List α} {c : Cursor}
    (lasts : Lasts may) (h : ∀ index, RunsAs may (step index) (step' index))
    (takes : ∀ index, Takes (step' index) width) (some : 0 < width) (hc : may c)
    (enough : c.level.count - c.here.index ≤ limit) :
    Loops step taken done c (collectFrom step' limit taken done c) ∧
      c.Reaches (collectFrom step' limit taken done c).2 := by
  -- The bounded loop may end for its bound only where the level is exhausted as well.
  induction limit generalizing taken done c with
  | zero =>
    have exhausted : c.hasCurrent = false := by
      rw [← Bool.not_eq_true, Cursor.hasCurrent_iff]
      omega
    exact ⟨.exhausted exhausted, .refl c⟩
  | succ limit ih =>
    rw [collectFrom_succ]
    split
    next current =>
      obtain ⟨runs, reaches⟩ := h done c hc
      rw [bind_apply]
      cases hs : step' done c with
      | mk result d =>
        rw [hs] at runs reaches
        cases result with
        | error error => exact ⟨.failed current runs, reaches⟩
        | ok value =>
          obtain ⟨rfl, passed⟩ := takes done c value d hs
          have fewer := Cursor.remaining_iterate some passed enough
          obtain ⟨further, behind⟩ := ih (lasts c _ reaches hc) fewer
          exact ⟨.again current runs further, reaches.trans behind⟩
    next none => exact ⟨.exhausted (Bool.eq_false_iff.2 none), .refl c⟩

/-- Walks that are put together alike run alike. -/
lemma congruence (lasts : Lasts may) :
    Congruence fun _ => RunsAs (ε := ε) may where
  pure value c _ := ⟨.pure value c, .refl c⟩
  look looks c _ := ⟨.look c looks, .refl c⟩
  hasCurrent c _ := ⟨.hasCurrent c, .refl c⟩
  next c _ := ⟨.next c, c.reaches_next⟩
  bind := bind lasts
  thenNext := thenNext
  collect h takes some c hc := by
    obtain ⟨loops, reaches⟩ := loops lasts h takes some hc (Nat.le_refl _)
    exact ⟨.collect loops, reaches⟩

end RunsAs

end Walk

end AmqpBlob
