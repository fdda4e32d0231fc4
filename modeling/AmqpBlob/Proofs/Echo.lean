import AmqpBlob.Proofs.Walk
import Mathlib.Tactic.Choose

/-!
# Walks from two cursors

When the same walk gives the same result from two cursors. `Echoes` relates two results: they are
related values or the same error, where an offset in the error may differ; some faults of the first
one excuse any second one. `Mirror` lists what two cursors must agree on, one query of a cursor each,
and `Built.echoes` is the law that then every walk echoes.
-/

namespace AmqpBlob

/-- The fault, wherever it was met. -/
def WireError.unplaced : WireError → WireError
  | truncated _ needed => .truncated 0 needed
  | invalidFormatCode code _ => .invalidFormatCode code 0
  | exhausted _ => .exhausted 0
  | invalidUtf8 _ => .invalidUtf8 0
  | unread _ form => .unread 0 form
  | notCompound kind => .notCompound kind
  | notScalar kind => .notScalar kind
  | invalidChar point => .invalidChar point
  | mismatch cause => .mismatch cause

open OfWireError (ofWireError)

variable {ε α α' β β' : Type}

/-- The second result is the first one again, up to the offsets of faults. -/
inductive Echoes [OfWireError ε] (excused : WireError → Prop) (related : α → α' → Prop) :
    Except ε α → Except ε α' → Prop where
  | ok {value : α} {value' : α'} :
    related value value' →
    Echoes excused related (.ok value) (.ok value')
  | error (error : ε) : Echoes excused related (.error error) (.error error)
  | fault {fault fault' : WireError} :
    fault.unplaced = fault'.unplaced →
    Echoes excused related (.error (ofWireError fault)) (.error (ofWireError fault'))
  | excused {fault : WireError} {result' : Except ε α'} :
    excused fault →
    Echoes excused related (.error (ofWireError fault)) result'

namespace Echoes

variable {excused : WireError → Prop} {related : α → α' → Prop} {following : β → β' → Prop}

/-- A result echoes itself. -/
lemma refl [OfWireError ε] (result : Except ε α) : Echoes excused Eq result result := by
  cases result with
  | ok value => exact .ok rfl
  | error error => exact .error error

/-- What echoes a value is a related value. -/
lemma exists_of_ok [OfWireError ε] {value : α} {result' : Except ε α'}
    (h : Echoes excused related (.ok value : Except ε α) result') :
    ∃ value', result' = .ok value' ∧ related value value' := by
  cases h with
  | ok hvalue => exact ⟨_, rfl, hvalue⟩

/-- Values that echo are related. -/
lemma related_of_ok [OfWireError ε] {value : α} {value' : α'}
    (h : Echoes excused related (.ok value : Except ε α) (.ok value')) : related value value' := by
  cases h with
  | ok hvalue => exact hvalue

/-- What follows related values echoes if the values are echoed. -/
lemma bind [OfWireError ε] {result : Except ε α} {result' : Except ε α'} {next : α → Except ε β}
    {next' : α' → Except ε β'} (h : Echoes excused related result result')
    (h' : ∀ value value', related value value' → Echoes excused following (next value) (next' value')) :
    Echoes excused following (result >>= next) (result' >>= next') := by
  cases h with
  | ok hvalue => exact h' _ _ hvalue
  | error error => exact .error error
  | fault hfault => exact .fault hfault
  | excused hfault => exact .excused hfault

/-- What follows equal values starts from the same one. -/
lemma bind_eq [OfWireError ε] {result result' : Except ε α} {next : α → Except ε β}
    {next' : α → Except ε β'} (h : Echoes excused Eq result result')
    (h' : ∀ value, Echoes excused following (next value) (next' value)) :
    Echoes excused following (result >>= next) (result' >>= next') :=
  h.bind fun value _ same => same ▸ h' value

/-- A function of related values is echoed by the other one. -/
lemma map [OfWireError ε] {result : Except ε α} {result' : Except ε α'} {give : α → β}
    {give' : α' → β'} (h : Echoes excused related result result')
    (h' : ∀ value value', related value value' → following (give value) (give' value')) :
    Echoes excused following (result.map give) (result'.map give') := by
  cases h with
  | ok hvalue => exact .ok (h' _ _ hvalue)
  | error error => exact .error error
  | fault hfault => exact .fault hfault
  | excused hfault => exact .excused hfault

/-- Faults of the data stay so when they become errors of another kind. -/
lemma mapError [OfWireError ε] {result : Except WireError α} {result' : Except WireError α'}
    (h : Echoes excused related result result') :
    Echoes excused related (result.mapError (ofWireError : WireError → ε))
      (result'.mapError ofWireError) := by
  cases h with
  | ok hvalue => exact .ok hvalue
  | error error => exact .error _
  | fault hfault => exact .fault hfault
  | excused hfault => exact .excused hfault

/-- What is known of the first value may be added. -/
lemma and [OfWireError ε] {holds : α → Prop} {result : Except ε α} {result' : Except ε α'}
    (h : Echoes excused related result result') (h' : ∀ value, result = .ok value → holds value) :
    Echoes excused (fun value value' => related value value' ∧ holds value) result result' := by
  cases h with
  | ok hvalue => exact .ok ⟨hvalue, h' _ rfl⟩
  | error error => exact .error error
  | fault hfault => exact .fault hfault
  | excused hfault => exact .excused hfault

/-- A first result that needs no excuse is echoed without. -/
lemma strict [OfWireError ε] {result : Except ε α} {result' : Except ε α'}
    (h : Echoes excused related result result')
    (needless : ∀ fault, excused fault → result ≠ .error (ofWireError fault)) :
    Echoes (fun _ => False) related result result' := by
  cases h with
  | ok hvalue => exact .ok hvalue
  | error error => exact .error error
  | fault hfault => exact .fault hfault
  | excused hfault => exact absurd rfl (needless _ hfault)

/-- Two readings that echo one agree with each other. -/
lemma span {first result result' : Except WireError α}
    (h : Echoes (fun _ => False) Eq first result) (h' : Echoes (fun _ => False) Eq first result') :
    Echoes (fun _ => False) Eq result result' := by
  cases h with
  | ok same =>
    cases h' with
    | ok same' => exact .ok (same.symm.trans same')
  | error error => exact h'
  | @fault fault fault' place =>
    cases h' with
    | error error => exact .fault place.symm
    | fault place' => exact .fault (place.symm.trans place')
    | excused none => cases none
  | excused none => cases none

end Echoes

/-- Two relations of cursors, one for standing on the same value and one for standing on it in the
same level: what one cursor tells the other one tells too, and moves keep the relations. -/
structure Mirror (excused : WireError → Prop) (value level : Cursor → Cursor → Prop) : Prop where
  value_of_level {c c' : Cursor} : level c c' → value c c'
  kind {c c' : Cursor} : value c c' → Echoes excused Eq c.kind c'.kind
  scalar {c c' : Cursor} : value c c' → Echoes excused Eq c.scalar c'.scalar
  hasCurrent {c c' : Cursor} : value c c' → c'.hasCurrent = c.hasCurrent
  enter {c c' : Cursor} : value c c' → Echoes excused level c.enter c'.enter
  next {c c' : Cursor} : level c c' → level c.next c'.next
  remaining {c c' : Cursor} : level c c' →
    c'.level.count - c'.here.index = c.level.count - c.here.index

/-- A scalar is read as the same value. -/
lemma Mirror.read {excused : WireError → Prop} {value level : Cursor → Cursor → Prop}
    (mirror : Mirror excused value level) [OfScalar α] {c c' : Cursor} (related : value c c') :
    Echoes excused Eq (c.read α) (c'.read α) :=
  (mirror.scalar related).bind_eq fun _ => .refl _

namespace Walk

variable [OfWireError ε] {excused : WireError → Prop} {value level : Cursor → Cursor → Prop}

/-- The walk gives the same from cursors on the same value. -/
def Repeats (excused : WireError → Prop) (value : Cursor → Cursor → Prop) (walk : Walk ε α) : Prop :=
  ∀ c c', value c c' → Echoes excused Eq (walk c).1 (walk c').1

/-- The walk gives the same from cursors in the same level, and ends there if it succeeds. -/
def Follows (excused : WireError → Prop) (level : Cursor → Cursor → Prop) (walk : Walk ε α) : Prop :=
  ∀ c c', level c c' →
    Echoes excused (fun given given' => given.1 = given'.1 ∧ level given.2 given'.2)
      ((walk c).1.map (·, (walk c).2)) ((walk c').1.map (·, (walk c').2))

/-- A look repeats if what it looks at is echoed. -/
lemma Repeats.look {query : Cursor → Except WireError α}
    (h : ∀ {c c'}, value c c' → Echoes excused Eq (query c) (query c')) :
    Repeats excused value (look query : Walk ε α) :=
  fun _ _ related => (h related).mapError

/-- What does not look at the cursor gives the same everywhere. -/
lemma Settles.repeats {walk : Walk ε α} (h : Settles walk) : Repeats excused value walk := by
  obtain ⟨result, hresult⟩ := h
  intro c c' _
  rw [hresult, hresult]
  exact .refl result

/-- A walk that does not move and what follows it repeat together. -/
lemma Repeats.bind {walk : Walk ε α} {next : α → Walk ε β} (rests : Rests walk)
    (h : Repeats excused value walk) (h' : ∀ given, Repeats excused value (next given)) :
    Repeats excused value (walk >>= next) := by
  intro c c' related
  rw [rests.fst_bind, rests.fst_bind]
  exact (h c c' related).bind_eq fun given => h' given c c' related

/-- What follows without a look does so wherever the walk ended. -/
lemma Repeats.settle {walk : Walk ε α} {next : α → Walk ε β} (h : Repeats excused value walk)
    (settles : ∀ given, Settles (next given)) : Repeats excused value (walk >>= next) := by
  choose result hresult using settles
  have fst_bind (c : Cursor) : ((walk >>= next) c).1 = (walk c).1 >>= result := by
    rw [bind_apply]
    cases hw : walk c with
    | mk given d =>
      cases given with
      | ok given => exact congrArg Prod.fst (hresult given d)
      | error error => rfl
  intro c c' related
  rw [fst_bind, fst_bind]
  exact (h c c' related).bind_eq fun given => .refl _

/-- A walk whose end is known follows if it repeats. -/
lemma Repeats.follows {walk : Walk ε α} {move : Cursor → Cursor} (ends : ∀ c, (walk c).2 = move c)
    (hvalue : ∀ {c c'}, level c c' → value c c')
    (hlevel : ∀ {c c'}, level c c' → level (move c) (move c')) (h : Repeats excused value walk) :
    Follows excused level walk := by
  intro c c' related
  rw [ends c, ends c']
  exact (h c c' (hvalue related)).map fun _ _ same => ⟨same, hlevel related⟩

/-- Walks in the same level follow together, the second one from where the first one ended. -/
lemma Follows.bind {walk : Walk ε α} {next : α → Walk ε β} (h : Follows excused level walk)
    (h' : ∀ given, Follows excused level (next given)) : Follows excused level (walk >>= next) := by
  have outcome_bind (c : Cursor) :
      ((walk >>= next) c).1.map (·, ((walk >>= next) c).2) =
        (walk c).1.map (·, (walk c).2) >>= fun given =>
          (next given.1 given.2).1.map (·, (next given.1 given.2).2) := by
    rw [bind_apply]
    cases hw : walk c with
    | mk result d =>
      cases result with
      | ok given => rfl
      | error error => rfl
  intro c c' related
  rw [outcome_bind, outcome_bind]
  refine (h c c' related).bind fun given given' ⟨same, hlevel⟩ => ?_
  rw [same]
  exact h' given'.1 given.2 given'.2 hlevel

/-- What follows in the same level gives the same. -/
lemma Follows.result {walk : Walk ε α} (h : Follows excused level walk) {c c' : Cursor}
    (related : level c c') : Echoes excused Eq (walk c).1 (walk c').1 := by
  have fst_map (c : Cursor) : ((walk c).1.map (·, (walk c).2)).map Prod.fst = (walk c).1 := by
    cases (walk c).1 with
    | ok given => rfl
    | error error => rfl
  rw [← fst_map c, ← fst_map c']
  exact (h c c' related).map fun _ _ same => same.1

/-- A walk inside gives the same if the values that are entered have the same level inside. -/
lemma Follows.inside {walk : Walk ε α} (h : Follows excused level walk) {c c' : Cursor}
    (henter : Echoes excused level c.enter c'.enter) :
    Echoes excused Eq (inside walk c).1 (inside walk c').1 := by
  have fst_inside (c : Cursor) : (Walk.inside walk c).1 =
      c.enter.mapError ofWireError >>= fun inner => (walk inner).1 := by
    rw [Walk.inside]
    cases c.enter with
    | error fault => rfl
    | ok inner => rfl
  rw [fst_inside, fst_inside]
  exact henter.mapError.bind fun inner inner' hlevel => h.result hlevel

/-- A walk inside repeats if the cursors mirror each other. -/
lemma Repeats.inside (mirror : Mirror excused value level) {walk : Walk ε α}
    (h : Follows excused level walk) : Repeats excused value (inside walk) :=
  fun _ _ related => h.inside (mirror.enter related)

/-- Steps that follow do so together, as often as there are siblings on both sides. -/
lemma Follows.collectFrom (mirror : Mirror excused value level) {step : Nat → Walk ε α}
    (h : ∀ index, Follows excused level (step index)) (limit : Nat) (taken : List α) (done : Nat) :
    Follows excused level (collectFrom step limit taken done : Walk ε (List α)) := by
  induction limit generalizing taken done with
  | zero => exact fun _ _ related => .ok ⟨rfl, related⟩
  | succ limit ih =>
    intro c c' related
    rw [collectFrom_succ, collectFrom_succ, mirror.hasCurrent (mirror.value_of_level related)]
    split
    · exact (h done).bind (fun given => ih (given :: taken) (done + 1)) c c' related
    · exact .ok ⟨rfl, related⟩

/-- A loop follows if its steps do, as on both sides there are as many siblings left. -/
lemma Follows.collect (mirror : Mirror excused value level) {step : Nat → Walk ε α}
    (h : ∀ index, Follows excused level (step index)) : Follows excused level (collect step) := by
  intro c c' related
  unfold Walk.collect
  rw [mirror.remaining related]
  exact Follows.collectFrom mirror h _ _ _ c c' related

/-- Every walk echoes between cursors that agree: from cursors on the same value if it looks at that
value only, from cursors in the same level in any case. -/
theorem Built.echoes (mirror : Mirror excused value level) {motion : Motion} {walk : Walk ε α} :
    Built motion walk →
    match motion with
    | .rests | .advances => Repeats excused value walk
    | .roams => Follows excused level walk := by
  intro h
  induction h with
  | pure given => exact (Settles.pure given).repeats
  | fail error => exact (Settles.fail error).repeats
  | kind => exact .look mirror.kind
  | scalar => exact .look mirror.scalar
  | read α => exact .look mirror.read
  | hasCurrent => exact fun _ _ related => .ok (mirror.hasCurrent related).symm
  | next => exact fun _ _ _ => .ok rfl
  | bind built _ ih ih' => exact Repeats.bind built.rests ih ih'
  | chain _ _ ih ih' => exact Follows.bind ih ih'
  | @settle _ _ motion _ _ _ settles ih =>
    cases motion with
    | rests | advances => exact Repeats.settle ih settles
    | roams =>
      refine Follows.bind ih fun given => ?_
      exact Repeats.follows (settles given).rests mirror.value_of_level id (settles given).repeats
  | inside _ ih => exact .inside mirror ih
  | thenNext _ ih => exact ih
  | collect _ ih => exact .collect mirror ih
  | @roams _ motion _ built ih =>
    cases motion with
    | rests => exact Repeats.follows built.rests mirror.value_of_level id ih
    | advances => exact Repeats.follows built.advances mirror.value_of_level mirror.next ih
    | roams => exact ih

end Walk

/-- A walk that looks at one value only gives the same where the same value stands. -/
lemma Mirror.repeats [OfWireError ε] {excused : WireError → Prop}
    {value level : Cursor → Cursor → Prop} (mirror : Mirror excused value level) {walk : Walk ε α}
    (built : Walk.Built .advances walk) {c c' : Cursor} (related : value c c') :
    Echoes excused Eq (walk c).1 (walk c').1 :=
  Walk.Built.echoes mirror built c c' related

end AmqpBlob
