import AmqpBlob.Wire.Walk
import Mathlib.Tactic.Lemma

/-!
# Laws of walks

A walk that is put together from smaller ones inherits from them where it ends, what holds of the
value it gives and where it needs a value. `Rests`, `Stays` and `Advances` say where a walk ends,
whether it succeeds or not, `Gives` says what holds of its value if it succeeds, and `Needs` that it
succeeds only where there is a value. Each of them is closed under the ways to put walks together;
`Rests.inside` is the one that turns a walk that may move among siblings into one that does not move.

`Built` says that a walk is put together in these ways at all, so that more can be proved of it by
induction.
-/

namespace AmqpBlob

namespace Cursor

/-- The second cursor is in the level of the first one, at the same or another position. -/
structure SameLevel (c c' : Cursor) : Prop where
  bytes : c'.bytes = c.bytes
  level : c'.level = c.level
  outer : c'.outer = c.outer

/-- Each cursor is in its own level. -/
lemma SameLevel.refl (c : Cursor) : c.SameLevel c :=
  ⟨rfl, rfl, rfl⟩

/-- Two cursors in the level of a third one are in one level. -/
lemma SameLevel.trans {c c' c'' : Cursor} (h : c.SameLevel c') (h' : c'.SameLevel c'') :
    c.SameLevel c'' :=
  ⟨h'.bytes.trans h.bytes, h'.level.trans h.level, h'.outer.trans h.outer⟩

/-- A step to the next sibling stays in the level. -/
lemma sameLevel_next (c : Cursor) : c.SameLevel c.next :=
  ⟨c.bytes_next, c.level_next, c.outer_next⟩

/-- Where leaving leads to is the same all over a level. -/
lemma SameLevel.leave? {c c' : Cursor} (h : c.SameLevel c') : c'.leave? = c.leave? := by
  obtain ⟨hbytes, hlevel, houter⟩ := h
  unfold Cursor.leave?
  rw [houter, hlevel]
  cases c.outer with
  | nil => rfl
  | cons level outer => simp only [hbytes]

/-- Leaving leads back to the entered value from all over its inside. -/
lemma SameLevel.leave?_of_enter {c entered c' : Cursor} (h : c.enter = .ok entered)
    (same : entered.SameLevel c') : c'.leave? = some c := by
  rw [same.leave?]
  exact Cursor.leave?_of_enter h

/-- There is a value as long as siblings and bytes of the level are left. -/
lemma hasCurrent_iff {c : Cursor} : c.hasCurrent = true ↔
    c.here.index < c.level.count ∧ c.here.offset < c.level.stop := by
  rw [Cursor.hasCurrent, Bool.and_eq_true, decide_eq_true_eq, decide_eq_true_eq]

/-- A step from a value leads to the position behind the value, if that is in the level, and else
behind the last sibling. -/
lemma next_of_hasCurrent {c : Cursor} (current : c.hasCurrent = true) :
    (∃ stop, c.stop = .ok stop ∧ c.next = { c with here := ⟨stop, c.here.index + 1⟩ }) ∨
      c.next = c.exhaust := by
  rw [next, if_pos current]
  cases hstop : c.stop with
  | error fault => exact .inr rfl
  | ok stop =>
    dsimp only
    split
    · exact .inl ⟨stop, rfl, rfl⟩
    · exact .inr rfl

/-- Only where there is no value, a step leads nowhere. -/
lemma next_eq_iff {c : Cursor} : c.next = c ↔ c.hasCurrent = false := by
  constructor
  · intro same
    refine Bool.eq_false_iff.2 fun current => ?_
    have index := congrArg (fun c => c.here.index) same
    have below := (hasCurrent_iff.1 current).1
    obtain ⟨stop, _, hnext⟩ | hnext := next_of_hasCurrent current
    · rw [hnext] at index
      exact absurd index (Nat.succ_ne_self _)
    · rw [hnext] at index
      exact absurd index (Nat.ne_of_gt below)
  · exact next_of_not_hasCurrent

/-- Where there is no value, there is no format code. -/
lemma code_of_exhausted {c : Cursor} (h : c.hasCurrent = false) :
    c.code = .error (.exhausted c.here.offset) := by
  rw [Cursor.code, h]
  rfl

/-- Where there is no value, there is no kind. -/
lemma kind_of_exhausted {c : Cursor} (h : c.hasCurrent = false) :
    c.kind = .error (.exhausted c.here.offset) := by
  rw [Cursor.kind, code_of_exhausted h]
  rfl

/-- Where there is no value, there is no scalar. -/
lemma scalar_of_exhausted {c : Cursor} (h : c.hasCurrent = false) :
    c.scalar = .error (.exhausted c.here.offset) := by
  rw [Cursor.scalar, code_of_exhausted h]
  rfl

/-- Where there is no value, there is nothing to enter. -/
lemma enter_of_exhausted {c : Cursor} (h : c.hasCurrent = false) :
    c.enter = .error (.exhausted c.here.offset) := by
  rw [Cursor.enter, code_of_exhausted h]
  rfl

end Cursor

namespace Walk

variable {ε α β : Type}

/-! ## Where a walk ends -/

/-- A walk that ends where it started. -/
def Rests (walk : Walk ε α) : Prop :=
  ∀ c, (walk c).2 = c

/-- A walk that ends among the siblings of the value it started at. -/
def Stays (walk : Walk ε α) : Prop :=
  ∀ c : Cursor, c.SameLevel (walk c).2

/-- A walk that ends on the next sibling. -/
def Advances (walk : Walk ε α) : Prop :=
  ∀ c, (walk c).2 = c.next

/-- A walk that does not move stays in its level. -/
lemma Rests.stays {walk : Walk ε α} (h : Rests walk) : Stays walk := by
  intro c
  rw [h c]
  exact .refl c

/-- A walk to the next sibling stays in its level. -/
lemma Advances.stays {walk : Walk ε α} (h : Advances walk) : Stays walk := by
  intro c
  rw [h c]
  exact c.sameLevel_next

/-- Giving a value does not move. -/
lemma Rests.pure (value : α) : Rests (pure value : Walk ε α) :=
  fun _ => rfl

/-- Failing does not move. -/
lemma Rests.fail (error : ε) : Rests (fail error : Walk ε α) :=
  fun _ => rfl

/-- Looking at the cursor does not move. -/
lemma Rests.look [OfWireError ε] (query : Cursor → Except WireError α) :
    Rests (look query : Walk ε α) :=
  fun _ => rfl

/-- Looking at the kind does not move. -/
lemma Rests.kind [OfWireError ε] : Rests (kind : Walk ε Kind) :=
  .look _

/-- Reading a scalar does not move. -/
lemma Rests.scalar [OfWireError ε] : Rests (scalar : Walk ε Scalar) :=
  .look _

/-- Reading a scalar as a value of a type does not move. -/
lemma Rests.read (α : Type) [OfScalar α] [OfWireError ε] : Rests (read α : Walk ε α) :=
  .look _

/-- Asking for a value does not move. -/
lemma Rests.hasCurrent : Rests (hasCurrent : Walk ε Bool) :=
  fun _ => rfl

/-- Two walks that do not move do not move one after the other. -/
lemma Rests.bind {walk : Walk ε α} {following : α → Walk ε β} (h : Rests walk)
    (h' : ∀ value, Rests (following value)) : Rests (walk >>= following) := by
  intro c
  have hc := h c
  rw [bind_apply]
  cases hw : walk c with
  | mk result c' =>
    rw [hw] at hc
    cases hc
    cases result with
    | ok value => exact h' value _
    | error error => rfl

/-- What follows a walk that does not move is read where the walk was. -/
lemma Rests.fst_bind {walk : Walk ε α} {next : α → Walk ε β} (rests : Rests walk) (c : Cursor) :
    ((walk >>= next) c).1 = (walk c).1 >>= fun given => (next given c).1 := by
  have hc := rests c
  rw [bind_apply]
  cases hw : walk c with
  | mk result d =>
    rw [hw] at hc
    cases hc
    cases result with
    | ok given => rfl
    | error error => rfl

/-- Two walks that stay in their level stay there one after the other. -/
lemma Stays.bind {walk : Walk ε α} {following : α → Walk ε β} (h : Stays walk)
    (h' : ∀ value, Stays (following value)) : Stays (walk >>= following) := by
  intro c
  have hc := h c
  rw [bind_apply]
  cases hw : walk c with
  | mk result c' =>
    rw [hw] at hc
    cases result with
    | ok value => exact hc.trans (h' value c')
    | error error => exact hc

/-- What follows a walk to the next sibling may look at that sibling. -/
lemma Advances.bind {walk : Walk ε α} {following : α → Walk ε β} (h : Advances walk)
    (h' : ∀ value, Rests (following value)) : Advances (walk >>= following) := by
  intro c
  have hc := h c
  rw [bind_apply]
  cases hw : walk c with
  | mk result c' =>
    rw [hw] at hc
    cases hc
    cases result with
    | ok value => exact h' value c.next
    | error error => rfl

/-- The step to the next sibling ends there. -/
lemma Advances.next : Advances (next : Walk ε Unit) :=
  fun _ => rfl

/-- A walk that does not move ends on the next sibling if it is told to move there afterwards. -/
lemma Rests.thenNext {walk : Walk ε α} (h : Rests walk) : Advances (thenNext walk) := by
  intro c
  exact congrArg Cursor.next (h c)

/-- The value that was entered is left again from all over its inside. -/
lemma Rests.inside [OfWireError ε] {walk : Walk ε α} (h : Stays walk) : Rests (inside walk) := by
  intro c
  unfold Walk.inside
  cases he : c.enter with
  | error fault => rfl
  | ok entered =>
    -- However far the walk got among the children, there is one level to leave.
    have back := (h entered).leave?_of_enter he
    change (walk entered).2.leave?.getD (walk entered).2 = c
    rw [back, Option.getD_some]

/-- One turn of a loop, and the turns behind it. -/
lemma collectFrom_succ (step : Nat → Walk ε α) (limit : Nat) (taken : List α) (done : Nat)
    (c : Cursor) :
    collectFrom step (limit + 1) taken done c =
      if c.hasCurrent then
        (step done >>= fun value => collectFrom step limit (value :: taken) (done + 1)) c
      else (.ok taken.reverse, c) := by
  rw [bind_apply]
  rfl

/-- Where nothing is met, nothing is collected. -/
lemma collect_of_exhausted {step : Nat → Walk ε α} {c : Cursor} (h : c.hasCurrent = false) :
    collect step c = (.ok [], c) := by
  unfold collect
  cases c.level.count - c.here.index with
  | zero => rfl
  | succ limit =>
    rw [collectFrom_succ, if_neg (Bool.eq_false_iff.1 h)]
    rfl

/-- Steps that stay in their level stay there together. -/
lemma sameLevel_collectFrom {step : Nat → Walk ε α} (h : ∀ index, Stays (step index)) (limit : Nat)
    (taken : List α) (done : Nat) (c : Cursor) :
    c.SameLevel (collectFrom step limit taken done c).2 := by
  induction limit generalizing taken done c with
  | zero => exact .refl c
  | succ limit ih =>
    unfold collectFrom
    split
    · have hc := h done c
      cases hs : step done c with
      | mk result c' =>
        rw [hs] at hc
        cases result with
        | ok value => exact hc.trans (ih _ _ _)
        | error error => exact hc
    · exact .refl c

/-- A loop over steps that stay in their level stays there. -/
lemma Stays.collect {step : Nat → Walk ε α} (h : ∀ index, Stays (step index)) :
    Stays (collect step) :=
  fun c => sameLevel_collectFrom h _ _ _ c

/-! ## How a walk is put together -/

/-- Where a walk ends. -/
inductive Motion where
  /-- Where it started. -/
  | rests
  /-- On the next sibling. -/
  | advances
  /-- Among the siblings of the value it started at. -/
  | roams

/-- A walk that does not look at the cursor. -/
def Settles (walk : Walk ε α) : Prop :=
  ∃ result, ∀ c, walk c = (result, c)

/-- Giving a value takes no cursor. -/
lemma Settles.pure (value : α) : Settles (pure value : Walk ε α) :=
  ⟨.ok value, fun _ => rfl⟩

/-- Failing takes no cursor. -/
lemma Settles.fail (error : ε) : Settles (fail error : Walk ε α) :=
  ⟨.error error, fun _ => rfl⟩

/-- A walk that does not look at the cursor does not move it. -/
lemma Settles.rests {walk : Walk ε α} (h : Settles walk) : Rests walk := by
  obtain ⟨result, hresult⟩ := h
  intro c
  rw [hresult c]

/-- The walk is put together of looks at the cursor and of moves that come in pairs. What every such
walk does is proved once, by induction on how it is put together. -/
inductive Built [OfWireError ε] : {α : Type} → Motion → Walk ε α → Prop where
  | pure {α : Type} (value : α) : Built .rests (pure value)
  | fail {α : Type} (error : ε) : Built .rests (fail error : Walk ε α)
  | kind : Built .rests kind
  | scalar : Built .rests scalar
  | read (α : Type) [OfScalar α] : Built .rests (read α)
  | hasCurrent : Built .rests hasCurrent
  | next : Built .advances next
  | bind {α β : Type} {walk : Walk ε α} {following : α → Walk ε β} :
    Built .rests walk →
    (∀ value, Built .rests (following value)) →
    Built .rests (walk >>= following)
  | chain {α β : Type} {walk : Walk ε α} {following : α → Walk ε β} :
    Built .roams walk →
    (∀ value, Built .roams (following value)) →
    Built .roams (walk >>= following)
  | settle {α β : Type} {motion : Motion} {walk : Walk ε α} {following : α → Walk ε β} :
    Built motion walk →
    (∀ value, Settles (following value)) →
    Built motion (walk >>= following)
  | inside {α : Type} {walk : Walk ε α} : Built .roams walk → Built .rests (inside walk)
  | thenNext {α : Type} {walk : Walk ε α} : Built .rests walk → Built .advances (thenNext walk)
  | collect {α : Type} {step : Nat → Walk ε α} :
    (∀ index, Built .roams (step index)) →
    Built .roams (collect step)
  | roams {α : Type} {motion : Motion} {walk : Walk ε α} : Built motion walk → Built .roams walk

/-- A walk that does not look at the cursor gives a value or fails, and nothing else. -/
lemma Settles.built [OfWireError ε] {walk : Walk ε α} (h : Settles walk) : Built .rests walk := by
  obtain ⟨result, hresult⟩ := h
  cases funext hresult
  cases result with
  | ok value => exact .pure value
  | error error => exact .fail error

/-- A walk ends where its motion says. -/
lemma Built.ends [OfWireError ε] {motion : Motion} {walk : Walk ε α} (h : Built motion walk) :
    match motion with
    | .rests => Rests walk
    | .advances => Advances walk
    | .roams => Stays walk := by
  induction h with
  | pure value => exact .pure value
  | fail error => exact .fail error
  | kind => exact .kind
  | scalar => exact .scalar
  | read α => exact .read α
  | hasCurrent => exact .hasCurrent
  | next => exact .next
  | bind _ _ ih ih' => exact Rests.bind ih ih'
  | chain _ _ ih ih' => exact Stays.bind ih ih'
  | @settle _ _ motion _ _ _ settles ih =>
    cases motion with
    | rests => exact Rests.bind ih fun value => (settles value).rests
    | advances => exact Advances.bind ih fun value => (settles value).rests
    | roams => exact Stays.bind ih fun value => (settles value).rests.stays
  | inside _ ih => exact .inside ih
  | thenNext _ ih => exact Rests.thenNext ih
  | collect _ ih => exact .collect ih
  | @roams _ motion _ _ ih =>
    cases motion with
    | rests => exact Rests.stays ih
    | advances => exact Advances.stays ih
    | roams => exact ih

/-- A walk that is built to rest does. -/
lemma Built.rests [OfWireError ε] {walk : Walk ε α} (h : Built .rests walk) : Rests walk :=
  h.ends

/-- A walk that is built to advance does. -/
lemma Built.advances [OfWireError ε] {walk : Walk ε α} (h : Built .advances walk) : Advances walk :=
  h.ends

/-- Looking for a descriptor enters a described value and leaves it again. -/
lemma Built.descriptor? [OfWireError ε] : Built .rests (descriptor? : Walk ε (Option Scalar)) := by
  refine .bind .kind fun found => ?_
  split
  · exact .settle (.inside (.roams .scalar)) fun _ => .pure _
  · exact .pure _

/-- Looking for a descriptor does not move. -/
lemma Rests.descriptor? [OfWireError ε] : Rests (descriptor? : Walk ε (Option Scalar)) :=
  Built.descriptor?.rests

/-! ## What a walk gives -/

/-- If a walk that follows another one gives a value, so did the other one. -/
lemma exists_of_bind {walk : Walk ε α} {following : α → Walk ε β} {c : Cursor} {value : β}
    (h : ((walk >>= following) c).1 = .ok value) :
    ∃ first c', walk c = (.ok first, c') ∧ (following first c').1 = .ok value := by
  rw [bind_apply] at h
  cases hw : walk c with
  | mk result c' =>
    rw [hw] at h
    cases result with
    | ok first => exact ⟨first, c', rfl, h⟩
    | error error => cases h

/-- If a walk that follows one that does not move gives a value, so does it where the other one
started. -/
lemma exists_of_rests {walk : Walk ε α} {following : α → Walk ε β} {c : Cursor} {value : β}
    (rests : Rests walk) (h : ((walk >>= following) c).1 = .ok value) :
    ∃ first, (walk c).1 = .ok first ∧ (following first c).1 = .ok value := by
  obtain ⟨first, c', hw, hvalue⟩ := exists_of_bind h
  have hc := rests c
  rw [hw] at hc
  cases hc
  exact ⟨first, by rw [hw], hvalue⟩

/-- Giving errors another form leaves values as they are. -/
lemma ok_of_mapError {ε' : Type} {form : ε → ε'} {result : Except ε α} {value : α}
    (h : result.mapError form = .ok value) : result = .ok value := by
  cases result with
  | error error => cases h
  | ok found =>
    cases h
    rfl

/-- A look that succeeds has found what it gives. -/
lemma ok_of_look [OfWireError ε] {query : Cursor → Except WireError α} {c : Cursor} {value : α}
    (h : ((look query : Walk ε α) c).1 = .ok value) : query c = .ok value :=
  ok_of_mapError h

/-- If a walk that follows a look at the cursor gives a value, so does it where the look was. -/
lemma exists_of_look [OfWireError ε] {query : Cursor → Except WireError α}
    {following : α → Walk ε β} {c : Cursor} {value : β}
    (h : ((look query >>= following) c).1 = .ok value) :
    ∃ first, query c = .ok first ∧ (following first c).1 = .ok value := by
  obtain ⟨first, hlook, hvalue⟩ := exists_of_rests (.look query) h
  exact ⟨first, ok_of_look hlook, hvalue⟩

/-- If a walk inside a value gives something, the value can be entered. -/
lemma exists_of_inside [OfWireError ε] {walk : Walk ε α} {c : Cursor} {value : α}
    (h : (inside walk c).1 = .ok value) :
    ∃ inner, c.enter = .ok inner ∧ (walk inner).1 = .ok value := by
  unfold inside at h
  cases he : c.enter with
  | error fault =>
    rw [he] at h
    cases h
  | ok inner =>
    rw [he] at h
    exact ⟨inner, rfl, h⟩

/-- A walk whose value, if it succeeds, is one that `holds` holds of. -/
def Gives (walk : Walk ε α) (holds : α → Prop) : Prop :=
  ∀ c value, (walk c).1 = .ok value → holds value

/-- A value that is given is the value. -/
lemma Gives.pure {value : α} {holds : α → Prop} (h : holds value) :
    Gives (pure value : Walk ε α) holds := by
  intro c given hg
  cases hg
  exact h

/-- What fails gives nothing that could be wrong. -/
lemma Gives.fail {error : ε} {holds : α → Prop} : Gives (fail error : Walk ε α) holds :=
  nofun

/-- Nothing need be known about a value to go on with it. -/
lemma Gives.trivial {walk : Walk ε α} : Gives walk fun _ => True :=
  fun _ _ _ => True.intro

/-- What follows a walk may rely on what the walk gives. -/
lemma Gives.bind {walk : Walk ε α} {following : α → Walk ε β} {first : α → Prop} {holds : β → Prop}
    (h : Gives walk first) (h' : ∀ value, first value → Gives (following value) holds) :
    Gives (walk >>= following) holds := by
  intro c given hg
  obtain ⟨value, c', hw, hgiven⟩ := exists_of_bind hg
  exact h' value (h c value (by rw [hw])) c' given hgiven

/-- What follows a walk of which nothing is known. -/
lemma Gives.after {walk : Walk ε α} {following : α → Walk ε β} {holds : β → Prop}
    (h : ∀ value, Gives (following value) holds) : Gives (walk >>= following) holds :=
  Gives.bind .trivial fun value _ => h value

/-- Nothing follows a walk that fails. -/
lemma Gives.failThen {error : ε} {following : α → Walk ε β} {holds : β → Prop} :
    Gives (Walk.fail error >>= following) holds :=
  nofun

/-- The step to the next sibling does not change what was given. -/
lemma Gives.thenNext {walk : Walk ε α} {holds : α → Prop} (h : Gives walk holds) :
    Gives (thenNext walk) holds :=
  fun c => h c

/-- What a walk gives wherever it starts, it gives inside a value. -/
lemma Gives.inside [OfWireError ε] {walk : Walk ε α} {holds : α → Prop} (h : Gives walk holds) :
    Gives (inside walk) holds := by
  intro c given hg
  obtain ⟨inner, _, hinner⟩ := exists_of_inside hg
  exact h inner given hinner

/-- Steps each of which gives such a value give a list of them. -/
lemma forall_mem_collectFrom {step : Nat → Walk ε α} {holds : α → Prop}
    (h : ∀ index, Gives (step index) holds) {limit : Nat} {taken : List α} {done : Nat} {c : Cursor}
    {values : List α} (htaken : ∀ value ∈ taken, holds value)
    (hv : (collectFrom step limit taken done c).1 = .ok values) : ∀ value ∈ values, holds value := by
  induction limit generalizing taken done c with
  | zero =>
    cases hv
    exact fun value member => htaken value (List.mem_reverse.1 member)
  | succ limit ih =>
    unfold collectFrom at hv
    split at hv
    · cases hs : step done c with
      | mk result c' =>
        rw [hs] at hv
        cases result with
        | ok value =>
          have hvalue := h done c value (by rw [hs])
          exact ih (List.forall_mem_cons.2 ⟨hvalue, htaken⟩) hv
        | error error => cases hv
    · cases hv
      exact fun value member => htaken value (List.mem_reverse.1 member)

/-- What holds of each step's value holds of all that a loop gives. -/
lemma Gives.collect {step : Nat → Walk ε α} {holds : α → Prop}
    (h : ∀ index, Gives (step index) holds) :
    Gives (collect step) fun values => ∀ value ∈ values, holds value :=
  fun _ _ hv => forall_mem_collectFrom h (List.forall_mem_nil _) hv

/-! ## Where a walk gives something -/

/-- A walk that gives something only where there is a value. -/
def Needs (walk : Walk ε α) : Prop :=
  ∀ c value, (walk c).1 = .ok value → c.hasCurrent = true

/-- What fails gives nothing without a value, as it gives nothing. -/
lemma Needs.fail {error : ε} : Needs (fail error : Walk ε α) :=
  nofun

/-- Each look but one at the format code fails where there is none. -/
lemma Needs.look [OfWireError ε] {query : Cursor → Except WireError α}
    (h : ∀ c : Cursor, c.hasCurrent = false → ∃ fault, query c = .error fault) :
    Needs (look query : Walk ε α) := by
  intro c value hvalue
  cases current : c.hasCurrent with
  | true => rfl
  | false =>
    obtain ⟨fault, hfault⟩ := h c current
    rw [Walk.look, hfault] at hvalue
    cases hvalue

/-- There is a kind only where there is a value. -/
lemma Needs.kind [OfWireError ε] : Needs (kind : Walk ε Kind) :=
  .look fun c h => ⟨_, by
    rw [Cursor.kind, Cursor.code_of_exhausted h]
    rfl⟩

/-- A scalar is read only where there is a value. -/
lemma Needs.read (α : Type) [OfScalar α] [OfWireError ε] : Needs (read α : Walk ε α) :=
  .look fun c h => ⟨_, by
    rw [Cursor.read, Cursor.scalar, Cursor.code_of_exhausted h]
    rfl⟩

/-- The step to the next sibling needs no more than the walk before it. -/
lemma Needs.thenNext {walk : Walk ε α} (h : Needs walk) : Needs (thenNext walk) :=
  fun c => h c

/-- What the first walk needs, both together need. -/
lemma Needs.bind {walk : Walk ε α} {following : α → Walk ε β} (h : Needs walk) :
    Needs (walk >>= following) := by
  intro c value hvalue
  obtain ⟨first, c', hw, _⟩ := exists_of_bind hvalue
  exact h c first (by rw [hw])

end Walk

end AmqpBlob
