import AmqpBlob.Schema.Order
import Mathlib.Data.Fintype.Card
import Mathlib.Data.List.Nodup
import Mathlib.Data.Set.Finite.Basic
import Mathlib.Logic.Relation
import Mathlib.Order.WellFounded

/-!
# Arrangements

What counting down arranges, for any relation of the items. `Arranges` says which item is taken next:
the first that no remaining one must precede, or the first of all if each is preceded by one. From it
follow what the order of a list of places is, whatever cycles there are: which of two places comes
first, and that it is the least order that respects the relation if there is no cycle.
-/

namespace AmqpBlob

open Relation (TransGen ReflTransGen)

section

variable {α β : Type}

/-- One of the items must precede this one. -/
def Blocked (r : α → α → Prop) (items : List α) (item : α) : Prop :=
  ∃ other ∈ items, r other item

/-- The items are taken one by one into an order: the first that is not blocked, or the first of all
if each is. -/
inductive Arranges (r : α → α → Prop) : (items order : List α) → Prop where
  | done : Arranges r [] []
  | free {before after order : List α} {item : α} :
    (∀ other ∈ before, Blocked r (before ++ item :: after) other) →
    ¬Blocked r (before ++ item :: after) item →
    Arranges r (before ++ after) order →
    Arranges r (before ++ item :: after) (item :: order)
  | stuck {rest order : List α} {item : α} :
    (∀ other ∈ item :: rest, Blocked r (item :: rest) other) →
    Arranges r rest order →
    Arranges r (item :: rest) (item :: order)

/-! ## Counting down -/

variable {precedes : α → α → Bool}

/-- Each item waits for as many items as must precede it and are not placed. -/
def Counted (precedes : α → α → Bool) (queue : List (Waiting α)) : Prop :=
  ∀ waiting ∈ queue, waiting.count = (queue.map Waiting.item).countP (precedes · waiting.item)

/-- Counting down keeps the item. -/
@[simp]
lemma Waiting.item_countDown (placed : α) (waiting : Waiting α) :
    (waiting.countDown precedes placed).item = waiting.item := by
  unfold Waiting.countDown
  split <;> rfl

/-- An item waits for one less if the placed item must precede it. -/
lemma Waiting.count_countDown (placed : α) (waiting : Waiting α) :
    (waiting.countDown precedes placed).count =
      waiting.count - if precedes placed waiting.item then 1 else 0 := by
  unfold Waiting.countDown
  split <;> rfl

/-- Counting down keeps which items wait, and in which order. -/
lemma map_item_countDown (placed : α) (queue : List (Waiting α)) :
    (queue.map (Waiting.countDown precedes placed)).map Waiting.item = queue.map Waiting.item := by
  rw [List.map_map]
  exact List.map_congr_left fun waiting _ => waiting.item_countDown placed

/-- At first all items wait, in their order. -/
lemma map_item_waitingItems (items : List α) :
    (waitingItems precedes items).map Waiting.item = items := by
  rw [waitingItems, List.map_map]
  exact List.map_id items

/-- At first each item waits for all that must precede it. -/
lemma counted_waitingItems (precedes : α → α → Bool) (items : List α) :
    Counted precedes (waitingItems precedes items) := by
  intro waiting member
  obtain ⟨item, _, rfl⟩ := List.mem_map.1 member
  rw [map_item_waitingItems]

/-- Counting down keeps the counts right, so no count is ever lowered below zero. -/
lemma Counted.countDown {before after : List (Waiting α)} {next : Waiting α}
    (h : Counted precedes (before ++ next :: after)) :
    Counted precedes ((before ++ after).map (Waiting.countDown precedes next.item)) := by
  intro waiting member
  obtain ⟨earlier, hearlier, rfl⟩ := List.mem_map.1 member
  have hcount := h earlier (by
    rw [List.mem_append] at hearlier ⊢
    exact hearlier.imp_right (List.mem_cons_of_mem _))
  rw [List.map_append, List.map_cons, List.countP_append, List.countP_cons] at hcount
  rw [map_item_countDown, Waiting.item_countDown, Waiting.count_countDown, List.map_append,
    List.countP_append, hcount]
  omega

/-- An item waits for none just if none of the items blocks it. -/
lemma Counted.count_eq_zero_iff {queue : List (Waiting α)} {waiting : Waiting α}
    (h : Counted precedes queue) (member : waiting ∈ queue) :
    waiting.count = 0 ↔ ¬Blocked (precedes · · = true) (queue.map Waiting.item) waiting.item := by
  rw [h waiting member, List.countP_eq_zero]
  constructor
  · rintro free ⟨other, hother, hprecedes⟩
    exact free other hother hprecedes
  · exact fun free other hother hprecedes => free ⟨other, hother, hprecedes⟩

/-- The next item stands behind items that wait, and waits for none itself unless all do. -/
lemma exists_next {queue : List (Waiting α)} (h : queue ≠ []) :
    ∃ before next after, queue = before ++ next :: after ∧ nextPlace queue = before.length ∧
      ((∀ waiting ∈ before, waiting.count ≠ 0) ∧ next.count = 0 ∨
        before = [] ∧ ∀ waiting ∈ queue, waiting.count ≠ 0) := by
  unfold nextPlace
  cases found : queue.findIdx? fun waiting => waiting.count == 0 with
  | none =>
    obtain ⟨next, after, rfl⟩ := List.exists_cons_of_ne_nil h
    refine ⟨[], next, after, rfl, rfl, .inr ⟨rfl, fun waiting member hzero => ?_⟩⟩
    have := List.findIdx?_eq_none_iff.1 found waiting member
    rw [hzero] at this
    cases this
  | some place =>
    obtain ⟨inside, hzero, hbefore⟩ := List.findIdx?_eq_some_iff_getElem.1 found
    refine ⟨queue.take place, queue[place], queue.drop (place + 1), ?_, ?_, .inl ⟨?_, ?_⟩⟩
    · rw [List.getElem_cons_drop, List.take_append_drop]
    · rw [List.length_take, Nat.min_eq_left (Nat.le_of_lt inside)]
      rfl
    · intro waiting member hwaiting
      obtain ⟨index, hindex, rfl⟩ := List.mem_take_iff_getElem.1 member
      exact hbefore index (by omega) (by rw [hwaiting]; rfl)
    · exact beq_iff_eq.1 hzero

/-- Items whose counts are right are arranged. -/
lemma arranges_placeItems {left : Nat} {queue : List (Waiting α)} (counted : Counted precedes queue)
    (all : queue.length = left) :
    Arranges (precedes · · = true) (queue.map Waiting.item) (placeItems precedes left queue) := by
  induction left generalizing queue with
  | zero =>
    rw [List.length_eq_zero_iff.1 all]
    exact .done
  | succ left ih =>
    obtain ⟨before, next, after, rfl, hplace, chosen⟩ :=
      exists_next (List.ne_nil_of_length_eq_add_one all)
    have hnext : (before ++ next :: after)[before.length]? = some next := by
      rw [List.getElem?_append_right (Nat.le_refl _), Nat.sub_self, List.getElem?_cons_zero]
    have hrest : (before ++ next :: after).eraseIdx before.length = before ++ after := by
      rw [List.eraseIdx_append_of_length_le (Nat.le_refl _), Nat.sub_self, List.eraseIdx_cons_zero]
    have inner := ih counted.countDown (by
      rw [List.length_append, List.length_cons] at all
      rw [List.length_map, List.length_append]
      omega)
    rw [map_item_countDown, List.map_append] at inner
    have blocked (waiting : Waiting α) (member : waiting ∈ before ++ next :: after)
        (hcount : waiting.count ≠ 0) : Blocked (precedes · · = true)
          ((before ++ next :: after).map Waiting.item) waiting.item :=
      Classical.not_not.1 fun free => hcount ((counted.count_eq_zero_iff member).2 free)
    simp only [placeItems, hplace, hnext, hrest]
    rcases chosen with ⟨hbefore, hzero⟩ | ⟨rfl, hall⟩
    · have free := (counted.count_eq_zero_iff List.mem_append_cons_self).1 hzero
      rw [List.map_append, List.map_cons] at free blocked ⊢
      refine .free (fun other member => ?_) free inner
      obtain ⟨waiting, hwaiting, rfl⟩ := List.mem_map.1 member
      exact blocked waiting (List.mem_append_left _ hwaiting) (hbefore waiting hwaiting)
    · refine .stuck (fun other member => ?_) inner
      rw [← List.map_cons] at member
      obtain ⟨waiting, hwaiting, rfl⟩ := List.mem_map.1 member
      exact blocked waiting hwaiting (hall waiting hwaiting)

/-- Counting down arranges the items. -/
lemma arranges_arrange (precedes : α → α → Bool) (items : List α) :
    Arranges (precedes · · = true) items (arrange precedes items) := by
  have arranged := arranges_placeItems (counted_waitingItems precedes items) rfl
  rw [map_item_waitingItems] at arranged
  have hlength : (waitingItems precedes items).length = items.length := List.length_map _
  rw [hlength] at arranged
  exact arranged

/-! ## Orders of items -/

/-- Without one item, the other ones keep their order. -/
lemma sublist_without {before after : List α} {item : α} :
    (before ++ after).Sublist (before ++ item :: after) :=
  (List.sublist_cons_self item after).append_left before

/-- Another item than the one left out is still there. -/
lemma mem_append_of_ne {before after : List α} {item other : α}
    (member : other ∈ before ++ item :: after) (different : other ≠ item) :
    other ∈ before ++ after := by
  rw [List.mem_append, List.mem_cons] at member
  rw [List.mem_append]
  exact member.imp_right fun h => h.resolve_left different

namespace Arranges

variable {r : α → α → Prop} {items order : List α}

/-- Arranging items neither drops nor repeats any. -/
lemma perm (h : Arranges r items order) : order.Perm items := by
  induction h with
  | done => exact .refl _
  | free _ _ _ ih => exact (ih.cons _).trans List.perm_middle.symm
  | stuck _ _ ih => exact ih.cons _

/-- Images are blocked just where the items are. -/
lemma blocked_map {r' : β → β → Prop} {f : α → β}
    (same : ∀ a ∈ items, ∀ b ∈ items, r a b ↔ r' (f a) (f b)) {item : α} (member : item ∈ items) :
    Blocked r' (items.map f) (f item) ↔ Blocked r items item := by
  constructor
  · rintro ⟨_, hother, hr⟩
    obtain ⟨other, hmem, rfl⟩ := List.mem_map.1 hother
    exact ⟨other, hmem, (same other hmem item member).2 hr⟩
  · rintro ⟨other, hmem, hr⟩
    exact ⟨f other, List.mem_map_of_mem hmem, (same other hmem item member).1 hr⟩

/-- Images are arranged as the items are, if they are related as the items are. -/
lemma map {r' : β → β → Prop} {f : α → β} (h : Arranges r items order)
    (same : ∀ a ∈ items, ∀ b ∈ items, r a b ↔ r' (f a) (f b)) :
    Arranges r' (items.map f) (order.map f) := by
  induction h with
  | done => exact .done
  | @free before after order item hbefore hitem _ ih =>
    have sub : before ++ after ⊆ before ++ item :: after := sublist_without.subset
    have inner := ih fun a ha b hb => same a (sub ha) b (sub hb)
    have hfree := (blocked_map same List.mem_append_cons_self).not.2 hitem
    rw [List.map_append] at inner
    rw [List.map_append, List.map_cons] at hfree ⊢
    refine .free (fun image member => ?_) hfree inner
    obtain ⟨other, hother, rfl⟩ := List.mem_map.1 member
    have blocked := (blocked_map same (List.mem_append_left _ hother)).2 (hbefore other hother)
    rw [List.map_append, List.map_cons] at blocked
    exact blocked
  | @stuck rest order item hall _ ih =>
    have inner := ih fun a ha b hb =>
      same a (List.mem_cons_of_mem _ ha) b (List.mem_cons_of_mem _ hb)
    refine .stuck (fun image member => ?_) inner
    rw [← List.map_cons] at member
    obtain ⟨other, hother, rfl⟩ := List.mem_map.1 member
    exact (blocked_map same hother).2 (hall other hother)

end Arranges

/-! ## Cycles -/

/-- The relation among some items only. -/
def Among (r : α → α → Prop) (s : α → Prop) (a b : α) : Prop :=
  r a b ∧ s a ∧ s b

/-- There is a cycle among the items, with the item on it or behind it. -/
def BehindCycle (r : α → α → Prop) (s : α → Prop) (item : α) : Prop :=
  ∃ start, TransGen (Among r s) start start ∧ ReflTransGen (Among r s) start item

/-- Where something precedes each of finitely many, there is a cycle. -/
lemma exists_cycle [Finite α] [Nonempty α] {r : α → α → Prop} (preceded : ∀ a, ∃ b, r b a) :
    ∃ a, TransGen r a a := by
  by_contra acyclic
  have : Std.Irrefl (TransGen r) := ⟨fun a cycle => acyclic ⟨a, cycle⟩⟩
  obtain ⟨a, _, first⟩ :=
    (Finite.wellFounded_of_trans_of_irrefl (TransGen r)).has_min Set.univ Set.univ_nonempty
  obtain ⟨b, hb⟩ := preceded a
  exact first b trivial (.single hb)

/-- The items that lead to an item. -/
def Leading (r : α → α → Prop) (items : List α) (item : α) : Type :=
  { other // other ∈ items ∧ ReflTransGen (Among r (· ∈ items)) other item }

/-- Only items lead to an item, so these are finitely many. -/
instance (r : α → α → Prop) (items : List α) (item : α) : Finite (Leading r items item) :=
  (items.finite_toSet.subset fun _ h => h.1).to_subtype

/-- Where each item is blocked, each is on or behind a cycle. -/
lemma behindCycle_of_blocked {r : α → α → Prop} {items : List α} {item : α}
    (blocked : ∀ other ∈ items, Blocked r items other) (member : item ∈ items) :
    BehindCycle r (· ∈ items) item := by
  have : Nonempty (Leading r items item) := ⟨item, member, .refl⟩
  -- What blocks an item that leads to this one leads to it too, so the cycle is among those.
  have preceded (a : Leading r items item) :
      ∃ b : Leading r items item, Among r (· ∈ items) b.val a.val := by
    obtain ⟨a, ha, leads⟩ := a
    obtain ⟨b, hb, hr⟩ := blocked a ha
    exact ⟨⟨b, hb, .head ⟨hr, hb, ha⟩ leads⟩, hr, hb, ha⟩
  obtain ⟨start, cycle⟩ := exists_cycle preceded
  exact ⟨start.val, cycle.lift Subtype.val fun _ _ h => h, start.property.2⟩

/-- An item on or behind a cycle is so among more items. -/
lemma BehindCycle.mono {r : α → α → Prop} {s s' : α → Prop} {item : α} (h : BehindCycle r s item)
    (sub : ∀ other, s other → s' other) : BehindCycle r s' item := by
  have step (a b : α) (hr : Among r s a b) : Among r s' a b := ⟨hr.1, sub a hr.2.1, sub b hr.2.2⟩
  obtain ⟨start, cycle, leads⟩ := h
  exact ⟨start, TransGen.mono step _ _ cycle, ReflTransGen.mono step _ _ leads⟩

/-- An item on or behind a cycle has such an item right before it. -/
lemma BehindCycle.exists_before {r : α → α → Prop} {s : α → Prop} {item : α}
    (h : BehindCycle r s item) : ∃ other, BehindCycle r s other ∧ r other item ∧ s item := by
  obtain ⟨start, cycle, leads⟩ := h
  obtain ⟨other, first, hr, _, hs⟩ := TransGen.tail'_iff.1 (cycle.trans_left leads)
  exact ⟨other, ⟨start, cycle, first⟩, hr, hs⟩

end

/-! ## Orders of places -/

/-- Of two places that are listed once, one comes first only. -/
lemma not_sublist_swap {order : List Nat} {i j : Nat} (nodup : order.Nodup)
    (h : [i, j].Sublist order) : ¬[j, i].Sublist order := by
  intro swapped
  induction order with
  | nil => cases h
  | cons place rest ih =>
    obtain ⟨absent, nodup⟩ := List.nodup_cons.1 nodup
    cases h with
    | cons _ h =>
      cases swapped with
      | cons _ swapped => exact ih nodup h swapped
      | cons_cons _ _ => exact absent (h.subset (List.mem_cons_of_mem _ List.mem_cons_self))
    | cons_cons _ h =>
      cases swapped with
      | cons _ swapped => exact absent (swapped.subset (List.mem_cons_of_mem _ List.mem_cons_self))
      | cons_cons _ _ => exact absent (h.subset List.mem_cons_self)

namespace Arranges

variable {r : Nat → Nat → Prop} {items order : List Nat} {i j : Nat}

/-- A place that is taken comes before those that remain. -/
lemma sublist_of_taken {item : Nat} (h : Arranges r items order) (member : i ∈ items) :
    [item, i].Sublist (item :: order) :=
  (List.singleton_sublist.2 (h.perm.mem_iff.2 member)).cons_cons item

/-- A place that must precede another one comes first, unless it is on or behind a cycle of places none
of which stands before the other one. -/
lemma sublist_or_behindCycle (h : Arranges r items order) (sorted : items.Pairwise (· < ·))
    (hi : i ∈ items) (hj : j ∈ items) (different : i ≠ j) (hr : r i j) :
    [i, j].Sublist order ∨ BehindCycle r (j ≤ ·) i := by
  induction h with
  | done => cases hi
  | @free before after order item _ hitem rest ih =>
    by_cases first : i = item
    · subst first
      exact .inl (rest.sublist_of_taken (mem_append_of_ne hj different.symm))
    · have hne : j ≠ item := by
        rintro rfl
        exact hitem ⟨i, hi, hr⟩
      have sorted := sorted.sublist sublist_without
      have inner := ih sorted (mem_append_of_ne hi first) (mem_append_of_ne hj hne)
      exact inner.imp_left (.cons item)
  | @stuck rest order item hall arranged ih =>
    obtain ⟨least, sorted⟩ := List.pairwise_cons.1 sorted
    by_cases first : i = item
    · subst first
      exact .inl (arranged.sublist_of_taken (List.mem_of_ne_of_mem different.symm hj))
    · by_cases hne : j = item
      · -- The other place is taken although it is blocked, so all that remain are, and none is less.
        subst hne
        refine .inr ((behindCycle_of_blocked hall hi).mono fun other member => ?_)
        rcases List.mem_cons.1 member with rfl | member
        · exact Nat.le_refl _
        · exact Nat.le_of_lt (least other member)
      · have inner := ih sorted (List.mem_of_ne_of_mem first hi) (List.mem_of_ne_of_mem hne hj)
        exact inner.imp_left (.cons item)

/-- A place comes before those that are on or behind cycles of places none of which stands before it. -/
lemma sublist_of_behindCycle (h : Arranges r items order) (sorted : items.Pairwise (· < ·))
    (hj : j ∈ items) (different : i ≠ j) (sub : ∀ k, BehindCycle r (j ≤ ·) k → k ∈ items)
    (behind : BehindCycle r (j ≤ ·) i) : [j, i].Sublist order := by
  induction h with
  | done => cases hj
  | @free before after order item _ hitem rest ih =>
    by_cases first : j = item
    · subst first
      exact rest.sublist_of_taken (mem_append_of_ne (sub i behind) different)
    · have free : ¬BehindCycle r (j ≤ ·) item := by
        intro behind
        obtain ⟨other, hother, hr, _⟩ := behind.exists_before
        exact hitem ⟨other, sub other hother, hr⟩
      have sorted := sorted.sublist sublist_without
      refine .cons item (ih sorted (mem_append_of_ne hj first) fun k hk => ?_)
      refine mem_append_of_ne (sub k hk) ?_
      rintro rfl
      exact free hk
  | @stuck rest order item _ arranged ih =>
    obtain ⟨least, sorted⟩ := List.pairwise_cons.1 sorted
    by_cases first : j = item
    · subst first
      exact arranged.sublist_of_taken (List.mem_of_ne_of_mem different (sub i behind))
    · have hj := List.mem_of_ne_of_mem first hj
      have lt := least j hj
      refine .cons item (ih sorted hj fun k hk => List.mem_of_ne_of_mem ?_ (sub k hk))
      rintro rfl
      obtain ⟨_, _, _, hle⟩ := hk.exists_before
      omega

/-- Without a cycle, no other order in which nothing comes before what must precede it is less. -/
lemma lex_of_acyclic (h : Arranges r items order) (sorted : items.Pairwise (· < ·))
    (acyclic : ∀ i, ¬TransGen r i i) {other : List Nat} (perm : other.Perm items)
    (respects : other.Pairwise fun a b => ¬r b a) :
    other = order ∨ List.Lex (· < ·) order other := by
  induction h generalizing other with
  | done => exact .inl perm.eq_nil
  | @free before after order item hbefore _ _ ih =>
    obtain ⟨first, others, rfl⟩ : ∃ first others, other = first :: others :=
      List.exists_cons_of_ne_nil (by
        rintro rfl
        exact absurd perm.symm.eq_nil (by simp))
    obtain ⟨hfirst, respects⟩ := List.pairwise_cons.1 respects
    have member := perm.mem_iff.1 List.mem_cons_self
    by_cases same : first = item
    · subst same
      have sorted := sorted.sublist sublist_without
      have inner := ih sorted (perm.trans List.perm_middle).cons_inv respects
      exact inner.imp (congrArg (first :: ·)) .cons
    · -- What is less than the first free place is blocked, and so cannot be first.
      have unblocked : ¬Blocked r (before ++ item :: after) first := by
        rintro ⟨blocking, hblocking, hr⟩
        rcases List.mem_cons.1 (perm.mem_iff.2 hblocking) with rfl | hothers
        · exact acyclic _ (.single hr)
        · exact hfirst blocking hothers hr
      rcases List.mem_append.1 member with hmem | hmem
      · exact absurd (hbefore first hmem) unblocked
      · have later := List.mem_of_ne_of_mem same hmem
        have sorted := (List.pairwise_append.1 sorted).2.1
        exact .inr (.rel ((List.pairwise_cons.1 sorted).1 first later))
  | @stuck rest order item hall _ _ =>
    obtain ⟨start, cycle, _⟩ := behindCycle_of_blocked hall List.mem_cons_self
    exact absurd (TransGen.mono (fun _ _ h => h.1) _ _ cycle) (acyclic start)

end Arranges

end AmqpBlob
