import AmqpBlob.Proofs.Composition
import AmqpBlob.Proofs.Relaxation

/-!
# Encodings of one tree

What is decoded is what the encoded tree is, and not how it was written. A tree has many encodings:
each size and count may be narrow or wide, the empty list may go without, and a scalar may have a
compact form. Two cursors on encodings of one tree tell the same, enter the same trees and meet them
in step, so each way to decode gives the same value, or the same error but for its offset, also where
the tree is not of the type that is asked for.
-/

namespace AmqpBlob

open Walk (Built)

namespace Cursor

/-- Both cursors are on encodings of one tree, or neither is on a value. -/
inductive SameTree : Cursor → Cursor → Prop where
  | value {c c' : Cursor} {element element' : Element} :
    c.StandsOn element →
    c'.StandsOn element' →
    element.tree = element'.tree →
    SameTree c c'
  | exhausted {c c' : Cursor} :
    c.hasCurrent = false →
    c'.hasCurrent = false →
    SameTree c c'

/-- In both levels the same trees are still to come, and nothing else. -/
def SameTrees (c c' : Cursor) : Prop :=
  ∃ trees, c.Shows trees ∧ c'.Shows trees

variable {c c' : Cursor}

/-- The first of the same trees is the same tree. -/
lemma SameTrees.sameTree (h : SameTrees c c') : SameTree c c' := by
  obtain ⟨trees, shows, shows'⟩ := h
  cases trees with
  | nil => exact .exhausted shows.exhausted shows'.exhausted
  | cons tree rest =>
    obtain ⟨element, stands, htree, _⟩ := shows.first
    obtain ⟨element', stands', htree', _⟩ := shows'.first
    exact .value stands stands' (htree.trans htree'.symm)

/-- Behind the first of the same trees the same trees are to come. -/
lemma SameTrees.next (h : SameTrees c c') : SameTrees c.next c'.next := by
  obtain ⟨trees, shows, shows'⟩ := h
  cases trees with
  | nil =>
    rw [next_of_not_hasCurrent shows.exhausted, next_of_not_hasCurrent shows'.exhausted]
    exact ⟨[], shows, shows'⟩
  | cons tree rest =>
    obtain ⟨_, _, _, hrest⟩ := shows.first
    obtain ⟨_, _, _, hrest'⟩ := shows'.first
    exact ⟨rest, hrest, hrest'⟩

namespace SameTree

/-- Encodings of one tree are of one kind. -/
lemma kind (h : SameTree c c') : Echoes (fun _ => False) Eq c.kind c'.kind := by
  cases h with
  | value stands stands' tree =>
    rw [stands.kind, stands'.kind, tree]
    exact .ok rfl
  | exhausted none none' =>
    rw [kind_of_exhausted none, kind_of_exhausted none']
    exact .fault rfl

/-- Encodings of one scalar are read as it, and encodings of anything else are refused alike. -/
lemma scalar (h : SameTree c c') : Echoes (fun _ => False) Eq c.scalar c'.scalar := by
  cases h with
  | @value element _ stands stands' tree =>
    rcases element.tree.scalar_or_compound with ⟨value, hvalue⟩ | hcompound
    · rw [stands.scalar hvalue, stands'.scalar (tree.symm.trans hvalue)]
      exact .ok rfl
    · rw [scalar_of_compound stands hcompound, scalar_of_compound stands' (tree ▸ hcompound), tree]
      exact .fault rfl
  | exhausted none none' =>
    rw [scalar_of_exhausted none, scalar_of_exhausted none']
    exact .fault rfl

/-- There is a value on both sides or on none. -/
lemma hasCurrent (h : SameTree c c') : c'.hasCurrent = c.hasCurrent := by
  cases h with
  | value stands stands' _ => rw [stands.hasCurrent, stands'.hasCurrent]
  | exhausted none none' => rw [none, none']

/-- Inside of encodings of one tree, the trees that it holds are to come on both sides. -/
lemma enter (h : SameTree c c') : Echoes (fun _ => False) SameTrees c.enter c'.enter := by
  cases h with
  | @value element _ stands stands' tree =>
    rcases element.tree.scalar_or_compound with ⟨value, hvalue⟩ | hcompound
    · rw [stands.enter_scalar hvalue, stands'.enter_scalar (tree.symm.trans hvalue)]
      exact .fault rfl
    · obtain ⟨inner, henter, shows⟩ := stands.shows rfl hcompound
      obtain ⟨inner', henter', shows'⟩ := stands'.shows tree.symm hcompound
      rw [henter, henter']
      exact .ok ⟨_, shows, shows'⟩
  | exhausted none none' =>
    rw [enter_of_exhausted none, enter_of_exhausted none']
    exact .fault rfl

end SameTree

/-- Walks over encodings of one tree echo each other. -/
theorem mirror_tree : Mirror (fun _ => False) SameTree SameTrees where
  value_of_level h := h.sameTree
  kind h := h.kind
  scalar h := h.scalar
  hasCurrent h := h.hasCurrent
  enter h := h.enter
  next h := h.next
  remaining h := by
    obtain ⟨trees, shows, shows'⟩ := h
    rw [shows.counted, shows'.counted]

end Cursor

/-- Both results are the same value, or the same error but for its offset in the bytes. -/
def SameOutcome {α : Type} (result result' : Except DecodeError α) : Prop :=
  result.mapError DecodeError.unplaced = result'.mapError DecodeError.unplaced

/-- What is echoed without excuses is the same outcome. -/
lemma Echoes.sameOutcome {α : Type} {result result' : Except DecodeError α}
    (h : Echoes (fun _ => False) Eq result result') : SameOutcome result result' := by
  cases h with
  | ok same => rw [same]; rfl
  | error error => rfl
  | fault hfault =>
    exact congrArg (fun fault => Except.error (DecodeError.wire fault)) hfault
  | excused hfault => cases hfault

/-- The same outcome as a value is the value. -/
lemma SameOutcome.eq_ok {α : Type} {result result' : Except DecodeError α} {value : α}
    (h : SameOutcome result result') (hvalue : result = .ok value) : result' = .ok value := by
  rw [hvalue] at h
  cases result' with
  | ok value' =>
    cases h
    rfl
  | error error => cases h

/-- Each way to decode is put together of looks at the current value and ends on the next one. -/
lemma Decoder.built_decoding {decoding : Decoder → Decoder.ValueWalk Value}
    (way : IsDecoding decoding) (decoder : Decoder) : Built .advances (decoding decoder) := by
  have outermost (type : String) (path : Path) :
      Built .rests (decoder.readOutermost type path) := built_readValue _ _ _
  cases way with
  | decode type => exact .thenNext (outermost _ _)
  | named name type => exact .settle (.thenNext (outermost _ _)) fun _ => .pure _
  | field field => exact built_readField outermost field
  | any => exact built_decodeAny

/-- Encodings of one tree are decoded to the same outcome, whatever format codes and widths they are
written with and whatever stands around them: to one value, or to one error with the same path and
contents, offsets aside. The tree need not be one that the type is written as. -/
theorem sameOutcome_of_tree {decoding : Decoder → Decoder.ValueWalk Value}
    (way : IsDecoding decoding) (decoder : Decoder) {c c' : Cursor} {element element' : Element}
    (stands : c.StandsOn element) (stands' : c'.StandsOn element')
    (tree : element.tree = element'.tree) :
    SameOutcome (decoding decoder c).1 (decoding decoder c').1 :=
  (Cursor.mirror_tree.repeats (Decoder.built_decoding way decoder)
    (.value stands stands' tree)).sameOutcome

/-- Seven is written as a number of one byte. -/
lemma scalarForm_seven :
    ScalarForm (.ulong (7 : UInt8).toUInt64) 0x53 (Wire.word 1 (7 : UInt8).toNat) :=
  .smallUlong 7

/-- A chain of one number, written as narrow as it can be. -/
def narrowLink : Encoding :=
  .described (.scalar scalarForm_seven)
    (.list .narrow [.scalar (.smallInt 6), .scalar .null] (by decide))

/-- The same chain, written with wide sizes and without compact forms. -/
def wideLink : Encoding :=
  .described (.scalar (.ulong 7)) (.list .wide [.scalar (.int 6), .scalar .null] (by decide))

set_option maxRecDepth 10000 in
/-- Both encodings are decoded to one link, the second one among stray bytes. -/
theorem sameOutcome_of_wideLink :
    narrowLink.val.tree = wideLink.val.tree ∧ narrowLink.val.data ≠ wideLink.val.data ∧
    (chainDecoder.decode "Chain" (narrowLink.between [] [])).1 = .ok (chain 6 (.single .null)) ∧
    (chainDecoder.decode "Chain" (wideLink.between [0xff] [0x40, 0x40])).1 =
      .ok (chain 6 (.single .null)) := by
  have tree : narrowLink.val.tree = wideLink.val.tree := rfl
  have narrow : (chainDecoder.decode "Chain" (narrowLink.between [] [])).1 =
      .ok (chain 6 (.single .null)) := rfl
  have same := sameOutcome_of_tree (.decode "Chain") chainDecoder
    (narrowLink.standsOn_between [] []) (wideLink.standsOn_between [0xff] [0x40, 0x40]) tree
  exact ⟨tree, by decide, narrow, same.eq_ok narrow⟩

end AmqpBlob
