import AmqpBlob.Proofs.InStep

/-!
# What the options of decoding change

Decoding with fewer limits. `Walk.Extends` relates two walks that do the same, unless the first one
fails with an error of a kind that is excused; it is closed under the ways to put walks together, and
so what holds of the two places where a decoder looks at its options holds of decoding as a whole:
options with more depth and no stricter policy only lift the errors that come from the options.
-/

namespace AmqpBlob

namespace Walk

variable {ε α β : Type} {excused : ε → Prop}

/-- The second walk does what the first one does, unless that one fails with an error that is
excused. -/
def Extends (excused : ε → Prop) (walk walk' : Walk ε α) : Prop :=
  ∀ c, walk' c = walk c ∨ ∃ error, excused error ∧ (walk c).1 = .error error

namespace Extends

variable {walk walk' : Walk ε α}

/-- A walk does what it does itself. -/
lemma refl (walk : Walk ε α) : Extends excused walk walk :=
  fun _ => .inl rfl

/-- Anything does for a walk that only fails with an excused error. -/
lemma of_fail {error : ε} (h : excused error) : Extends excused (fail error) walk' :=
  fun _ => .inr ⟨error, h, rfl⟩

/-- Two walks that are extended are extended one after the other. -/
lemma bind {next next' : α → Walk ε β} (h : Extends excused walk walk')
    (h' : ∀ value, Extends excused (next value) (next' value)) :
    Extends excused (walk >>= next) (walk' >>= next') := by
  intro c
  rw [bind_apply, bind_apply]
  rcases h c with same | ⟨error, hexcused, herror⟩
  · rw [same]
    cases hw : walk c with
    | mk result d =>
      cases result with
      | ok value => exact h' value d
      | error error => exact .inl rfl
  · right
    refine ⟨error, hexcused, ?_⟩
    cases hw : walk c with
    | mk result d =>
      rw [hw] at herror
      cases herror
      rfl

/-- What follows a walk is extended behind the same walk. -/
lemma after {next next' : α → Walk ε β} (h : ∀ value, Extends excused (next value) (next' value)) :
    Extends excused (walk >>= next) (walk >>= next') :=
  (refl walk).bind h

/-- A walk that is extended is extended with a step to the next sibling behind it. -/
lemma thenNext (h : Extends excused walk walk') :
    Extends excused (thenNext walk) (Walk.thenNext walk') := by
  intro c
  rcases h c with same | error
  · left
    unfold Walk.thenNext
    rw [same]
  · exact .inr error

/-- A walk that is extended is extended inside a value. -/
lemma inside [OfWireError ε] (h : Extends excused walk walk') :
    Extends excused (inside walk) (Walk.inside walk') := by
  intro c
  unfold Walk.inside
  cases c.enter with
  | error fault => exact .inl rfl
  | ok entered =>
    rcases h entered with same | error
    · left
      dsimp only
      rw [same]
    · exact .inr error

/-- Steps that are extended are extended as turns of a loop. -/
lemma collectFrom {step step' : Nat → Walk ε α} (h : ∀ index, Extends excused (step index) (step' index))
    (limit : Nat) (taken : List α) (done : Nat) :
    Extends excused (collectFrom step limit taken done : Walk ε (List α))
      (Walk.collectFrom step' limit taken done) := by
  induction limit generalizing taken done with
  | zero => exact fun _ => .inl rfl
  | succ limit ih =>
    intro c
    rw [collectFrom_succ, collectFrom_succ]
    split
    · exact ((h done).bind fun value => ih (value :: taken) (done + 1)) c
    · exact .inl rfl

/-- A loop is extended if its steps are. -/
lemma collect {step step' : Nat → Walk ε α} (h : ∀ index, Extends excused (step index) (step' index)) :
    Extends excused (collect step) (Walk.collect step') :=
  fun c => collectFrom h _ _ _ c

/-- Extending is kept when walks are put together. -/
lemma congruence [OfWireError ε] : Congruence fun _ => Extends excused where
  pure _ := .refl _
  look _ := .refl _
  hasCurrent := .refl _
  next := .refl _
  bind h h' := h.bind h'
  thenNext h := h.thenNext
  collect h _ _ := .collect h

end Extends

end Walk

open Walk (Extends)

/-- Decoders are in step that only differ in errors that are excused. -/
lemma Decoder.inStep_extends (excused : DecodeError → Prop) :
    InStep id (fun _ => Extends excused) fun _ => Extends excused where
  outside := Extends.congruence
  within := Extends.congruence
  weaken h := h
  enter h := h.inside
  fail error _ := by
    rw [DecodeError.onPath_id]
    exact .refl _
  push _ _ := rfl

/-- The second options allow what the first ones do: no less depth, and each descriptor that these
accept. -/
structure DecodeOptions.Relaxes (options options' : DecodeOptions) : Prop where
  depth : options.maxDepth ≤ options'.maxDepth
  policy : options'.policy = .lenient ∨ options'.policy = options.policy

/-- The errors of the first options that the second ones may lift. -/
inductive DecodeOptions.Lifted (options options' : DecodeOptions) : DecodeError → Prop where
  | depth (path : Path) : Lifted options options' (.depthExceeded path options.maxDepth)
  | descriptor (path : Path) (expected : Descriptor) (found : Scalar) :
    options.policy ≠ options'.policy →
    Lifted options options' (.descriptorMismatch path expected found)

/-- The ways to decode a value. -/
inductive IsDecoding : (Decoder → Decoder.ValueWalk Value) → Prop where
  | decode (type : String) : IsDecoding fun decoder => decoder.decode type
  | named (name type : String) : IsDecoding fun decoder => decoder.decodeNamed name type
  | field (field : Field) : IsDecoding fun decoder => decoder.decodeField field
  | any : IsDecoding Decoder.decodeAny

/-- What holds of reading a value holds of each way to decode it. -/
lemma IsDecoding.extends {excused : DecodeError → Prop} {decoder decoder' : Decoder}
    {decoding : Decoder → Decoder.ValueWalk Value} (way : IsDecoding decoding)
    (outermost : ∀ type path,
      Extends excused (decoder.readOutermost type path) (decoder'.readOutermost type path)) :
    Extends excused (decoding decoder) (decoding decoder') := by
  cases way with
  | decode type => exact (outermost _ _).thenNext
  | named name type => exact (outermost _ _).thenNext.bind fun _ => .refl _
  | field field => exact (Decoder.inStep_extends _).readField (outermost _ _)
  | any => exact (outermost _ _).thenNext

namespace Decoder

variable {options options' : DecodeOptions} {left left' : Nat}

/-- The levels that are left are one of the places where a decoder looks at its options. -/
lemma extends_goDeeper (schema : Schema) (more : left ≤ left') (path : Path) :
    Extends (options.Lifted options') ((Decoder.mk schema options).goDeeper left path)
      ((Decoder.mk schema options').goDeeper left' path) := by
  unfold goDeeper
  split
  · exact .of_fail (.depth path)
  · rw [if_neg (by omega)]
    exact .refl _

/-- The descriptor of a value is the other one. -/
lemma extends_checkDescriptor (schema : Schema) (relaxes : options.Relaxes options') (type : TypeDef)
    (found : Scalar) (path : Path) :
    Extends (options.Lifted options') ((Decoder.mk schema options).checkDescriptor type found path)
      ((Decoder.mk schema options').checkDescriptor type found path) := by
  unfold checkDescriptor
  split
  next passes =>
    have : type.descriptor.accepts found ∨ options'.policy = .lenient :=
      passes.imp_right fun lenient => relaxes.policy.elim id fun same => same.trans lenient
    rw [if_pos this]
    exact .refl _
  next refused =>
    by_cases same : options.policy = options'.policy
    · rw [if_neg (same ▸ refused)]
      exact .refl _
    · exact .of_fail (.descriptor path _ found same)

/-- More levels and a relaxed policy only lift what the options refuse, by induction on the levels.
-/
lemma extends_readValue (schema : Schema) (relaxes : options.Relaxes options') (more : left ≤ left')
    (name : String) (path : Path) :
    Extends (options.Lifted options') ((Decoder.mk schema options).readValue left name path)
      ((Decoder.mk schema options').readValue left' name path) := by
  -- The children have one level less on both sides, so that the order of the levels is kept.
  induction left generalizing left' name path with
  | zero => exact .of_fail (.depth path)
  | succ left ih =>
    obtain ⟨left', rfl⟩ : ∃ fewer, left' = fewer + 1 := ⟨left' - 1, by omega⟩
    have fewer : left ≤ left' := Nat.le_of_succ_le_succ more
    have children : InStep.Children id (fun _ => Extends (options.Lifted options'))
        ((Decoder.mk schema options).readValue left) ((Decoder.mk schema options').readValue left') :=
      ⟨fun name path step => ih fewer name (path.push step), takes_readValue left'⟩
    exact (inStep_extends _).readUse children (extends_goDeeper schema fewer)
      (extends_checkDescriptor schema relaxes) rfl name

/-- The same holds of each way to decode. -/
lemma extends_decoding {decoding : Decoder → ValueWalk Value} (way : IsDecoding decoding)
    (schema : Schema) (relaxes : options.Relaxes options') :
    Extends (options.Lifted options') (decoding ⟨schema, options⟩) (decoding ⟨schema, options'⟩) :=
  way.extends fun type path =>
    extends_readValue schema relaxes (Nat.succ_le_succ relaxes.depth) type path

end Decoder

/-- With options that are relaxed, what was decoded is decoded as before, and errors that do not come
from the options remain. With one policy, if any depth is enough, then each other one gives the same
value or is exceeded. -/
theorem outcome_of_relaxes {decoding : Decoder → Decoder.ValueWalk Value} (way : IsDecoding decoding)
    (schema : Schema) (c : Cursor) :
    (∀ options options' : DecodeOptions, options.Relaxes options' →
      (∀ value, (decoding ⟨schema, options⟩ c).1 = .ok value →
        (decoding ⟨schema, options'⟩ c).1 = .ok value) ∧
      (∀ error, (decoding ⟨schema, options⟩ c).1 = .error error →
        (∀ path depth, error ≠ .depthExceeded path depth) →
        (∀ path expected found, error ≠ .descriptorMismatch path expected found) →
        (decoding ⟨schema, options'⟩ c).1 = .error error)) ∧
    (∀ policy depth value, (decoding ⟨schema, ⟨depth, policy⟩⟩ c).1 = .ok value → ∀ depth',
      (decoding ⟨schema, ⟨depth', policy⟩⟩ c).1 = .ok value ∨
        depth' < depth ∧ ∃ path,
          (decoding ⟨schema, ⟨depth', policy⟩⟩ c).1 = .error (.depthExceeded path depth')) := by
  have keeps {options options' : DecodeOptions} (relaxes : options.Relaxes options') :
      (decoding ⟨schema, options'⟩ c).1 = (decoding ⟨schema, options⟩ c).1 ∨
        ∃ error, options.Lifted options' error ∧
          (decoding ⟨schema, options⟩ c).1 = .error error :=
    (Decoder.extends_decoding way schema relaxes c).imp_left (congrArg Prod.fst)
  refine ⟨fun options options' relaxes => ⟨fun value hvalue => ?_, fun error herror hd hm => ?_⟩, ?_⟩
  · rcases keeps relaxes with same | ⟨_, _, herror⟩
    · exact same.trans hvalue
    · rw [hvalue] at herror
      cases herror
  · rcases keeps relaxes with same | ⟨lifted, hlifted, hfailed⟩
    · exact same.trans herror
    · rw [herror] at hfailed
      cases hfailed
      cases hlifted with
      | depth path => exact absurd rfl (hd path _)
      | descriptor path expected found _ => exact absurd rfl (hm path expected found)
  · intro policy depth value hvalue depth'
    rcases Nat.lt_or_ge depth' depth with less | enough
    · have relaxes : DecodeOptions.Relaxes ⟨depth', policy⟩ ⟨depth, policy⟩ :=
        ⟨Nat.le_of_lt less, .inr rfl⟩
      rcases keeps relaxes with same | ⟨lifted, hlifted, hfailed⟩
      · exact .inl (same.symm.trans hvalue)
      · cases hlifted with
        | depth path => exact .inr ⟨less, path, hfailed⟩
        | descriptor _ _ _ different => exact absurd rfl different
    · have relaxes : DecodeOptions.Relaxes ⟨depth, policy⟩ ⟨depth', policy⟩ := ⟨enough, .inr rfl⟩
      rcases keeps relaxes with same | ⟨_, _, hfailed⟩
      · exact .inl (same.trans hvalue)
      · rw [hvalue] at hfailed
        cases hfailed

set_option maxRecDepth 10000 in
/-- The link is decoded in the same way with less depth, but with none left it is refused. -/
theorem outcome_chain :
    (chainDecoder.decode "Chain" (.ofBytes linkBytes)).1 = .ok (chain 6 (.single .null)) ∧
    (Decoder.decode ⟨chainDecoder.schema, ⟨9, .lenient⟩⟩ "Chain" (.ofBytes linkBytes)).1 =
      .ok (chain 6 (.single .null)) ∧
    ∃ path, (Decoder.decode ⟨chainDecoder.schema, ⟨0, .strict⟩⟩ "Chain" (.ofBytes linkBytes)).1 =
      .error (.depthExceeded path 0) := by
  have decoded : (chainDecoder.decode "Chain" (.ofBytes linkBytes)).1 =
      .ok (chain 6 (.single .null)) := rfl
  have refused : (Decoder.decode ⟨chainDecoder.schema, ⟨0, .strict⟩⟩ "Chain" (.ofBytes linkBytes)).1 ≠
      .ok (chain 6 (.single .null)) := nofun
  obtain ⟨relaxed, depths⟩ :=
    outcome_of_relaxes (.decode "Chain") chainDecoder.schema (.ofBytes linkBytes)
  have exceeded := (depths .strict 2 _ decoded 0).resolve_left refused
  exact ⟨decoded, (relaxed _ _ ⟨by decide, .inl rfl⟩).1 _ decoded, exceeded.2⟩

end AmqpBlob
