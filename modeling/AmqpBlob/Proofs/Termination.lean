import AmqpBlob.Proofs.Run

/-!
# Decoding ends

Decoding a value and reading a schema end after finitely many moves, whatever the bytes are, and the
bytes alone say how deep the readings of values nest: the limit of the options may be as large as one
likes, types may refer to themselves, and levels may pass the end of those around them. A reading
within a number of nested calls tells what the decoder does if it is left alone when more calls than
that would be open at once; from more calls than bytes on, it never is.
-/

namespace AmqpBlob

open Relation (ReflTransGen)
open Walk (Runs RunsAs Lasts Takes)

/-- Calls from the cursor nest less deep than `calls`, as each one stands on a value behind the one
before, but for a last one that finds none. -/
def Cursor.Spares (calls : Nat) (c : Cursor) : Prop :=
  0 < calls ∧ (c.hasCurrent = true → c.bytes.size + 1 < c.here.offset + calls)

namespace Cursor

variable {c inner : Cursor} {calls : Nat}

/-- From more calls than bytes on there are enough calls everywhere. -/
lemma spares_of_lt (h : c.bytes.size + 1 < calls) : c.Spares calls :=
  ⟨by omega, fun _ => by omega⟩

/-- There are still enough calls further on in the level. -/
lemma lasts_spares (calls : Nat) : Lasts (Spares calls) := by
  rintro c d ⟨sameLevel, ahead⟩ ⟨some, spare⟩
  refine ⟨some, fun current => ?_⟩
  obtain ⟨before, further⟩ := ahead current
  have := spare before
  rw [sameLevel.bytes]
  omega

/-- Behind an entered value, one call is used up. -/
lemma Spares.enter (h : c.Spares (calls + 1)) (henter : c.enter = .ok inner) : inner.Spares calls := by
  obtain ⟨hbytes, _, hstop, hsize, _⟩ := enter_levels henter
  have inside := le_stop hstop
  have spare := h.2 (hasCurrent_of_enter henter)
  refine ⟨by omega, fun current => ?_⟩
  have deeper := offset_lt_of_enter henter current
  rw [hbytes]
  omega

end Cursor

namespace Decoder

variable (decoder : Decoder)

/-- The reading of values in which no more than `calls` calls are open at once; what a further one
does is told by `stuck`. -/
def readWithin (stuck : Reading) : (calls left : Nat) → Reading
  | 0, _ => stuck
  | _ + 1, 0 => fun _ path => Walk.fail (.depthExceeded path decoder.options.maxDepth)
  | calls + 1, left + 1 => decoder.readUse left (readWithin stuck calls left)

/-- Decodes the current value as the type of the given name, with no more than `calls` calls open at
once. -/
def decodeWithin (stuck : Reading) (calls : Nat) (type : String) : ValueWalk Value :=
  Walk.thenNext (decoder.readWithin stuck calls (decoder.options.maxDepth + 1) type (.start type))

/-- Decodes the current value as its descriptor or its encoding tells, with no more than `calls` calls
open at once. -/
def decodeAnyWithin (stuck : Reading) (calls : Nat) : ValueWalk Value :=
  Walk.thenNext (decoder.readWithin stuck calls (decoder.options.maxDepth + 1) TypeName.any (.start "$"))

variable {decoder}

/-- A decoder runs in step with itself, with one call less inside a value. -/
lemma inStep_runsAs (calls : Nat) : InStep id (fun _ => RunsAs (Cursor.Spares (calls + 1)))
    fun _ => RunsAs (Cursor.Spares calls) where
  outside := RunsAs.congruence (Cursor.lasts_spares _)
  within := RunsAs.congruence (Cursor.lasts_spares _)
  weaken h c spares := h c ⟨Nat.succ_pos _, fun current => by
    have := spares.2 current
    omega⟩
  enter h := h.inside fun _ _ henter spares => spares.enter henter
  fail error _ c _ := by
    rw [DecodeError.onPath_id]
    exact ⟨.fail error c, .refl c⟩
  push _ _ := rfl

/-- A reading within enough calls runs to what the decoder gives, by induction on the calls. -/
lemma runsAs_readWithin (stuck : Reading) (calls left : Nat) (name : String) (path : Path) :
    RunsAs (Cursor.Spares calls) (decoder.readWithin stuck calls left name path)
      (decoder.readValue left name path) := by
  -- Both count down together, but only the calls must not run out.
  induction calls generalizing left name path with
  | zero => exact fun c spares => absurd spares.1 (Nat.lt_irrefl _)
  | succ calls ih =>
    have inStep := inStep_runsAs calls
    cases left with
    | zero => exact fun c _ => ⟨.fail _ c, .refl c⟩
    | succ left =>
      have children : InStep.Children id (fun _ => RunsAs (Cursor.Spares calls))
          (decoder.readWithin stuck calls left) (decoder.readValue left) :=
        ⟨fun name path step => ih left name (path.push step), takes_readValue left⟩
      refine inStep.readUse children (fun path => ?_) (fun type found path => ?_) rfl name
      · unfold goDeeper
        split
        · exact fun c _ => ⟨.fail _ c, .refl c⟩
        · exact inStep.outside.pure _
      · unfold checkDescriptor
        split
        · exact inStep.outside.pure _
        · exact fun c _ => ⟨.fail _ c, .refl c⟩

end Decoder

namespace SchemaSection

variable {α : Type}

/-- From everywhere the walk runs to what it gives. -/
abbrev Ends (walk : SchemaWalk α) : Prop :=
  RunsAs (fun _ => True) walk walk

/-- Walks over a schema that run to what they give can be put together. -/
lemma ends_congruence : Walk.Congruence fun _ => RunsAs (ε := SchemaError) fun _ => True :=
  RunsAs.congruence fun _ _ _ _ => trivial

/-- A walk that fails runs to its error. -/
lemma ends_fail (error : SchemaError) : Ends (Walk.fail error : SchemaWalk α) :=
  fun c _ => ⟨.fail error c, .refl c⟩

/-- A walk inside a value runs to what it gives if it does so wherever the value is entered. -/
lemma ends_inside {walk : SchemaWalk α} (h : Ends walk) : Ends (Walk.inside walk) :=
  h.inside fun _ _ _ _ => trivial

/-- Looking at the kind of an element comes to an end. -/
lemma ends_expectKind (part : EnvelopePart) (expected : Kind) : Ends (expectKind part expected) := by
  refine ends_congruence.after .kind fun found => ?_
  split
  · exact ends_fail _
  · exact ends_congruence.pure _

/-- Reading an element ends if reading its list does. -/
lemma ends_describedList (part : EnvelopePart) {body : SchemaWalk α} (h : Ends body) :
    Ends (describedList part body) := by
  have list : Ends (do
      Walk.next
      expectKind part .list
      Walk.inside body) := by
    refine ends_congruence.bind ends_congruence.next fun _ => ?_
    exact ends_congruence.bind (ends_expectKind _ _) fun _ => ends_inside h
  refine ends_congruence.thenNext (ends_congruence.bind (ends_expectKind _ _) fun _ => ends_inside ?_)
  refine ends_congruence.after .scalar fun descriptor => ?_
  split
  · exact ends_congruence.bind (ends_fail _) fun _ => list
  · exact list

/-- Reading a list ends if reading an element does, and if each element that is read passes one
sibling. -/
lemma ends_listOf (what : String) {element : SchemaWalk α} (h : Ends element)
    (takes : Takes element 1) : Ends (listOf what element) := by
  have items : Ends (Walk.collect fun _ => element) :=
    ends_congruence.collect (fun _ => h) (fun _ => takes) Nat.one_pos
  refine ends_congruence.thenNext (ends_congruence.after .kind fun found => ?_)
  split
  · exact ends_congruence.pure _
  · exact ends_inside items
  · exact ends_inside items
  · exact ends_fail _

/-- Reading a text ends. -/
lemma ends_readText : Ends readText :=
  ends_congruence.thenNext (ends_congruence.look (.read String))

/-- Reading a list of names ends. -/
lemma ends_readNames : Ends readNames :=
  ends_listOf _ ends_readText takes_readText

/-- Reading what may be missing ends. -/
lemma ends_readOptional (α : Type) [OfScalar α] : Ends (readOptional α) := by
  refine ends_congruence.bind ends_congruence.hasCurrent fun current => ?_
  split
  · exact ends_congruence.thenNext (ends_congruence.look (.read _))
  · exact ends_congruence.pure _

/-- Reading a flag ends. -/
lemma ends_readFlag : Ends readFlag :=
  ends_congruence.bind (ends_readOptional Bool) fun _ => ends_congruence.pure _

/-- Reading a descriptor ends. -/
lemma ends_readDescriptor : Ends readDescriptor := by
  refine ends_describedList _ (ends_congruence.bind (ends_readOptional String) fun name? => ?_)
  exact ends_congruence.bind (ends_readOptional UInt64) fun code? => ends_congruence.pure _

/-- Reading a field ends. -/
lemma ends_readField : Ends readField := by
  refine ends_describedList _ (ends_congruence.bind ends_readText fun name => ?_)
  refine ends_congruence.bind ends_readText fun type => ?_
  refine ends_congruence.bind ends_readNames fun requires => ?_
  refine ends_congruence.bind (ends_readOptional String) fun default? => ?_
  refine ends_congruence.bind (ends_readOptional String) fun label? => ?_
  refine ends_congruence.bind ends_readFlag fun mandatory => ?_
  exact ends_congruence.bind ends_readFlag fun multiple => ends_congruence.pure _

/-- Reading a choice ends. -/
lemma ends_readChoice : Ends readChoice := by
  refine ends_describedList _ (ends_congruence.bind ends_readText fun name => ?_)
  exact ends_congruence.bind ends_readText fun value => ends_congruence.pure _

/-- Reading a composite type ends, however many fields it has. -/
lemma ends_readComposite : Ends readComposite := by
  refine ends_describedList _ (ends_congruence.bind ends_readText fun name => ?_)
  refine ends_congruence.bind (ends_readOptional String) fun label? => ?_
  refine ends_congruence.bind ends_readNames fun provides => ?_
  refine ends_congruence.bind ends_readDescriptor fun descriptor => ?_
  refine ends_congruence.bind (ends_listOf _ ends_readField takes_readField) fun fields => ?_
  exact ends_congruence.pure _

/-- Reading a restricted type ends, however many choices it has. -/
lemma ends_readRestricted : Ends readRestricted := by
  refine ends_describedList _ (ends_congruence.bind ends_readText fun name => ?_)
  refine ends_congruence.bind (ends_readOptional String) fun label? => ?_
  refine ends_congruence.bind ends_readNames fun provides => ?_
  refine ends_congruence.bind ends_readText fun source => ?_
  refine ends_congruence.bind ends_readDescriptor fun descriptor => ?_
  refine ends_congruence.bind (ends_listOf _ ends_readChoice takes_readChoice) fun choices => ?_
  split
  · exact ends_congruence.pure _
  · exact ends_fail _

/-- Looking for a descriptor ends. -/
lemma ends_descriptor? : Ends (Walk.descriptor? : SchemaWalk (Option Scalar)) := by
  refine ends_congruence.after .kind fun found => ?_
  split
  · exact ends_congruence.bind (ends_inside (ends_congruence.look .scalar)) fun _ => ends_congruence.pure _
  · exact ends_congruence.pure _

/-- Reading a type ends, also if its descriptor tells that it is none. -/
lemma ends_readType : Ends readType := by
  refine ends_congruence.bind ends_descriptor? fun descriptor? => ?_
  split
  · exact ends_readComposite
  · exact ends_readRestricted
  · exact ends_congruence.bind ends_congruence.next fun _ => ends_fail _

/-- Reading a schema ends, however many types it tells that it has. -/
lemma ends_readSchema : Ends readSchema := by
  have types := ends_describedList .schema (ends_listOf "schema types" ends_readType takes_readType)
  refine ends_congruence.bind types fun types => ?_
  split
  · exact ends_congruence.pure _
  · exact ends_fail _

end SchemaSection

/-- Decoding a value and reading a schema run to what they give, from every cursor. If more calls may be
open at once than there are bytes, no reading needs a further one, whatever the limit of the depth is.
This is because a step from a value raises the index within the count of the level or leaves the level
behind, the first child of a value that is entered stands at a higher offset, so that levels with a
first child are fewer than the bytes, and the scan of an extent ends with the bytes. -/
theorem runs_by_bytes (decoder : Decoder) (c : Cursor) :
    (∀ stuck calls, c.bytes.size + 1 < calls →
      (∀ type, Runs (decoder.decodeWithin stuck calls type) c (decoder.decode type c)) ∧
      Runs (decoder.decodeAnyWithin stuck calls) c (decoder.decodeAny c)) ∧
    Runs SchemaSection.readSchema c (SchemaSection.readSchema c) ∧
    (c.hasCurrent = true → c.next.level = c.level ∧
      (c.next.here.index = c.here.index + 1 ∧ c.next.here.index ≤ c.level.count ∨
        c.next = c.exhaust)) ∧
    (∀ inner, c.enter = .ok inner → inner.hasCurrent = true → c.here.offset < inner.here.offset) ∧
    (∀ bytes count, ReflTransGen Cursor.Move (.starting bytes count) c → ∀ inner,
      c.enter = .ok inner → inner.hasCurrent = true → inner.depth < bytes.size) ∧
    (∀ left pending offset, c.bytes.size - offset ≤ left →
      Wire.skip c.bytes left pending offset =
        Wire.skip c.bytes (c.bytes.size - offset) pending offset) := by
  refine ⟨fun stuck calls more => ?_, (SchemaSection.ends_readSchema c trivial).1, ?_, ?_, ?_, ?_⟩
  · have outermost (type : String) (path : Path) :
        Runs (decoder.readWithin stuck calls (decoder.options.maxDepth + 1) type path) c
          (decoder.readOutermost type path c) :=
      (Decoder.runsAs_readWithin stuck calls _ type path c (Cursor.spares_of_lt more)).1
    exact ⟨fun type => .thenNext (outermost type (.start type)), .thenNext (outermost _ _)⟩
  · intro current
    refine ⟨c.level_next, ?_⟩
    obtain ⟨stop, _, hnext⟩ | hnext := Cursor.next_of_hasCurrent current
    · rw [hnext]
      exact .inl ⟨rfl, (Cursor.hasCurrent_iff.1 current).1⟩
    · exact .inr hnext
  · exact fun inner henter current => Cursor.offset_lt_of_enter henter current
  · intro bytes count moves inner henter current
    obtain ⟨hbytes, _, _, hsize, _⟩ := Cursor.enter_levels henter
    have below := Cursor.depth_le_of_moves (moves.tail (.enter henter)) current
    have inside := (Cursor.hasCurrent_iff.1 current).2
    rw [Cursor.bytes_of_moves moves] at hsize
    omega
  · exact fun left pending offset enough => Wire.skip_eq_of_le enough (Nat.le_refl _)

set_option maxRecDepth 10000 in
/-- A link of a type that refers to itself: twelve open calls are enough for its ten bytes. -/
theorem runs_by_bytes_chain : linkBytes.size + 1 < 12 ∧
    Runs (chainDecoder.decodeWithin (fun _ path => Walk.fail (.referencedObject path)) 12 "Chain")
      (.ofBytes linkBytes) (.ok (chain 6 (.single .null)), (Cursor.ofBytes linkBytes).next) ∧
    (Cursor.ofBytes linkBytes).hasCurrent = true ∧
    (Cursor.ofBytes linkBytes).next.here.index ≤ linkBytes.size ∧
    ∃ inner, (Cursor.ofBytes linkBytes).enter = .ok inner ∧ inner.hasCurrent = true ∧
      0 < inner.here.offset ∧ inner.depth < linkBytes.size ∧
      Wire.skip linkBytes 100 1 0 = Wire.skip linkBytes linkBytes.size 1 0 := by
  have more : linkBytes.size + 1 < 12 := by decide
  have decoded : chainDecoder.decode "Chain" (.ofBytes linkBytes) =
      (.ok (chain 6 (.single .null)), (Cursor.ofBytes linkBytes).next) := rfl
  have current : (Cursor.ofBytes linkBytes).hasCurrent = true := rfl
  obtain ⟨inner, henter⟩ : ∃ inner, (Cursor.ofBytes linkBytes).enter = .ok inner := ⟨_, rfl⟩
  have deeper : inner.hasCurrent = true := by
    cases henter
    rfl
  obtain ⟨runs, _, steps, descends, nests, scans⟩ := runs_by_bytes chainDecoder (.ofBytes linkBytes)
  refine ⟨more, ?_, current, ?_, inner, henter, deeper, descends inner henter deeper,
    nests linkBytes linkBytes.size .refl inner henter deeper, scans 100 1 0 (by decide)⟩
  · rw [← decoded]
    exact (runs _ 12 more).1 "Chain"
  · obtain ⟨_, ⟨_, within⟩ | last⟩ := steps current
    · exact within
    · rw [last]
      exact Nat.le_refl _

end AmqpBlob
