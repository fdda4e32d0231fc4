import AmqpBlob.Proofs.Count

/-!
# Decoders in step

Two decoders that do the same step by step, up to what a relation of walks lets differ. A relation
that is a `Congruence` is kept by the ways to put walks together; `InStep` adds what the walks of a
decoder ask for beside: that the relation is kept when a value is entered, where it may become another
one, and that errors are related whose paths are. Each walk of the decoder then has one lemma, which
says that it is related to itself if the reading of the children is.
-/

namespace AmqpBlob

open Walk (Rests Takes)

/-- The error with its path turned into another one. -/
def DecodeError.onPath (turn : Path → Path) : DecodeError → DecodeError
  | schemaMismatch path expected found => schemaMismatch (turn path) expected found
  | descriptorMismatch path expected found => descriptorMismatch (turn path) expected found
  | unknownType path name => unknownType (turn path) name
  | unknownChoice path label => unknownChoice (turn path) label
  | missingMandatory path => missingMandatory (turn path)
  | missingFields path expected found => missingFields (turn path) expected found
  | depthExceeded path maxDepth => depthExceeded (turn path) maxDepth
  | referencedObject path => referencedObject (turn path)
  | wire fault => wire fault

/-- An error stays the same on its own path. -/
@[simp]
lemma DecodeError.onPath_id (error : DecodeError) : error.onPath id = error := by
  cases error <;> rfl

/-- Whether the error tells of a descriptor that is not the one of the type. -/
def DecodeError.isMismatch : DecodeError → Bool
  | descriptorMismatch _ _ _ => true
  | _ => false

/-- What a walk may ask about the current value. -/
inductive Cursor.Look : {α : Type} → (Cursor → Except WireError α) → Prop where
  | kind : Look kind
  | scalar : Look scalar
  | read (α : Type) [OfScalar α] : Look (read α)

/-- A relation of walks that is kept when they are put together among siblings. -/
structure Walk.Congruence {ε : Type} [OfWireError ε]
    (related : ∀ ⦃α : Type⦄, Walk ε α → Walk ε α → Prop) : Prop where
  pure {α : Type} (value : α) : related (pure value) (pure value)
  look {α : Type} {query : Cursor → Except WireError α} :
    Cursor.Look query →
    related (look query) (look query)
  hasCurrent : related hasCurrent hasCurrent
  next : related next next
  bind {α β : Type} {walk walk' : Walk ε α} {following following' : α → Walk ε β} :
    related walk walk' →
    (∀ value, related (following value) (following' value)) →
    related (walk >>= following) (walk' >>= following')
  thenNext {α : Type} {walk walk' : Walk ε α} :
    related walk walk' →
    related (thenNext walk) (thenNext walk')
  /-- A loop may rely on its steps passing siblings. -/
  collect {α : Type} {width : Nat} {step step' : Nat → Walk ε α} :
    (∀ index, related (step index) (step' index)) →
    (∀ index, Takes (step' index) width) →
    0 < width →
    related (collect step) (collect step')

/-- What follows the same look at the cursor is related if it is so for whatever the look gives. -/
lemma Walk.Congruence.after {ε α β : Type} [OfWireError ε]
    {related : ∀ ⦃α : Type⦄, Walk ε α → Walk ε α → Prop} (congruence : Congruence related)
    {query : Cursor → Except WireError α} {following following' : α → Walk ε β}
    (looks : Cursor.Look query) (h : ∀ value, related (following value) (following' value)) :
    related (Walk.look query >>= following) (Walk.look query >>= following') :=
  congruence.bind (congruence.look looks) h

namespace Decoder

/-- Two relations of walks, outside of a value and inside of it, that the walks of decoders keep if
they read at a path and at what it is turned into. -/
structure InStep (turn : Path → Path)
    (outer inner : ∀ ⦃α : Type⦄, ValueWalk α → ValueWalk α → Prop) : Prop where
  outside : Walk.Congruence outer
  within : Walk.Congruence inner
  weaken {α : Type} {walk walk' : ValueWalk α} : outer walk walk' → inner walk walk'
  enter {α : Type} {walk walk' : ValueWalk α} :
    inner walk walk' →
    outer (Walk.inside walk) (Walk.inside walk')
  /-- Descriptors that mismatch are left to `checkDescriptor`. -/
  fail {α : Type} (error : DecodeError) :
    error.isMismatch = false →
    outer (Walk.fail error : ValueWalk α) (Walk.fail (error.onPath turn))
  push (path : Path) (step : PathStep) : turn (path.push step) = (turn path).push step

namespace InStep

variable {turn : Path → Path} {outer inner : ∀ ⦃α : Type⦄, ValueWalk α → ValueWalk α → Prop}
  {child child' : Reading} {path : Path}

section

variable (inStep : InStep turn outer inner)
include inStep

/-- Looking for a descriptor is done in step. -/
lemma descriptor? : outer (Walk.descriptor? : ValueWalk (Option Scalar)) Walk.descriptor? := by
  refine inStep.outside.after .kind fun found => ?_
  split
  · refine inStep.outside.bind (inStep.enter (inStep.within.look .scalar)) fun _ => ?_
    exact inStep.outside.pure _
  · exact inStep.outside.pure _

/-- A kind is refused in step, at the path and at what it is turned into. -/
lemma expectKind (expected : List Kind) :
    outer (expectKind path expected) (Decoder.expectKind (turn path) expected) := by
  refine inStep.outside.after .kind fun found => ?_
  split
  · exact inStep.fail _ rfl
  · exact inStep.outside.pure _

/-- A scalar is read in step. -/
lemma readPrimitive (expected : Kind) :
    outer (readPrimitive expected path) (Decoder.readPrimitive expected (turn path)) := by
  have single : outer (do return Value.single (← Walk.scalar) : ValueWalk Value)
      (do return Value.single (← Walk.scalar)) :=
    inStep.outside.after .scalar fun _ => inStep.outside.pure _
  refine inStep.outside.after .kind fun found => ?_
  split
  · exact inStep.outside.bind (inStep.fail _ rfl) fun _ => single
  · exact single

/-- Items are read in step if each of them is, and if each reading passes one sibling. -/
lemma readItems {item item' : Path → ValueWalk Value}
    (h : ∀ step, inner (item (path.push step)) (item' ((turn path).push step)))
    (takes : ∀ path, Takes (Walk.thenNext (item' path)) 1) :
    outer (readItems item path) (Decoder.readItems item' (turn path)) := by
  refine inStep.enter (inStep.within.bind ?_ fun _ => inStep.within.pure _)
  exact inStep.within.collect (fun _ => inStep.within.thenNext (h _)) (fun _ => takes _) Nat.one_pos

/-- Entries are read in step if the keys and the values are, and if each reading passes one sibling.
-/
lemma readEntries {key key' value value' : Path → ValueWalk Value}
    (hk : ∀ step, inner (key (path.push step)) (key' ((turn path).push step)))
    (hv : ∀ step, inner (value (path.push step)) (value' ((turn path).push step)))
    (takes : ∀ path, Takes (Walk.thenNext (key' path)) 1)
    (takes' : ∀ path, Takes (Walk.thenNext (value' path)) 1) :
    outer (readEntries key value path) (Decoder.readEntries key' value' (turn path)) := by
  refine inStep.enter (inStep.within.bind ?_ fun _ => inStep.within.pure _)
  refine inStep.within.collect (fun index => ?_) (fun index => ?_) Nat.two_pos
  · refine inStep.within.bind (inStep.within.thenNext (hk _)) fun _ => ?_
    exact inStep.within.bind (inStep.within.thenNext (hv _)) fun _ => inStep.within.pure _
  · exact (takes _).bind fun _ => (takes' _).bind fun _ => (Rests.pure _).takes

/-- A label and its ordinal are compared with the choices in step. -/
lemma chosen (choices : List Choice) (label : String) (ordinal? : Option Int32) :
    outer (chosen choices label ordinal? path)
      (Decoder.chosen choices label ordinal? (turn path)) := by
  unfold Decoder.chosen
  split
  · exact inStep.fail _ rfl
  · split
    · exact inStep.outside.pure _
    · exact inStep.fail _ rfl

/-- A label is read in step. -/
lemma readLabel (choices : List Choice) :
    outer (readLabel choices path) (Decoder.readLabel choices (turn path)) := by
  have behind (label : String) (ordinal? : Option Int32) :
      inner (Decoder.chosen choices label ordinal? path)
        (Decoder.chosen choices label ordinal? (turn path)) :=
    inStep.weaken (inStep.chosen choices label ordinal?)
  refine inStep.outside.bind (inStep.expectKind _) fun _ => inStep.enter ?_
  refine inStep.within.after (.read _) fun label => inStep.within.bind inStep.within.next fun _ => ?_
  refine inStep.within.bind inStep.within.hasCurrent fun current => ?_
  dsimp only
  split
  · exact inStep.within.after (.read _) fun ordinal? => behind label ordinal?
  · exact inStep.within.bind (inStep.within.pure _) fun ordinal? => behind label ordinal?

/-- A field is read in step if its value is. -/
lemma readField {field : Field}
    (h : inner (child field.type path) (child' field.type (turn path))) :
    inner (readField child field path) (Decoder.readField child' field (turn path)) := by
  have value : inner (do return Value.pair field.name (← child field.type path))
      (do return Value.pair field.name (← child' field.type (turn path))) :=
    inStep.within.bind h fun _ => inStep.within.pure _
  refine inStep.within.thenNext ?_
  dsimp only
  split
  · refine inStep.within.after .kind fun found => ?_
    split
    · exact inStep.within.bind (inStep.weaken (inStep.fail _ rfl)) fun _ => value
    · exact value
  · exact value

end

/-- The children of a value are read in step, and each reading passes one sibling. -/
structure Children (turn : Path → Path)
    (inner : ∀ ⦃α : Type⦄, ValueWalk α → ValueWalk α → Prop) (child child' : Reading) : Prop where
  related (name : String) (path : Path) (step : PathStep) :
    inner (child name (path.push step)) (child' name ((turn path).push step))
  takes (name : String) (path : Path) : Takes (Walk.thenNext (child' name path)) 1

variable (inStep : InStep turn outer inner) (children : Children turn inner child child')
include inStep children

/-- Fields are read in step, by induction on those that are left. -/
lemma readFields (count index : Nat) (fields : List Field) :
    inner (readFields child path count index fields)
      (Decoder.readFields child' (turn path) count index fields) := by
  induction fields generalizing index with
  | nil => exact inStep.within.pure _
  | cons field rest ih =>
    have first : inner (Decoder.readField child field (path.push (.field field.name)))
        (Decoder.readField child' field ((turn path).push (.field field.name))) := by
      rw [← inStep.push]
      refine inStep.readField ?_
      rw [inStep.push]
      exact children.related _ _ _
    have more : inner (do
        let value ← Decoder.readField child field (path.push (.field field.name))
        return value :: (← Decoder.readFields child path count (index + 1) rest)) (do
        let value ← Decoder.readField child' field ((turn path).push (.field field.name))
        return value :: (← Decoder.readFields child' (turn path) count (index + 1) rest)) :=
      inStep.within.bind first fun _ => inStep.within.bind (ih _) fun _ => inStep.within.pure _
    refine inStep.within.bind inStep.within.hasCurrent fun current => ?_
    split
    · exact more
    · exact inStep.within.bind (inStep.weaken (inStep.fail _ rfl)) fun _ => more

/-- A composite value is read in step if its children are. -/
lemma readComposite (fields : List Field) :
    outer (readComposite child fields path) (Decoder.readComposite child' fields (turn path)) := by
  refine inStep.outside.bind (inStep.expectKind _) fun _ => inStep.enter ?_
  exact inStep.within.bind (inStep.readFields children _ _ _) fun _ => inStep.within.pure _

/-- A map of a type is read in step if its children are. -/
lemma readMap (key value : String) :
    outer (readMap child key value path) (Decoder.readMap child' key value (turn path)) := by
  refine inStep.outside.after .kind fun found => ?_
  split
  · exact inStep.outside.pure _
  · refine inStep.outside.bind (inStep.expectKind _) fun _ => ?_
    exact inStep.readEntries (children.related _ _) (children.related _ _) (children.takes _)
      (children.takes _)

variable {decoder decoder' : Decoder} {left left' : Nat}
variable (deeper : ∀ path,
  outer (decoder.goDeeper left path) (decoder'.goDeeper left' (turn path)))
include deeper

/-- A list or an array of a type is read in step if its level is counted in step. -/
lemma readElements (element : String) :
    outer (decoder.readElements left child element path)
      (decoder'.readElements left' child' element (turn path)) := by
  refine inStep.outside.after .kind fun found => ?_
  split
  · exact inStep.outside.pure _
  · refine inStep.outside.bind (inStep.expectKind _) fun _ => ?_
    refine inStep.outside.bind (deeper path) fun _ => ?_
    exact inStep.readItems (children.related _ _) (children.takes _)

/-- Each body of a type is read in step. -/
lemma readBody (body : TypeBody) :
    outer (decoder.readBody left child body path)
      (decoder'.readBody left' child' body (turn path)) := by
  unfold Decoder.readBody
  split
  · exact inStep.readComposite children _
  · exact inStep.readElements children deeper _
  · exact inStep.readMap children _ _
  · exact inStep.readLabel _

/-- A value without a descriptor is read in step. -/
lemma readPlain :
    outer (decoder.readPlain left child path) (decoder'.readPlain left' child' (turn path)) := by
  refine inStep.outside.after .kind fun found => ?_
  split
  · refine inStep.outside.bind (deeper path) fun _ => ?_
    exact inStep.readItems (children.related _ _) (children.takes _)
  · refine inStep.outside.bind (deeper path) fun _ => ?_
    exact inStep.readItems (children.related _ _) (children.takes _)
  · refine inStep.outside.bind (deeper path) fun _ => ?_
    exact inStep.readEntries (children.related _ _) (children.related _ _) (children.takes _)
      (children.takes _)
  · exact inStep.outside.after .scalar fun _ => inStep.outside.pure _

variable (descriptor : ∀ type found path,
  outer (decoder.checkDescriptor type found path) (decoder'.checkDescriptor type found (turn path)))
include descriptor

/-- A described value is read in step if its descriptor is checked in step. -/
lemma readDeclared (type : TypeDef) :
    outer (decoder.readDeclared left child type path)
      (decoder'.readDeclared left' child' type (turn path)) := by
  refine inStep.outside.after .kind fun found => ?_
  split
  · exact inStep.outside.pure _
  · refine inStep.outside.bind (deeper path) fun _ => inStep.enter ?_
    refine inStep.within.after .scalar fun found => ?_
    refine inStep.within.bind (inStep.weaken (descriptor type found path)) fun _ => ?_
    refine inStep.within.bind inStep.within.next fun _ => ?_
    exact inStep.weaken (inStep.readBody children deeper type.body)
  · exact inStep.fail _ rfl

variable (same : decoder'.schema = decoder.schema)
include same

/-- A value is read in step as its descriptor tells, if both decoders look the descriptor up in one
schema. -/
lemma readFound (descriptor? : Option Scalar) :
    outer (decoder.readFound left child path descriptor?)
      (decoder'.readFound left' child' (turn path) descriptor?) := by
  unfold Decoder.readFound
  rw [same]
  split
  · exact inStep.readPlain children deeper
  · split
    · exact inStep.readDeclared children deeper descriptor _
    · split
      · exact inStep.fail _ rfl
      · exact inStep.fail _ rfl

/-- Whatever a name stands for in the one schema, a value is read as it in step. -/
lemma readUse (name : String) :
    outer (decoder.readUse left child name path)
      (decoder'.readUse left' child' name (turn path)) := by
  unfold Decoder.readUse
  rw [same]
  split
  · refine inStep.outside.bind inStep.descriptor? fun descriptor? => ?_
    exact inStep.readFound children deeper descriptor same descriptor?
  · exact inStep.readPrimitive _
  · exact inStep.readDeclared children deeper descriptor _
  · exact inStep.readElements children deeper _
  · exact inStep.fail _ rfl

end InStep

end Decoder

end AmqpBlob
