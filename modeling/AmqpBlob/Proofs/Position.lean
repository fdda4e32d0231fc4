import AmqpBlob.Decoder
import AmqpBlob.Proofs.Walk
import AmqpBlob.Schema.Section

/-!
# Where decoding ends

Decoding a value ends on the sibling behind it, and so does reading a schema, whatever the bytes are
and wherever the fault is: each compound value that was entered is left again. Looking for a descriptor
does not move at all. The last theorem says so for all the ways to decode.
-/

namespace AmqpBlob

open Walk (Built Rests Settles Advances Needs)

namespace Decoder

variable {decoder : Decoder} {child : Reading} {left : Nat} {path : Path}

/-- Looking at the kind does not move, whether the kind is refused or not. -/
lemma built_expectKind (expected : List Kind) : Built .rests (expectKind path expected) := by
  refine .bind .kind fun found => ?_
  split
  · exact .fail _
  · exact .pure _

/-- A scalar is read where it stands. -/
lemma built_readPrimitive (expected : Kind) : Built .rests (readPrimitive expected path) := by
  refine .bind .kind fun found => ?_
  have single : Built .rests (do return Value.single (← Walk.scalar) : ValueWalk Value) :=
    .settle .scalar fun _ => .pure _
  split
  · exact .bind (.fail _) fun _ => single
  · exact single

/-- Whether one may go deeper is told by the limit alone, not by the cursor. -/
lemma settles_goDeeper : Settles (decoder.goDeeper left path) := by
  unfold goDeeper
  split
  · exact .fail _
  · exact .pure _

/-- Counting a level of nesting does not move. -/
lemma built_goDeeper : Built .rests (decoder.goDeeper left path) :=
  settles_goDeeper.built

/-- Whether a descriptor is refused is told by the descriptor, not by the cursor. -/
lemma settles_checkDescriptor (type : TypeDef) (found : Scalar) :
    Settles (decoder.checkDescriptor type found path) := by
  unfold checkDescriptor
  split
  · exact .pure _
  · exact .fail _

/-- Checking a descriptor that was read does not move. -/
lemma built_checkDescriptor (type : TypeDef) (found : Scalar) :
    Built .rests (decoder.checkDescriptor type found path) :=
  (settles_checkDescriptor type found).built

/-- A value is left again behind its items if none of their readings moves. -/
lemma built_readItems {item : Path → ValueWalk Value} (h : ∀ path, Built .rests (item path)) :
    Built .rests (readItems item path) :=
  .inside (.settle (.collect fun _ => .roams (.thenNext (h _))) fun _ => .pure _)

/-- A value is left again behind its entries if no reading of a key or of a value moves. -/
lemma built_readEntries {key value : Path → ValueWalk Value} (hk : ∀ path, Built .rests (key path))
    (hv : ∀ path, Built .rests (value path)) : Built .rests (readEntries key value path) := by
  refine .inside (.settle (.collect fun index => ?_) fun _ => .pure _)
  refine .chain (.roams (.thenNext (hk _))) fun _ => ?_
  exact .settle (.roams (.thenNext (hv _))) fun _ => .pure _

/-- The value of a field, before the walk moves on. -/
lemma built_readField (h : ∀ name path, Built .rests (child name path)) (field : Field) :
    Built .advances (readField child field path) := by
  have value : Built .rests (do return Value.pair field.name (← child field.type path)) :=
    .settle (h _ _) fun _ => .pure _
  refine .thenNext ?_
  dsimp only
  split
  · refine .bind .kind fun found => ?_
    split
    · exact .bind (.fail _) fun _ => value
    · exact value
  · exact value

/-- A field ends on its next sibling if its value does not move. -/
lemma advances_readField (h : ∀ name path, Rests (child name path)) (field : Field) :
    Advances (readField child field path) := by
  have value : Rests (do return Value.pair field.name (← child field.type path)) :=
    (h _ _).bind fun _ => .pure _
  refine Rests.thenNext ?_
  dsimp only
  split
  · refine Rests.kind.bind fun found => ?_
    split
    · exact (Rests.fail _).bind fun _ => value
    · exact value
  · exact value

/-- Reading fields stays among the children of the composite value. -/
lemma built_readFields (h : ∀ name path, Built .rests (child name path)) (count index : Nat)
    (fields : List Field) : Built .roams (readFields child path count index fields) := by
  induction fields generalizing index with
  | nil => exact .roams (.pure _)
  | cons field rest ih =>
    have more : Built .roams (do
        let value ← readField child field (path.push (.field field.name))
        return value :: (← readFields child path count (index + 1) rest)) :=
      .chain (.roams (built_readField h field)) fun _ => .settle (ih _) fun _ => .pure _
    refine .chain (.roams .hasCurrent) fun current => ?_
    split
    · exact more
    · exact .chain (.roams (.fail _)) fun _ => more

/-- A composite value is left again behind its fields. -/
lemma built_readComposite (h : ∀ name path, Built .rests (child name path)) (fields : List Field) :
    Built .rests (readComposite child fields path) :=
  .bind (built_expectKind _) fun _ => .inside (.settle (built_readFields h _ _ _) fun _ => .pure _)

/-- Comparing a label and its ordinal with the choices does not move. -/
lemma built_chosen (choices : List Choice) (label : String) (ordinal? : Option Int32) :
    Built .rests (chosen choices label ordinal? path) := by
  unfold chosen
  split
  · exact .fail _
  · split
    · exact .pure _
    · exact .fail _

/-- The list that a label stands in is left again, with or without an ordinal behind the label. -/
lemma built_readLabel (choices : List Choice) : Built .rests (readLabel choices path) := by
  refine .bind (built_expectKind _) fun _ => .inside ?_
  refine .chain (.roams (.read String)) fun label => .chain (.roams .next) fun _ => ?_
  refine .roams (.bind .hasCurrent fun current => ?_)
  dsimp only
  split
  · exact .bind (.read _) fun _ => built_chosen choices label _
  · exact .bind (.pure _) fun _ => built_chosen choices label _

/-- A list or an array of a type is read without moving, and so is null in its place. -/
lemma built_readElements (h : ∀ name path, Built .rests (child name path)) (element : String) :
    Built .rests (decoder.readElements left child element path) := by
  refine .bind .kind fun found => ?_
  split
  · exact .pure _
  · exact .bind (built_expectKind _) fun _ => .bind built_goDeeper fun _ => built_readItems (h _)

/-- A map of a type is read without moving, and so is null in its place. -/
lemma built_readMap (h : ∀ name path, Built .rests (child name path)) (key value : String) :
    Built .rests (readMap child key value path) := by
  refine .bind .kind fun found => ?_
  split
  · exact .pure _
  · exact .bind (built_expectKind _) fun _ => built_readEntries (h _) (h _)

/-- Each body of a type is read without moving. -/
lemma built_readBody (h : ∀ name path, Built .rests (child name path)) (body : TypeBody) :
    Built .rests (decoder.readBody left child body path) := by
  unfold readBody
  split
  · exact built_readComposite h _
  · exact built_readElements h _
  · exact built_readMap h _ _
  · exact built_readLabel _

/-- A described value is left again, whether the fault is in its descriptor or in its body. -/
lemma built_readDeclared (h : ∀ name path, Built .rests (child name path)) (type : TypeDef) :
    Built .rests (decoder.readDeclared left child type path) := by
  refine .bind .kind fun found => ?_
  split
  · exact .pure _
  · refine .bind built_goDeeper fun _ => .inside ?_
    refine .chain (.roams .scalar) fun descriptor => ?_
    refine .chain (.roams (built_checkDescriptor type descriptor)) fun _ => ?_
    exact .chain (.roams .next) fun _ => .roams (built_readBody h _)
  · exact .fail _

/-- A value without a descriptor is read as its kind tells, without moving. -/
lemma built_readPlain (h : ∀ name path, Built .rests (child name path)) :
    Built .rests (decoder.readPlain left child path) := by
  refine .bind .kind fun found => ?_
  split
  · exact .bind built_goDeeper fun _ => built_readItems (h _)
  · exact .bind built_goDeeper fun _ => built_readItems (h _)
  · exact .bind built_goDeeper fun _ => built_readEntries (h _) (h _)
  · exact .settle .scalar fun _ => .pure _

/-- A value is read as its descriptor tells, or as it stands, without moving. -/
lemma built_readFound (h : ∀ name path, Built .rests (child name path))
    (descriptor? : Option Scalar) : Built .rests (decoder.readFound left child path descriptor?) := by
  unfold readFound
  split
  · exact built_readPlain h
  · split
    · exact built_readDeclared h _
    · split
      · exact .fail _
      · exact .fail _

/-- Looking for a descriptor first makes no difference to that. -/
lemma built_readAny (h : ∀ name path, Built .rests (child name path)) :
    Built .rests (decoder.readAny left child path) :=
  .bind .descriptor? fun descriptor? => built_readFound h descriptor?

/-- Whatever a name stands for, a value is read as it without moving if its children are. -/
lemma built_readUse (h : ∀ name path, Built .rests (child name path)) (name : String) :
    Built .rests (decoder.readUse left child name path) := by
  unfold readUse
  split
  · exact built_readAny h
  · exact built_readPrimitive _
  · exact built_readDeclared h _
  · exact built_readElements h _
  · exact .fail _

/-- A value is read without moving at each depth that is left, by induction on the depth. -/
lemma built_readValue (left : Nat) (name : String) (path : Path) :
    Built .rests (decoder.readValue left name path) := by
  induction left generalizing name path with
  | zero => exact .fail _
  | succ left ih => exact built_readUse ih name

/-- Decoding a value as its descriptor tells moves to the next sibling at the end. -/
lemma built_decodeAny : Built .advances decoder.decodeAny :=
  .thenNext (built_readValue _ _ _)

/-- A value is decoded without moving on, however deep it nests. -/
lemma rests_readValue (left : Nat) (name : String) (path : Path) :
    Rests (decoder.readValue left name path) :=
  (built_readValue left name path).rests

end Decoder

namespace SchemaSection

variable {α : Type}

/-- Looking at the kind of an element does not move. -/
lemma built_expectKind (part : EnvelopePart) (expected : Kind) :
    Built .rests (expectKind part expected) := by
  refine .bind .kind fun found => ?_
  split
  · exact .fail _
  · exact .pure _

/-- An element is passed if what reads its list stays in the list. -/
lemma built_describedList (part : EnvelopePart) {body : SchemaWalk α} (h : Built .roams body) :
    Built .advances (describedList part body) := by
  refine .thenNext (.bind (built_expectKind _ _) fun _ => .inside ?_)
  have list : Built .roams (do
      Walk.next
      expectKind part .list
      Walk.inside body) :=
    .chain (.roams .next) fun _ => .roams (.bind (built_expectKind _ _) fun _ => .inside h)
  refine .chain (.roams .scalar) fun descriptor => ?_
  split
  · exact .chain (.roams (.fail _)) fun _ => list
  · exact list

/-- There is an element only where there is a value. -/
lemma needs_describedList (part : EnvelopePart) (body : SchemaWalk α) :
    Needs (describedList part body) := by
  have first : Needs (expectKind part .described) := Needs.kind.bind
  exact first.bind.thenNext

/-- A list inside an element is passed if its elements are read without leaving it. -/
lemma built_listOf (what : String) {element : SchemaWalk α} (h : Built .roams element) :
    Built .advances (listOf what element) := by
  refine .thenNext (.bind .kind fun found => ?_)
  split
  · exact .pure _
  · exact .inside (.collect fun _ => h)
  · exact .inside (.collect fun _ => h)
  · exact .fail _

/-- A text is passed. -/
lemma built_readText : Built .advances readText :=
  .thenNext (.read String)

/-- A list of names is passed. -/
lemma built_readNames : Built .advances readNames :=
  built_listOf _ (.roams built_readText)

/-- What may be missing is passed or, if it is missing, nothing is. -/
lemma built_readOptional (α : Type) [OfScalar α] : Built .roams (readOptional α) := by
  refine .chain (.roams .hasCurrent) fun current => ?_
  split
  · exact .roams (.thenNext (.read _))
  · exact .roams (.pure _)

/-- A descriptor is passed. -/
lemma built_readDescriptor : Built .advances readDescriptor := by
  refine built_describedList _ ?_
  refine .chain (built_readOptional String) fun name? => ?_
  exact .settle (built_readOptional UInt64) fun code? => .pure _

/-- A field is passed. Its flags are passed like all that may be missing. -/
lemma built_readField : Built .advances readField := by
  have flag : Built .roams readFlag := .settle (built_readOptional Bool) fun _ => .pure _
  refine built_describedList _ ?_
  refine .chain (.roams built_readText) fun name => .chain (.roams built_readText) fun type => ?_
  refine .chain (.roams built_readNames) fun requires => ?_
  refine .chain (built_readOptional String) fun default? => ?_
  refine .chain (built_readOptional String) fun label? => ?_
  exact .chain flag fun mandatory => .settle flag fun multiple => .pure _

/-- A choice is passed. -/
lemma built_readChoice : Built .advances readChoice := by
  refine built_describedList _ ?_
  refine .chain (.roams built_readText) fun name => ?_
  exact .settle (.roams built_readText) fun value => .pure _

/-- A composite type is passed. -/
lemma built_readComposite : Built .advances readComposite := by
  refine built_describedList _ ?_
  refine .chain (.roams built_readText) fun name => ?_
  refine .chain (built_readOptional String) fun label? => ?_
  refine .chain (.roams built_readNames) fun provides => ?_
  refine .chain (.roams built_readDescriptor) fun descriptor => ?_
  exact .settle (.roams (built_listOf _ (.roams built_readField))) fun fields => .pure _

/-- A restricted type is passed, also if it stands for nothing. -/
lemma built_readRestricted : Built .advances readRestricted := by
  refine built_describedList _ ?_
  refine .chain (.roams built_readText) fun name => ?_
  refine .chain (built_readOptional String) fun label? => ?_
  refine .chain (.roams built_readNames) fun provides => ?_
  refine .chain (.roams built_readText) fun source => ?_
  refine .chain (.roams built_readDescriptor) fun descriptor => ?_
  refine .settle (.roams (built_listOf _ (.roams built_readChoice))) fun choices => ?_
  split
  · exact .pure _
  · exact .fail _

/-- A type stays in its level. It need not move on: a descriptor that cannot be looked at ends the
walk where it started. -/
lemma built_readType : Built .roams readType := by
  refine .chain (.roams .descriptor?) fun descriptor? => ?_
  split
  · exact .roams built_readComposite
  · exact .roams built_readRestricted
  · exact .roams (.settle .next fun _ => .fail _)

/-- A schema is passed, also if two of its types have one name. -/
lemma built_readSchema : Built .advances readSchema := by
  refine .settle (built_describedList _ (.roams (built_listOf _ built_readType))) fun types => ?_
  split
  · exact .pure _
  · exact .fail _

/-- There is a schema only where there is a value. -/
lemma needs_readSchema : Needs readSchema :=
  (needs_describedList _ _).bind

/-- Reading a schema ends on the next sibling. -/
lemma advances_readSchema : Advances readSchema :=
  built_readSchema.advances

end SchemaSection

/-- Decoding a value, as a type, under a name, as a field or as its descriptor tells, and reading a
schema end exactly where one step to the next sibling ends, whether they succeed or fail. Looking for
a descriptor ends where it started. -/
theorem ends_on_next (c : Cursor) (decoder : Decoder) (type name : String) (field : Field) :
    (decoder.decode type c).2 = c.next ∧
    (decoder.decodeNamed name type c).2 = c.next ∧
    (decoder.decodeField field c).2 = c.next ∧
    (decoder.decodeAny c).2 = c.next ∧
    (SchemaSection.readSchema c).2 = c.next ∧
    ((Walk.descriptor? : Walk DecodeError (Option Scalar)) c).2 = c := by
  -- All ways to decode read a value without moving and then move on.
  have outermost (type : String) (path : Path) : Rests (decoder.readOutermost type path) :=
    Decoder.rests_readValue _ _ _
  refine ⟨(outermost _ _).thenNext c, ?_, ?_, (outermost _ _).thenNext c, ?_, ?_⟩
  · exact ((outermost _ _).thenNext.bind fun _ => .pure _) c
  · exact Decoder.advances_readField outermost field c
  · exact SchemaSection.advances_readSchema c
  · exact Rests.descriptor? c

end AmqpBlob
