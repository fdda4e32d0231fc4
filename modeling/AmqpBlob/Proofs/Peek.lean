import AmqpBlob.Proofs.Position
import AmqpBlob.Proofs.Shows

/-!
# Looking for a descriptor

A look for a descriptor tells the descriptor of a described value and that other values have none. It
fails if the kind of the value cannot be told, or if what is described cannot be entered or starts with
no scalar. A value that tells its type itself is read by what the look finds, and so is a type of a
schema. Where the look fails at a type, its reading ends at once: it is the one element of a schema that
is not passed by each reading of it.
-/

namespace AmqpBlob

open Walk (Rests Advances)

namespace Cursor

variable {c : Cursor}

/-- There is a value, and its descriptor can be told if it is described. -/
def Tells (c : Cursor) : Prop :=
  ∃ found, c.kind = .ok found ∧ (found = .described → ∃ descriptor, c.DescribedBy descriptor)

/-- A look for the descriptor succeeds just where there is one, or a value without. -/
lemma tells_iff (ε : Type) [OfWireError ε] :
    c.Tells ↔ ∃ found?, ((Walk.descriptor? : Walk ε (Option Scalar)) c).1 = .ok found? := by
  constructor
  · rintro ⟨found, hkind, described⟩
    by_cases hfound : found = .described
    · obtain ⟨descriptor, h⟩ := described hfound
      exact ⟨_, Walk.fst_descriptor? h⟩
    · exact ⟨none, Walk.fst_descriptor?_of_plain hkind hfound⟩
  · rintro ⟨found?, h⟩
    obtain ⟨found, hkind, h⟩ := Walk.exists_of_look h
    refine ⟨found, hkind, ?_⟩
    rintro rfl
    rw [if_pos rfl] at h
    obtain ⟨descriptor, hfirst, _⟩ := Walk.exists_of_rests (.inside Rests.scalar.stays) h
    obtain ⟨inner, henter, hscalar⟩ := Walk.exists_of_inside hfirst
    exact ⟨descriptor, hkind, inner, henter, Walk.ok_of_look hscalar⟩

end Cursor

namespace Decoder

variable {decoder : Decoder} {left : Nat} {child : Reading} {path : Path} {c : Cursor}

/-- A value whose descriptor finds a type is read as that type tells. -/
lemma readAny_of_describedBy {descriptor : Scalar} {type : TypeDef} (described : c.DescribedBy descriptor)
    (hfind : decoder.schema.find? descriptor = some type) :
    decoder.readAny left child path c = decoder.readDeclared left child type path c := by
  rw [readAny, Walk.bind_of_rests Rests.descriptor? (Walk.fst_descriptor? described), readFound, hfind]

/-- A value without a descriptor is read as its encoding tells. -/
lemma readAny_of_plain {found : Kind} (hkind : c.kind = .ok found) (plain : found ≠ .described) :
    decoder.readAny left child path c = decoder.readPlain left child path c := by
  rw [readAny, Walk.bind_of_rests Rests.descriptor? (Walk.fst_descriptor?_of_plain hkind plain),
    readFound]

end Decoder

namespace SchemaSection

variable {c : Cursor}

/-- Where the descriptor can be told, a type is read up to the next sibling. -/
lemma readType_of_tells (h : c.Tells) : (readType c).2 = c.next := by
  obtain ⟨found?, hlook⟩ := (Cursor.tells_iff SchemaError).1 h
  rw [readType, Walk.bind_of_rests Rests.descriptor? hlook]
  -- Types of both forms move on by themselves; everything else is passed by hand.
  refine (?_ : Advances _) c
  split
  · exact built_readComposite.advances
  · exact built_readRestricted.advances
  · exact Advances.next.bind fun _ => .fail _

/-- Where the descriptor cannot be told, the cursor is left where it was. -/
lemma readType_of_not_tells (h : ¬c.Tells) : (readType c).2 = c := by
  have rests : ((Walk.descriptor? : SchemaWalk (Option Scalar)) c).2 = c := Rests.descriptor? c
  rw [readType, Walk.bind_apply]
  cases hlook : (Walk.descriptor? : SchemaWalk (Option Scalar)) c with
  | mk result d =>
    rw [hlook] at rests
    cases result with
    | ok found? => exact absurd ((Cursor.tells_iff SchemaError).2 ⟨found?, by rw [hlook]⟩) h
    | error error => exact rests

end SchemaSection

/-- Reading a type of a schema ends where one step to the next sibling ends, just if there is no value
at all or the look for its descriptor succeeds, whatever comes after the look. If it fails at a value, the
reading ends where it started. -/
theorem readType_ends (c : Cursor) :
    ((SchemaSection.readType c).2 = c.next ↔ c.hasCurrent = false ∨ c.Tells) ∧
    ((SchemaSection.readType c).2 = c.next ∨ (SchemaSection.readType c).2 = c) := by
  by_cases tells : c.Tells
  · have advances := SchemaSection.readType_of_tells tells
    exact ⟨⟨fun _ => .inr tells, fun _ => advances⟩, .inl advances⟩
  · have rests := SchemaSection.readType_of_not_tells tells
    refine ⟨?_, .inr rests⟩
    rw [rests, eq_comm, Cursor.next_eq_iff]
    exact (or_iff_left tells).symm

/-- A list with a list for a descriptor, and null behind it. -/
def listDescribed : ByteArray :=
  ⟨#[0x00, 0x45, 0x45, 0x40]⟩

/-- The step from the first value leads to null, but a type that is read from it leaves the cursor on it,
so that the next reading finds it again. -/
theorem readType_stays : (Cursor.ofBytes listDescribed).next.kind = .ok .null ∧
    SchemaSection.readType (.ofBytes listDescribed) =
      (.error (.decode (.wire (.notScalar .list))), .ofBytes listDescribed) ∧
    (SchemaSection.readType (.ofBytes listDescribed)).2 ≠ (Cursor.ofBytes listDescribed).next := by
  have stays : SchemaSection.readType (.ofBytes listDescribed) =
      (.error (.decode (.wire (.notScalar .list))), .ofBytes listDescribed) := rfl
  refine ⟨rfl, stays, fun same => ?_⟩
  rw [stays, eq_comm, Cursor.next_eq_iff] at same
  cases same

end AmqpBlob
