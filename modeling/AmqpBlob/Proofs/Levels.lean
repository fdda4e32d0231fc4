import AmqpBlob.Proofs.Conformance
import AmqpBlob.Value.Text

/-!
# Levels of decoded values

How deep the tree of a decoded value is. Each level of nesting that a decoder is allowed adds two levels
to the tree at most, a collection and its named or paired items. `shallow_of_decoded` bounds the ways down
the tree, and with them the depth to which writing the value calls itself.
-/

namespace AmqpBlob

open Walk (Gives)

namespace Value

variable {limit further indent : Nat} {out name : String} {value key : Value} {items below : List Value}

/-- The values on a way down from a value, itself included, to a scalar or an empty collection. -/
inductive Branch : Value → List Value → Prop where
  | single {scalar : Scalar} :
    Branch (.single scalar) [.single scalar]
  | empty :
    Branch .empty [.empty]
  | pair {name : String} {value : Value} {below : List Value} :
    Branch value below →
    Branch (.pair name value) (.pair name value :: below)
  | item {items : List Value} {item : Value} {below : List Value} :
    item ∈ items →
    Branch item below →
    Branch (.collection items) (.collection items :: below)

/-- The tree of a value has `limit` levels at most. -/
inductive Within : (limit : Nat) → Value → Prop where
  | single {limit : Nat} {scalar : Scalar} :
    Within (limit + 1) (.single scalar)
  | pair {limit : Nat} {name : String} {value : Value} :
    Within limit value →
    Within (limit + 1) (.pair name value)
  | collection {limit : Nat} {items : List Value} :
    (∀ item ∈ items, Within limit item) →
    Within (limit + 1) (.collection items)

/-- Writes a value as `write` does, but gives up where a call would stand in `limit` other ones. -/
def writeWithin : (limit indent : Nat) → (out : String) → Value → Option String
  | 0, _, _, _ => none
  | _ + 1, _, out, single scalar => some (out ++ scalar.text)
  | limit + 1, indent, out, pair name value => writeWithin limit indent (out ++ name ++ ": ") value
  | _ + 1, _, out, collection [] => some (out ++ "[]")
  | limit + 1, indent, out, collection (item :: items) => do
    let record := (collection (item :: items)).isRecord
    let line (out : String) (item : Value) : Option String := do
      return (← writeWithin limit (indent + 4) (out ++ padding (indent + 4)) item) ++ "\n"
    let out ← (item :: items).foldlM line (out ++ (if record then "\x7b" else "[") ++ "\n")
    return out ++ padding indent ++ (if record then "\x7d" else "]")

/-- A tree with few levels has no more than a larger number of them. -/
lemma Within.mono (h : Within limit value) (le : limit ≤ further) : Within further value := by
  induction h generalizing further with
  | single =>
    cases le with
    | refl => exact .single
    | step le => exact .single
  | pair h ih =>
    obtain ⟨further, rfl⟩ := Nat.exists_eq_add_one_of_ne_zero (Nat.ne_of_gt (Nat.zero_lt_of_lt le))
    exact .pair (ih (Nat.le_of_succ_le_succ le))
  | collection h ih =>
    obtain ⟨further, rfl⟩ := Nat.exists_eq_add_one_of_ne_zero (Nat.ne_of_gt (Nat.zero_lt_of_lt le))
    exact .collection fun item member => ih item member (Nat.le_of_succ_le_succ le)

/-- No way down has more nodes than the tree has levels. -/
lemma Within.length_le (h : Within limit value) (branch : Branch value below) :
    below.length ≤ limit := by
  induction branch generalizing limit with
  | single =>
    cases h
    exact Nat.le_add_left 1 _
  | empty =>
    cases h
    exact Nat.le_add_left 1 _
  | pair _ ih =>
    cases h with
    | pair h => exact Nat.succ_le_succ (ih h)
  | item member _ ih =>
    cases h with
    | collection h => exact Nat.succ_le_succ (ih (h _ member))

/-- Items that are each written as `write` does are written as `writeItems` does. -/
lemma foldlM_lines (indent : Nat) {line : String → Value → Option String}
    (h : ∀ item ∈ items, ∀ out, line out item =
      some (item.write indent (out ++ padding indent) ++ "\n")) :
    items.foldlM line out = some (writeItems indent out items) := by
  induction items generalizing out with
  | nil => rfl
  | cons item items ih =>
    obtain ⟨hitem, hitems⟩ := List.forall_mem_cons.1 h
    rw [List.foldlM_cons, hitem, writeItems]
    exact ih hitems

/-- A value is written with calls that stand no deeper in each other than its tree has levels. -/
lemma Within.written (h : Within limit value) :
    value.writeWithin limit indent out = some (value.write indent out) := by
  induction h generalizing indent out with
  | single => rw [writeWithin, write]
  | pair _ ih => rw [writeWithin, write, ih]
  | @collection limit items _ ih =>
    cases items with
    | nil => rw [writeWithin, write]
    | cons item items =>
      rw [writeWithin, write, foldlM_lines (indent + 4)]
      · rfl
      · intro item member out
        rw [ih item member]
        rfl

/-- No way down the tree of a value has more than `limit` nodes, and writing the value calls itself no
deeper. -/
structure Shallow (limit : Nat) (value : Value) : Prop where
  length_le : ∀ below, Branch value below → below.length ≤ limit
  written : value.writeWithin limit 0 "" = some value.text

/-- Few levels bound the ways down and the depth of the writer alike. -/
lemma Within.shallow (h : Within limit value) : Shallow limit value :=
  ⟨fun _ branch => h.length_le branch, h.written⟩

/-- A value that is read with `left` levels left. There is none if no level is left. -/
def Fits (left : Nat) (value : Value) : Prop :=
  ∃ fewer, left = fewer + 1 ∧ Within (2 * fewer + 1) value

variable {left : Nat}

/-- A value that is read with some levels left has a tree of at most twice as many. -/
lemma Fits.within (h : Fits left value) : Within (2 * left) value := by
  obtain ⟨fewer, rfl, h⟩ := h
  exact h.mono (by omega)

/-- With a name before it, it still has. -/
lemma Fits.pair (h : Fits left value) : Within (2 * left) (.pair name value) := by
  obtain ⟨fewer, rfl, h⟩ := h
  exact .pair h

/-- So has an entry of two such values. -/
lemma Fits.entry (hkey : Fits left key) (hvalue : Fits left value) :
    Within (2 * left) (.entry key value) := by
  obtain ⟨fewer, rfl, hkey⟩ := hkey
  obtain ⟨_, same, hvalue⟩ := hvalue
  cases same
  exact .collection (List.forall_mem_cons.2 ⟨hkey, List.forall_mem_singleton.2 hvalue⟩)

end Value

namespace Decoder

variable {decoder : Decoder} {child : Reading} {left levels : Nat} {path : Path}

/-- An empty collection has one level. -/
lemma within_empty : Value.Within (left + 1) .empty :=
  .collection (List.forall_mem_nil _)

/-- What null stands for has one level, whatever the type is. -/
lemma within_nullValue (type : TypeDef) : Value.Within (left + 1) type.nullValue := by
  unfold TypeDef.nullValue
  split
  · exact within_empty
  · exact within_empty
  · exact .single

/-- A scalar has one level. -/
lemma within_scalar :
    Gives (do return Value.single (← Walk.scalar) : ValueWalk Value) (Value.Within (left + 1)) :=
  .after fun _ => .pure .single

/-- What is left for the items of a collection bounds its tree: twice as many levels, and one more.
-/
lemma within_readItems {item : Path → ValueWalk Value}
    (h : ∀ path, Gives (item path) (Value.Fits left)) :
    Gives (readItems item path) (Value.Within (2 * left + 1)) := by
  intro c value hvalue
  obtain ⟨items, rfl, hitems⟩ := gives_readItems h c value hvalue
  exact .collection fun item member => (hitems item member).within

/-- The same bound holds of entries, which set a key beside a value. -/
lemma within_readEntries {key value : Path → ValueWalk Value}
    (hkey : ∀ path, Gives (key path) (Value.Fits left))
    (hvalue : ∀ path, Gives (value path) (Value.Fits left)) :
    Gives (readEntries key value path) (Value.Within (2 * left + 1)) := by
  intro c given hgiven
  obtain ⟨entries, rfl, hentries⟩ := gives_readEntries hkey hvalue c given hgiven
  apply Value.Within.collection
  intro item member
  obtain ⟨entry, hentry, rfl⟩ := List.mem_map.1 member
  exact (hentries entry hentry).1.entry (hentries entry hentry).2

/-- A label is a scalar, if it is given at all. -/
lemma within_chosen (choices : List Choice) (label : String) (ordinal? : Option Int32) :
    Gives (chosen choices label ordinal? path) (Value.Within (left + 1)) := by
  unfold chosen
  split
  · exact .fail
  · split
    · exact .pure .single
    · exact .fail

/-- Behind the list that it stands in, a label is still a scalar. -/
lemma within_readLabel (choices : List Choice) :
    Gives (readLabel choices path) (Value.Within (left + 1)) := by
  refine .after fun _ => .inside (.after fun label => .after fun _ => .after fun current => ?_)
  dsimp only
  split
  · exact .after (within_chosen choices label)
  · exact .after (within_chosen choices label)

section

variable (h : ∀ name path, Gives (child name path) (Value.Fits left))
include h

/-- A field sets its name before its value, so twice as many levels are enough. -/
lemma within_readField (field : Field) :
    Gives (readField child field path) (Value.Within (2 * left)) := by
  have pair : Gives (do return Value.pair field.name (← child field.type path))
      (Value.Within (2 * left)) :=
    .bind (h _ _) fun value fits => .pure fits.pair
  apply Gives.thenNext
  dsimp only
  split
  · apply Gives.after
    intro found
    split
    · exact .failThen
    · exact pair
  · exact pair

/-- Each of several fields has at most twice as many levels as are left for it. -/
lemma within_readFields (count index : Nat) (fields : List Field) :
    Gives (readFields child path count index fields) fun values =>
      ∀ value ∈ values, Value.Within (2 * left) value := by
  induction fields generalizing index with
  | nil => exact .pure (List.forall_mem_nil _)
  | cons field rest ih =>
    refine .after fun current => ?_
    split
    · refine .bind (within_readField h field) fun value hvalue => .bind (ih _) fun values hvalues => ?_
      exact .pure (List.forall_mem_cons.2 ⟨hvalue, hvalues⟩)
    · exact .failThen

/-- The bound for items holds of the elements of a list of a type. -/
lemma within_readElements (element : String) :
    Gives (decoder.readElements levels child element path) (Value.Within (2 * left + 1)) := by
  apply Gives.after
  intro found
  split
  · exact .pure within_empty
  · exact .after fun _ => .after fun _ => within_readItems (h element)

/-- The bound for entries holds of a map of a type. -/
lemma within_readMap (key value : String) :
    Gives (readMap child key value path) (Value.Within (2 * left + 1)) := by
  apply Gives.after
  intro found
  split
  · exact .pure within_empty
  · exact .after fun _ => within_readEntries (h key) (h value)

/-- Whatever the body of a type is, its children tell how many levels it has. -/
lemma within_readBody (body : TypeBody) :
    Gives (decoder.readBody levels child body path) (Value.Within (2 * left + 1)) := by
  unfold readBody
  split
  · refine .after fun _ => .inside (.bind (within_readFields h _ _ _) fun values hvalues => ?_)
    exact .pure (.collection hvalues)
  · exact within_readElements h _
  · exact within_readMap h _ _
  · exact within_readLabel _

/-- A descriptor adds no level to the body behind it, and null has one level. -/
lemma within_readDeclared (type : TypeDef) :
    Gives (decoder.readDeclared levels child type path) (Value.Within (2 * left + 1)) := by
  apply Gives.after
  intro found
  split
  · exact .pure (within_nullValue type)
  · exact .after fun _ => .inside (.after fun _ => .after fun _ => .after fun _ => within_readBody h _)
  · exact .fail

/-- A value without a descriptor keeps to the same bound. -/
lemma within_readPlain :
    Gives (decoder.readPlain levels child path) (Value.Within (2 * left + 1)) := by
  apply Gives.after
  intro found
  split
  · exact .after fun _ => within_readItems (h _)
  · exact .after fun _ => within_readItems (h _)
  · exact .after fun _ => within_readEntries (h _) (h _)
  · exact within_scalar

/-- Finding the type by the descriptor adds no level. -/
lemma within_readAny :
    Gives (decoder.readAny levels child path) (Value.Within (2 * left + 1)) := by
  apply Gives.after
  intro descriptor?
  unfold readFound
  split
  · exact within_readPlain h
  · split
    · exact within_readDeclared h _
    · split
      · exact .fail
      · exact .fail

/-- Whatever a name stands for, a value that is read as it keeps to the bound. -/
lemma within_readUse (name : String) :
    Gives (decoder.readUse levels child name path) (Value.Within (2 * left + 1)) := by
  unfold readUse
  split
  · exact within_readAny h
  · apply Gives.after
    intro found
    split
    · exact .failThen
    · exact within_scalar
  · exact within_readDeclared h _
  · exact within_readElements h _
  · exact .fail

end

/-- Each level that is left adds two levels to the tree at most. -/
lemma fits_readValue (left : Nat) (name : String) (path : Path) :
    Gives (decoder.readValue left name path) (Value.Fits left) := by
  induction left generalizing name path with
  | zero => exact .fail
  | succ left ih =>
    intro c value hvalue
    exact ⟨left, rfl, within_readUse ih name c value hvalue⟩

/-- What is decoded at the outermost level fits into all levels that the options allow. -/
lemma within_readOutermost (type : String) (path : Path) :
    Gives (decoder.readOutermost type path) (Value.Within (2 * decoder.options.maxDepth + 1)) := by
  intro c value hvalue
  obtain ⟨_, same, h⟩ := fits_readValue _ type path c value hvalue
  cases same
  exact h

end Decoder

/-- With a depth of `n` allowed no way down a decoded value has more than `2 * n + 1` nodes, or one more
with the name in front that a value of a given name and a field have. The bytes may be any, and so may
the schema and the type. Writing the value calls itself no deeper. -/
theorem shallow_of_decoded (decoder : Decoder) (c : Cursor) (value : Value) :
    (∀ type, (decoder.decode type c).1 = .ok value →
      value.Shallow (2 * decoder.options.maxDepth + 1)) ∧
    ((decoder.decodeAny c).1 = .ok value →
      value.Shallow (2 * decoder.options.maxDepth + 1)) ∧
    (∀ name type, (decoder.decodeNamed name type c).1 = .ok value →
      value.Shallow (2 * decoder.options.maxDepth + 2)) ∧
    ∀ field, (decoder.decodeField field c).1 = .ok value →
      value.Shallow (2 * decoder.options.maxDepth + 2) := by
  refine ⟨fun type h => ?_, fun h => ?_, fun name type h => ?_, fun field h => ?_⟩
  · exact (Decoder.within_readOutermost type _ c value h).shallow
  · exact (Decoder.within_readOutermost TypeName.any (.start "$") c value h).shallow
  · have named : Gives (decoder.decodeNamed name type)
        (Value.Within (2 * decoder.options.maxDepth + 2)) :=
      .bind (Decoder.within_readOutermost type _).thenNext fun _ within => .pure (.pair within)
    exact (named c value h).shallow
  · exact (Decoder.within_readField (Decoder.fits_readValue _) field c value h).shallow

/-- A chain of two numbers. -/
def twoLinkBytes : ByteArray :=
  ⟨#[0x00, 0x53, 0x07, 0xc0, 0x0c, 0x02, 0x54, 0x06,
    0x00, 0x53, 0x07, 0xc0, 0x04, 0x02, 0x54, 0x08, 0x40]⟩

/-- All nodes that are allowed stand on the way down to the last number. -/
theorem shallow_twoLinks :
    (chainDecoder.decode "Chain" (.ofBytes twoLinkBytes)).1 = .ok (chain 6 (chain 8 (.single .null))) ∧
    (chain 6 (chain 8 (.single .null))).Shallow 5 ∧
    ∃ below, (chain 6 (chain 8 (.single .null))).Branch below ∧ below.length = 5 := by
  have decoded : (chainDecoder.decode "Chain" (.ofBytes twoLinkBytes)).1 =
      .ok (chain 6 (chain 8 (.single .null))) := by decide +kernel
  have last : (chain 8 (.single .null)).Branch
      [chain 8 (.single .null), .pair "head" (.single (.int 8)), .single (.int 8)] :=
    .item List.mem_cons_self (.pair .single)
  have first : (chain 6 (chain 8 (.single .null))).Branch _ :=
    .item (List.mem_cons_of_mem _ List.mem_cons_self) (.pair last)
  exact ⟨decoded, (shallow_of_decoded chainDecoder _ _).1 "Chain" decoded, _, first, rfl⟩

end AmqpBlob
