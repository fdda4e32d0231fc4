import AmqpBlob.Proofs.ObjectForm
import AmqpBlob.Proofs.Peek

/-!
# Decoding inverts the object form

A value that is written in object form is decoded to itself: the bytes may be any encoding of its
tree with any bytes around it.

The proof follows `Written`: where a value is written, `readSpot` is what is read, and `Inverts` says
that a walk reads a tree as a value wherever the tree stands. The walks that go over children rely on
`Shows`, which says which trees are still to come in a level.
-/

namespace AmqpBlob

open Walk (Rests)

namespace Decoder

/-- The walk reads each encoding of the tree as the value. -/
def Inverts (walk : ValueWalk Value) (value : Value) (tree : WireTree) : Prop :=
  ∀ {c : Cursor} {element : Element}, c.StandsOn element → element.tree = tree →
    (walk c).1 = .ok value

variable {decoder : Decoder} {child : Reading} {left : Nat} {path : Path} {c inner : Cursor}
  {element : Element} {tree : WireTree} {value : Value}

/-- A kind that is among the expected ones is not refused. -/
lemma bind_expectKind_of_eq {α : Type} {expected : List Kind} {found : Kind}
    {following : Unit → ValueWalk α} (h : c.kind = .ok found) (member : found ∈ expected) :
    (expectKind path expected >>= following) c = following () c := by
  refine Walk.bind_of_rests (built_expectKind expected).rests ?_
  rw [expectKind, Walk.bind_kind_of_eq h, if_neg (not_not_intro member)]
  rfl

/-- An expected kind is not refused. -/
lemma bind_expectKind {α : Type} {expected : List Kind} {following : Unit → ValueWalk α}
    (h : c.StandsOn element) (htree : element.tree = tree) (member : tree.kind ∈ expected) :
    (expectKind path expected >>= following) c = following () c :=
  bind_expectKind_of_eq (htree ▸ h.kind) member

/-- As long as levels are left, going one deeper is not refused. -/
lemma bind_goDeeper {α : Type} {following : Unit → ValueWalk α} :
    (decoder.goDeeper (left + 1) path >>= following) c = following () c := by
  refine Walk.bind_of_rests built_goDeeper.rests ?_
  rw [goDeeper, if_neg (Nat.succ_ne_zero left)]
  rfl

/-- Items are read one after the other. -/
lemma readItems_shows {item : Path → ValueWalk Value} {forms : List Form}
    (rests : ∀ path, Rests (item path))
    (h : ∀ form ∈ forms, ∀ path, Inverts (item path) form.value form.tree)
    (henter : c.enter = .ok inner) (shows : inner.Shows (forms.map Form.tree)) :
    (readItems item path c).1 = .ok (.collection (forms.map Form.value)) := by
  have step : ∀ form ∈ forms, ∀ rest index c, Cursor.Shows c ([form.tree] ++ rest) →
      c.hasCurrent = true ∧ ∃ c', Walk.thenNext (item (path.push (.item index))) c =
        (.ok form.value, c') ∧ c'.Shows rest := by
    intro form member rest index c shows
    obtain ⟨element, stands, htree, hrest⟩ := shows.first
    have hvalue := h form member (path.push (.item index)) stands htree
    exact ⟨stands.hasCurrent, c.next, Walk.thenNext_apply (rests _) hvalue, hrest⟩
  have hlength : (forms.flatMap fun form => [form.tree]).length = forms.length := by
    rw [← List.map_eq_flatMap, List.length_map]
  rw [List.map_eq_flatMap] at shows
  rw [readItems, Walk.inside_apply henter]
  exact Walk.return_apply (Walk.collect_shows step shows (Nat.le_of_eq hlength.symm))

/-- Entries have two trees each. -/
lemma length_turns (entries : List (Form × Form)) :
    (Form.turns entries).length = 2 * entries.length := by
  induction entries with
  | nil => rfl
  | cons entry rest ih =>
    rw [Form.turns] at ih
    rw [Form.turns, List.flatMap_cons, List.length_append, ih, List.length_cons]
    simp only [List.length_cons, List.length_nil]
    omega

/-- Keys and values are read in turns. -/
lemma readEntries_shows {key value : Path → ValueWalk Value} {entries : List (Form × Form)}
    (keyRests : ∀ path, Rests (key path)) (valueRests : ∀ path, Rests (value path))
    (hkeys : ∀ entry ∈ entries, ∀ path, Inverts (key path) entry.1.value entry.1.tree)
    (hvalues : ∀ entry ∈ entries, ∀ path, Inverts (value path) entry.2.value entry.2.tree)
    (henter : c.enter = .ok inner) (shows : inner.Shows (Form.turns entries)) :
    (readEntries key value path c).1 = .ok (Form.entries entries) := by
  have step : ∀ entry ∈ entries, ∀ rest index c,
      Cursor.Shows c ([entry.1.tree, entry.2.tree] ++ rest) →
      c.hasCurrent = true ∧ ∃ c', (do
          let key ← Walk.thenNext (key (path.push (.key index)))
          let value ← Walk.thenNext (value (path.push (.value index)))
          return Value.entry key value) c =
        (.ok (Value.entry entry.1.value entry.2.value), c') ∧ c'.Shows rest := by
    intro entry member rest index c shows
    obtain ⟨first, onKey, htree, shows⟩ := shows.first
    obtain ⟨second, onValue, htree', shows⟩ := shows.first
    have hkey := hkeys entry member (path.push (.key index)) onKey htree
    have hvalue := hvalues entry member (path.push (.value index)) onValue htree'
    refine ⟨onKey.hasCurrent, c.next.next, ?_, shows⟩
    rw [Walk.bind_apply, Walk.thenNext_apply (keyRests _) hkey]
    dsimp only
    rw [Walk.bind_apply, Walk.thenNext_apply (valueRests _) hvalue]
    rfl
  have enough : entries.length ≤ (Form.turns entries).length := by
    rw [length_turns]
    omega
  rw [readEntries, Walk.inside_apply henter]
  exact Walk.return_apply (Walk.collect_shows step shows enough)

/-- Only null is of the kind of null. -/
lemma tree_of_kind_null {tree : WireTree} (h : tree.kind = .null) : tree = .scalar .null := by
  cases tree with
  | scalar scalar => rw [(Scalar.kind_eq_null_iff scalar).1 h]
  | described | list | map | array => cases h

/-- A field is read as its name with its value. -/
lemma readField_stands {field : Field} {form : Form} (rests : ∀ name path, Rests (child name path))
    (h : Inverts (child field.type path) form.value form.tree)
    (mandatory : field.mandatory = true → form.tree ≠ .scalar .null)
    (stands : c.StandsOn element) (htree : element.tree = form.tree) :
    readField child field path c = (.ok (.pair field.name form.value), c.next) := by
  refine Prod.ext ?_ (advances_readField rests field c)
  have value : ((do return Value.pair field.name (← child field.type path) : ValueWalk Value) c).1 =
      .ok (.pair field.name form.value) := Walk.return_apply (h stands htree)
  rw [readField, Walk.fst_thenNext]
  dsimp only
  by_cases hmandatory : field.mandatory = true
  · have hkind : form.tree.kind ≠ .null :=
      fun hnull => mandatory hmandatory (tree_of_kind_null hnull)
    rw [if_pos hmandatory, Walk.bind_kind stands htree, if_neg hkind]
    exact value
  · rw [if_neg hmandatory]
    exact value

/-- Fields are read in their order, whatever is behind the last of them. -/
lemma readFields_shows {parts : List (Field × Form)} {extra : List WireTree}
    (rests : ∀ name path, Rests (child name path))
    (h : ∀ part ∈ parts, ∀ path, Inverts (child part.1.type path) part.2.value part.2.tree)
    (mandatory : ∀ part ∈ parts, part.1.mandatory = true → part.2.tree ≠ .scalar .null)
    (count index : Nat) (shows : c.Shows (parts.map (fun part => part.2.tree) ++ extra)) :
    (readFields child path count index (parts.map Prod.fst) c).1 =
      .ok (parts.map fun part => .pair part.1.name part.2.value) := by
  induction parts generalizing c index with
  | nil => rfl
  | cons part rest ih =>
    obtain ⟨hpart, hrest⟩ := List.forall_mem_cons.1 h
    obtain ⟨hmandatory, hmandatories⟩ := List.forall_mem_cons.1 mandatory
    obtain ⟨element, stands, htree, shows⟩ := shows.first
    have current : (Walk.hasCurrent c : Except DecodeError Bool × Cursor).1 = .ok true :=
      congrArg Except.ok stands.hasCurrent
    have hfield := readField_stands rests (hpart (path.push (.field part.1.name))) hmandatory stands htree
    rw [List.map_cons, List.map_cons, readFields, Walk.bind_of_rests Rests.hasCurrent current,
      if_pos rfl]
    dsimp only
    rw [Walk.bind_apply, hfield]
    exact Walk.return_apply (ih hrest hmandatories (index + 1) shows)

/-- The fields are read in their order, and elements behind the last one are left alone. -/
lemma readComposite_stands {parts : List (Field × Form)} {extra : List WireTree}
    (rests : ∀ name path, Rests (child name path))
    (h : ∀ part ∈ parts, ∀ path, Inverts (child part.1.type path) part.2.value part.2.tree)
    (mandatory : ∀ part ∈ parts, part.1.mandatory = true → part.2.tree ≠ .scalar .null) :
    Inverts (readComposite child (parts.map Prod.fst) path)
      (.collection (parts.map fun part => .pair part.1.name part.2.value))
      (.list (parts.map (fun part => part.2.tree) ++ extra)) := by
  intro c element stands htree
  obtain ⟨inner, henter, shows⟩ := stands.shows htree rfl
  have member : Kind.list ∈ [Kind.list] := List.mem_singleton_self _
  rw [readComposite, bind_expectKind stands htree member, Walk.inside_apply henter]
  exact Walk.return_apply (readFields_shows rests h mandatory _ _ shows)

/-- A label is told from the choices; the ordinal behind it, if there is one, has to be its place. -/
lemma readLabel_stands {choices : List Choice} {label : String} {place : Nat} {ordinal? : Option Int32}
    (hplace : Choice.ordinal? choices label = some place)
    (hordinal : ∀ ordinal ∈ ordinal?, ordinal.toInt = (place : Int)) :
    Inverts (readLabel choices path) (.single (.string label))
      (.list (.scalar (.string label) :: ordinal?.toList.map fun ordinal => .scalar (.int ordinal))) := by
  intro c element stands htree
  obtain ⟨inner, henter, shows⟩ := stands.shows htree rfl
  obtain ⟨first, onLabel, hlabel, shows⟩ := shows.first
  have member : Kind.list ∈ [Kind.list] := List.mem_singleton_self _
  have hall : (ordinal?.all fun ordinal => ordinal.toInt = (place : Int)) = true := by
    simpa [Option.all_eq_true] using hordinal
  -- With an ordinal or without one, the walk goes on in the same way.
  have known : (chosen choices label ordinal? path inner.next).1 = .ok (.single (.string label)) := by
    unfold chosen
    rw [hplace]
    dsimp only
    rw [if_pos hall]
    rfl
  rw [readLabel, bind_expectKind stands htree member, Walk.inside_apply henter,
    Walk.bind_read onLabel hlabel rfl, Walk.bind_apply]
  change ((Walk.hasCurrent >>= fun current => _) inner.next).1 = _
  cases ordinal? with
  | none =>
    have current : (Walk.hasCurrent inner.next : Except DecodeError Bool × Cursor).1 = .ok false :=
      congrArg Except.ok shows.exhausted
    rw [Walk.bind_of_rests Rests.hasCurrent current]
    exact known
  | some ordinal =>
    obtain ⟨second, onOrdinal, htree, _⟩ := shows.first
    have current : (Walk.hasCurrent inner.next : Except DecodeError Bool × Cursor).1 = .ok true :=
      congrArg Except.ok onOrdinal.hasCurrent
    rw [Walk.bind_of_rests Rests.hasCurrent current]
    dsimp only
    rw [if_pos rfl, Walk.bind_read onOrdinal htree rfl]
    exact known

/-- Elements are read from a list as from an array. -/
lemma readElements_stands {element : String} {forms : List Form}
    (rests : ∀ name path, Rests (child name path))
    (h : ∀ form ∈ forms, ∀ path, Inverts (child element path) form.value form.tree)
    (lists : tree.Lists (forms.map Form.tree)) :
    Inverts (decoder.readElements (left + 1) child element path)
      (.collection (forms.map Form.value)) tree := by
  intro c element stands htree
  have member := lists.kind_mem
  rcases lists with rfl | rfl
  all_goals
    obtain ⟨inner, henter, shows⟩ := stands.shows htree rfl
    rw [readElements, Walk.bind_kind stands htree, if_neg nofun, bind_expectKind stands htree member,
      bind_goDeeper]
    exact readItems_shows (rests _) h henter shows

/-- Null stands for no elements. -/
lemma readElements_null {element : String} :
    Inverts (decoder.readElements left child element path) .empty (.scalar .null) := by
  intro c element stands htree
  rw [readElements, Walk.bind_kind stands htree]
  rfl

/-- The entries are read in their order, each key with the value behind it. -/
lemma readMap_stands {key value : String} {entries : List (Form × Form)}
    (rests : ∀ name path, Rests (child name path))
    (hkeys : ∀ entry ∈ entries, ∀ path, Inverts (child key path) entry.1.value entry.1.tree)
    (hvalues : ∀ entry ∈ entries, ∀ path, Inverts (child value path) entry.2.value entry.2.tree) :
    Inverts (readMap child key value path) (Form.entries entries) (.map (Form.turns entries)) := by
  intro c element stands htree
  obtain ⟨inner, henter, shows⟩ := stands.shows htree rfl
  have member : Kind.map ∈ [Kind.map] := List.mem_singleton_self _
  rw [readMap, Walk.bind_kind stands htree, if_neg nofun, bind_expectKind stands htree member]
  exact readEntries_shows (rests _) (rests _) hkeys hvalues henter shows

/-- A value is read behind a descriptor that is not refused. -/
lemma readDeclared_stands {type : TypeDef} {descriptor : Scalar}
    (accepts : type.descriptor.accepts descriptor = true)
    (h : Inverts (decoder.readBody (left + 1) child type.body path) value tree) :
    Inverts (decoder.readDeclared (left + 1) child type path)
      value (.described (.scalar descriptor) tree) := by
  intro c element stands htree
  -- The descriptor is checked on the first child; the move from it leads to the body.
  obtain ⟨inner, first, second, henter, onFirst, hfirst, onSecond, hsecond⟩ :=
    stands.enter_described htree
  have hcheck : (decoder.checkDescriptor type descriptor path inner).1 = .ok () := by
    rw [checkDescriptor, if_pos (.inl accepts)]
    rfl
  rw [readDeclared, Walk.bind_kind stands htree]
  change ((decoder.goDeeper (left + 1) path >>= fun _ => _) c).1 = _
  rw [bind_goDeeper, Walk.inside_apply henter, Walk.bind_scalar onFirst hfirst,
    Walk.bind_of_rests (built_checkDescriptor _ _).rests hcheck, Walk.bind_apply]
  exact h onSecond hsecond

/-- Null stands for a value of each declared type. -/
lemma readDeclared_null {type : TypeDef} :
    Inverts (decoder.readDeclared left child type path) type.nullValue (.scalar .null) := by
  intro c element stands htree
  rw [readDeclared, Walk.bind_kind stands htree]
  rfl

/-- A scalar is read where its kind is expected, and null everywhere. -/
lemma readPrimitive_stands {expected : Kind} {scalar : Scalar}
    (h : scalar.kind = expected ∨ scalar = .null) :
    Inverts (readPrimitive expected path) (.single scalar) (.scalar scalar) := by
  intro c element stands htree
  have hkind : ¬((WireTree.scalar scalar).kind ≠ expected ∧ (WireTree.scalar scalar).kind ≠ .null) := by
    rintro ⟨hexpected, hnull⟩
    exact h.elim hexpected fun heq => hnull (congrArg Scalar.kind heq)
  rw [readPrimitive, Walk.bind_kind stands htree, if_neg hkind]
  exact congrArg Prod.fst (Walk.bind_scalar stands htree)

/-- Elements in a place of no declared type. -/
lemma readPlain_lists {forms : List Form}
    (rests : ∀ name path, Rests (child name path))
    (h : ∀ form ∈ forms, ∀ path, Inverts (child TypeName.any path) form.value form.tree)
    (lists : tree.Lists (forms.map Form.tree)) :
    Inverts (decoder.readPlain (left + 1) child path)
      (.collection (forms.map Form.value)) tree := by
  intro c element stands htree
  rcases lists with rfl | rfl
  all_goals
    obtain ⟨inner, henter, shows⟩ := stands.shows htree rfl
    rw [readPlain, Walk.bind_kind stands htree]
    change ((decoder.goDeeper (left + 1) path >>= fun _ => _) c).1 = _
    rw [bind_goDeeper]
    exact readItems_shows (rests _) h henter shows

/-- Entries in a place of no declared type. -/
lemma readPlain_map {entries : List (Form × Form)} (rests : ∀ name path, Rests (child name path))
    (hkeys : ∀ entry ∈ entries, ∀ path, Inverts (child TypeName.any path) entry.1.value entry.1.tree)
    (hvalues : ∀ entry ∈ entries, ∀ path, Inverts (child TypeName.any path) entry.2.value entry.2.tree) :
    Inverts (decoder.readPlain (left + 1) child path)
      (Form.entries entries) (.map (Form.turns entries)) := by
  intro c element stands htree
  obtain ⟨inner, henter, shows⟩ := stands.shows htree rfl
  rw [readPlain, Walk.bind_kind stands htree]
  change ((decoder.goDeeper (left + 1) path >>= fun _ => _) c).1 = _
  rw [bind_goDeeper]
  exact readEntries_shows (rests _) (rests _) hkeys hvalues henter shows

/-- A scalar in a place of no declared type. -/
lemma readPlain_scalar {scalar : Scalar} :
    Inverts (decoder.readPlain left child path) (.single scalar) (.scalar scalar) := by
  intro c element stands htree
  have value : ((do return Value.single (← Walk.scalar) : ValueWalk Value) c).1 =
      .ok (.single scalar) := congrArg Prod.fst (Walk.bind_scalar stands htree)
  rw [readPlain, Walk.bind_kind stands htree]
  cases scalar
  all_goals exact value

/-- A value without a descriptor is read as its encoding tells. -/
lemma readAny_plain (h : Inverts (decoder.readPlain left child path) value tree)
    (hkind : tree.kind ≠ .described) : Inverts (decoder.readAny left child path) value tree := by
  intro c element stands htree
  have hkind' : c.kind = .ok tree.kind := by
    rw [← htree]
    exact stands.kind
  rw [readAny_of_plain hkind' hkind]
  exact h stands htree

/-- A value whose descriptor finds a type is read as that type tells. -/
lemma readAny_described {type : TypeDef} {descriptor : Scalar}
    (hfind : decoder.schema.find? descriptor = some type)
    (h : Inverts (decoder.readDeclared left child type path)
      value (.described (.scalar descriptor) tree)) :
    Inverts (decoder.readAny left child path) value (.described (.scalar descriptor) tree) := by
  intro c element stands htree
  rw [readAny_of_describedBy (stands.describedBy htree) hfind]
  exact h stands htree

/-! ## Reading what is written -/

/-- What is read where a value of a name, or the body of one, is written, if `left` levels are left
for what it holds. -/
def readSpot (decoder : Decoder) (left : Nat) (name : String) (path : Path) :
    Spot → ValueWalk Value
  | .use (some .any) => decoder.readAny left (decoder.readValue left) path
  | .use (some (.primitive kind)) => readPrimitive kind path
  | .use (some (.declared type)) => decoder.readDeclared left (decoder.readValue left) type path
  | .use (some (.array element)) => decoder.readElements left (decoder.readValue left) element path
  | .use none => Walk.fail (.unknownType path name)
  | .body body => decoder.readBody (left + 1) (decoder.readValue (left + 1)) body path

/-- A value of a name is read as what the name stands for. -/
lemma readValue_succ (left : Nat) (name : String) (path : Path) :
    decoder.readValue (left + 1) name path =
      decoder.readSpot left name path (.use (decoder.schema.resolve? name)) := by
  rw [readValue, readUse]
  generalize decoder.schema.resolve? name = use?
  rcases use? with _ | _ | _ | _ | _
  all_goals rfl

/-- What is read at the spot that a name stands for is read as the name. -/
lemma inverts_readValue {name : String}
    (h : Inverts (decoder.readSpot left name path (.use (decoder.schema.resolve? name))) value tree) :
    Inverts (decoder.readValue (left + 1) name path) value tree := by
  rw [readValue_succ]
  exact h

/-- What is written at a spot is read there, if enough levels are left. -/
lemma inverts_readSpot {levels : Nat} {spot : Spot} {value : Value} {tree : WireTree}
    (indexed : decoder.schema.Indexed) (written : Written decoder.schema levels spot value tree)
    {left : Nat} (enough : levels ≤ left) (name : String) (path : Path) :
    Inverts (decoder.readSpot left name path spot) value tree := by
  -- The induction follows how the value is written. Where `Written` adds a level, the decoder has one
  -- left to go into, and what is inside is read with one less.
  induction written generalizing left name path with
  | primitive hkind => exact readPrimitive_stands hkind
  | null => exact readDeclared_null
  | @declared levels type descriptor value tree accepts _ ih =>
    obtain ⟨left, rfl⟩ := Nat.exists_eq_add_of_le' (Nat.one_le_of_lt enough)
    exact readDeclared_stands accepts (ih (Nat.le_of_succ_le_succ enough) name path)
  | composite _ mandatory ih =>
    refine readComposite_stands (rests_readValue _) (fun part member path => ?_) mandatory
    exact inverts_readValue (ih part member enough _ path)
  | list lists _ ih =>
    refine readElements_stands (rests_readValue _) (fun form member path => ?_) lists
    exact inverts_readValue (ih form member enough _ path)
  | map _ _ ihk ihv =>
    refine readMap_stands (rests_readValue _) (fun entry member path => ?_) fun entry member path => ?_
    · exact inverts_readValue (ihk entry member enough _ path)
    · exact inverts_readValue (ihv entry member enough _ path)
  | label member =>
    obtain ⟨place, hplace⟩ := Choice.exists_ordinal? member
    exact @readLabel_stands _ _ _ _ none hplace nofun
  | @placedLabel _ _ _ _ _ ordinal hplace first hordinal =>
    have found := Choice.ordinal?_eq_some_iff.2 ⟨hplace, first⟩
    refine @readLabel_stands _ _ _ _ (some ordinal) found fun other member => ?_
    cases member
    exact hordinal
  | noElements => exact readElements_null
  | elements lists _ ih =>
    obtain ⟨left, rfl⟩ := Nat.exists_eq_add_of_le' (Nat.one_le_of_lt enough)
    refine readElements_stands (rests_readValue _) (fun form member path => ?_) lists
    exact inverts_readValue (ih form member (Nat.le_of_succ_le_succ enough) _ path)
  | @anyType levels type descriptor value tree hfind _ ih =>
    obtain ⟨left, rfl⟩ := Nat.exists_eq_add_of_le' (Nat.one_le_of_lt enough)
    refine readAny_described hfind (readDeclared_stands (indexed.accepts_of_find? hfind) ?_)
    exact ih (Nat.le_of_succ_le_succ enough) name path
  | @anyScalar levels scalar =>
    refine readAny_plain readPlain_scalar ?_
    cases scalar
    all_goals nofun
  | anyElements lists _ ih =>
    obtain ⟨left, rfl⟩ := Nat.exists_eq_add_of_le' (Nat.one_le_of_lt enough)
    refine readAny_plain (readPlain_lists (rests_readValue _) (fun form member path => ?_) lists) ?_
    · exact inverts_readValue (ih form member (Nat.le_of_succ_le_succ enough) _ path)
    · rcases lists with rfl | rfl
      all_goals nofun
  | anyEntries _ _ ihk ihv =>
    obtain ⟨left, rfl⟩ := Nat.exists_eq_add_of_le' (Nat.one_le_of_lt enough)
    refine readAny_plain (readPlain_map (rests_readValue _) (fun entry member path => ?_)
      fun entry member path => ?_) nofun
    · exact inverts_readValue (ihk entry member (Nat.le_of_succ_le_succ enough) _ path)
    · exact inverts_readValue (ihv entry member (Nat.le_of_succ_le_succ enough) _ path)

end Decoder

/-- A value that is written in object form conforms to its type and is decoded to itself, from any
encoding and whatever bytes stand around it, and decoding ends on the byte behind. It has to nest no
deeper than is allowed. -/
theorem decode_written {decoder : Decoder} {types : List TypeDef} {name : String} {value : Value}
    {levels : Nat} {c : Cursor} {element : Element}
    (built : Schema.ofTypes types = .ok decoder.schema)
    (written : Written decoder.schema levels (.use (decoder.schema.resolve? name)) value element.tree)
    (enough : levels ≤ decoder.options.maxDepth) (stands : c.StandsOn element) :
    Conforms decoder.schema (decoder.schema.resolve? name) value ∧
      decoder.decode name c = (.ok value, c.past element) := by
  have indexed := Schema.indexed_ofTypes built
  refine ⟨written.conformsAt indexed, ?_⟩
  have hvalue := Decoder.inverts_readSpot indexed written enough name (.start name) stands rfl
  rw [← Decoder.readValue_succ] at hvalue
  rw [← stands.next]
  exact Walk.thenNext_apply (Decoder.rests_readValue _ _ _) hvalue

/-- A chain of one number. -/
def linkElement : Element where
  tree := .described (.scalar (.ulong 7)) (.list [.scalar (.int 6), .scalar .null])
  code := 0x00
  data := [0x53, 0x07, 0xc0, 0x04, 0x02, 0x54, 0x06, 0x40]

/-- A chain of two numbers, with an element more than the type has fields. -/
def chainElement : Element where
  tree := .described (.scalar (.ulong 7))
    (.list [.scalar (.int 5), linkElement.tree, .scalar (.boolean true)])
  code := 0x00
  data := [0x53, 0x07, 0xc0, 0x0d, 0x03, 0x54, 0x05] ++ linkElement.bytes none ++ [0x41]

/-- The cursor on the chain between two other bytes. -/
def chainCursor : Cursor where
  bytes := ⟨(0xff :: chainElement.bytes none ++ [0xff]).toArray⟩
  here := ⟨1, 0⟩
  level := ⟨⟨0, 0⟩, 19, 1, none⟩
  outer := []

/-- The chain is an encoding, part for part. -/
lemma chainElement_encoded : chainElement.Encoded := by
  have descriptor : Encodes (.scalar (.ulong 7)) 0x53 [0x07] := .scalar (.smallUlong 7)
  have fields := @Encodes.list .narrow [⟨.scalar (.int 6), 0x54, [0x06]⟩, ⟨.scalar .null, 0x40, []⟩]
    (List.forall_mem_cons.2 ⟨.scalar (.smallInt 6), List.forall_mem_singleton.2 (.scalar .null)⟩)
    (by decide)
  have link : linkElement.Encoded :=
    @Encodes.described ⟨.scalar (.ulong 7), 0x53, [0x07]⟩ ⟨_, _, _⟩ descriptor fields
  have fields := @Encodes.list .narrow
    [⟨.scalar (.int 5), 0x54, [0x05]⟩, linkElement, ⟨.scalar (.boolean true), 0x41, []⟩]
    (List.forall_mem_cons.2 ⟨.scalar (.smallInt 5), List.forall_mem_cons.2 ⟨link,
      List.forall_mem_singleton.2 (.scalar .true)⟩⟩) (by decide)
  exact @Encodes.described ⟨.scalar (.ulong 7), 0x53, [0x07]⟩ ⟨_, _, _⟩ descriptor fields

/-- The chain conforms to its type and is decoded to itself, between the other bytes. -/
theorem decode_written_chain :
    Conforms chainDecoder.schema (chainDecoder.schema.resolve? "Chain")
      (chain 5 (chain 6 (.single .null))) ∧
    chainDecoder.decode "Chain" chainCursor =
      (.ok (chain 5 (chain 6 (.single .null))), chainCursor.past chainElement) := by
  have number (value : Int32) (levels : Nat) : Written chainDecoder.schema levels
      (.use (chainDecoder.schema.resolve? "int")) (.single (.int value)) (.scalar (.int value)) :=
    .primitive (.inl rfl)
  have absent : Written chainDecoder.schema 0 (.use (chainDecoder.schema.resolve? "Chain"))
      (.single .null) (.scalar .null) :=
    @Written.null _ _ chainType
  have link : Written chainDecoder.schema 1 (.use (chainDecoder.schema.resolve? "Chain"))
      (chain 6 (.single .null)) linkElement.tree :=
    @Written.declared _ _ chainType _ _ _ rfl (@Written.composite _ _
      [(headField, ⟨_, _⟩), (tailField, ⟨_, _⟩)] []
      (List.forall_mem_cons.2 ⟨number 6 0, List.forall_mem_singleton.2 absent⟩)
      (List.forall_mem_cons.2 ⟨nofun, List.forall_mem_singleton.2 nofun⟩))
  have written : Written chainDecoder.schema 2 (.use (chainDecoder.schema.resolve? "Chain"))
      (chain 5 (chain 6 (.single .null))) chainElement.tree :=
    @Written.declared _ _ chainType _ _ _ rfl (@Written.composite _ _
      [(headField, ⟨_, _⟩), (tailField, ⟨_, _⟩)] [.scalar (.boolean true)]
      (List.forall_mem_cons.2 ⟨number 5 1, List.forall_mem_singleton.2 link⟩)
      (List.forall_mem_cons.2 ⟨nofun, List.forall_mem_singleton.2 nofun⟩))
  have stands : chainCursor.StandsOn chainElement := by
    refine ⟨⟨List.forall_mem_singleton.2 chainElement_encoded, nofun, ?_⟩, by decide, by decide⟩
    exact ⟨[0xff], [0xff], rfl, rfl⟩
  exact @decode_written _ [chainType] _ _ _ _ _ rfl written (Nat.le_refl 2) stands

end AmqpBlob
