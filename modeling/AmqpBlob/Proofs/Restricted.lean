import AmqpBlob.Proofs.Brackets
import AmqpBlob.Proofs.Declaration
import AmqpBlob.Proofs.Index
import AmqpBlob.Proofs.Walk
import AmqpBlob.Schema.Section

/-!
# Restricted types

Lists and maps use the types that their names tell, and each of these stands inside the name that it
is read off, so its name is the shorter one. Restricted types can therefore not use each other in a
cycle, whatever they are called, and each is declared after all those that it uses.

`TypeDef.Named` says that the name of a type tells what it stands for. `SchemaSection.gives_readSchema`
says so of all types that are not composite in a schema that is read, whatever it is read from.
-/

namespace AmqpBlob

open Relation (TransGen)

namespace TypeName

/-- A piece is no longer than the text that commas join it into. -/
lemma length_le_intercalate {piece : List Char} {pieces : List (List Char)} (member : piece ∈ pieces) :
    piece.length ≤ ([','].intercalate pieces).length := by
  induction pieces with
  | nil => cases member
  | cons first others ih =>
    cases others with
    | nil => rw [List.mem_singleton.1 member, List.intercalate_singleton]
    | cons second others =>
      rw [List.intercalate_cons_cons, List.length_append, List.length_append]
      rcases List.mem_cons.1 member with rfl | member
      · omega
      · have shorter := ih member
        omega

/-- A text is not cut into longer pieces. -/
lemma length_le_of_pieces {text : List Char} {pieces : List (List Char)}
    (h : pieces? 0 text = some pieces) : ∀ piece ∈ pieces, piece.length ≤ text.length := by
  obtain ⟨_, joined, _⟩ := pieces?_eq_some_iff.1 h
  intro piece member
  rw [← joined]
  exact length_le_intercalate member

/-- Trimming makes no parameter longer. -/
lemma length_trimmed (param : List Char) : (trimmed param).length ≤ param.length := by
  rw [trimmed, String.length_ofList, Text.trim, Text.trimRight, List.length_reverse]
  calc ((param.dropWhile Text.isBlank).reverse.dropWhile Text.isBlank).length
      ≤ (param.dropWhile Text.isBlank).reverse.length := (List.dropWhile_sublist _).length_le
    _ = (param.dropWhile Text.isBlank).length := List.length_reverse
    _ ≤ param.length := (List.dropWhile_sublist _).length_le

/-- What stands between the brackets of a name is shorter than the name, and so is each parameter. -/
lemma length_lt_of_parts {name : String} {taken : Parts} (h : parts name = .ok taken) :
    taken.inner.length < name.length ∧ ∀ param ∈ taken.params, param.length < name.length := by
  unfold parts at h
  split at h
  · cases h
  · next bracket rest found =>
    have dropped := (List.dropWhile_sublist (· ≠ '<') (l := name.toList)).length_le
    rw [found, List.length_cons, String.length_toList] at dropped
    split at h
    · split at h
      · cases h
      · next params cut =>
        split at h
        · cases h
        · cases h
          have inner : rest.dropLast.length < name.length := by
            rw [List.length_dropLast]
            omega
          exact ⟨inner, fun param member =>
            Nat.lt_of_le_of_lt (length_le_of_pieces cut param member) inner⟩
    · cases h

/-- The name of an array is longer than that of its elements by its brackets. -/
lemma length_lt_of_arrayElement {name element : String} (h : arrayElement? name = some element) :
    element.length < name.length := by
  obtain ⟨_, rfl | rfl⟩ := brackets_of_arrayElement? h
  · rw [String.length_append]
    exact Nat.lt_add_of_pos_right (by decide)
  · rw [String.length_append]
    exact Nat.lt_add_of_pos_right (by decide)

/-- The name of a list is longer than its parameter. -/
lemma length_lt_of_list {name outer element : String} (h : list name = .ok (outer, element)) :
    element.length < name.length := by
  unfold list at h
  cases hparts : parts name with
  | error fault =>
    rw [hparts] at h
    cases h
  | ok taken =>
    rw [hparts] at h
    obtain ⟨before, inner, params⟩ := taken
    rcases params with _ | ⟨param, _ | ⟨_, _⟩⟩
    · cases h
    · cases h
      rw [String.length_ofList]
      exact (length_lt_of_parts hparts).1
    · cases h

/-- The name of a map is longer than each of its parameters. -/
lemma length_lt_of_map {name outer key value : String} (h : map name = .ok (outer, key, value)) :
    key.length < name.length ∧ value.length < name.length := by
  unfold map at h
  cases hparts : parts name with
  | error fault =>
    rw [hparts] at h
    cases h
  | ok taken =>
    rw [hparts] at h
    have shorter (param : List Char) (member : param ∈ taken.params) :
        (trimmed param).length < name.length :=
      Nat.lt_of_le_of_lt (length_trimmed param) ((length_lt_of_parts hparts).2 param member)
    obtain ⟨before, inner, params⟩ := taken
    rcases params with _ | ⟨key, _ | ⟨value, _ | ⟨_, _⟩⟩⟩
    · cases h
    · cases h
    · cases h
      exact ⟨shorter key List.mem_cons_self,
        shorter value (List.mem_cons_of_mem key List.mem_cons_self)⟩
    · cases h

end TypeName

namespace Restriction

/-- The restriction is the list or the map that a name stands for, or a choice of labels. -/
inductive OfName (name : String) : Restriction → Prop where
  | list {restriction : Restriction} :
    ofListName name = .ok restriction →
    OfName name restriction
  | map {restriction : Restriction} :
    ofMapName name = .ok restriction →
    OfName name restriction
  | enumeration (choices : List Choice) :
    OfName name (.enumeration choices)

variable {name : String} {restriction : Restriction}

/-- The types that a restricted type uses have shorter names. -/
lemma OfName.length_lt (h : OfName name restriction) :
    ∀ type ∈ restriction.types, type.length < name.length := by
  cases h with
  | list h =>
    unfold ofListName at h
    split at h
    · next element array =>
      cases h
      rw [types, List.forall_mem_singleton]
      exact TypeName.length_lt_of_arrayElement array
    · cases hlist : TypeName.list name with
      | error fault =>
        rw [hlist] at h
        cases h
      | ok taken =>
        rw [hlist] at h
        cases h
        rw [types, List.forall_mem_singleton]
        calc (TypeName.trimmed taken.2.toList).length
            ≤ taken.2.toList.length := TypeName.length_trimmed _
          _ = taken.2.length := String.length_toList
          _ < name.length := TypeName.length_lt_of_list hlist
  | map h =>
    unfold ofMapName at h
    cases hmap : TypeName.map name with
    | error fault =>
      rw [hmap] at h
      cases h
    | ok taken =>
      rw [hmap] at h
      cases h
      obtain ⟨hkey, hvalue⟩ := TypeName.length_lt_of_map hmap
      rw [types, List.forall_mem_cons, List.forall_mem_singleton]
      exact ⟨hkey, hvalue⟩
  | enumeration choices => nofun

/-- Whatever source is restricted, the name tells what the restriction is. -/
lemma ofName_of_ofSource {source : String} {choices : List Choice}
    (h : ofSource name source choices = .ok restriction) : OfName name restriction := by
  unfold ofSource at h
  split at h
  · exact .list (Walk.ok_of_mapError h)
  · cases h
    exact .enumeration choices
  · exact .map (Walk.ok_of_mapError h)
  · cases h

end Restriction

/-- A restricted type whose name tells what it stands for, if it is not a choice of labels. -/
inductive TypeDef.Named (type : TypeDef) : Prop where
  | mk {source : String} {restriction : Restriction} :
    type.body = .restricted source restriction →
    restriction.OfName type.name →
    Named type

/-- A type as types are made: a composite one, or a restricted one that is what its name tells. -/
def TypeDef.WellNamed (type : TypeDef) : Prop :=
  type.isComposite = true ∨ type.Named

/-- A type that is made so and not composite is what its name tells. -/
lemma TypeDef.WellNamed.named {type : TypeDef} (h : type.WellNamed)
    (restricted : type.isComposite = false) : type.Named := by
  rcases h with composite | named
  · rw [restricted] at composite
    cases composite
  · exact named

/-! ## Restricted types of a section -/

namespace SchemaSection

open Walk (Gives)

variable {α : Type} {part : EnvelopePart} {what : String} {body element : SchemaWalk α}
  {holds : α → Prop}

/-- An element gives what is made of its list. -/
lemma gives_describedList (h : Gives body holds) : Gives (describedList part body) holds := by
  refine .thenNext (.after fun _ => .inside (.after fun descriptor => ?_))
  have list : Gives (do
      Walk.next
      expectKind part .list
      Walk.inside body) holds :=
    .after fun _ => .after fun _ => .inside h
  split
  · exact .failThen
  · exact list

/-- Whatever holds of each element holds of all that a list gives. -/
lemma gives_listOf (h : Gives element holds) :
    Gives (listOf what element) fun values => ∀ value ∈ values, holds value := by
  refine .thenNext (.after fun found => ?_)
  split
  · exact .pure (List.forall_mem_nil _)
  · exact .inside (.collect fun _ => h)
  · exact .inside (.collect fun _ => h)
  · exact .fail

/-- The name of a restricted type tells what it stands for, as it is the name that this is made of. -/
lemma gives_readRestricted : Gives readRestricted TypeDef.Named := by
  refine gives_describedList ?_
  refine .after fun name => .after fun label? => .after fun provides => .after fun source => ?_
  refine .after fun descriptor => .after fun choices => ?_
  split
  next restriction made => exact .pure (.mk rfl (Restriction.ofName_of_ofSource made))
  · exact .fail

/-- Types of both forms are made as types are. -/
lemma gives_readType : Gives readType TypeDef.WellNamed := by
  refine .after fun descriptor? => ?_
  split
  · refine gives_describedList ?_
    refine .after fun name => .after fun label? => .after fun provides => .after fun descriptor => ?_
    exact .after fun fields => .pure (.inl rfl)
  · exact fun c type read => .inr (gives_readRestricted c type read)
  · exact .after fun _ => .fail

/-- Whatever bytes a schema is read from, its types are made as types are: the names of those that are
not composite tell what they stand for. -/
lemma gives_readSchema : Gives readSchema fun schema => ∀ type ∈ schema.types, type.WellNamed := by
  refine (gives_describedList (gives_listOf gives_readType)).bind fun types htypes => ?_
  split
  next schema made =>
    rw [← (Schema.types_ofTypes made).2] at htypes
    exact .pure htypes
  · exact .fail

end SchemaSection

/-! ## Comparisons -/

/-- The comparison of the types at two places, from either side, tells that the first of them must be
declared before the second. -/
def Signals (types : List TypeDef) (i j : Nat) : Prop :=
  ∃ first ∈ types[i]?, ∃ second ∈ types[j]?,
    first.precedence second = .before ∨ second.precedence first = .after

variable {types : List TypeDef} {first second : TypeDef} {i j : Nat}

/-- A restricted type has a longer name than each type that it uses. -/
lemma TypeDef.Named.length_lt (h : second.Named) (uses : second.refersTo first.name = true) :
    first.name.length < second.name.length := by
  obtain ⟨hbody, hname⟩ := h
  rw [refersTo, hbody] at uses
  exact hname.length_lt _ (List.contains_iff_mem.1 uses)

/-- Two restricted types do not use each other. -/
lemma TypeDef.Named.not_mutual (hfirst : first.Named) (hsecond : second.Named)
    (uses : second.refersTo first.name = true) : first.refersTo second.name = false := by
  rw [Bool.eq_false_iff]
  intro used
  exact Nat.lt_asymm (hsecond.length_lt uses) (hfirst.length_lt used)

/-- A type comes before one that uses it. -/
lemma TypeDef.refersTo_of_before (h : first.precedence second = .before) :
    second.refersTo first.name = true := by
  unfold precedence at h
  split at h
  · cases h
  · assumption
  · cases h
  · assumption

/-- A type comes after one that it uses. -/
lemma TypeDef.refersTo_of_after (h : first.precedence second = .after) :
    first.refersTo second.name = true := by
  unfold precedence at h
  split at h
  · cases h
  · cases h
  · assumption
  · assumption

/-- What must be declared before a restricted type has a shorter name. -/
lemma Signals.length_lt (named : ∀ type ∈ types, type.Named) (h : Signals types i j) :
    ∃ first ∈ types[i]?, ∃ second ∈ types[j]?, first.name.length < second.name.length := by
  obtain ⟨first, hi, second, hj, tells⟩ := h
  have uses : second.refersTo first.name = true :=
    tells.elim TypeDef.refersTo_of_before TypeDef.refersTo_of_after
  exact ⟨first, hi, second, hj, (named second (List.mem_of_getElem? hj)).length_lt uses⟩

/-- No comparisons of restricted types lead back to where they started. -/
lemma signals_acyclic (named : ∀ type ∈ types, type.Named) (i : Nat) :
    ¬TransGen (Signals types) i i := by
  intro cycle
  -- Along a chain of comparisons the names grow, so a chain does not end where it started.
  have longer (j : Nat) (h : TransGen (Signals types) i j) :
      ∃ first ∈ types[i]?, ∃ second ∈ types[j]?, first.name.length < second.name.length := by
    induction h with
    | single h => exact h.length_lt named
    | tail _ h ih =>
      obtain ⟨first, hi, middle, hm, lt⟩ := ih
      obtain ⟨middle', hm', second, hj, lt'⟩ := h.length_lt named
      cases Option.mem_unique hm hm'
      exact ⟨first, hi, second, hj, lt.trans lt'⟩
  obtain ⟨first, hi, first', hi', lt⟩ := longer i cycle
  cases Option.mem_unique hi hi'
  exact Nat.lt_irrefl _ lt

/-- Each rule about the order comes from a comparison. -/
lemma MustPrecede.signals (h : MustPrecede types i j) : Signals types i j := by
  cases h with
  | earlier _ hi hj tells => exact ⟨_, hi, _, hj, .inl tells⟩
  | later _ hj hi tells => exact ⟨_, hi, _, hj, .inr tells⟩

/-- A restricted type must be declared after each type that it uses. -/
lemma mustPrecede_of_refersTo (named : ∀ type ∈ types, type.Named) (hi : types[i]? = some first)
    (hj : types[j]? = some second) (uses : second.refersTo first.name = true) :
    MustPrecede types i j := by
  have hsecond := named second (List.mem_of_getElem? hj)
  have unused := (named first (List.mem_of_getElem? hi)).not_mutual hsecond uses
  rcases Nat.lt_trichotomy i j with before | rfl | after
  · exact .earlier before hi hj (by rw [TypeDef.precedence, uses, unused])
  · rw [hi] at hj
    cases hj
    exact absurd (hsecond.length_lt uses) (Nat.lt_irrefl _)
  · exact .later after hj hi (by rw [TypeDef.precedence, uses, unused])

/-- Restricted types do not use each other in a cycle, however they are called and also if several
have one name: comparing them never leads back to a type. They are all declared, each once and after
all those that it uses. -/
theorem restricted_acyclic (named : ∀ type ∈ types, type.Named) :
    (∀ i, ¬TransGen (Signals types) i i) ∧
    (declarationOrder types).Perm (List.range types.length) ∧
    ∀ i j first second, types[i]? = some first → types[j]? = some second →
      second.refersTo first.name = true → [i, j].Sublist (declarationOrder types) := by
  have acyclic := signals_acyclic named
  refine ⟨acyclic, (arranges_declarationOrder types).perm, fun i j first second hi hj uses => ?_⟩
  have unsettled (k : Nat) (cycle : TransGen (MustPrecede types) k k) : False :=
    acyclic k (TransGen.mono (fun _ _ h => h.signals) _ _ cycle)
  exact respects_of_acyclic unsettled i j (mustPrecede_of_refersTo named hi hj uses)

/-- A type that stands for a restriction. -/
def restrictedType (name : String) (restriction : Restriction) : TypeDef :=
  ⟨⟨name, none, [], ⟨none, none⟩⟩, .restricted restriction.sort.text restriction⟩

/-- Restricted types, those that others use behind them. Two of them have one name. -/
def gridTypes : List TypeDef :=
  [restrictedType "Map<Hue, List<int[]>>" (.map "Map" "Hue" "List<int[]>"),
    restrictedType "List<int[]>" (.list (some "List") "int[]"),
    restrictedType "int[]" (.list none "int"), restrictedType "int[]" (.list none "int"),
    restrictedType "Hue" (.enumeration [⟨"RED", "0"⟩])]

/-- All five types are declared, the two of one name at their own places. -/
theorem restricted_gridTypes : (∀ type ∈ gridTypes, type.Named) ∧
    (∀ i, ¬TransGen (Signals gridTypes) i i) ∧ declarationOrder gridTypes = [2, 3, 1, 4, 0] ∧
    [3, 1].Sublist (declarationOrder gridTypes) := by
  have named : ∀ type ∈ gridTypes, type.Named := by
    simp only [gridTypes, List.forall_mem_cons, List.not_mem_nil, false_implies, implies_true,
      and_true]
    exact ⟨.mk rfl (.map rfl), .mk rfl (.list rfl), .mk rfl (.list rfl), .mk rfl (.list rfl),
      .mk rfl (.enumeration _)⟩
  obtain ⟨acyclic, _, after⟩ := restricted_acyclic named
  exact ⟨named, acyclic, by decide +kernel, after 3 1 _ _ rfl rfl (by decide +kernel)⟩

end AmqpBlob
