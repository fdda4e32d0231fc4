import AmqpBlob.Proofs.Conformance
import AmqpBlob.Proofs.Peek
import AmqpBlob.Proofs.Reach

/-!
# Counts of items

How many items a list or a map gives. A level is read while there is a value, which ends where the
declared number of siblings is reached or where the bytes of the level are used up, whichever comes
first. So no item is made up, and as many are given as the header declares just if each declared
sibling starts before the end of the level; a header that declares more is not refused.
-/

namespace AmqpBlob

/-- How many siblings an item of a value of the kind takes: an entry of a map takes a key and a
value. -/
def Kind.perItem? : Kind → Option Nat
  | list | array => some 1
  | map => some 2
  | _ => none

namespace Cursor

/-- From the position on there are `n` values and no more. -/
structure Meets (c : Cursor) (n : Nat) : Prop where
  current : ∀ index < n, (Cursor.next^[index] c).hasCurrent = true
  behind : (Cursor.next^[n] c).hasCurrent = false

/-- Each sibling that the level declares starts before the end of the level. -/
def Full (c : Cursor) : Prop :=
  ∀ index < c.level.count, (Cursor.next^[index] c).here.offset < c.level.stop

/-- The current value holds `count` items of `width` siblings each: these are at most as many siblings
as it declares, and just as many if each declared one starts before its end. -/
def Counts (c : Cursor) (width count : Nat) : Prop :=
  ∃ inner, c.enter = .ok inner ∧ inner.Meets (width * count) ∧
    width * count ≤ inner.level.count ∧ (width * count = inner.level.count ↔ inner.Full)

variable {c inner : Cursor} {n m : Nat}

/-- A step from a value counts one sibling more, or all of them where it leaves the level. -/
lemma here_next (current : c.hasCurrent = true) :
    c.next.here.index = c.here.index + 1 ∨ c.next.here = ⟨c.level.stop, c.level.count⟩ := by
  rw [next, if_pos current]
  split
  · split
    · exact .inl rfl
    · exact .inr rfl
  · exact .inr rfl

/-- Steps over values count them, but for a last one that leaves the level. -/
lemma here_iterate (current : ∀ index < n, (Cursor.next^[index] c).hasCurrent = true) :
    (Cursor.next^[n] c).here.index = c.here.index + n ∨
      (Cursor.next^[n] c).here = ⟨c.level.stop, c.level.count⟩ := by
  induction n with
  | zero => exact .inl rfl
  | succ n ih =>
    have last := current n (Nat.lt_succ_self n)
    have level := (sameLevel_iterate c n).level
    have step := here_next last
    rw [level] at step
    rw [Function.iterate_succ_apply']
    rcases ih fun index hindex => current index (Nat.lt_succ_of_lt hindex) with hindex | hhere
    · rw [hindex] at step
      exact step
    · -- There is no value behind one that left the level.
      have inside := (hasCurrent_iff.1 last).1
      rw [level, hhere] at inside
      exact absurd inside (Nat.lt_irrefl _)

/-- Behind a value or more, fewer siblings remain. -/
lemma remaining_iterate {limit : Nat} (some : 0 < n)
    (current : ∀ index < n, (Cursor.next^[index] c).hasCurrent = true)
    (enough : c.level.count - c.here.index ≤ limit + 1) :
    (Cursor.next^[n] c).level.count - (Cursor.next^[n] c).here.index ≤ limit := by
  rw [(sameLevel_iterate c n).level]
  rcases here_iterate current with hindex | hhere
  · omega
  · rw [hhere, Nat.sub_self]
    exact Nat.zero_le _

/-- Where there is no value, none is met. -/
lemma Meets.none (h : c.hasCurrent = false) : c.Meets 0 :=
  ⟨nofun, h⟩

/-- Values behind values follow them without a gap. -/
lemma current_add (before : ∀ index < m, (Cursor.next^[index] c).hasCurrent = true)
    (behind : ∀ index < n, (Cursor.next^[index] (Cursor.next^[m] c)).hasCurrent = true) :
    ∀ index < m + n, (Cursor.next^[index] c).hasCurrent = true := by
  intro index hindex
  by_cases hm : index < m
  · exact before index hm
  · have current := behind (index - m) (by omega)
    rw [← Function.iterate_add_apply, Nat.sub_add_cancel (Nat.le_of_not_lt hm)] at current
    exact current

/-- Values met behind other ones are met with them. -/
lemma Meets.after (h : (Cursor.next^[m] c).Meets n)
    (before : ∀ index < m, (Cursor.next^[index] c).hasCurrent = true) : c.Meets (m + n) where
  current := current_add before h.current
  behind := by
    rw [Nat.add_comm, Function.iterate_add_apply]
    exact h.behind

/-- From the first sibling on, no more values are met than declared, and all those that are declared
just if the level is full. -/
lemma Meets.le_count (h : c.Meets n) (first : c.here.index = 0) :
    n ≤ c.level.count ∧ (n = c.level.count ↔ c.Full) := by
  have level (index : Nat) := (sameLevel_iterate c index).level
  have inside (index : Nat) (hindex : index < n) := hasCurrent_iff.1 (h.current index hindex)
  have le : n ≤ c.level.count := by
    by_contra more
    have last := (inside c.level.count (by omega)).1
    rw [level] at last
    have passed (index : Nat) (hindex : index < c.level.count) := h.current index (by omega)
    rcases here_iterate passed with hindex | hhere
    · omega
    · rw [hhere] at last
      exact absurd last (Nat.lt_irrefl _)
  refine ⟨le, fun hcount index hindex => ?_, fun full => ?_⟩
  · have covered := (inside index (by omega)).2
    rw [level] at covered
    exact covered
  · by_contra fewer
    have less : n < c.level.count := by omega
    have covered := full n less
    rcases here_iterate h.current with hindex | hhere
    · have current : (Cursor.next^[n] c).hasCurrent = true := by
        rw [hasCurrent_iff, level]
        exact ⟨by omega, covered⟩
      rw [h.behind] at current
      cases current
    · rw [hhere] at covered
      exact absurd covered (Nat.lt_irrefl _)

/-- What is met inside a value is counted against what the value declares. -/
lemma Counts.of_meets {width count : Nat} (henter : c.enter = .ok inner)
    (h : inner.Meets (width * count)) : c.Counts width count := by
  obtain ⟨_, first, _, _, _⟩ := enter_levels henter
  exact ⟨inner, henter, h, h.le_count first⟩

end Cursor

namespace Walk

variable {ε α β : Type} {walk : Walk ε α} {m n : Nat}

/-- A walk that, where it gives something, passes `n` siblings, each of them a value. -/
def Takes (walk : Walk ε α) (n : Nat) : Prop :=
  ∀ c value c', walk c = (.ok value, c') →
    c' = Cursor.next^[n] c ∧ ∀ index < n, (Cursor.next^[index] c).hasCurrent = true

/-- A walk that does not move passes no siblings. -/
lemma Rests.takes (h : Rests walk) : Takes walk 0 := by
  intro c value c' hw
  have hc := h c
  rw [hw] at hc
  exact ⟨hc, nofun⟩

/-- A walk to the next sibling passes one, if it gives something at a value only. -/
lemma Advances.takes (h : Advances walk) (needs : Needs walk) : Takes walk 1 := by
  intro c value c' hw
  have hc := h c
  have current := needs c value (congrArg Prod.fst hw)
  rw [hw] at hc
  refine ⟨hc, fun index hindex => ?_⟩
  rw [Nat.lt_one_iff.1 hindex]
  exact current

/-- The siblings that two walks pass add up. -/
lemma Takes.bind {following : α → Walk ε β} (h : Takes walk m)
    (h' : ∀ value, Takes (following value) n) : Takes (walk >>= following) (m + n) := by
  intro c value c' hvalue
  rw [bind_apply] at hvalue
  cases hw : walk c with
  | mk result middle =>
    rw [hw] at hvalue
    cases result with
    | error error => cases hvalue
    | ok first =>
      obtain ⟨rfl, before⟩ := h c first middle hw
      obtain ⟨rfl, behind⟩ := h' first _ value c' hvalue
      refine ⟨?_, Cursor.current_add before behind⟩
      rw [Nat.add_comm, Function.iterate_add_apply]

/-- A walk that does not move adds none to what the walk behind it passes. -/
lemma Takes.after {following : α → Walk ε β} (rests : Rests walk)
    (h : ∀ value, Takes (following value) n) : Takes (walk >>= following) n := by
  have passed := rests.takes.bind h
  rw [Nat.zero_add] at passed
  exact passed

/-- Steps that pass `width` siblings each give as many values as there are such parts. -/
lemma Takes.collectFrom {step : Nat → Walk ε α} {width limit done : Nat} {taken values : List α}
    {c : Cursor} (h : ∀ index, Takes (step index) width) (some : 0 < width)
    (enough : c.level.count - c.here.index ≤ limit)
    (hv : (collectFrom step limit taken done c).1 = .ok values) :
    ∃ n, values.length = taken.length + n ∧ c.Meets (width * n) := by
  induction limit generalizing taken done c with
  | zero =>
    cases hv
    have exhausted : c.hasCurrent = false := by
      rw [← Bool.not_eq_true, Cursor.hasCurrent_iff]
      omega
    exact ⟨0, List.length_reverse, .none exhausted⟩
  | succ limit ih =>
    unfold Walk.collectFrom at hv
    split at hv
    · cases hs : step done c with
      | mk result c' =>
        rw [hs] at hv
        cases result with
        | error error => cases hv
        | ok value =>
          obtain ⟨rfl, passed⟩ := h done c value c' hs
          -- A step passes a sibling or more, so the limit goes down no faster than what is left.
          have fewer := Cursor.remaining_iterate some passed enough
          obtain ⟨n, hlength, meets⟩ := ih fewer hv
          refine ⟨n + 1, ?_, ?_⟩
          · rw [hlength, List.length_cons]
            omega
          · rw [Nat.mul_succ, Nat.add_comm]
            exact meets.after passed
    · rename_i exhausted
      cases hv
      exact ⟨0, List.length_reverse, .none (Bool.eq_false_iff.2 exhausted)⟩

/-- A loop meets all siblings of its level, as many for each value as a step passes. -/
lemma Takes.collect {step : Nat → Walk ε α} {width : Nat} {values : List α} {c : Cursor}
    (h : ∀ index, Takes (step index) width) (some : 0 < width)
    (hv : (collect step c).1 = .ok values) : c.Meets (width * values.length) := by
  obtain ⟨n, hlength, meets⟩ := Takes.collectFrom h some (Nat.le_refl _) hv
  rw [List.length_nil, Nat.zero_add] at hlength
  rw [hlength]
  exact meets

/-- Looking for a descriptor needs a value to look at. -/
lemma Needs.descriptor? [OfWireError ε] : Needs (descriptor? : Walk ε (Option Scalar)) :=
  Needs.kind.bind

/-- What follows a look at a known kind goes on with that kind. -/
lemma ok_of_kind [OfWireError ε] {following : Kind → Walk ε β} {c : Cursor} {found : Kind}
    {value : β} (hkind : c.kind = .ok found)
    (h : ((kind >>= following) c).1 = .ok value) : (following found c).1 = .ok value := by
  rw [bind_kind_of_eq hkind] at h
  exact h

end Walk

open Walk (Rests Needs Takes)

/-- Lists and arrays have an item for each sibling, maps for every two, and nothing else has items.
-/
lemma Kind.perItem?_eq_some {kind : Kind} {width : Nat} (h : kind.perItem? = some width) :
    (kind = .list ∨ kind = .array) ∧ width = 1 ∨ kind = .map ∧ width = 2 := by
  unfold perItem? at h
  split at h
  · exact .inl ⟨.inl rfl, (Option.some.inj h).symm⟩
  · exact .inl ⟨.inr rfl, (Option.some.inj h).symm⟩
  · exact .inr ⟨rfl, (Option.some.inj h).symm⟩
  · cases h

/-- What has items is compound. -/
lemma Kind.isCompound_of_perItem? {kind : Kind} {width : Nat} (h : kind.perItem? = some width) :
    kind.isCompound = true := by
  obtain ⟨rfl | rfl, _⟩ | ⟨rfl, _⟩ := perItem?_eq_some h
  · rfl
  · rfl
  · rfl

/-- If the current value is a list, an array or a map, the other one is the collection of its items. -/
def Cursor.Itemizes (c : Cursor) (value : Value) : Prop :=
  ∀ found width, c.kind = .ok found → found.perItem? = some width →
    ∃ items, value = .collection items ∧ c.Counts width items.length

namespace Decoder

variable {decoder : Decoder} {child : Reading} {left : Nat} {path : Path} {c : Cursor}
  {found : Kind} {value : Value}

/-- A value is given only where there is one, whatever it is read as. -/
lemma needs_readValue (left : Nat) (name : String) (path : Path) :
    Needs (decoder.readValue left name path) := by
  cases left with
  | zero => exact .fail
  | succ left =>
    change Needs (decoder.readUse left (decoder.readValue left) name path)
    unfold readUse
    split
    · exact Needs.descriptor?.bind
    · exact Needs.kind.bind
    · exact Needs.kind.bind
    · exact Needs.kind.bind
    · exact .fail

/-- A value that is given is passed as one sibling. -/
lemma takes_readValue (left : Nat) (name : String) (path : Path) :
    Takes (Walk.thenNext (decoder.readValue left name path)) 1 :=
  (rests_readValue left name path).thenNext.takes (needs_readValue left name path).thenNext

/-- A kind that is not refused is one of those expected. -/
lemma mem_of_expectKind {expected : List Kind} {done : Unit} (hkind : c.kind = .ok found)
    (h : (expectKind path expected c).1 = .ok done) : found ∈ expected := by
  have h := Walk.ok_of_kind hkind h
  split at h
  · cases h
  · rename_i member
    exact Decidable.not_not.1 member

/-- A collection of items has one for each sibling inside the value. -/
lemma counts_readItems {item : Path → ValueWalk Value}
    (h : ∀ path, Takes (Walk.thenNext (item path)) 1)
    (hvalue : (readItems item path c).1 = .ok value) :
    ∃ items, value = .collection items ∧ c.Counts 1 items.length := by
  obtain ⟨inner, henter, hinner⟩ := Walk.exists_of_inside hvalue
  obtain ⟨items, c', hitems, hreturn⟩ := Walk.exists_of_bind hinner
  cases hreturn
  have meets := Takes.collect (fun _ => h _) Nat.one_pos (congrArg Prod.fst hitems)
  exact ⟨items, rfl, .of_meets henter meets⟩

/-- A collection of entries has one for every two siblings inside the value. -/
lemma counts_readEntries {first second : Path → ValueWalk Value}
    (h : ∀ path, Takes (Walk.thenNext (first path)) 1)
    (h' : ∀ path, Takes (Walk.thenNext (second path)) 1)
    (hvalue : (readEntries first second path c).1 = .ok value) :
    ∃ entries, value = .collection entries ∧ c.Counts 2 entries.length := by
  obtain ⟨inner, henter, hinner⟩ := Walk.exists_of_inside hvalue
  obtain ⟨entries, c', hentries, hreturn⟩ := Walk.exists_of_bind hinner
  cases hreturn
  have step (index : Nat) : Takes (do
      let key ← Walk.thenNext (first (path.push (.key index)))
      let value ← Walk.thenNext (second (path.push (.value index)))
      return Value.entry key value) 2 :=
    Takes.bind (h _) fun _ => Takes.bind (h' _) fun _ => (Rests.pure _).takes
  have meets := Takes.collect step Nat.two_pos (congrArg Prod.fst hentries)
  exact ⟨entries, rfl, .of_meets henter meets⟩

section Child

variable (h : ∀ name path, Takes (Walk.thenNext (child name path)) 1)

include h

/-- A list, an array or a map without a descriptor gives its items. -/
lemma itemizes_readPlain (hvalue : (decoder.readPlain left child path c).1 = .ok value) :
    c.Itemizes value := by
  intro found width hkind hwidth
  have hvalue := Walk.ok_of_kind hkind hvalue
  obtain ⟨rfl | rfl, rfl⟩ | ⟨rfl, rfl⟩ := Kind.perItem?_eq_some hwidth
  · obtain ⟨_, _, hitems⟩ := Walk.exists_of_rests built_goDeeper.rests hvalue
    exact counts_readItems (h _) hitems
  · obtain ⟨_, _, hitems⟩ := Walk.exists_of_rests built_goDeeper.rests hvalue
    exact counts_readItems (h _) hitems
  · obtain ⟨_, _, hentries⟩ := Walk.exists_of_rests built_goDeeper.rests hvalue
    exact counts_readEntries (h _) (h _) hentries

/-- A list or an array gives its items as elements of a type. -/
lemma itemizes_readElements {element : String}
    (hvalue : (decoder.readElements left child element path c).1 = .ok value) :
    c.Itemizes value := by
  intro found width hkind hwidth
  have hvalue := Walk.ok_of_kind hkind hvalue
  split at hvalue
  · rename_i hnull
    rw [hnull] at hwidth
    cases hwidth
  · obtain ⟨_, hexpected, hvalue⟩ := Walk.exists_of_rests (built_expectKind _).rests hvalue
    obtain ⟨_, _, hitems⟩ := Walk.exists_of_rests built_goDeeper.rests hvalue
    have hlist := mem_of_expectKind hkind hexpected
    obtain ⟨_, rfl⟩ | ⟨rfl, _⟩ := Kind.perItem?_eq_some hwidth
    · exact counts_readItems (h _) hitems
    · exact absurd hlist (by decide)

/-- A map gives its items as entries of a type. What is no map is refused. -/
lemma itemizes_readMap {first second : String}
    (hvalue : (readMap child first second path c).1 = .ok value) : c.Itemizes value := by
  intro found width hkind hwidth
  have hvalue := Walk.ok_of_kind hkind hvalue
  split at hvalue
  · rename_i hnull
    rw [hnull] at hwidth
    cases hwidth
  · obtain ⟨_, hexpected, hentries⟩ := Walk.exists_of_rests (built_expectKind _).rests hvalue
    have hmap := mem_of_expectKind hkind hexpected
    cases List.mem_singleton.1 hmap
    cases hwidth
    exact counts_readEntries (h _) (h _) hentries

/-- Behind its descriptor, a value of a list or a map type has its items. -/
lemma itemizes_readDeclared {type : TypeDef} (hkind : c.kind = .ok .described)
    (hbody : type.nullValue = .empty)
    (hvalue : (decoder.readDeclared left child type path c).1 = .ok value) :
    ∃ inner, c.enter = .ok inner ∧ inner.next.Itemizes value := by
  have hvalue := Walk.ok_of_kind hkind hvalue
  obtain ⟨_, _, hvalue⟩ := Walk.exists_of_rests built_goDeeper.rests hvalue
  obtain ⟨inner, henter, hvalue⟩ := Walk.exists_of_inside hvalue
  obtain ⟨descriptor, _, hvalue⟩ := Walk.exists_of_look hvalue
  obtain ⟨_, _, hvalue⟩ := Walk.exists_of_rests (built_checkDescriptor _ _).rests hvalue
  obtain ⟨_, _, hnext, hvalue⟩ := Walk.exists_of_bind hvalue
  cases hnext
  refine ⟨inner, henter, ?_⟩
  unfold TypeDef.nullValue at hbody
  unfold readBody at hvalue
  cases hcase : type.body with
  | composite fields =>
    rw [hcase] at hbody
    cases hbody
  | restricted source restriction =>
    rw [hcase] at hbody hvalue
    cases restriction with
    | list outer? element => exact itemizes_readElements h hvalue
    | map outer key value => exact itemizes_readMap h hvalue
    | enumeration choices => cases hbody

/-- Whatever a name stands for, what is read as it gives its items. -/
lemma itemizes_readUse {name : String}
    (hvalue : (decoder.readUse left child name path c).1 = .ok value) : c.Itemizes value := by
  intro found width hkind hwidth
  unfold readUse at hvalue
  cases huse : decoder.schema.resolve? name with
  | none =>
    rw [huse] at hvalue
    cases hvalue
  | some use =>
    rw [huse] at hvalue
    cases use with
    | any =>
      have plain : found ≠ .described := by
        rintro rfl
        cases hwidth
      change (decoder.readAny left child path c).1 = .ok value at hvalue
      rw [readAny_of_plain hkind plain] at hvalue
      exact itemizes_readPlain h hvalue found width hkind hwidth
    | primitive kind =>
      obtain ⟨_, _, hvalue⟩ := Walk.exists_of_look hvalue
      split at hvalue
      · cases hvalue
      · -- A scalar has no items.
        obtain ⟨scalar, rfl, rfl⟩ := exists_of_scalar hkind hvalue
        have compound := Kind.isCompound_of_perItem? hwidth
        rw [scalar.isCompound_kind] at compound
        cases compound
    | declared type =>
      have hvalue := Walk.ok_of_kind hkind hvalue
      obtain ⟨rfl | rfl, _⟩ | ⟨rfl, _⟩ := Kind.perItem?_eq_some hwidth
      · cases hvalue
      · cases hvalue
      · cases hvalue
    | array element => exact itemizes_readElements h hvalue found width hkind hwidth

end Child

/-- So it does at each depth that is left. -/
lemma itemizes_readValue {name : String}
    (hvalue : (decoder.readValue left name path c).1 = .ok value) : c.Itemizes value := by
  cases left with
  | zero => cases hvalue
  | succ left => exact itemizes_readUse (takes_readValue left) hvalue

end Decoder

namespace SchemaSection

variable {α : Type} {c : Cursor}

/-- A text that is read is passed as one sibling. -/
lemma takes_readText : Takes readText 1 :=
  built_readText.advances.takes (.thenNext (.read String))

/-- So is a field. -/
lemma takes_readField : Takes readField 1 :=
  built_readField.advances.takes (needs_describedList _ _)

/-- So is a choice. -/
lemma takes_readChoice : Takes readChoice 1 :=
  built_readChoice.advances.takes (needs_describedList _ _)

/-- A type is passed where it is read; what is no type need not be. -/
lemma takes_readType : Takes readType 1 := by
  have rests : Rests (Walk.descriptor? : SchemaWalk (Option Scalar)) := .descriptor?
  refine Takes.after rests fun descriptor? => ?_
  split
  · exact built_readComposite.advances.takes (needs_describedList _ _)
  · exact built_readRestricted.advances.takes (needs_describedList _ _)
  · intro c type c' h
    rw [Walk.bind_next] at h
    cases h

/-- A list in a schema gives one element for each sibling inside it. -/
lemma counts_listOf {what : String} {element : SchemaWalk α} {values : List α} {found : Kind}
    {width : Nat} (h : Takes element 1) (hkind : c.kind = .ok found)
    (hwidth : found.perItem? = some width) (hvalues : (listOf what element c).1 = .ok values) :
    c.Counts width values.length := by
  rw [listOf, Walk.fst_thenNext] at hvalues
  have hvalues := Walk.ok_of_kind hkind hvalues
  have list (hinside : (Walk.inside (Walk.collect fun _ => element) c).1 = .ok values) :
      c.Counts 1 values.length := by
    obtain ⟨inner, henter, hinner⟩ := Walk.exists_of_inside hinside
    exact .of_meets henter (Takes.collect (fun _ => h) Nat.one_pos hinner)
  obtain ⟨rfl | rfl, rfl⟩ | ⟨rfl, _⟩ := Kind.perItem?_eq_some hwidth
  · exact list hvalues
  · exact list hvalues
  · cases hvalues

end SchemaSection

/-- A list, an array or a map is decoded to the collection of its items, whatever type it is decoded
as and whether or not a descriptor stands before it, and a list in a schema section is read to its
elements; the items are as many as the header declares just if the bytes of the level hold the start
of each declared sibling, and else they are fewer. -/
theorem itemizes_of_ok (decoder : Decoder) (left : Nat) (path : Path) (c : Cursor) :
    (∀ name value, (decoder.readValue left name path c).1 = .ok value → c.Itemizes value) ∧
    -- Lists and maps are the types for which null stands for the empty collection.
    (∀ type value, c.kind = .ok .described → TypeDef.nullValue type = .empty →
      (decoder.readDeclared left (decoder.readValue left) type path c).1 = .ok value →
      ∃ inner, c.enter = .ok inner ∧ inner.next.Itemizes value) ∧
    (∀ (α : Type) (element : SchemaSection.SchemaWalk α) what values found width,
      Takes element 1 → c.kind = .ok found → found.perItem? = some width →
      (SchemaSection.listOf what element c).1 = .ok values → c.Counts width values.length) ∧
    Takes SchemaSection.readText 1 ∧ Takes SchemaSection.readField 1 ∧
    Takes SchemaSection.readChoice 1 ∧ Takes SchemaSection.readType 1 := by
  refine ⟨fun name value hvalue => ?_, fun type value hkind hbody hvalue => ?_, ?_, ?_⟩
  · exact Decoder.itemizes_readValue hvalue
  · exact Decoder.itemizes_readDeclared (Decoder.takes_readValue left) hkind hbody hvalue
  · intro α element what values found width passes hkind hwidth hvalues
    exact SchemaSection.counts_listOf passes hkind hwidth hvalues
  · exact ⟨SchemaSection.takes_readText, SchemaSection.takes_readField,
      SchemaSection.takes_readChoice, SchemaSection.takes_readType⟩

/-- A decoder without types. -/
def plainDecoder : Decoder :=
  ⟨.empty, {}⟩

/-- A map of one entry, which has a null for its key and for its value. -/
def nullEntry : ByteArray :=
  ⟨#[0xc1, 0x03, 0x02, 0x40, 0x40]⟩

/-- A map of two siblings is one entry. -/
theorem itemizes_nullEntry :
    (plainDecoder.readValue 2 TypeName.any (.start "$") (.ofBytes nullEntry)).1 =
      .ok (.collection [.entry (.single .null) (.single .null)]) ∧
    (Cursor.ofBytes nullEntry).Counts 2 1 := by
  have read : (plainDecoder.readValue 2 TypeName.any (.start "$") (.ofBytes nullEntry)).1 =
      .ok (.collection [.entry (.single .null) (.single .null)]) := rfl
  obtain ⟨itemizes, _⟩ := itemizes_of_ok plainDecoder 2 (.start "$") (.ofBytes nullEntry)
  obtain ⟨entries, hentries, counts⟩ := itemizes _ _ read .map 2 rfl rfl
  cases hentries
  exact ⟨read, counts⟩

/-- A list of three values, as it says, of which only a null is there. -/
def shortList : ByteArray :=
  ⟨#[0xc0, 0x02, 0x03, 0x40]⟩

/-- A map of three keys and values, as it says, of which only an entry of two nulls is there. -/
def shortMap : ByteArray :=
  ⟨#[0xc1, 0x03, 0x03, 0x40, 0x40]⟩

/-- A list of two names, as it says, of which only one is there. -/
def shortNames : ByteArray :=
  ⟨#[0xc0, 0x04, 0x02, 0xa1, 0x01, 0x6b]⟩

/-- A list, a map and a list of names that declare more than they hold are read without an error. -/
theorem reads_fewer_than_declared :
    (∃ inner, (Cursor.ofBytes shortList).enter = .ok inner ∧ inner.level.count = 3) ∧
    (plainDecoder.decodeAny (.ofBytes shortList)).1 = .ok (.collection [.single .null]) ∧
    (∃ inner, (Cursor.ofBytes shortMap).enter = .ok inner ∧ inner.level.count = 3) ∧
    (plainDecoder.decodeAny (.ofBytes shortMap)).1 =
      .ok (.collection [.entry (.single .null) (.single .null)]) ∧
    (∃ inner, (Cursor.ofBytes shortNames).enter = .ok inner ∧ inner.level.count = 2) ∧
    (SchemaSection.readNames (.ofBytes shortNames)).1 = .ok ["k"] :=
  ⟨⟨_, rfl, rfl⟩, rfl, ⟨_, rfl, rfl⟩, rfl, ⟨_, rfl, rfl⟩, rfl⟩

end AmqpBlob
