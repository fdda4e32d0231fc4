import AmqpBlob.Schema
import Mathlib.Data.List.Induction
import Mathlib.Data.List.Nodup
import Mathlib.Tactic.Lemma

/-!
# The keys of a schema

Looking a type up by its name, its symbol or its code gives what going through the types in the order
of their declarations gives. `Indexed` says so for the three sets of keys, and `indexed_ofTypes` that
every schema that is put together has them. `ofTypes_scan` says besides which types make a schema, and
which one is refused else.
-/

namespace AmqpBlob.Schema

/-- Each set of keys finds the first type that was declared with the key. -/
structure Indexed (schema : Schema) : Prop where
  /-- Names find the type of the name. -/
  byName (name : String) : schema.byName[name]? = schema.types.find? (·.name == name)
  /-- Symbols find the first type with the symbol. -/
  bySymbol (symbol : String) :
    schema.bySymbol[symbol]? = schema.types.find? (·.descriptor.name? == some symbol)
  /-- Codes find the first type with the code. -/
  byCode (code : UInt64) :
    schema.byCode[code]? = schema.types.find? (·.descriptor.code? == some code)

/-- The schema without types has its indexes in step. -/
lemma indexed_empty : empty.Indexed where
  byName _ := Std.TreeMap.getElem?_emptyc
  bySymbol _ := Std.TreeMap.getElem?_emptyc
  byCode _ := Std.TreeMap.getElem?_emptyc

/-- One more type behind the others is found if none of them is. -/
lemma find?_append_singleton (types : List TypeDef) (type : TypeDef) (wanted : TypeDef → Bool) :
    (types ++ [type]).find? wanted =
      (types.find? wanted).or (if wanted type then some type else none) := by
  rw [List.find?_append, List.find?_singleton]

/-- A key that is added unless it is there leads to where it led, and else to what was added. -/
lemma getElem?_insertIfNew {κ : Type} [Ord κ] [Std.TransOrd κ] [Std.LawfulEqOrd κ] [DecidableEq κ]
    (keys : Std.TreeMap κ TypeDef) (new key : κ) (type : TypeDef) :
    (keys.insertIfNew new type)[key]? = keys[key]?.or (if new = key then some type else none) := by
  rw [Std.TreeMap.getElem?_insertIfNew]
  simp only [Std.compare_eq_iff_eq, Std.TreeMap.mem_iff_isSome_getElem?]
  by_cases hkey : new = key
  · subst hkey
    cases hold : keys[new]? with
    | none => simp
    | some old => simp
  · simp [hkey]

/-- A schema keeps its keys when a type is added. -/
lemma Indexed.add {schema added : Schema} {type : TypeDef} (h : schema.Indexed)
    (hadd : schema.add type = .ok added) : added.Indexed := by
  unfold Schema.add at hadd
  split at hadd
  · cases hadd
  · rename_i hname
    cases hadd
    refine ⟨fun name => ?_, fun symbol => ?_, fun code => ?_⟩
    · rw [find?_append_singleton, ← h.byName name]
      simp only [Std.TreeMap.getElem?_insert, Std.compare_eq_iff_eq]
      by_cases heq : type.name = name
      -- No type has the new name, so nothing hides the added type.
      · subst heq
        have hnone := Std.TreeMap.getElem?_eq_none hname
        simp [hnone]
      · simp [heq]
    · rw [find?_append_singleton, ← h.bySymbol symbol]
      cases hnew : type.descriptor.name? with
      | none => simp
      | some new => simp [getElem?_insertIfNew]
    · rw [find?_append_singleton, ← h.byCode code]
      cases hnew : type.descriptor.code? with
      | none => simp
      | some new => simp [getElem?_insertIfNew]

/-- What adding a type keeps, adding a list of types keeps. -/
lemma holds_of_foldlM {holds : Schema → Prop}
    (keeps : ∀ schema type added, holds schema → schema.add type = .ok added → holds added)
    {schema result : Schema} {types : List TypeDef} (h : holds schema)
    (hfold : types.foldlM Schema.add schema = .ok result) : holds result := by
  induction types generalizing schema with
  | nil =>
    cases hfold
    exact h
  | cons type rest ih =>
    rw [List.foldlM_cons] at hfold
    cases hadd : schema.add type with
    | error error =>
      rw [hadd] at hfold
      cases hfold
    | ok added =>
      rw [hadd] at hfold
      exact ih (keeps schema type added h hadd) hfold

/-- Every schema that is put together of a list of types finds them by their keys. -/
theorem indexed_ofTypes {types : List TypeDef} {schema : Schema}
    (h : ofTypes types = .ok schema) : schema.Indexed :=
  holds_of_foldlM (fun _ _ _ => Indexed.add) indexed_empty h

/-- A type is added behind types of other names only. -/
lemma Indexed.nodup_add {schema added : Schema} {type : TypeDef} (h : schema.Indexed)
    (distinct : (schema.types.map (·.name)).Nodup) (hadd : schema.add type = .ok added) :
    (added.types.map (·.name)).Nodup := by
  unfold Schema.add at hadd
  split at hadd
  · cases hadd
  next hname =>
    cases hadd
    rw [Std.TreeMap.mem_iff_isSome_getElem?, h.byName, Option.not_isSome_iff_eq_none,
      List.find?_eq_none] at hname
    rw [List.map_append, List.map_singleton]
    refine List.Nodup.append distinct (List.nodup_singleton _) fun name member same => ?_
    obtain ⟨other, hother, rfl⟩ := List.mem_map.1 member
    exact hname other hother (beq_iff_eq.2 (List.mem_singleton.1 same))

/-- No two types of a schema that is put together have one name. -/
theorem nodup_ofTypes {types : List TypeDef} {schema : Schema} (h : ofTypes types = .ok schema) :
    (schema.types.map (·.name)).Nodup := by
  have keeps (schema : Schema) (type : TypeDef) (added : Schema)
      (h : schema.Indexed ∧ (schema.types.map (·.name)).Nodup) (hadd : schema.add type = .ok added) :
      added.Indexed ∧ (added.types.map (·.name)).Nodup :=
    ⟨h.1.add hadd, h.1.nodup_add h.2 hadd⟩
  exact (holds_of_foldlM keeps ⟨indexed_empty, List.nodup_nil⟩ h).2

/-- A type is found by its name if no other one has it. -/
lemma Indexed.get?_eq_some_iff {schema : Schema} (h : schema.Indexed)
    (distinct : (schema.types.map (·.name)).Nodup) {name : String} {type : TypeDef} :
    schema.get? name = some type ↔ type ∈ schema.types ∧ type.name = name := by
  unfold Schema.get?
  rw [h.byName]
  constructor
  · intro hfind
    have same := List.find?_some hfind
    exact ⟨List.mem_of_find?_eq_some hfind, beq_iff_eq.1 same⟩
  · rintro ⟨member, rfl⟩
    cases hfind : schema.types.find? (·.name == type.name) with
    | none =>
      have := List.find?_eq_none.1 hfind type member
      exact absurd (beq_self_eq_true _) this
    | some found =>
      have same := List.find?_some hfind
      rw [List.inj_on_of_nodup_map distinct (List.mem_of_find?_eq_some hfind) member
        (beq_iff_eq.1 same)]

/-- A type whose name is new is added behind the others. -/
lemma Indexed.exists_add {schema : Schema} {type : TypeDef} (h : schema.Indexed)
    (fresh : type.name ∉ schema.types.map (·.name)) :
    ∃ added, schema.add type = .ok added ∧ added.types = schema.types ++ [type] := by
  have hname : type.name ∉ schema.byName := by
    have hfind : schema.types.find? (·.name == type.name) = none := by
      refine List.find?_eq_none.2 fun other member heq => fresh ?_
      rw [← eq_of_beq heq]
      exact List.mem_map_of_mem member
    rw [Std.TreeMap.mem_iff_isSome_getElem?, h.byName, hfind]
    exact Bool.false_ne_true
  unfold Schema.add
  rw [if_neg hname]
  exact ⟨_, rfl, rfl⟩

/-- Types whose names are new and differ are added behind the others. -/
lemma Indexed.exists_foldlM {schema : Schema} {types : List TypeDef} (h : schema.Indexed)
    (distinct : ((schema.types ++ types).map (·.name)).Nodup) :
    ∃ result, types.foldlM Schema.add schema = .ok result ∧
      result.types = schema.types ++ types := by
  induction types generalizing schema with
  | nil => exact ⟨schema, rfl, (List.append_nil _).symm⟩
  | cons type rest ih =>
    have fresh : type.name ∉ schema.types.map (·.name) := by
      rw [List.map_append, List.nodup_append] at distinct
      intro member
      exact distinct.2.2 _ member _ List.mem_cons_self rfl
    obtain ⟨added, hadd, htypes⟩ := h.exists_add fresh
    rw [List.append_cons, ← htypes] at distinct
    obtain ⟨result, hfold, hresult⟩ := ih (h.add hadd) distinct
    refine ⟨result, ?_, ?_⟩
    · rw [List.foldlM_cons, hadd]
      exact hfold
    · rw [hresult, htypes, List.append_assoc, List.singleton_append]

/-- Types whose names differ make a schema. -/
theorem exists_ofTypes {types : List TypeDef} (distinct : (types.map (·.name)).Nodup) :
    ∃ schema, ofTypes types = .ok schema ∧ schema.types = types :=
  indexed_empty.exists_foldlM distinct

/-- A descriptor finds the first type that accepts it. -/
lemma Indexed.find?_eq {schema : Schema} (h : schema.Indexed) (wire : Scalar) :
    schema.find? wire = schema.types.find? (·.descriptor.accepts wire) := by
  cases wire with
  | symbol name | string name =>
    rw [find?, h.bySymbol]
    simp only [Descriptor.accepts, beq_eq_decide]
  | ulong code =>
    rw [find?, h.byCode]
    simp only [Descriptor.accepts, beq_eq_decide]
  -- No other scalar is a descriptor, and no type accepts it as one.
  | _ => exact (List.find?_eq_none.2 fun _ _ => Bool.false_ne_true).symm

/-- A type that a descriptor stands for is one of the schema's types. -/
lemma Indexed.mem_of_find? {schema : Schema} (h : schema.Indexed) {descriptor : Scalar}
    {type : TypeDef} (hfind : schema.find? descriptor = some type) : type ∈ schema.types := by
  rw [h.find?_eq] at hfind
  exact List.mem_of_find?_eq_some hfind

/-- A descriptor that finds a type is one of the type's own. -/
lemma Indexed.accepts_of_find? {schema : Schema} (h : schema.Indexed) {descriptor : Scalar}
    {type : TypeDef} (hfind : schema.find? descriptor = some type) :
    type.descriptor.accepts descriptor = true := by
  rw [h.find?_eq] at hfind
  have accepts := List.find?_some hfind
  exact accepts

/-- A descriptor that a type accepts finds a type. -/
lemma Indexed.exists_find? {schema : Schema} (h : schema.Indexed) {descriptor : Scalar}
    {type : TypeDef} (member : type ∈ schema.types) (accepts : type.descriptor.accepts descriptor = true) :
    ∃ first, schema.find? descriptor = some first := by
  rw [h.find?_eq, ← Option.isSome_iff_exists, List.find?_isSome]
  exact ⟨type, member, accepts⟩

/-! ## Names that occur twice -/

/-- The type is the first one, in the order of the declarations, whose name occurred before. -/
def FirstRepeated (types : List TypeDef) (type : TypeDef) : Prop :=
  ∃ before after, types = before ++ type :: after ∧ (before.map (·.name)).Nodup ∧
    type.name ∈ before.map (·.name)

/-- If names do not all differ, there is a first one that occurred before. -/
lemma nodup_or_repeated (types : List TypeDef) :
    (types.map (·.name)).Nodup ∨ ∃ type, FirstRepeated types type := by
  induction types using List.reverseRecOn with
  | nil => exact .inl List.nodup_nil
  | append_singleton types last ih =>
    rcases ih with distinct | ⟨type, before, after, rfl, repeated⟩
    · by_cases occurred : last.name ∈ types.map (·.name)
      · exact .inr ⟨last, types, [], rfl, distinct, occurred⟩
      · rw [List.map_append]
        refine .inl (distinct.append (List.nodup_singleton _) ?_)
        exact List.disjoint_singleton.2 occurred
    · refine .inr ⟨type, before, after ++ [last], ?_, repeated⟩
      rw [List.append_assoc, List.cons_append]

/-- The types before a name that occurred before make a schema, to which its type is not added. -/
lemma ofTypes_of_repeated {types : List TypeDef} {type : TypeDef} (h : FirstRepeated types type) :
    ofTypes types = .error (.duplicateType type.name) := by
  obtain ⟨before, after, rfl, distinct, occurred⟩ := h
  obtain ⟨schema, hschema, htypes⟩ := exists_ofTypes distinct
  have member : type.name ∈ schema.byName := by
    obtain ⟨other, hother, same⟩ := List.mem_map.1 occurred
    rw [Std.TreeMap.mem_iff_isSome_getElem?, (indexed_ofTypes hschema).byName, List.find?_isSome,
      htypes]
    exact ⟨other, hother, beq_iff_eq.2 same⟩
  have refused : schema.add type = .error (.duplicateType type.name) := if_pos member
  rw [ofTypes] at hschema ⊢
  rw [List.foldlM_append, hschema]
  change (type :: after).foldlM add schema = _
  rw [List.foldlM_cons, refused]
  rfl

/-- A schema that is put together has the types it is made of, with names that differ. -/
lemma types_ofTypes {types : List TypeDef} {schema : Schema} (h : ofTypes types = .ok schema) :
    (types.map (·.name)).Nodup ∧ schema.types = types := by
  rcases nodup_or_repeated types with distinct | ⟨type, repeated⟩
  · obtain ⟨other, hother, htypes⟩ := exists_ofTypes distinct
    rw [hother] at h
    cases h
    exact ⟨distinct, htypes⟩
  · rw [ofTypes_of_repeated repeated] at h
    cases h

/-- Types make a schema just if their names differ; else the first one is refused whose name occurred
before. The keys of a schema find what going through its types in the order of their declarations
finds: a name the one type of that name, and a scalar on the wire the first type that accepts it as its
descriptor. -/
theorem ofTypes_scan (types : List TypeDef) :
    ((∃ schema, ofTypes types = .ok schema) ↔ (types.map (·.name)).Nodup) ∧
    (∀ error, ofTypes types = .error error ↔
      ∃ type, FirstRepeated types type ∧ error = .duplicateType type.name) ∧
    ∀ schema, ofTypes types = .ok schema →
      (∀ name type, schema.get? name = some type ↔ type ∈ types ∧ type.name = name) ∧
      ∀ wire, schema.find? wire = types.find? (·.descriptor.accepts wire) := by
  refine ⟨⟨fun ⟨schema, h⟩ => (types_ofTypes h).1, fun distinct => ?_⟩,
    fun error => ⟨fun h => ?_, ?_⟩, fun schema h => ?_⟩
  · obtain ⟨schema, h, _⟩ := exists_ofTypes distinct
    exact ⟨schema, h⟩
  · rcases nodup_or_repeated types with distinct | ⟨type, repeated⟩
    · obtain ⟨schema, hschema, _⟩ := exists_ofTypes distinct
      rw [hschema] at h
      cases h
    · rw [ofTypes_of_repeated repeated] at h
      cases h
      exact ⟨type, repeated, rfl⟩
  · rintro ⟨type, repeated, rfl⟩
    exact ofTypes_of_repeated repeated
  · obtain ⟨distinct, htypes⟩ := types_ofTypes h
    have indexed := indexed_ofTypes h
    rw [← htypes] at distinct ⊢
    exact ⟨fun name type => indexed.get?_eq_some_iff distinct, indexed.find?_eq⟩

/-- A type without fields, under a descriptor. -/
def bareType (name : String) (descriptor : Descriptor) : TypeDef :=
  ⟨⟨name, none, [], descriptor⟩, .composite []⟩

/-- Types of which two share a symbol and two a code; the last one has no descriptor at all. -/
def sharingTypes : List TypeDef :=
  [bareType "Pen" ⟨some "tool", none⟩, bareType "Ink" ⟨some "tool", some 7⟩,
    bareType "Nib" ⟨some "part", some 7⟩, bareType "Cap" ⟨none, none⟩]

/-- Of types that share a symbol or a code the first one is found, and of names that are repeated
the first one is told. -/
theorem ofTypes_scan_sharing :
    (∃ schema, ofTypes sharingTypes = .ok schema ∧
      schema.get? "Nib" = some (bareType "Nib" ⟨some "part", some 7⟩) ∧
      schema.find? (.string "tool") = some (bareType "Pen" ⟨some "tool", none⟩) ∧
      schema.find? (.ulong 7) = some (bareType "Ink" ⟨some "tool", some 7⟩) ∧
      schema.find? (.uint 7) = none) ∧
    ofTypes (sharingTypes ++ [bareType "Ink" ⟨none, none⟩, bareType "Pen" ⟨none, none⟩]) =
      .error (.duplicateType "Ink") := by
  obtain ⟨schema, h⟩ := (ofTypes_scan sharingTypes).1.2 (by decide)
  obtain ⟨get, find⟩ := (ofTypes_scan sharingTypes).2.2 schema h
  refine ⟨⟨schema, h, (get _ _).2 (by decide), ?_, ?_, ?_⟩, ?_⟩
  · exact (find _).trans rfl
  · exact (find _).trans rfl
  · exact (find _).trans rfl
  · refine ((ofTypes_scan _).2.1 _).2 ⟨bareType "Ink" ⟨none, none⟩, ?_, rfl⟩
    exact ⟨sharingTypes, [bareType "Pen" ⟨none, none⟩], rfl, by decide, by decide⟩

end AmqpBlob.Schema
