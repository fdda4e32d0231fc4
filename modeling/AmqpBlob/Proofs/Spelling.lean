import AmqpBlob.Proofs.Brackets
import Mathlib.Data.List.DropRight

/-!
# Names and their parameters

How the name of a generic type is spelled, an outer name and the parameters in brackets behind it, and
what is read off a name that is spelled so. `reassembles` says that names and parameters can be taken
apart and put together again, in both orders.
-/

namespace AmqpBlob

namespace Text

variable {text : List Char}

/-- No blank is a bracket or a comma. -/
lemma ne_of_isBlank {c : Char} (h : isBlank c = true) : c ≠ '<' ∧ c ≠ '>' ∧ c ≠ ',' := by
  refine ⟨?_, ?_, ?_⟩
  all_goals
    rintro rfl
    cases h

/-- Trimming a text at its end takes the blanks there off. -/
lemma trimRight_eq_rdropWhile (text : List Char) : trimRight text = text.rdropWhile isBlank :=
  rfl

/-- A text is trimmed by taking blank characters off its two ends. -/
lemma exists_trim (text : List Char) : ∃ front back, front ++ (trim text ++ back) = text ∧
    (∀ c ∈ front, isBlank c = true) ∧ ∀ c ∈ back, isBlank c = true := by
  refine ⟨text.takeWhile isBlank, (text.dropWhile isBlank).rtakeWhile isBlank, ?_, ?_, ?_⟩
  · rw [trim, trimRight_eq_rdropWhile, List.rdropWhile_append_rtakeWhile,
      List.takeWhile_append_dropWhile]
  · exact fun c member => List.mem_takeWhile_imp member
  · exact fun c member => List.mem_rtakeWhile_imp member

/-- A trimmed text does not start with a blank. -/
lemma dropWhile_trim (text : List Char) : (trim text).dropWhile isBlank = trim text := by
  rw [trim, trimRight_eq_rdropWhile]
  cases kept : text.dropWhile isBlank with
  | nil => rfl
  | cons c rest =>
    have visible : isBlank c = false := by
      have first := List.head?_dropWhile_not isBlank text
      rw [kept] at first
      exact first
    -- The end that is taken off leaves nothing, or a text that still starts with this character.
    rcases List.prefix_cons_iff.1 (List.rdropWhile_prefix isBlank (c :: rest)) with none | ⟨_, some, _⟩
    · rw [none]
      rfl
    · rw [some, List.dropWhile_cons_of_neg (by rw [visible]; decide)]

/-- Trimming a text again changes nothing. -/
lemma trim_trim (text : List Char) : trim (trim text) = trim text := by
  rw [trim, dropWhile_trim, trimRight_eq_rdropWhile, trim, trimRight_eq_rdropWhile,
    List.rdropWhile_idempotent]

/-- A text is blank if and only if it is so when trimmed. -/
lemma all_isBlank_trim (text : List Char) : (trim text).all isBlank = text.all isBlank := by
  obtain ⟨front, back, joined, hfront, hback⟩ := exists_trim text
  conv => rhs; rw [← joined]
  rw [List.all_append, List.all_append, List.all_eq_true.2 hfront, List.all_eq_true.2 hback,
    Bool.true_and, Bool.and_true]

end Text

namespace TypeName

variable {name outer : String} {params : List String} {text : List Char}

/-- The characters of a trimmed parameter are the parameter's trimmed ones. -/
lemma toList_trimmed (text : List Char) : (trimmed text).toList = Text.trim text :=
  String.toList_ofList

/-- A piece stays one when it is trimmed, as no blank opens, closes or separates anything. -/
lemma Piece.trimmed (h : Piece 0 text) : Piece 0 (trimmed text).toList := by
  obtain ⟨front, back, joined, hfront, hback⟩ := Text.exists_trim text
  rw [toList_trimmed]
  rw [← joined, piece_append_iff fun c member => Text.ne_of_isBlank (hfront c member)] at h
  apply h.of_append
  · exact fun member => (Text.ne_of_isBlank (hback _ member)).1 rfl
  · exact fun member => (Text.ne_of_isBlank (hback _ member)).2.1 rfl

/-- A text that may stand between brackets and commas as a parameter. -/
structure Parameter (param : String) : Prop where
  /-- Its brackets match and surround its commas. -/
  piece : Piece 0 param.toList
  /-- There is more to it than blanks. -/
  visible : param.toList.all Text.isBlank = false

/-- The name with `outer` in front and the parameters in brackets behind it. -/
def spelled (outer : String) (params : List String) : String :=
  outer ++ "<" ++ ",".intercalate params ++ ">"

/-- The name is put together of an outer name and pieces, which may be blank. -/
structure Spells (name outer : String) (params : List String) : Prop where
  opens : '<' ∉ outer.toList
  nonempty : params ≠ []
  pieces : ∀ param ∈ params, Piece 0 param.toList
  joined : spelled outer params = name

/-- The last character of a name closes its first bracket: the brackets between the two match. -/
def Encloses (name : String) : Prop :=
  ∃ outer inner, '<' ∉ outer ∧ name.toList = outer ++ '<' :: (inner ++ ['>']) ∧ Balanced 0 inner

/-- The characters of a spelled name: the first bracket opens behind the outer name, and the last
one ends the name. -/
lemma toList_spelled (outer : String) (params : List String) : (spelled outer params).toList =
    outer.toList ++ '<' :: ([','].intercalate (params.map String.toList) ++ ['>']) := by
  rw [spelled, String.toList_append, String.toList_append, String.toList_append,
    String.toList_intercalate]
  simp

/-- What stands between the brackets of a spelled name is cut into the parameters. -/
lemma Spells.pieces?_eq (h : Spells name outer params) :
    pieces? 0 ([','].intercalate (params.map String.toList)) = some (params.map String.toList) := by
  rw [pieces?_eq_some_iff]
  refine ⟨fun none => h.nonempty (List.map_eq_nil_iff.1 none), rfl, ?_⟩
  intro piece member
  obtain ⟨param, hparam, rfl⟩ := List.mem_map.1 member
  exact h.pieces param hparam

/-- The last character closes the first bracket just where parameters can be told. -/
lemma encloses_iff : Encloses name ↔ ∃ outer params, Spells name outer params := by
  constructor
  · rintro ⟨outer, inner, opens, hname, balanced⟩
    obtain ⟨pieces, cut⟩ := Option.isSome_iff_exists.1 (isSome_pieces?_iff.2 balanced)
    obtain ⟨nonempty, joined, hpieces⟩ := pieces?_eq_some_iff.1 cut
    have texts : (pieces.map String.ofList).map String.toList = pieces := by
      rw [List.map_map]
      exact List.map_id'' (fun _ => String.toList_ofList) pieces
    refine ⟨String.ofList outer, pieces.map String.ofList, ?_, ?_, ?_, ?_⟩
    · rw [String.toList_ofList]
      exact opens
    · exact fun none => nonempty (List.map_eq_nil_iff.1 none)
    · intro param member
      obtain ⟨piece, hpiece, rfl⟩ := List.mem_map.1 member
      rw [String.toList_ofList]
      exact hpieces piece hpiece
    · rw [← String.toList_inj, toList_spelled, texts, joined, hname, String.toList_ofList]
  · rintro ⟨outer, params, h⟩
    refine ⟨outer.toList, [','].intercalate (params.map String.toList), h.opens, ?_, ?_⟩
    · rw [← h.joined, toList_spelled]
    · rw [← isSome_pieces?_iff, h.pieces?_eq]
      rfl

/-! ## Taking names apart -/

/-- The first bracket of a name ends what stands before it. -/
lemma span_of_opens {outer rest : List Char} (opens : '<' ∉ outer)
    (hname : name.toList = outer ++ '<' :: rest) :
    name.toList.takeWhile (· ≠ '<') = outer ∧ name.toList.dropWhile (· ≠ '<') = '<' :: rest := by
  have before : ∀ c ∈ outer, decide (c ≠ '<') = true := by
    intro c member
    rw [decide_eq_true_eq]
    rintro rfl
    exact opens member
  rw [hname, List.takeWhile_append_of_pos before, List.dropWhile_append_of_pos before]
  exact ⟨List.append_nil outer, rfl⟩

/-- A name without an opening bracket has no parameters. -/
lemma parts_of_not_mem (closed : '<' ∉ name.toList) :
    parts name = .error ⟨name, .missingParameters⟩ := by
  have none : name.toList.dropWhile (· ≠ '<') = [] := by
    rw [List.dropWhile_eq_nil_iff]
    intro c member
    rw [decide_eq_true_eq]
    rintro rfl
    exact closed member
  rw [parts, none]

/-- A name whose last character does not close its first bracket is refused. -/
lemma parts_of_not_encloses (opens : '<' ∈ name.toList) (apart : ¬Encloses name) :
    parts name = .error ⟨name, .unbalanced⟩ := by
  obtain ⟨outer, rest, hname, hopens⟩ := List.eq_append_cons_of_mem opens
  obtain ⟨_, hrest⟩ := span_of_opens hopens hname
  rw [parts, hrest]
  dsimp only
  by_cases last : rest.getLast? = some '>'
  · obtain ⟨inner, rfl⟩ := List.getLast?_eq_some_iff.1 last
    have none : pieces? 0 inner = none := by
      rw [← Option.not_isSome_iff_eq_none, isSome_pieces?_iff]
      exact fun balanced => apart ⟨outer, inner, hopens, hname, balanced⟩
    rw [if_pos last, List.dropLast_concat, none]
  · rw [if_neg last]

/-- A spelled name is taken apart as it is spelled, unless one of its parameters is blank. -/
lemma Spells.parts_eq (h : Spells name outer params) :
    parts name =
      if params.any (·.toList.all Text.isBlank) then .error ⟨name, .emptyParameter⟩
      else .ok ⟨outer.toList, [','].intercalate (params.map String.toList), params.map String.toList⟩ := by
  have hname := toList_spelled outer params
  rw [h.joined] at hname
  obtain ⟨hbefore, hrest⟩ := span_of_opens h.opens hname
  rw [parts, hrest, hbefore]
  dsimp only
  rw [List.getLast?_concat, if_pos rfl, List.dropLast_concat, h.pieces?_eq]
  dsimp only
  rw [List.any_map]
  rfl

/-- What can become of a name that is taken apart. -/
inductive Takes (name : String) : Except TypeNameError Parts → Prop where
  | missing :
    '<' ∉ name.toList →
    Takes name (.error ⟨name, .missingParameters⟩)
  | unbalanced :
    '<' ∈ name.toList →
    ¬Encloses name →
    Takes name (.error ⟨name, .unbalanced⟩)
  | blank {outer : String} {params : List String} :
    Spells name outer params →
    (∃ param ∈ params, param.toList.all Text.isBlank = true) →
    Takes name (.error ⟨name, .emptyParameter⟩)
  | taken {outer : String} {params : List String} :
    Spells name outer params →
    (∀ param ∈ params, Parameter param) →
    Takes name (.ok ⟨outer.toList, [','].intercalate (params.map String.toList),
      params.map String.toList⟩)

/-- One of the four cases is what becomes of a name, and the name itself tells which. -/
lemma takes_parts (name : String) : Takes name (parts name) := by
  by_cases opens : '<' ∈ name.toList
  · by_cases encloses : Encloses name
    · obtain ⟨outer, params, h⟩ := encloses_iff.1 encloses
      rw [h.parts_eq]
      split
      · next blank => exact .blank h (List.any_eq_true.1 blank)
      · next visible =>
        refine .taken h fun param member => ⟨h.pieces param member, ?_⟩
        rw [List.any_eq_true] at visible
        exact Bool.eq_false_iff.2 fun blank => visible ⟨param, member, blank⟩
    · rw [parts_of_not_encloses opens encloses]
      exact .unbalanced opens encloses
  · rw [parts_of_not_mem opens]
    exact .missing opens

/-- A name that is taken apart is spelled with parameters. -/
lemma spells_of_parts {taken : Parts} (h : parts name = .ok taken) :
    ∃ outer params, Spells name outer params ∧ ∀ param ∈ params, Parameter param := by
  have takes := takes_parts name
  rw [h] at takes
  cases takes with
  | taken spells parameters => exact ⟨_, _, spells, parameters⟩

/-- A name spelled with parameters that are not blank is taken apart as it is spelled. -/
lemma Spells.parts_of_parameters (h : Spells name outer params)
    (parameters : ∀ param ∈ params, Parameter param) :
    parts name = .ok ⟨outer.toList, [','].intercalate (params.map String.toList),
      params.map String.toList⟩ := by
  rw [h.parts_eq, if_neg]
  rw [List.any_eq_true]
  rintro ⟨param, member, blank⟩
  rw [(parameters param member).visible] at blank
  cases blank

/-- An outer name without brackets and at least one parameter spell a name. -/
lemma spells_spelled (opens : '<' ∉ outer.toList) (nonempty : params ≠ [])
    (parameters : ∀ param ∈ params, Parameter param) : Spells (spelled outer params) outer params :=
  ⟨opens, nonempty, fun param member => (parameters param member).piece, rfl⟩

/-- A name with one parameter has no comma of its own. -/
lemma spelled_singleton (outer param : String) :
    spelled outer [param] = outer ++ "<" ++ param ++ ">" := by
  rw [spelled, String.intercalate_singleton]

/-! ## Names of lists and maps -/

/-- The parameters of a spelled name are read trimmed. -/
lemma generic_of_spells (h : Spells name outer params)
    (parameters : ∀ param ∈ params, Parameter param) :
    generic name = .ok (outer, params.map fun param => trimmed param.toList) := by
  rw [generic, h.parts_of_parameters parameters]
  simp [bind, Except.bind, pure, Except.pure]

/-- A spelled name is a list's name if it has one parameter, which is read as it is written. -/
lemma list_of_spells (h : Spells name outer params)
    (parameters : ∀ param ∈ params, Parameter param) :
    list name = match params with
      | [param] => .ok (outer, param)
      | params => .error ⟨name, .parameterCount 1 params.length⟩ := by
  rw [list, h.parts_of_parameters parameters]
  rcases params with _ | ⟨param, _ | ⟨second, rest⟩⟩
  · exact absurd rfl h.nonempty
  · simp [bind, Except.bind, pure, Except.pure]
  · simp [bind, Except.bind, throw, throwThe, MonadExceptOf.throw]

/-- A spelled name is a map's name if it has two parameters, which are read trimmed. -/
lemma map_of_spells (h : Spells name outer params)
    (parameters : ∀ param ∈ params, Parameter param) :
    map name = match params with
      | [key, value] => .ok (outer, trimmed key.toList, trimmed value.toList)
      | [_] => .error ⟨name, .missingSeparator⟩
      | params => .error ⟨name, .parameterCount 2 params.length⟩ := by
  rw [map, h.parts_of_parameters parameters]
  rcases params with _ | ⟨key, _ | ⟨value, _ | ⟨third, rest⟩⟩⟩
  · exact absurd rfl h.nonempty
  · simp [bind, Except.bind, throw, throwThe, MonadExceptOf.throw]
  · simp [bind, Except.bind, pure, Except.pure]
  · simp [bind, Except.bind, throw, throwThe, MonadExceptOf.throw]

/-- Where a name can be read at all, it is spelled with parameters, and these are read. -/
lemma exists_of_generic {given : List String} (h : generic name = .ok (outer, given)) :
    ∃ params, Spells name outer params ∧ (∀ param ∈ params, Parameter param) ∧
      given = params.map fun param => trimmed param.toList := by
  cases hparts : parts name with
  | error fault =>
    rw [generic, hparts] at h
    cases h
  | ok taken =>
    obtain ⟨outer, params, spells, parameters⟩ := spells_of_parts hparts
    rw [generic_of_spells spells parameters] at h
    cases h
    exact ⟨params, spells, parameters, rfl⟩

/-- The name of a list is spelled with just the parameter that is read. -/
lemma spells_of_list {param : String} (h : list name = .ok (outer, param)) :
    Spells name outer [param] := by
  cases hparts : parts name with
  | error fault =>
    rw [list, hparts] at h
    cases h
  | ok taken =>
    obtain ⟨outer, params, spells, parameters⟩ := spells_of_parts hparts
    rw [list_of_spells spells parameters] at h
    rcases params with _ | ⟨param, _ | ⟨second, rest⟩⟩
    · cases h
    · cases h
      exact spells
    · cases h

/-- A parameter stays one when it is trimmed. -/
lemma Parameter.trimmed {param : String} (h : Parameter param) :
    Parameter (trimmed param.toList) := by
  refine ⟨h.piece.trimmed, ?_⟩
  rw [toList_trimmed, Text.all_isBlank_trim]
  exact h.visible

/-- Trimming a parameter again changes nothing. -/
lemma trimmed_trimmed (text : List Char) : trimmed (trimmed text).toList = trimmed text := by
  rw [toList_trimmed, trimmed, Text.trim_trim, trimmed]

/-- What is read off a name are trimmed parameters, and the name that is spelled with them is read in the
same way. -/
lemma generic_respelled (h : generic name = .ok (outer, params)) :
    (∀ param ∈ params, Parameter param ∧ trimmed param.toList = param) ∧
      generic (spelled outer params) = .ok (outer, params) := by
  obtain ⟨written, spells, parameters, rfl⟩ := exists_of_generic h
  have read : ∀ param ∈ written.map fun param => trimmed param.toList,
      Parameter param ∧ trimmed param.toList = param := by
    intro param member
    obtain ⟨param, hparam, rfl⟩ := List.mem_map.1 member
    exact ⟨(parameters param hparam).trimmed, trimmed_trimmed _⟩
  refine ⟨read, ?_⟩
  have nonempty : (written.map fun param => trimmed param.toList) ≠ [] :=
    fun none => spells.nonempty (List.map_eq_nil_iff.1 none)
  have again := spells_spelled spells.opens nonempty fun param member => (read param member).1
  rw [generic_of_spells again fun param member => (read param member).1,
    List.map_congr_left fun param member => (read param member).2, List.map_id']

/-- Names and parameters can be taken apart and put together again. A name that is spelled with an
outer name and with parameters is read as these, the parameters trimmed; it is a list's name just if
there is one parameter, which is read as it is written, and a map's name just if there are two. And
whatever is read off a name gives back the name, if it is a list's, or a name of which the same is read:
its parameters are trimmed, and they may be parameters. -/
theorem reassembles :
    (∀ (outer : String) (params : List String), '<' ∉ outer.toList → params ≠ [] →
      (∀ param ∈ params, Parameter param) →
      generic (spelled outer params) = .ok (outer, params.map fun param => trimmed param.toList) ∧
      (∀ param, params = [param] → list (spelled outer params) = .ok (outer, param)) ∧
      (params.length ≠ 1 → list (spelled outer params) =
        .error ⟨spelled outer params, .parameterCount 1 params.length⟩) ∧
      (∀ key value, params = [key, value] → map (spelled outer params) =
        .ok (outer, trimmed key.toList, trimmed value.toList)) ∧
      (params.length = 1 → map (spelled outer params) =
        .error ⟨spelled outer params, .missingSeparator⟩) ∧
      (3 ≤ params.length → map (spelled outer params) =
        .error ⟨spelled outer params, .parameterCount 2 params.length⟩)) ∧
    (∀ name outer param, list name = .ok (outer, param) → outer ++ "<" ++ param ++ ">" = name) ∧
    ∀ name outer params, generic name = .ok (outer, params) →
      (∀ param ∈ params, Parameter param ∧ trimmed param.toList = param) ∧
      generic (spelled outer params) = .ok (outer, params) := by
  refine ⟨fun outer params opens nonempty parameters => ?_, fun name outer param h => ?_,
    fun name outer given h => ?_⟩
  · have spells := spells_spelled opens nonempty parameters
    rw [list_of_spells spells parameters, map_of_spells spells parameters]
    refine ⟨generic_of_spells spells parameters, ?_, ?_, ?_, ?_, ?_⟩
    · rintro param rfl
      rfl
    · intro several
      rcases params with _ | ⟨param, _ | ⟨second, rest⟩⟩
      · rfl
      · exact absurd rfl several
      · rfl
    · rintro key value rfl
      rfl
    · intro one
      obtain ⟨param, rfl⟩ := List.length_eq_one_iff.1 one
      rfl
    · intro many
      rcases params with _ | ⟨key, _ | ⟨value, _ | ⟨third, rest⟩⟩⟩
      · rfl
      · cases Nat.le_of_succ_le_succ many
      · cases Nat.le_of_succ_le_succ (Nat.le_of_succ_le_succ many)
      · rfl
  · rw [← spelled_singleton]
    exact (spells_of_list h).joined
  · exact generic_respelled h

/-- The parameters of a map, the second one with a blank before it. -/
def pairParams : List String :=
  ["Pair<a, b>", " c"]

/-- A name whose first parameter has parameters of its own. -/
theorem reassembles_pairParams : (∀ param ∈ pairParams, Parameter param) ∧
    generic "Map<Pair<a, b>, c>" = .ok ("Map", ["Pair<a, b>", "c"]) ∧
    map "Map<Pair<a, b>, c>" = .ok ("Map", "Pair<a, b>", "c") ∧
    list "Map<Pair<a, b>, c>" = .error ⟨"Map<Pair<a, b>, c>", .parameterCount 1 2⟩ ∧
    generic (spelled "Map" ["Pair<a, b>", "c"]) = .ok ("Map", ["Pair<a, b>", "c"]) := by
  have parameters : ∀ param ∈ pairParams, Parameter param :=
    List.forall_mem_cons.2 ⟨⟨by decide, by decide⟩, List.forall_mem_singleton.2 ⟨by decide, by decide⟩⟩
  obtain ⟨read, _, again⟩ := reassembles
  obtain ⟨hgeneric, _, hlist, hmap, _⟩ := read "Map" pairParams (by decide) (by decide) parameters
  exact ⟨parameters, hgeneric, hmap "Pair<a, b>" " c" rfl, hlist (by decide), (again _ _ _ hgeneric).2⟩

end TypeName

end AmqpBlob
