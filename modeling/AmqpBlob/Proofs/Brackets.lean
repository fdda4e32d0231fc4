import AmqpBlob.TypeName
import Mathlib.Data.List.Basic

/-!
# Brackets and the commas outside them

When the brackets of a text match, and what the pieces of a text are that is cut at its commas outside
brackets, both told by counting the brackets of beginnings. A text can be cut just if its brackets
match, and there is one way to cut it: the pieces give the text with commas between them, and the
brackets of each piece match and surround its commas.

Each character leads from a number of open brackets to another one, and the lemmas follow a text from
one character to the next.
-/

namespace AmqpBlob.TypeName

variable {depth further : Nat} {c : Char} {text front back first more : List Char}
  {pieces others : List (List Char)}

/-- The brackets of a text match, if `depth` of them are open before it. -/
structure Balanced (depth : Nat) (text : List Char) : Prop where
  /-- No beginning of the text closes more brackets than are open. -/
  within : ∀ before, before <+: text → before.count '>' ≤ depth + before.count '<'
  /-- The text as a whole closes all of them. -/
  closed : text.count '>' = depth + text.count '<'

/-- No comma of a text stands outside brackets, if `depth` of them are open before it. -/
def Enclosed (depth : Nat) (text : List Char) : Prop :=
  ∀ before, before ++ [','] <+: text → before.count '>' ≠ depth + before.count '<'

/-- A text that is not cut: its brackets match and surround its commas. -/
structure Piece (depth : Nat) (text : List Char) : Prop extends Balanced depth text where
  /-- The commas stand in brackets. -/
  enclosed : Enclosed depth text

/-- A character leads from `depth` open brackets to `further` ones. -/
inductive Leads : (c : Char) → (depth further : Nat) → Prop where
  | opening {depth : Nat} :
    Leads '<' depth (depth + 1)
  | closing {depth : Nat} :
    Leads '>' (depth + 1) depth
  | other {c : Char} {depth : Nat} :
    c ≠ '<' →
    c ≠ '>' →
    Leads c depth depth

/-- What a character adds to the open brackets it adds to what it leads to. -/
lemma Leads.count_singleton (leads : Leads c depth further) :
    depth + [c].count '<' = further + [c].count '>' := by
  cases leads with
  | opening => rfl
  | closing => rfl
  | other hopen hclose =>
    rw [List.count_eq_zero.2, List.count_eq_zero.2]
    · exact fun member => hclose (List.mem_singleton.1 member).symm
    · exact fun member => hopen (List.mem_singleton.1 member).symm

/-- Only a closing bracket without an opening one leads nowhere. -/
lemma leads_or_stray (c : Char) (depth : Nat) :
    (∃ further, Leads c depth further) ∨ c = '>' ∧ depth = 0 := by
  by_cases hopen : c = '<'
  · subst hopen
    exact .inl ⟨_, .opening⟩
  by_cases hclose : c = '>'
  · subst hclose
    cases depth with
    | zero => exact .inr ⟨rfl, rfl⟩
    | succ depth => exact .inl ⟨depth, .closing⟩
  · exact .inl ⟨depth, .other hopen hclose⟩

/-- The first character counts beside the others. -/
lemma count_cons_singleton (x c : Char) (text : List Char) :
    (c :: text).count x = [c].count x + text.count x := by
  rw [← List.singleton_append, List.count_append]

/-! ## From one character to the next -/

/-- Nothing closes the brackets that are open before it. -/
lemma balanced_nil : Balanced depth [] ↔ depth = 0 := by
  constructor
  · intro h
    have closed := h.closed
    rw [List.count_nil, List.count_nil] at closed
    exact closed.symm
  · rintro rfl
    refine ⟨fun before start => ?_, rfl⟩
    rw [List.prefix_nil.1 start]
    exact Nat.le_refl 0

/-- A closing bracket does not match if none is open. -/
lemma not_balanced_stray : ¬Balanced 0 ('>' :: text) :=
  fun h => absurd (h.within ['>'] (List.prefix_append ['>'] text)) (by decide)

/-- The brackets of a text match if those behind its first character do from where it leads. -/
lemma balanced_cons (leads : Leads c depth further) :
    Balanced depth (c :: text) ↔ Balanced further text := by
  have count := leads.count_singleton
  constructor
  · refine fun h => ⟨fun before start => ?_, ?_⟩
    · have within := h.within (c :: before) ((List.prefix_cons_inj c).2 start)
      rw [count_cons_singleton, count_cons_singleton '<'] at within
      omega
    · have closed := h.closed
      rw [count_cons_singleton, count_cons_singleton '<'] at closed
      omega
  · refine fun h => ⟨fun before start => ?_, ?_⟩
    · rcases List.prefix_cons_iff.1 start with rfl | ⟨rest, rfl, inner⟩
      · exact Nat.zero_le _
      · have within := h.within rest inner
        rw [count_cons_singleton, count_cons_singleton '<']
        omega
    · have closed := h.closed
      rw [count_cons_singleton, count_cons_singleton '<']
      omega

/-- A comma at the start of a text must have an open bracket before it. -/
lemma enclosed_cons (leads : Leads c depth further) :
    Enclosed depth (c :: text) ↔ (c = ',' → depth ≠ 0) ∧ Enclosed further text := by
  have count := leads.count_singleton
  constructor
  · refine fun h => ⟨?_, fun before start => ?_⟩
    · rintro rfl
      exact (h [] (List.prefix_append [','] text)).symm
    · have apart := h (c :: before) ((List.prefix_cons_inj c).2 start)
      rw [count_cons_singleton, count_cons_singleton '<'] at apart
      omega
  · rintro ⟨comma, h⟩ (_ | ⟨head, before⟩) start
    · exact (comma (List.cons_prefix_cons.1 start).1.symm).symm
    · obtain ⟨rfl, inner⟩ := List.cons_prefix_cons.1 start
      have apart := h before inner
      rw [count_cons_singleton, count_cons_singleton '<']
      omega

/-- Nothing is a piece if no bracket is open. -/
lemma piece_nil : Piece depth [] ↔ depth = 0 := by
  refine ⟨fun h => balanced_nil.1 h.toBalanced, fun h => ⟨balanced_nil.2 h, fun before start => ?_⟩⟩
  exact absurd (List.prefix_nil.1 start) (List.append_ne_nil_of_right_ne_nil _ (List.cons_ne_nil _ _))

/-- A text is a piece if what is behind its first character is one from where it leads. -/
lemma piece_cons (leads : Leads c depth further) :
    Piece depth (c :: text) ↔ (c = ',' → depth ≠ 0) ∧ Piece further text := by
  constructor
  · rintro ⟨balanced, enclosed⟩
    obtain ⟨comma, enclosed⟩ := (enclosed_cons leads).1 enclosed
    exact ⟨comma, (balanced_cons leads).1 balanced, enclosed⟩
  · rintro ⟨comma, balanced, enclosed⟩
    exact ⟨(balanced_cons leads).2 balanced, (enclosed_cons leads).2 ⟨comma, enclosed⟩⟩

/-- A character that is no comma outside brackets goes on the first piece of what is behind it. -/
lemma pieces?_cons (leads : Leads c depth further) (comma : c = ',' → depth ≠ 0) :
    pieces? depth (c :: text) = onFirst c <$> pieces? further text := by
  cases leads with
  | opening => rw [pieces?]
  | closing => rw [pieces?]
  | other hopen hclose =>
    rw [pieces?]
    · exact hopen
    · exact fun _ => hclose
    · exact fun _ _ => hclose
    · exact fun none separates => comma separates none

/-! ## Cutting -/

/-- A text can be cut just if its brackets match. -/
lemma isSome_pieces?_iff : (pieces? depth text).isSome ↔ Balanced depth text := by
  induction text generalizing depth with
  | nil =>
    rw [balanced_nil]
    cases depth with
    | zero => exact ⟨fun _ => rfl, fun _ => rfl⟩
    | succ depth => exact ⟨nofun, nofun⟩
  | cons c text ih =>
    rcases leads_or_stray c depth with ⟨further, leads⟩ | ⟨rfl, rfl⟩
    · rw [balanced_cons leads, ← ih]
      by_cases comma : c = ',' ∧ depth = 0
      · obtain ⟨rfl, rfl⟩ := comma
        cases leads
        rw [pieces?, Option.map_eq_map, Option.isSome_map]
      · rw [pieces?_cons leads fun separates none => comma ⟨separates, none⟩, Option.map_eq_map,
          Option.isSome_map]
    · rw [pieces?]
      exact ⟨nofun, fun h => absurd h not_balanced_stray⟩

/-- A text that is not cut goes as a whole on the first piece of what is behind it. -/
lemma pieces?_append (piece : Piece depth text) :
    pieces? depth (text ++ more) = (text.foldr onFirst ·) <$> pieces? 0 more := by
  induction text generalizing depth with
  | nil =>
    cases piece_nil.1 piece
    exact (id_map _).symm
  | cons c text ih =>
    rcases leads_or_stray c depth with ⟨further, leads⟩ | ⟨rfl, rfl⟩
    · obtain ⟨comma, piece⟩ := (piece_cons leads).1 piece
      rw [List.cons_append, pieces?_cons leads comma, ih piece, Option.map_eq_map, Option.map_eq_map,
        Option.map_map]
      rfl
    · exact absurd piece.toBalanced not_balanced_stray

/-- Characters that are put on the first piece one by one stand before it in their order. -/
lemma foldr_onFirst (text first : List Char) (others : List (List Char)) :
    text.foldr onFirst (first :: others) = (text ++ first) :: others := by
  induction text with
  | nil => rfl
  | cons c text ih =>
    rw [List.foldr_cons, ih]
    rfl

/-- Pieces with commas between them are cut into these pieces. -/
lemma pieces?_intercalate (hfirst : Piece depth first) (hothers : ∀ piece ∈ others, Piece 0 piece) :
    pieces? depth ([','].intercalate (first :: others)) = some (first :: others) := by
  induction others generalizing depth first with
  | nil =>
    have cut : pieces? depth (first ++ []) = _ := pieces?_append hfirst
    rw [pieces?, Option.map_eq_map, Option.map_some, foldr_onFirst, List.append_nil] at cut
    rw [List.intercalate_singleton]
    exact cut
  | cons second others ih =>
    obtain ⟨hsecond, hothers⟩ := List.forall_mem_cons.1 hothers
    rw [List.intercalate_cons_cons, List.append_assoc, pieces?_append hfirst, List.singleton_append,
      pieces?, ih hsecond hothers, Option.map_eq_map, Option.map_eq_map, Option.map_some,
      Option.map_some, foldr_onFirst, List.append_nil]

/-- What a text is cut into are pieces that give the text with commas between them. -/
lemma cut_of_pieces? (h : pieces? depth text = some pieces) :
    ∃ first others, pieces = first :: others ∧ [','].intercalate pieces = text ∧
      Piece depth first ∧ ∀ piece ∈ others, Piece 0 piece := by
  induction text generalizing depth pieces with
  | nil =>
    cases depth with
    | zero =>
      cases h
      exact ⟨[], [], rfl, rfl, piece_nil.2 rfl, List.forall_mem_nil _⟩
    | succ depth => cases h
  | cons c text ih =>
    rcases leads_or_stray c depth with ⟨further, leads⟩ | ⟨rfl, rfl⟩
    · by_cases comma : c = ',' ∧ depth = 0
      · obtain ⟨rfl, rfl⟩ := comma
        obtain ⟨pieces, hpieces, rfl⟩ := Option.map_eq_some_iff.1 h
        obtain ⟨first, others, rfl, joined, hfirst, hothers⟩ := ih hpieces
        refine ⟨[], first :: others, rfl, ?_, piece_nil.2 rfl, List.forall_mem_cons.2 ⟨hfirst, hothers⟩⟩
        rw [List.intercalate_cons_cons, joined]
        rfl
      · have inside (separates : c = ',') (none : depth = 0) : False := comma ⟨separates, none⟩
        rw [pieces?_cons leads inside] at h
        obtain ⟨pieces, hpieces, rfl⟩ := Option.map_eq_some_iff.1 h
        obtain ⟨first, others, rfl, joined, hfirst, hothers⟩ := ih hpieces
        refine ⟨c :: first, others, rfl, ?_, (piece_cons leads).2 ⟨inside, hfirst⟩, hothers⟩
        rw [← joined]
        cases others with
        | nil => rfl
        | cons second others => rfl
    · cases h

/-- A text is cut into all the pieces between its commas outside brackets. -/
lemma pieces?_eq_some_iff : pieces? 0 text = some pieces ↔
    pieces ≠ [] ∧ [','].intercalate pieces = text ∧ ∀ piece ∈ pieces, Piece 0 piece := by
  constructor
  · intro h
    obtain ⟨first, others, rfl, joined, hfirst, hothers⟩ := cut_of_pieces? h
    exact ⟨List.cons_ne_nil _ _, joined, List.forall_mem_cons.2 ⟨hfirst, hothers⟩⟩
  · rintro ⟨nonempty, rfl, h⟩
    obtain ⟨first, others, rfl⟩ := List.exists_cons_of_ne_nil nonempty
    obtain ⟨hfirst, hothers⟩ := List.forall_mem_cons.1 h
    exact pieces?_intercalate hfirst hothers

/-- A text is a piece just if it is cut into nothing but itself. -/
lemma pieces?_eq_singleton_iff : pieces? 0 text = some [text] ↔ Piece 0 text := by
  rw [pieces?_eq_some_iff, List.intercalate_singleton, List.forall_mem_singleton]
  exact ⟨fun h => h.2.2, fun h => ⟨List.cons_ne_nil _ _, rfl, h⟩⟩

/-- Whether brackets match can be told by cutting the text. -/
instance (depth : Nat) (text : List Char) : Decidable (Balanced depth text) :=
  decidable_of_iff _ isSome_pieces?_iff

/-- Whether a text is a piece can be told by cutting it. -/
instance (text : List Char) : Decidable (Piece 0 text) :=
  decidable_of_iff _ pieces?_eq_singleton_iff

/-! ## Texts one behind the other -/

/-- More open brackets around a character do not change what it adds. -/
lemma Leads.add (leads : Leads c depth further) (extra : Nat) :
    Leads c (depth + extra) (further + extra) := by
  cases leads with
  | opening =>
    rw [Nat.add_right_comm]
    exact .opening
  | closing =>
    rw [Nat.add_right_comm]
    exact .closing
  | other hopen hclose => exact .other hopen hclose

/-- The brackets of two texts match together if those of each do. -/
lemma Balanced.append {extra : Nat} (hfront : Balanced depth front) (hback : Balanced extra back) :
    Balanced (depth + extra) (front ++ back) := by
  induction front generalizing depth with
  | nil =>
    cases balanced_nil.1 hfront
    rw [Nat.zero_add]
    exact hback
  | cons c front ih =>
    rcases leads_or_stray c depth with ⟨further, leads⟩ | ⟨rfl, rfl⟩
    · exact (balanced_cons (leads.add extra)).2 (ih ((balanced_cons leads).1 hfront))
    · exact absurd hfront not_balanced_stray

/-- Without brackets there is nothing to match. -/
lemma balanced_of_not_mem (hopen : '<' ∉ text) (hclose : '>' ∉ text) : Balanced 0 text where
  within before start := by
    rw [List.count_eq_zero.2 fun member => hclose (start.subset member)]
    exact Nat.zero_le _
  closed := by
    rw [List.count_eq_zero.2 hopen, List.count_eq_zero.2 hclose]

/-- Characters in front of a piece that are neither brackets nor commas do not matter. -/
lemma piece_append_iff (other : ∀ c ∈ front, c ≠ '<' ∧ c ≠ '>' ∧ c ≠ ',') :
    Piece depth (front ++ back) ↔ Piece depth back := by
  induction front with
  | nil => exact Iff.rfl
  | cons c front ih =>
    obtain ⟨⟨hopen, hclose, comma⟩, other⟩ := List.forall_mem_cons.1 other
    rw [List.cons_append, piece_cons (.other hopen hclose), ih other]
    exact and_iff_right fun separates => absurd separates comma

/-- Nor do characters behind it. -/
lemma Piece.of_append (h : Piece depth (front ++ back)) (hopen : '<' ∉ back) (hclose : '>' ∉ back) :
    Piece depth front where
  within before start := h.within before (start.trans (List.prefix_append front back))
  closed := by
    have closed := h.closed
    rw [List.count_append, List.count_append, List.count_eq_zero.2 hopen,
      List.count_eq_zero.2 hclose] at closed
    exact closed
  enclosed before start := h.enclosed before (start.trans (List.prefix_append front back))

end AmqpBlob.TypeName
