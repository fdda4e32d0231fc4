import AmqpBlob.Proofs.Inline
import AmqpBlob.Value.Text
import Mathlib.Algebra.Ring.Nat

/-!
# Lines of a dump

The structure of a value tells the lines of its dump: each item of a collection starts one, four places
further in than the block around it, and each block ends with one that closes it (`Value.layout`). A
dump is these lines one after the other. What follows a line feed in a name, a character or a symbol
looks like a line of its own, so a dump has as many lines more as there are such line feeds, and other
values can have the same dump; without them its lines are those of the structure.
-/

namespace AmqpBlob

namespace Value

/-! ## The lines that the structure of a value has -/

mutual

/-- How many lines the structure of a value has behind its first one. -/
def lines : Value → Nat
  | single _ => 0
  | pair _ value => value.lines
  | collection [] => 0
  | collection (item :: items) => 1 + linesOfItems (item :: items)

/-- How many lines the items of a block have. -/
def linesOfItems : List Value → Nat
  | [] => 0
  | item :: items => item.lines + 1 + linesOfItems items

end

mutual

/-- The items of all collections in a value, each with the number of blocks around it, if `blocks` are
around the value; an item comes before those in it. -/
def innerItems (blocks : Nat) : Value → List (Nat × Value)
  | single _ => []
  | pair _ value => value.innerItems blocks
  | collection items => innerItemsOf (blocks + 1) items

/-- The items and those in them. -/
def innerItemsOf (blocks : Nat) : List Value → List (Nat × Value)
  | [] => []
  | item :: items => (blocks, item) :: item.innerItems blocks ++ innerItemsOf blocks items

end

/-- The value and all items in it, each with the number of blocks around it. -/
def items (value : Value) : List (Nat × Value) :=
  (0, value) :: value.innerItems 0

/-- The text of a value up to the end of its first line. -/
def opening : Value → List Char
  | single scalar => scalar.text.toList
  | pair name value => name.toList ++ ':' :: ' ' :: value.opening
  | collection [] => ['[', ']']
  | collection (item :: items) => if (collection (item :: items)).isRecord then ['{'] else ['[']

/-- The number of line feeds in the names and the scalar on the first line of a value. -/
def breaks : Value → Nat
  | single scalar => scalar.breaks
  | pair name value => name.toList.count '\n' + value.breaks
  | collection _ => 0

end Value

/-- A line of a dump: an item starts on it, or a block ends. -/
inductive Line where
  | opens (blocks : Nat) (item : Value)
  | closes (blocks : Nat) (record : Bool)

namespace Line

/-- The number of blocks around the line. -/
def blocks : Line → Nat
  | opens blocks _ => blocks
  | closes blocks _ => blocks

/-- The text of the line behind its blanks. -/
def text : Line → List Char
  | opens _ item => item.opening
  | closes _ record => if record then ['}'] else [']']

/-- The line, with four blanks for each block around it. -/
def shown (line : Line) : List Char :=
  List.replicate (4 * line.blocks) ' ' ++ line.text

/-- The line with the line feed behind it. -/
def chars (line : Line) : List Char :=
  line.shown ++ ['\n']

/-- The item that starts on the line, with the number of blocks around it. -/
def item? : Line → Option (Nat × Value)
  | opens blocks item => some (blocks, item)
  | closes _ _ => none

end Line

namespace Value

mutual

/-- The lines of a value behind its first one, if `blocks` are around it. -/
def laterLines (blocks : Nat) : Value → List Line
  | single _ => []
  | pair _ value => value.laterLines blocks
  | collection [] => []
  | collection (item :: items) =>
    linesOf (blocks + 1) (item :: items) ++ [.closes blocks (collection (item :: items)).isRecord]

/-- The lines of the items of a block. -/
def linesOf (blocks : Nat) : List Value → List Line
  | [] => []
  | item :: items => .opens blocks item :: item.laterLines blocks ++ linesOf blocks items

end

/-- The lines of a value. -/
def layout (value : Value) : List Line :=
  .opens 0 value :: value.laterLines 0

mutual

/-- A value has as many later lines as its structure has breaks. -/
lemma length_laterLines (blocks : Nat) :
    (value : Value) → (value.laterLines blocks).length = value.lines
  | single _ => rfl
  | pair _ value => length_laterLines blocks value
  | collection [] => rfl
  | collection (item :: items) => by
    rw [laterLines, lines, List.length_append, length_linesOf, Nat.add_comm]
    rfl

/-- Items have as many lines as their structure has breaks. -/
lemma length_linesOf (blocks : Nat) :
    (items : List Value) → (linesOf blocks items).length = linesOfItems items
  | [] => rfl
  | item :: items => by
    rw [linesOf, linesOfItems, List.length_append, List.length_cons, length_laterLines, length_linesOf]

end

mutual

/-- The later lines of a value start the items in it, in their order. -/
lemma filterMap_laterLines (blocks : Nat) :
    (value : Value) → (value.laterLines blocks).filterMap Line.item? = value.innerItems blocks
  | single _ => rfl
  | pair _ value => filterMap_laterLines blocks value
  | collection [] => rfl
  | collection (item :: items) => by
    rw [laterLines, List.filterMap_append, filterMap_linesOf]
    exact List.append_nil _

/-- The lines of items start the items and those in them, in their order. -/
lemma filterMap_linesOf (blocks : Nat) :
    (items : List Value) → (linesOf blocks items).filterMap Line.item? = innerItemsOf blocks items
  | [] => rfl
  | item :: items => by
    rw [linesOf, innerItemsOf, List.filterMap_append, List.filterMap_cons, filterMap_laterLines,
      filterMap_linesOf]
    rfl

end

/-! ## Written lines -/

/-- The text of a line feed is one character. -/
lemma toList_feed : "\n".toList = ['\n'] :=
  rfl

/-- A padding is four blanks for each block. -/
lemma toList_padding (blocks : Nat) : (padding (4 * blocks)).toList = List.replicate (4 * blocks) ' ' :=
  String.toList_ofList

-- The line feed behind a value is written by the block around it, or by the dump, but it ends the last
-- line of the value, so it has a part in the statement.
mutual

/-- A value is written as its first line, behind what was written before, and its later lines. -/
lemma toList_write (blocks : Nat) (out : String) : (value : Value) →
    (value.write (4 * blocks) out).toList ++ ['\n'] =
      out.toList ++ value.opening ++ '\n' :: (value.laterLines blocks).flatMap Line.chars
  | single scalar => by
    rw [write, String.toList_append]
    rfl
  | pair name value => by
    have colon : ": ".toList = [':', ' '] := rfl
    rw [write, toList_write, String.toList_append, String.toList_append, colon, opening, laterLines]
    simp only [List.append_assoc, List.cons_append, List.nil_append]
  | collection [] => by
    rw [write, String.toList_append]
    rfl
  | collection (item :: items) => by
    have indent : 4 * blocks + 4 = 4 * (blocks + 1) := rfl
    have first : (if (collection (item :: items)).isRecord then "\x7b" else "[").toList =
        (collection (item :: items)).opening := by
      rw [opening]
      split <;> rfl
    have last : (if (collection (item :: items)).isRecord then "\x7d" else "]").toList =
        (Line.closes blocks (collection (item :: items)).isRecord).text := by
      rw [Line.text]
      split <;> rfl
    rw [write, indent, laterLines]
    simp only [String.toList_append, toList_writeItems, first, last, toList_feed, toList_padding,
      List.flatMap_append, List.flatMap_singleton, Line.chars, Line.shown, Line.blocks,
      List.append_assoc, List.cons_append, List.nil_append]

/-- Items are written line by line, behind what was written before. -/
lemma toList_writeItems (blocks : Nat) (out : String) : (items : List Value) →
    (writeItems (4 * blocks) out items).toList =
      out.toList ++ (linesOf blocks items).flatMap Line.chars
  | [] => (List.append_nil _).symm
  | item :: items => by
    rw [writeItems, toList_writeItems, String.toList_append, toList_feed, toList_write, linesOf,
      String.toList_append, toList_padding]
    simp only [List.flatMap_append, List.flatMap_cons, Line.chars, Line.shown, Line.blocks, Line.text,
      List.append_assoc, List.cons_append, List.nil_append]

end

/-- A dump is the lines of the layout, each with a line feed behind it. -/
lemma toList_dump (value : Value) : value.dump.toList = value.layout.flatMap Line.chars := by
  have empty : "".toList = [] := rfl
  have hwrite := toList_write 0 "" value
  rw [empty, List.nil_append] at hwrite
  rw [dump, String.toList_append, toList_feed, layout, List.flatMap_cons]
  refine hwrite.trans ?_
  simp only [Line.chars, Line.shown, Line.blocks, Line.text, Nat.mul_zero, List.replicate_zero,
    List.append_assoc, List.cons_append, List.nil_append]

/-! ## Line feeds and blanks -/

/-- The line that a value starts has the line feeds that its name, character or symbol has. -/
lemma count_opening : (value : Value) → value.opening.count '\n' = value.breaks
  | single scalar => scalar.text_inline.1
  | pair name value => by
    rw [opening, breaks, List.count_append, List.count_cons_of_ne (by decide),
      List.count_cons_of_ne (by decide), count_opening value]
  | collection [] => rfl
  | collection (item :: items) => by
    rw [opening]
    split <;> rfl

/-- Only a name starts a value with a blank. -/
lemma head?_opening (value : Value) : value.opening.head? = some ' ' ↔
    ∃ name inner, value = pair name inner ∧ name.toList.head? = some ' ' := by
  cases value with
  | single scalar => exact iff_of_false scalar.text_inline.2 nofun
  | pair name inner =>
    rw [opening, List.head?_append, List.head?_cons]
    constructor
    · intro blank
      refine ⟨name, inner, rfl, ?_⟩
      cases hname : name.toList with
      | nil =>
        rw [hname] at blank
        cases blank
      | cons first rest =>
        rw [hname] at blank
        exact blank
    · rintro ⟨_, _, ⟨⟩, blank⟩
      rw [blank]
      rfl
  | collection items =>
    refine iff_of_false ?_ nofun
    cases items with
    | nil => exact nofun
    | cons item items =>
      rw [opening]
      split
      · exact nofun
      · exact nofun

end Value

namespace Line

/-- The blanks before a line add no line feed to it. -/
lemma count_shown (line : Line) : line.shown.count '\n' = line.text.count '\n' := by
  have blanks : (List.replicate (4 * line.blocks) ' ').count '\n' = 0 :=
    List.count_eq_zero.2 fun member => absurd (List.eq_of_mem_replicate member) (by decide)
  rw [shown, List.count_append, blanks, Nat.zero_add]

/-- A line that ends a block has no line feed in it. -/
lemma count_closes (blocks : Nat) (record : Bool) : (closes blocks record).shown.count '\n' = 0 := by
  rw [count_shown]
  cases record <;> rfl

/-- A line that an item starts has the line feeds of the item. -/
lemma count_opens (blocks : Nat) (item : Value) : (opens blocks item).shown.count '\n' = item.breaks :=
  (count_shown _).trans item.count_opening

/-- There is a line feed behind each line, and there are those in the items. -/
lemma count_lines (lines : List Line) : (lines.flatMap chars).count '\n' =
    lines.length + ((lines.filterMap item?).map fun item => item.2.breaks).sum := by
  induction lines with
  | nil => rfl
  | cons line lines ih =>
    have hchars : line.chars.count '\n' = line.shown.count '\n' + 1 := by
      rw [chars, List.count_append]
      rfl
    rw [List.flatMap_cons, List.count_append, hchars, ih, List.length_cons]
    cases line with
    | opens blocks item =>
      have opened : (opens blocks item).item? = some (blocks, item) := rfl
      rw [count_opens, List.filterMap_cons_some opened, List.map_cons, List.sum_cons]
      dsimp only
      omega
    | closes blocks record =>
      have closed : (closes blocks record).item? = none := rfl
      rw [count_closes, List.filterMap_cons_none closed]
      omega

/-- Lines without line feeds are found again in the text that they make up. -/
lemma splitOn_lines {lines : List Line} (h : ∀ line ∈ lines, line.shown.count '\n' = 0) :
    (lines.flatMap chars).splitOn '\n' = lines.map shown ++ [[]] := by
  induction lines with
  | nil => rfl
  | cons line lines ih =>
    obtain ⟨hline, hlines⟩ := List.forall_mem_cons.1 h
    rw [List.flatMap_cons, chars, List.append_assoc, List.singleton_append, List.map_cons,
      List.cons_append, ← ih hlines]
    have plain : ∀ c ∈ line.shown, (c == '\n') = false := by
      intro c member
      refine beq_false_of_ne ?_
      rintro rfl
      exact List.count_eq_zero.1 hline member
    exact List.splitOnP_append_cons_of_forall_mem plain '\n' rfl _

/-- The lines that items start have no line feeds if the items have none, and other lines have none. -/
lemma count_eq_zero_of_items {lines : List Line}
    (h : ∀ item ∈ lines.filterMap item?, item.2.breaks = 0) :
    ∀ line ∈ lines, line.shown.count '\n' = 0 := by
  intro line member
  cases line with
  | opens blocks item =>
    rw [count_opens]
    exact h (blocks, item) (List.mem_filterMap.2 ⟨_, member, rfl⟩)
  | closes blocks record => exact count_closes blocks record

end Line

namespace Value

/-- A dump is the lines of the value's layout, one after the other. The layout has a line for the start
of each item, with four blanks for each block around it and no more, unless the item's name starts with
one, and as many lines as the structure has breaks and one more. The dump has more lines just for the
line feeds in names, characters and symbols; if there are none, its lines are those of the layout. -/
theorem dump_lines (value : Value) :
    value.dump.toList = value.layout.flatMap Line.chars ∧
    value.layout.length = value.lines + 1 ∧
    value.layout.filterMap Line.item? = value.items ∧
    (∀ item ∈ value.items, item.2.opening.head? = some ' ' ↔
      ∃ name inner, item.2 = pair name inner ∧ name.toList.head? = some ' ') ∧
    value.dump.toList.count '\n' =
      value.lines + 1 + (value.items.map fun item => item.2.breaks).sum ∧
    ((∀ item ∈ value.items, item.2.breaks = 0) →
      value.dump.toList.splitOn '\n' = value.layout.map Line.shown ++ [[]]) := by
  have hlength : value.layout.length = value.lines + 1 := by
    rw [layout, List.length_cons, length_laterLines]
  have hitems : value.layout.filterMap Line.item? = value.items := by
    rw [layout, List.filterMap_cons, filterMap_laterLines]
    rfl
  refine ⟨value.toList_dump, hlength, hitems, fun item _ => item.2.head?_opening, ?_, fun none => ?_⟩
  · rw [toList_dump, Line.count_lines, hlength, hitems]
  · rw [toList_dump]
    exact Line.splitOn_lines (Line.count_eq_zero_of_items (hitems ▸ none))

/-- A record of a text with a line feed and a list. -/
def textAndList : Value :=
  collection [pair "text" (single (.string "a\nb")), pair "list" (collection [single (.uint 7)])]

/-- A text is written with its line feed escaped, so the dump has the lines of the layout. -/
theorem dump_lines_textAndList : (∀ item ∈ textAndList.items, item.2.breaks = 0) ∧
    textAndList.dump.toList.splitOn '\n' =
      ["\x7b", "    text: \"a\\nb\"", "    list: [", "        7", "    ]", "\x7d", ""].map
        String.toList := by
  have none : ∀ item ∈ textAndList.items, item.2.breaks = 0 := by decide
  refine ⟨none, ?_⟩
  rw [textAndList.dump_lines.2.2.2.2.2 none]
  decide

/-- A list of two symbols. -/
def twoSymbols : Value :=
  collection [single (.symbol "a"), single (.symbol "b")]

/-- A list of one symbol, which looks like two in a dump. -/
def forgedSymbol : Value :=
  collection [single (.symbol "a\n    :b")]

/-- Without any names, a character or a symbol can give a dump more lines than its structure has, and
one symbol the dump of two. -/
theorem dump_forged :
    (single (.char '\n')).dump.toList.count '\n' = 2 ∧ (single (.char '\n')).lines + 1 = 1 ∧
    forgedSymbol.dump = twoSymbols.dump ∧ forgedSymbol.lines + 1 = 3 ∧ twoSymbols.lines + 1 = 4 :=
  ⟨rfl, rfl, rfl, rfl, rfl⟩

end Value

end AmqpBlob
