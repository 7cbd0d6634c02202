import Mathlib.Data.List.DropRight
import RubySchema.Proofs.Generation.Hanging

/-!
Levels of indentation add up, and each line stands as many levels in as they say together. A text is
read in lines and joined again, so a text that is indented twice is read in lines that were joined
before. They are the same lines if the last of them is not blank; else it is lost at the end.
-/

namespace RubySchema.Text

variable {level : Nat} {text first second : List Char}

-----------------------------------------------------------------------------------------
-- Ends of texts
-----------------------------------------------------------------------------------------

/-- The last line of a text is not blank. -/
def ShowsLastLine (text : List Char) : Prop :=
  ∀ last ∈ (lines text).getLast?, last.all isBlank = false

instance : DecidablePred ShowsLastLine :=
  fun text =>
    inferInstanceAs (Decidable (∀ last ∈ (lines text).getLast?, last.all isBlank = false))

theorem ne_nil_of_shown {line : List Char} (shown : line.all isBlank = false) : line ≠ [] := by
  rintro rfl
  cases shown

/-- The last line of a text is not blank, and no line break stands behind it. -/
def EndsVisibly (text : List Char) : Prop :=
  ∃ front last, text = front ++ last ∧ Statement.IsUnbroken last ∧ last.all isBlank = false

/-- How a text ends is told by what stands behind its last line break. -/
theorem all_rtakeWhile_eq_false_iff
    : (text.rtakeWhile fun c => !isLineBreak c).all isBlank = false ↔ EndsVisibly text := by
  constructor
  · intro shown
    refine ⟨_, _, List.rdropWhile_append_rtakeWhile.symm, fun c member => ?_, shown⟩
    simpa using List.mem_rtakeWhile_imp member
  · rintro ⟨front, last, rfl, unbroken, shown⟩
    have kept : ∀ c ∈ last.reverse, (!isLineBreak c) = true := by
      intro c member
      rw [unbroken c (List.mem_reverse.mp member)]
      rfl
    rw [List.rtakeWhile, List.reverse_append, List.takeWhile_append_of_pos kept,
      List.reverse_append, List.reverse_reverse, List.all_append, shown, Bool.and_false]

instance : DecidablePred EndsVisibly :=
  fun _ => decidable_of_iff _ all_rtakeWhile_eq_false_iff

theorem EndsVisibly.append (ends : EndsVisibly second) (first : List Char)
    : EndsVisibly (first ++ second) := by
  obtain ⟨front, last, rfl, unbroken, shown⟩ := ends
  exact ⟨first ++ front, last, (List.append_assoc ..).symm, unbroken, shown⟩

theorem EndsVisibly.exists_lines (ends : EndsVisibly text)
    : ∃ above last, lines text = above ++ [last] ∧ last.all isBlank = false := by
  obtain ⟨front, last, rfl, unbroken, shown⟩ := ends
  obtain ⟨above, before, same⟩ := Statement.exists_lines_append front
  refine ⟨above, before ++ last, same last (ne_nil_of_shown shown) unbroken, ?_⟩
  rw [List.all_append, shown, Bool.and_false]

theorem EndsVisibly.showsLastLine (ends : EndsVisibly text) : ShowsLastLine text := by
  obtain ⟨above, last, same, shown⟩ := ends.exists_lines
  intro line member
  rw [same, List.getLast?_concat] at member
  exact Option.some.inj member ▸ shown

theorem EndsVisibly.exists_unbroken (ends : EndsVisibly text)
    : ∃ c, text.getLast? = some c ∧ isLineBreak c = false := by
  obtain ⟨front, last, rfl, unbroken, shown⟩ := ends
  have filled := ne_nil_of_shown shown
  refine ⟨last.getLast filled, ?_, unbroken _ (List.getLast_mem filled)⟩
  rw [List.getLast?_append, List.getLast?_eq_some_getLast filled]
  rfl

/-- Behind a text that does not end in a line break a line feed opens no empty line. -/
theorem EndsVisibly.lines_append_feed (ends : EndsVisibly first) (second : List Char)
    : lines (first ++ '\n' :: second) = lines first ++ lines second := by
  obtain ⟨c, last, unbroken⟩ := ends.exists_unbroken
  obtain ⟨extra, form, same⟩ := Statement.lines_append_feed first
  rcases form with rfl | ⟨-, breaks⟩
  · rw [same, List.append_nil]
  · exact absurd (unbroken.symm.trans (breaks c last)) Bool.false_ne_true

-----------------------------------------------------------------------------------------
-- Indented twice
-----------------------------------------------------------------------------------------

theorem indentLine_indentLine (outer inner : Nat) (line : List Char)
    : indentLine outer (indentLine inner line) = indentLine (outer + inner) line := by
  cases shown : line.all isBlank with
  | true =>
      have emptied (level : Nat) : indentLine level line = [] := if_pos shown
      rw [emptied, emptied]
      rfl
  | false =>
      have further : (List.replicate (2 * inner) ' ' ++ line).all isBlank = false := by
        rw [List.all_append, shown, Bool.and_false]
      rw [indentLine_of_shown shown, indentLine_of_shown further, indentLine_of_shown shown,
        ← List.append_assoc, List.replicate_append_replicate, Nat.mul_add]

/-- Lines one below the other are read back when none is broken and the last is not empty. By
induction on the lines.
-/
theorem lines_intercalate {rows : List (List Char)}
    (unbroken : ∀ row ∈ rows, Statement.IsUnbroken row) (filled : rows.getLast? ≠ some [])
    : lines (List.intercalate ['\n'] rows) = rows := by
  induction rows with
  | nil => rfl
  | cons row rest ih =>
      obtain ⟨here, later⟩ := List.forall_mem_cons.mp unbroken
      cases rest with
      | nil =>
          have notEmpty : row ≠ [] := by
            rintro rfl
            exact filled rfl
          rw [List.intercalate_singleton, Statement.lines_of_unbroken here, if_neg notEmpty]
      | cons next more =>
          have below := ih later (by simpa using filled)
          rw [List.intercalate_cons_cons, List.append_assoc, List.singleton_append,
            Statement.lines_line here, below]

theorem exists_intercalate (above : List (List Char)) (last : List Char)
    : ∃ front, List.intercalate ['\n'] (above ++ [last]) = front ++ last := by
  cases above with
  | nil => exact ⟨[], by simp⟩
  | cons row more =>
      refine ⟨row ++ (more.flatMap fun line => '\n' :: line) ++ ['\n'], ?_⟩
      rw [List.cons_append, intercalate_feed, List.flatMap_append, List.flatMap_singleton]
      simp only [List.append_assoc, List.singleton_append]

/-- A text is another one some levels in: its lines are those of the other, where a blank one is
empty and spaces stand in front of any other, and it does not end in a line break.
-/
structure IsIndented (level : Nat) (text indented : List Char) : Prop where
  length : (lines indented).length = (lines text).length
  unended : ∀ c ∈ indented.getLast?, isLineBreak c = false
  line
    : ∀ (number : Nat) line,
        (lines text)[number]? = some line →
          (lines indented)[number]?
          = some (if line.all isBlank then [] else List.replicate (2 * level) ' ' ++ line)

namespace ShowsLastLine

variable (shows : ShowsLastLine text)
include shows

/-- The lines of an indented text are those of the text, indented. -/
theorem lines_indentChars
    : lines (indentChars level text) = (lines text).map (indentLine level) := by
  apply lines_intercalate
  · intro row member
    obtain ⟨line, isLine, rfl⟩ := List.mem_map.mp member
    exact Statement.isUnbroken_indentLine isLine
  · rw [List.getLast?_map]
    intro empty
    obtain ⟨last, ends, none⟩ := Option.map_eq_some_iff.mp empty
    have shown := shows last ends
    rw [indentLine_of_shown shown] at none
    exact ne_nil_of_shown shown (List.append_eq_nil_iff.mp none).2

/-- Levels of indentation add up. -/
theorem indentChars_indentChars (outer inner : Nat)
    : indentChars outer (indentChars inner text) = indentChars (outer + inner) text := by
  have twice : indentLine outer ∘ indentLine inner = indentLine (outer + inner) :=
    funext (indentLine_indentLine outer inner)
  rw [indentChars, shows.lines_indentChars, List.map_map, twice, indentChars]

theorem endsVisibly (filled : text ≠ []) (level : Nat)
    : EndsVisibly (indentChars level text) := by
  have some : lines text ≠ [] := fun none => filled (Reading.eq_nil_of_lines none)
  obtain ⟨last, ends⟩ := Option.ne_none_iff_exists'.mp (mt List.getLast?_eq_none_iff.mp some)
  obtain ⟨above, same⟩ := List.getLast?_eq_some_iff.mp ends
  obtain ⟨front, joined⟩ :=
    exists_intercalate (above.map (indentLine level)) (indentLine level last)
  refine ⟨front, indentLine level last, ?_,
    Statement.isUnbroken_indentLine (List.mem_of_getLast? ends), ?_⟩
  · rw [indentChars, same, List.map_append, List.map_singleton, joined]
  · have shown := shows last ends
    rw [indentLine_of_shown shown, List.all_append, shown, Bool.and_false]

/-- An indented text goes on below with other lines. -/
theorem lines_indentChars_feed (filled : text ≠ []) (level : Nat) (rest : List Char)
    : lines (indentChars level text ++ '\n' :: rest)
      = (lines text).map (indentLine level) ++ lines rest := by
  rw [(shows.endsVisibly filled level).lines_append_feed, shows.lines_indentChars]

theorem isIndented (level : Nat) : IsIndented level text (indentChars level text) where
  length := by rw [shows.lines_indentChars, List.length_map]
  unended c member := by
    by_cases filled : text = []
    · subst filled
      cases member
    · obtain ⟨d, ends, unbroken⟩ := (shows.endsVisibly filled level).exists_unbroken
      rw [ends] at member
      exact Option.some.inj member ▸ unbroken
  line number line found := by
    rw [shows.lines_indentChars, List.getElem?_map, found]
    rfl

end ShowsLastLine

theorem EndsVisibly.indentChars (ends : EndsVisibly text) (level : Nat)
    : EndsVisibly (indentChars level text) := by
  refine ends.showsLastLine.endsVisibly ?_ level
  rintro rfl
  obtain ⟨c, none, -⟩ := ends.exists_unbroken
  cases none

-----------------------------------------------------------------------------------------
-- Texts below a line
-----------------------------------------------------------------------------------------

/-- A text that goes on below a line: a line feed and a text that ends visibly, or nothing. -/
def IsBelow (text : List Char) : Prop :=
  text = [] ∨ ∃ inner, text = '\n' :: inner ∧ EndsVisibly inner

/-- The lines below the one that a text goes on from, some levels in. -/
def linesBelow (depth : Nat) (text : List Char) : List (List Char) :=
  (lines text).tail.map (indentLine depth)

theorem linesBelow_feed (depth : Nat) (inner : List Char)
    : linesBelow depth ('\n' :: inner) = (lines inner).map (indentLine depth) := by
  rw [linesBelow, Statement.lines_feed, List.tail_cons]

theorem EndsVisibly.isBelow (ends : EndsVisibly text) : IsBelow ('\n' :: text) :=
  .inr ⟨text, rfl, ends⟩

theorem EndsVisibly.indentChars_feed (ends : EndsVisibly text) (level : Nat)
    : Text.indentChars level ('\n' :: text) = '\n' :: Text.indentChars level text := by
  obtain ⟨above, last, same, -⟩ := ends.exists_lines
  rw [Text.indentChars, Statement.lines_feed, Text.indentChars, same]
  cases above <;> simp [List.intercalate_cons_cons, indentLine]

namespace IsBelow

theorem append (here : IsBelow first) (there : IsBelow second)
    : IsBelow (first ++ second)
      ∧ ∀ depth, linesBelow depth (first ++ second)
        = linesBelow depth first ++ linesBelow depth second := by
  rcases here with rfl | ⟨above, rfl, ends⟩
  · exact ⟨there, fun depth => rfl⟩
  rcases there with rfl | ⟨below, rfl, further⟩
  · rw [List.append_nil]
    exact ⟨ends.isBelow, fun depth => (List.append_nil _).symm⟩
  · refine ⟨.inr ⟨above ++ '\n' :: below, rfl, ?_⟩, fun depth => ?_⟩
    · exact (further.append ['\n']).append above
    · rw [List.cons_append, linesBelow_feed, linesBelow_feed, linesBelow_feed,
        ends.lines_append_feed, List.map_append]

variable {opening : List Char} (below : IsBelow text) (opens : EndsVisibly opening) (level : Nat)
include below opens

theorem endsVisibly : EndsVisibly (opening ++ indentChars level text) := by
  rcases below with rfl | ⟨inner, rfl, ends⟩
  · rwa [show indentChars level [] = [] from rfl, List.append_nil]
  · rw [ends.indentChars_feed]
    exact ((ends.indentChars level).append ['\n']).append opening

/-- Below the line that it goes on from, an indented text has its lines, indented. -/
theorem lines_append
    : lines (opening ++ indentChars level text) = lines opening ++ linesBelow level text := by
  rcases below with rfl | ⟨inner, rfl, ends⟩
  · rw [show indentChars level [] = [] from rfl, List.append_nil]
    exact (List.append_nil _).symm
  · rw [ends.indentChars_feed, opens.lines_append_feed, ends.showsLastLine.lines_indentChars,
      linesBelow_feed]

theorem lines_append_feed (rest : List Char)
    : lines (opening ++ indentChars level text ++ '\n' :: rest)
      = lines opening ++ linesBelow level text ++ lines rest := by
  rw [(below.endsVisibly opens level).lines_append_feed, below.lines_append opens]

end IsBelow

-----------------------------------------------------------------------------------------
-- Texts of ended lines
-----------------------------------------------------------------------------------------

/-- A text of lines that are ended: a text that ends visibly and a line feed, or nothing. -/
def IsEnded (text : List Char) : Prop :=
  text = [] ∨ ∃ inner, text = inner ++ ['\n'] ∧ EndsVisibly inner

theorem EndsVisibly.lines_concat_feed (ends : EndsVisibly text)
    : lines (text ++ ['\n']) = lines text :=
  (ends.lines_append_feed []).trans (List.append_nil _)

theorem EndsVisibly.isEnded (ends : EndsVisibly text) : IsEnded (text ++ ['\n']) :=
  .inr ⟨text, rfl, ends⟩

namespace IsEnded

theorem lines_append (ended : IsEnded first) (second : List Char)
    : lines (first ++ second) = lines first ++ lines second := by
  rcases ended with rfl | ⟨inner, rfl, ends⟩
  · rfl
  · rw [List.append_assoc, List.singleton_append, ends.lines_append_feed, ends.lines_concat_feed]

theorem append (here : IsEnded first) (there : IsEnded second) : IsEnded (first ++ second) := by
  rcases there with rfl | ⟨inner, rfl, ends⟩
  · rwa [List.append_nil]
  · exact .inr ⟨first ++ inner, (List.append_assoc ..).symm, ends.append first⟩

theorem showsLastLine (ended : IsEnded text) : ShowsLastLine text := by
  rcases ended with rfl | ⟨inner, rfl, ends⟩
  · nofun
  · unfold ShowsLastLine
    rw [ends.lines_concat_feed]
    exact ends.showsLastLine

end IsEnded

end RubySchema.Text
