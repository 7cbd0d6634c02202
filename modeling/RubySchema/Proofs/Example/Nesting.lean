import RubySchema.Example.Query
import RubySchema.Proofs.Brackets
import RubySchema.Proofs.Outcome

/-!
Brackets in texts of examples. Texts that are put between brackets are balanced themselves, and the
mark of a place that is cut off has a line of its own, so that no bracket is lost in a comment. Main
statements: the selection, the arguments and the response of an example with simple names and leaves
are balanced, and without arguments the limit bounds their braces.
-/

namespace RubySchema

open Text

-----------------------------------------------------------------------------------------
-- Simple examples
-----------------------------------------------------------------------------------------

namespace Brackets

def IsSimpleChar (c : Char) : Prop :=
  c ∉ signs ∧ isLineBreak c = false

instance : DecidablePred IsSimpleChar :=
  fun _ => inferInstanceAs (Decidable (_ ∧ _))

/-- A text of a single line, without brackets, hash signs and backslashes. -/
def IsSimple (text : String) : Prop :=
  ∀ c ∈ text.toList, IsSimpleChar c

instance : DecidablePred IsSimple :=
  fun text => List.decidableBAll IsSimpleChar text.toList

theorem IsSimple.append {first second : String} (here : IsSimple first) (there : IsSimple second)
    : IsSimple (first ++ second) := by
  unfold IsSimple
  rw [String.toList_append]
  exact List.forall_mem_append.mpr ⟨here, there⟩

theorem IsSimple.isBalanced {text : String} {room : Nat} (simple : IsSimple text)
    : IsBalanced room text := by
  apply IsBalanced.of_isQuiet
  intro c member
  obtain ⟨absent, unbroken⟩ := simple c member
  refine ⟨absent, fun breaks => ?_⟩
  rw [unbroken] at breaks
  cases breaks

end Brackets

open Brackets

mutual

/-- Names and leaves are simple texts. -/
def Example.IsSimple : Example → Prop
  | .literal value => ∃ text, value = .string text ∧ Brackets.IsSimple text
  | .sentinel typeName => Brackets.IsSimple typeName
  | .truncated => True
  | .object entries => entries.AreSimple
  | .list item => item.IsSimple
  | .connection node => node.IsSimple

def Entries.AreSimple : Entries → Prop
  | .nil => True
  | .cons name value arguments rest =>
      (∃ text, name = .string text ∧ Brackets.IsSimple text)
      ∧ value.IsSimple ∧ arguments.AreSimple ∧ rest.AreSimple

end

mutual

/-- No field of the example has arguments. -/
def Example.HasNoArguments : Example → Prop
  | .literal _ | .sentinel _ | .truncated => True
  | .object entries => entries.HaveNoArguments
  | .list item => item.HasNoArguments
  | .connection node => node.HasNoArguments

def Entries.HaveNoArguments : Entries → Prop
  | .nil => True
  | .cons _ value arguments rest =>
      value.HasNoArguments ∧ arguments = .nil ∧ rest.HaveNoArguments

end

mutual

def Outline.IsSimple : Outline → Prop
  | .leaf value => ∃ text, value = .string text ∧ Brackets.IsSimple text
  | .cut => True
  | .object entries => entries.AreSimple
  | .list item => item.IsSimple

def Outlines.AreSimple : Outlines → Prop
  | .nil => True
  | .cons name value arguments rest =>
      (∃ text, name = .string text ∧ Brackets.IsSimple text)
      ∧ value.IsSimple ∧ arguments.AreSimple ∧ rest.AreSimple

end

mutual

def Outline.HasNoArguments : Outline → Prop
  | .leaf _ | .cut => True
  | .object entries => entries.HaveNoArguments
  | .list item => item.HasNoArguments

def Outlines.HaveNoArguments : Outlines → Prop
  | .nil => True
  | .cons _ value arguments rest =>
      value.HasNoArguments ∧ arguments = .nil ∧ rest.HaveNoArguments

end

/-- A connection is around its node what it is around any other. -/
theorem Outline.IsSimple.ofConnection {node : Outline} (simple : node.IsSimple)
    : (Outline.ofConnection node).IsSimple := by
  have named (name : String) (simple : Brackets.IsSimple name)
      : ∃ text, Json.string name = .string text ∧ Brackets.IsSimple text :=
    ⟨name, rfl, simple⟩
  have single {name : String} {value : Outline} (isName : Brackets.IsSimple name)
      (simple : value.IsSimple) : (Outlines.single name value).AreSimple :=
    ⟨named name isName, simple, trivial, trivial⟩
  have page
      : (Outlines.cons (.string "hasNextPage") (.ofText "true") .nil
          (.single "hasPreviousPage" (.ofText "false"))).AreSimple :=
    ⟨named _ (by decide), named "true" (by decide), trivial,
      single (by decide) (named "false" (by decide))⟩
  exact ⟨named _ (by decide), single (by decide) simple, trivial, single (by decide) page⟩

mutual

/-- The outline of a simple example is simple. -/
theorem Example.IsSimple.outline : (value : Example) → value.IsSimple → value.outline.IsSimple
  | .literal _, simple => simple
  | .sentinel typeName, simple => by
      have quoted : Brackets.IsSimple ("\"" ++ typeName) :=
        Brackets.IsSimple.append (by decide) simple
      exact ⟨_, rfl, quoted.append (by decide)⟩
  | .truncated, _ => trivial
  | .object entries, simple => Entries.AreSimple.outlines entries simple
  | .list item, simple => Example.IsSimple.outline item simple
  | .connection node, simple => (Example.IsSimple.outline node simple).ofConnection

theorem Entries.AreSimple.outlines
    : (entries : Entries) → entries.AreSimple → entries.outlines.AreSimple
  | .nil, _ => trivial
  | .cons _ value arguments rest, ⟨isName, simple, argumentsSimple, restSimple⟩ =>
      ⟨isName, Example.IsSimple.outline value simple,
        Entries.AreSimple.outlines arguments argumentsSimple,
        Entries.AreSimple.outlines rest restSimple⟩

end

mutual

theorem Example.HasNoArguments.outline
    : (value : Example) → value.HasNoArguments → value.outline.HasNoArguments
  | .literal _, _ | .sentinel _, _ | .truncated, _ => trivial
  | .object entries, bare => Entries.HaveNoArguments.outlines entries bare
  | .list item, bare => Example.HasNoArguments.outline item bare
  | .connection node, bare =>
      have below := Example.HasNoArguments.outline node bare
      ⟨⟨below, rfl, trivial⟩, rfl, ⟨trivial, rfl, ⟨trivial, rfl, trivial⟩⟩, rfl, trivial⟩

theorem Entries.HaveNoArguments.outlines
    : (entries : Entries) → entries.HaveNoArguments → entries.outlines.HaveNoArguments
  | .nil, _ => trivial
  | .cons _ value _ rest, ⟨bare, noArguments, restBare⟩ =>
      ⟨Example.HasNoArguments.outline value bare, noArguments ▸ rfl,
        Entries.HaveNoArguments.outlines rest restBare⟩

end

-----------------------------------------------------------------------------------------
-- Arguments
-----------------------------------------------------------------------------------------

/-- A text may be put on lines of its own between brackets. -/
theorem Brackets.IsBalanced.lined {room : Nat} {text : String}
    (balanced : IsBalanced room (text ++ "\n")) (level : Nat)
    : IsBalanced room ("\n" ++ Text.indent level text ++ "\n") := by
  have feed : IsBalanced room "\n" := .of_isQuiet (by decide)
  rw [String.append_assoc]
  exact feed.append (balanced.indent level)

theorem Brackets.IsBalanced.fed {room : Nat} {text : String} (balanced : IsBalanced room text)
    : IsBalanced room (text ++ "\n") :=
  balanced.append (.of_isQuiet (by decide))

/-- A list is passed as its item is, in brackets. -/
theorem Outline.argument_list {item : Outline} (simple : item.IsSimple)
    : (Outline.list item).argument = item.argument.map fun text => "[" ++ text ++ "]" := by
  cases item with
  | leaf value =>
      obtain ⟨text, rfl, -⟩ := simple
      rfl
  | cut => rfl
  | object entries =>
      rw [Outline.argument]
      · rfl
      · intro value same
        cases same
  | list inner =>
      rw [Outline.argument]
      · rfl
      · intro value same
        cases same

mutual

/-- A simple outline can be passed as an argument, and its text is balanced. -/
theorem Outline.IsSimple.argument
    : (value : Outline) → value.IsSimple →
        ∃ text room, value.argument = .ok text ∧ IsBalanced room text
  | .leaf _, ⟨text, same, simple⟩ => ⟨text, 0, by rw [same]; rfl, simple.isBalanced⟩
  | .cut, _ => ⟨_, 1, rfl, IsBalanced.braced (.of_isQuiet (by decide : IsQuiet "..."))⟩
  | .object entries, simple => by
      obtain ⟨texts, room, shown, each⟩ := Outlines.AreSimple.arguments entries simple
      have comma : IsBalanced room ",\n" := .of_isQuiet (by decide)
      have inner := comma.intercalate each
      rw [Outline.argument, shown]
      dsimp only [ok_bind]
      split
      · refine ⟨_, room + 1, rfl, ?_⟩
        have spelled (text : String)
            : "\x7b\n" ++ text ++ "\n\x7d" = "\x7b" ++ ("\n" ++ text ++ "\n") ++ "\x7d" := by
          rw [← String.toList_inj]
          simp
        rw [spelled]
        exact (inner.fed.lined 1).braced
      · exact ⟨_, room + 1, rfl, inner.braced⟩
  | .list item, simple => by
      have itemSimple : item.IsSimple := simple
      obtain ⟨text, room, shown, balanced⟩ := Outline.IsSimple.argument item itemSimple
      refine ⟨_, room, ?_, balanced.bracketed⟩
      rw [Outline.argument_list itemSimple, shown]
      rfl

/-- Simple outlines can be passed as arguments, and their texts are balanced. -/
theorem Outlines.AreSimple.arguments
    : (outlines : Outlines) → outlines.AreSimple →
        ∃ texts room,
          outlines.arguments = .ok texts ∧ ∀ text ∈ texts, IsBalanced room text
  | .nil, _ => ⟨[], 0, rfl, nofun⟩
  | .cons _ value arguments rest,
    ⟨⟨name, same, isName⟩, simple, argumentsSimple, restSimple⟩ => by
      obtain ⟨inner, innerRoom, innerShown, innerEach⟩ :=
        Outlines.AreSimple.arguments arguments argumentsSimple
      obtain ⟨shown, valueRoom, valueShown, balanced⟩ := Outline.IsSimple.argument value simple
      obtain ⟨more, restRoom, restShown, restEach⟩ := Outlines.AreSimple.arguments rest restSimple
      let room := max innerRoom (max valueRoom restRoom)
      have named : IsBalanced room name := isName.isBalanced
      have colon : IsBalanced room ": " := .of_isQuiet (by decide)
      have comma : IsBalanced innerRoom ",\n" := .of_isQuiet (by decide)
      have passed : IsBalanced room shown := balanced.mono (by omega)
      have further : ∀ text ∈ more, IsBalanced room text := fun text member =>
        (restEach text member).mono (by omega)
      rw [same, Outlines.arguments, innerShown, valueShown, restShown]
      cases arguments.isEmpty with
      | true =>
          refine ⟨_, room, rfl, List.forall_mem_cons.mpr ⟨?_, further⟩⟩
          exact (named.append colon).append passed
      | false =>
          refine ⟨_, room, rfl, List.forall_mem_cons.mpr ⟨?_, further⟩⟩
          have arguments : IsBalanced room ("(" ++ ",\n".intercalate inner ++ ")") :=
            (comma.intercalate innerEach).parenthesized.mono (by omega)
          have pair := ((named.append arguments).append colon).append passed
          simpa only [String.append_assoc] using pair

end

/-- What stands behind the name of a field is balanced, and empty without arguments. -/
theorem Outlines.AreSimple.argumentSuffix {arguments : Outlines} (simple : arguments.AreSimple)
    : ∃ text room,
        arguments.argumentSuffix = .ok text
        ∧ IsBalanced room text
        ∧ (arguments = .nil → room = 0) := by
  cases none : arguments.isEmpty with
  | true =>
      refine ⟨"", 0, ?_, .of_isQuiet (by decide), fun _ => rfl⟩
      rw [Outlines.argumentSuffix, none]
      rfl
  | false =>
      have some : arguments ≠ .nil := by
        rintro rfl
        cases none
      obtain ⟨texts, room, shown, each⟩ := Outlines.AreSimple.arguments arguments simple
      have comma : IsBalanced room ",\n" := .of_isQuiet (by decide)
      have inner := comma.intercalate each
      rw [Outlines.argumentSuffix, Outlines.argumentText, none, shown]
      simp only [Bool.false_eq_true, if_false, ok_bind, pure_bind]
      split
      · refine ⟨_, room, rfl, ?_, fun same => absurd same some⟩
        have spelled (text : String)
            : "(\n" ++ text ++ "\n)" = "(" ++ ("\n" ++ text ++ "\n") ++ ")" := by
          rw [← String.toList_inj]
          simp
        rw [spelled]
        exact (inner.fed.lined 1).parenthesized
      · exact ⟨_, room, rfl, inner.parenthesized, fun same => absurd same some⟩

-----------------------------------------------------------------------------------------
-- The selection
-----------------------------------------------------------------------------------------

/-- How many braces fields of a level may open: those of the levels down to the limit, and at least
those of the field itself.
-/
def nesting (limit level : Int) : Nat :=
  (max 1 (limit - level + 1)).toNat

theorem one_le_nesting (limit level : Int) : 1 ≤ nesting limit level := by
  unfold nesting
  omega

theorem nesting_below {limit level : Int} (deeper : level < limit)
    : nesting limit (level + 1) + 1 = nesting limit level := by
  unfold nesting
  omega

/-- The mark of a place that is cut off stands on a line of its own. -/
theorem Brackets.IsBalanced.ellipsisBelow {room : Nat}
    : IsBalanced room ("\n" ++ RubySchema.ellipsis ++ "\n") := by
  have feed : IsBalanced room "\n" := .of_isQuiet (by decide)
  rw [String.append_assoc]
  exact feed.append .ellipsis

/-- A text goes on with lines in braces. -/
theorem Brackets.IsBalanced.block {room below : Nat} {key lines blanks : String}
    (head : IsBalanced room key) (inner : IsBalanced below (lines ++ "\n"))
    (fits : below + 1 ≤ room) (end_ : IsBalanced below blanks)
    : IsBalanced room (key ++ " \x7b" ++ lines ++ "\n" ++ blanks ++ "\x7d") := by
  have blank : IsBalanced room " " := .of_isQuiet (by decide)
  have spelled
      : key ++ " \x7b" ++ lines ++ "\n" ++ blanks ++ "\x7d"
        = key ++ " " ++ ("\x7b" ++ (lines ++ "\n" ++ blanks) ++ "\x7d") := by
    rw [← String.toList_inj]
    simp
  rw [spelled]
  exact (head.append blank).append ((inner.append end_).braced.mono fits)

/-- The text of a field goes on with its body in braces, if there is one. -/
theorem Brackets.IsBalanced.field {room below : Nat} {key body more : String}
    (head : IsBalanced room key) (inner : IsBalanced below (body ++ "\n"))
    (fits : below + 1 ≤ room) (further : IsBalanced room more)
    : IsBalanced room (key ++ " \x7b" ++ Text.indent 1 body ++ "\n\x7d" ++ more) := by
  have none : IsBalanced below "" := .of_isQuiet (by decide)
  have spelled
      : key ++ " \x7b" ++ Text.indent 1 body ++ "\n\x7d" ++ more
        = key ++ " \x7b" ++ Text.indent 1 body ++ "\n" ++ "" ++ "\x7d" ++ more := by
    rw [← String.toList_inj]
    simp
  rw [spelled]
  exact (head.block (inner.indent 1) fits none).append further

mutual

/-- What is selected of a simple outline is balanced with a line feed behind it. -/
theorem Outline.IsSimple.selectionBody? (limit level : Int)
    : (value : Outline) → value.IsSimple →
        value.selectionBody? limit level = .ok none
        ∨ ∃ text room,
            value.selectionBody? limit level = .ok (some text)
            ∧ IsBalanced room (text ++ "\n")
            ∧ (value.HasNoArguments → room + 1 ≤ nesting limit level)
  | .leaf _, _ => .inl rfl
  | .cut, _ => .inr ⟨_, 0, rfl, .ellipsisBelow, fun _ => one_le_nesting limit level⟩
  | .object entries, simple => by
      obtain ⟨text, room, shown, balanced, bound⟩ :=
        Outlines.AreSimple.selection limit (level + 1) entries simple
      right
      rw [Outline.selectionBody?, shown, ok_bind]
      split
      case isTrue deeper =>
        refine ⟨text, room, rfl, balanced.fed, fun bare => ?_⟩
        have within := bound bare
        have above := nesting_below deeper
        omega
      case isFalse =>
        exact ⟨_, 0, rfl, .ellipsisBelow, fun _ => one_le_nesting limit level⟩
  | .list (.leaf _), _ => .inl rfl
  | .list .cut, _ => .inr ⟨_, 0, rfl, .ellipsisBelow, fun _ => one_le_nesting limit level⟩
  | .list (.object entries), simple =>
      Outline.IsSimple.selectionBody? limit level (.object entries) simple
  | .list (.list _), _ =>
      .inr ⟨_, 0, rfl, .ellipsisBelow, fun _ => one_le_nesting limit level⟩

/-- Simple outlines can be selected, and the text is balanced. -/
theorem Outlines.AreSimple.selection (limit level : Int)
    : (outlines : Outlines) → outlines.AreSimple →
        ∃ text room,
          outlines.selection limit level = .ok text
          ∧ IsBalanced room text
          ∧ (outlines.HaveNoArguments → room ≤ nesting limit level)
  | .nil, _ => ⟨"", 0, rfl, .of_isQuiet (by decide), fun _ => Nat.zero_le _⟩
  | .cons _ value arguments rest,
    ⟨⟨name, same, isName⟩, simple, argumentsSimple, restSimple⟩ => by
      obtain ⟨suffix, suffixRoom, suffixShown, behind, noSuffix⟩ := argumentsSimple.argumentSuffix
      obtain ⟨more, restRoom, restShown, further, restBound⟩ :=
        Outlines.AreSimple.selection limit level rest restSimple
      have key {room : Nat} (enough : suffixRoom ≤ room)
          : IsBalanced room ("\n" ++ name ++ suffix) := by
        have feed : IsBalanced room "\n" := .of_isQuiet (by decide)
        exact (feed.append isName.isBalanced).append (behind.mono enough)
      rw [same, Outlines.selection, suffixShown, restShown]
      rcases Outline.IsSimple.selectionBody? limit level value simple with
        bodyShown | ⟨text, bodyRoom, bodyShown, inner, bodyBound⟩
      · rw [bodyShown]
        refine ⟨_, max suffixRoom restRoom, rfl, ?_, ?_⟩
        · exact (key (by omega)).append (further.mono (by omega))
        · rintro ⟨-, noArguments, restBare⟩
          have first := noSuffix noArguments
          have last := restBound restBare
          omega
      · rw [bodyShown]
        refine ⟨_, max suffixRoom (max (bodyRoom + 1) restRoom), rfl, ?_, ?_⟩
        · exact (key (by omega)).field inner (by omega) (further.mono (by omega))
        · rintro ⟨bare, noArguments, restBare⟩
          have first := noSuffix noArguments
          have below := bodyBound bare
          have last := restBound restBare
          omega

end

-----------------------------------------------------------------------------------------
-- The response
-----------------------------------------------------------------------------------------

/-- What responds in braces, on lines of its own, and what is around the braces. -/
theorem Brackets.IsBalanced.response {room : Nat} {body : String}
    (inner : IsBalanced (room - 1) (body ++ "\n")) (some : 1 ≤ room)
    : IsBalanced room ("\x7b\n" ++ Text.indent 1 body ++ "\n\x7d,\n")
      ∧ IsBalanced room ("[\x7b\n" ++ Text.indent 1 body ++ "\n\x7d],\n") := by
  have comma : IsBalanced room ",\n" := .of_isQuiet (by decide)
  have braced
      : IsBalanced room ("\x7b" ++ ("\n" ++ Text.indent 1 body ++ "\n") ++ "\x7d") :=
    (inner.lined 1).braced.mono (by omega)
  have plain
      : "\x7b\n" ++ Text.indent 1 body ++ "\n\x7d,\n"
        = "\x7b" ++ ("\n" ++ Text.indent 1 body ++ "\n") ++ "\x7d" ++ ",\n" := by
    rw [← String.toList_inj]
    simp
  have listed
      : "[\x7b\n" ++ Text.indent 1 body ++ "\n\x7d],\n"
        = "[" ++ ("\x7b" ++ ("\n" ++ Text.indent 1 body ++ "\n") ++ "\x7d") ++ "]" ++ ",\n" := by
    rw [← String.toList_inj]
    simp
  rw [plain, listed]
  exact ⟨braced.append comma, braced.bracketed.append comma⟩

/-- The response of a field: a leaf, perhaps in brackets, or lines in braces. A list of lists
responds as the inner lists do.
-/
inductive Outline.Responds (limit level : Int) : Outline → String → Prop where
  | leaf (value : Json) : Responds limit level (.leaf value) (value.display ++ ",\n")
  | leaves (value : Json)
    : Responds limit level (.list (.leaf value)) ("[" ++ value.display ++ "],\n")
  | innerLeaves (value : Json)
    : Responds limit level (.list (.list (.leaf value))) ("[" ++ value.display ++ "],\n")
  | items (item : Outline)
    : Responds limit level (.list item)
        ("[\x7b\n" ++ indent 1 (item.nestedResult limit level) ++ "\n\x7d],\n")
  | innerItems (item : Outline)
    : Responds limit level (.list (.list item))
        ("[\x7b\n" ++ indent 1 (item.nestedResult limit level) ++ "\n\x7d],\n")
  | fields (value : Outline)
    : Responds limit level value
        ("\x7b\n" ++ indent 1 (value.nestedResult limit level) ++ "\n\x7d,\n")

theorem Outline.responds (limit level : Int) (value : Outline)
    : Responds limit level value (value.resultOf limit level) := by
  unfold resultOf
  split
  · exact .leaf _
  · exact .leaves _
  · exact .innerLeaves _
  · exact .innerItems _
  · exact .items _
  · exact .fields _

/-- A simple leaf in brackets responds with a balanced text. -/
theorem Brackets.IsSimple.response {text : String} {room : Nat} (simple : Brackets.IsSimple text)
    : IsBalanced room ("[" ++ text ++ "],\n") := by
  have comma : IsBalanced room ",\n" := .of_isQuiet (by decide)
  have spelled : "[" ++ text ++ "],\n" = "[" ++ text ++ "]" ++ ",\n" := by
    rw [← String.toList_inj]
    simp
  rw [spelled]
  exact simple.isBalanced.bracketed.append comma

mutual

/-- What a simple outline responds with in braces is balanced on lines of its own. -/
theorem Outline.IsSimple.nestedResult (limit level : Int) (value : Outline)
    (simple : value.IsSimple)
    : IsBalanced (nesting limit level - 1) (value.nestedResult limit level ++ "\n") := by
  unfold Outline.nestedResult
  split
  case h_1 entries =>
    split
    case isTrue deeper =>
      have balanced := Outlines.AreSimple.result limit (level + 1) entries simple
      have above := nesting_below deeper
      exact balanced.fed.mono (by omega)
    case isFalse => exact .ellipsis
  case h_2 => exact .ellipsis
termination_by (sizeOf value, 0)

/-- The response of a simple field is balanced, and opens no more braces than its levels do. -/
theorem Outline.IsSimple.resultOf (limit level : Int) (value : Outline) (simple : value.IsSimple)
    : IsBalanced (nesting limit level) (value.resultOf limit level) := by
  have some := one_le_nesting limit level
  have responds := value.responds limit level
  generalize value.resultOf limit level = text at responds
  cases responds with
  | leaf =>
      obtain ⟨text, rfl, isText⟩ := simple
      exact isText.isBalanced.append (.of_isQuiet (by decide))
  | leaves =>
      obtain ⟨text, rfl, isText⟩ := simple
      exact isText.response
  | innerLeaves =>
      obtain ⟨text, rfl, isText⟩ := simple
      exact isText.response
  | items item => exact ((Outline.IsSimple.nestedResult limit level item simple).response some).2
  | innerItems item =>
      exact ((Outline.IsSimple.nestedResult limit level item simple).response some).2
  | fields => exact ((Outline.IsSimple.nestedResult limit level value simple).response some).1
termination_by (sizeOf value, 1)

/-- The response of simple fields is balanced, and opens no more braces than their levels do. -/
theorem Outlines.AreSimple.result (limit level : Int) (outlines : Outlines)
    (simple : outlines.AreSimple)
    : IsBalanced (nesting limit level) (outlines.result limit level) := by
  cases outlines with
  | nil =>
      rw [Outlines.result]
      exact .of_isQuiet (by decide)
  | cons name value arguments rest =>
      obtain ⟨⟨text, rfl, isName⟩, simple, -, restSimple⟩ := simple
      have colon : IsBalanced (nesting limit level) ": " := .of_isQuiet (by decide)
      have response := Outline.IsSimple.resultOf limit level value simple
      have further := Outlines.AreSimple.result limit level rest restSimple
      rw [Outlines.result]
      exact ((isName.isBalanced.append colon).append response).append further
termination_by (sizeOf outlines, 0)

end

end RubySchema
