import RubySchema.Proofs.Example.Reading
import RubySchema.Proofs.Outcome

/-!
Examples that can be read back: names and leaves of one line. Their arguments can be written, and a
reader passes over them: each parenthesis that they open they close again.
-/

namespace RubySchema

open Text

-----------------------------------------------------------------------------------------
-- What can be read back
-----------------------------------------------------------------------------------------

namespace Reading

/-- A text is a name: neither blanks nor signs stand in it, and it is not empty. -/
def IsName (text : String) : Prop :=
  text.toList ≠ [] ∧ ∀ c ∈ text.toList, isNameChar c = true

/-- A character that neither ends a line nor opens or closes parentheses or braces. -/
def IsPlainChar (c : Char) : Prop :=
  isLineBreak c = false ∧ c ∉ ['(', ')', '\x7b', '\x7d']

def IsPlain (text : String) : Prop :=
  ∀ c ∈ text.toList, IsPlainChar c

instance : DecidablePred IsName :=
  fun text =>
    @instDecidableAnd _ _ inferInstance (List.decidableBAll (isNameChar · = true) text.toList)

instance : DecidablePred IsPlainChar :=
  fun _ => inferInstanceAs (Decidable (_ ∧ _))

instance : DecidablePred IsPlain :=
  fun text => List.decidableBAll IsPlainChar text.toList

theorem IsPlain.append {first second : String} (here : IsPlain first) (there : IsPlain second)
    : IsPlain (first ++ second) := by
  unfold IsPlain
  rw [String.toList_append]
  exact List.forall_mem_append.mpr ⟨here, there⟩

end Reading

open Reading

mutual

/-- Names are names, leaves are plain, and no list is directly inside a list. -/
def Example.IsReadable : Example → Prop
  | .literal value => ∃ text, value = .string text ∧ IsPlain text
  | .sentinel typeName => IsPlain typeName
  | .truncated => True
  | .object entries => entries.AreReadable
  | .list (.list _) => False
  | .list item => item.IsReadable
  | .connection node => node.IsReadable

def Entries.AreReadable : Entries → Prop
  | .nil => True
  | .cons name value arguments rest =>
      (∃ text, name = .string text ∧ IsName text)
      ∧ value.IsReadable ∧ arguments.AreReadable ∧ rest.AreReadable

end

mutual

def Outline.IsReadable : Outline → Prop
  | .leaf value => ∃ text, value = .string text ∧ IsPlain text
  | .cut => True
  | .object entries => entries.AreReadable
  | .list (.list _) => False
  | .list item => item.IsReadable

def Outlines.AreReadable : Outlines → Prop
  | .nil => True
  | .cons name value arguments rest =>
      (∃ text, name = .string text ∧ IsName text)
      ∧ value.IsReadable ∧ arguments.AreReadable ∧ rest.AreReadable

end

theorem Outlines.areReadable_single {name : String} {value : Outline} (isName : IsName name)
    (readable : value.IsReadable) : (single name value).AreReadable :=
  ⟨⟨name, rfl, isName⟩, readable, trivial, trivial⟩

/-- A connection around a readable node is readable, whatever the node is. -/
theorem Outline.IsReadable.ofConnection {node : Outline} (readable : node.IsReadable)
    : (Outline.ofConnection node).IsReadable := by
  have leaf (text : String) (plain : IsPlain text) : (Outline.ofText text).IsReadable :=
    ⟨text, rfl, plain⟩
  have page
      : (Outlines.cons (.string "hasNextPage") (.ofText "true") .nil
          (.single "hasPreviousPage" (.ofText "false"))).AreReadable :=
    ⟨⟨_, rfl, by decide⟩, leaf "true" (by decide), trivial,
      Outlines.areReadable_single (by decide) (leaf "false" (by decide))⟩
  exact ⟨⟨_, rfl, by decide⟩, Outlines.areReadable_single (by decide) readable, trivial,
    Outlines.areReadable_single (by decide) page⟩

mutual

/-- The outline of a readable example is readable. -/
theorem Example.IsReadable.outline
    : (value : Example) → value.IsReadable → value.outline.IsReadable
  | .literal _, readable => readable
  | .sentinel typeName, plain => by
      have quoted : IsPlain ("\"" ++ typeName) := IsPlain.append (by decide) plain
      exact ⟨_, rfl, quoted.append (by decide)⟩
  | .truncated, _ => trivial
  | .object entries, readable => Entries.AreReadable.outlines entries readable
  | .list (.literal _), readable => readable
  | .list (.sentinel typeName), readable => Example.IsReadable.outline (.sentinel typeName) readable
  | .list .truncated, _ => trivial
  | .list (.object entries), readable => Entries.AreReadable.outlines entries readable
  | .list (.connection node), readable => (Example.IsReadable.outline node readable).ofConnection
  | .connection node, readable => (Example.IsReadable.outline node readable).ofConnection

theorem Entries.AreReadable.outlines
    : (entries : Entries) → entries.AreReadable → entries.outlines.AreReadable
  | .nil, _ => trivial
  | .cons _ value arguments rest, ⟨isName, readable, argumentsReadable, restReadable⟩ =>
      ⟨isName, Example.IsReadable.outline value readable,
        Entries.AreReadable.outlines arguments argumentsReadable,
        Entries.AreReadable.outlines rest restReadable⟩

end

-----------------------------------------------------------------------------------------
-- Arguments
-----------------------------------------------------------------------------------------

namespace Reading

variable {least level : Nat} {text first second : String}

/-- A character that is neither a parenthesis, nor a line break other than a line feed. -/
def IsQuietChar (c : Char) : Prop :=
  c ≠ '(' ∧ c ≠ ')' ∧ (isLineBreak c = true → c = '\n')

def IsQuiet (text : String) : Prop :=
  ∀ c ∈ text.toList, IsQuietChar c

instance : DecidablePred IsQuietChar :=
  fun _ => inferInstanceAs (Decidable (_ ∧ _ ∧ _))

instance : DecidablePred IsQuiet :=
  fun text => List.decidableBAll IsQuietChar text.toList

theorem IsPlain.isQuiet (plain : IsPlain text) : IsQuiet text := by
  intro c member
  obtain ⟨unbroken, noBracket⟩ := plain c member
  simp only [List.mem_cons, not_or] at noBracket
  refine ⟨noBracket.1, noBracket.2.1, fun breaks => ?_⟩
  rw [unbroken] at breaks
  cases breaks

theorem IsName.not_mem (isName : IsName text) {c : Char} (sign : isNameChar c = false)
    : c ∉ text.toList := by
  intro member
  rw [isName.2 c member] at sign
  cases sign

theorem IsName.isQuiet (isName : IsName text) : IsQuiet text := by
  intro c member
  refine ⟨?_, ?_, fun breaks => ?_⟩
  · rintro rfl
    exact isName.not_mem (by decide) member
  · rintro rfl
    exact isName.not_mem (by decide) member
  · exact absurd member (isName.not_mem (by simp [isNameChar, isBlank, breaks]))

theorem IsQuiet.feeds (quiet : IsQuiet text) : BreaksByFeeds text.toList :=
  fun c member => (quiet c member).2.2

theorem IsQuiet.append (here : IsQuiet first) (there : IsQuiet second)
    : IsQuiet (first ++ second) := by
  unfold IsQuiet
  rw [String.toList_append]
  exact List.forall_mem_append.mpr ⟨here, there⟩

theorem IsQuiet.indent (quiet : IsQuiet text) (level : Nat) : IsQuiet (indent level text) := by
  unfold IsQuiet Text.indent
  rw [String.toList_ofList]
  intro c member
  rcases mem_indentChars member with within | rfl | rfl
  · exact quiet c within
  · decide
  · decide

theorem breaksByFeeds_indent (feeds : BreaksByFeeds text.toList)
    : BreaksByFeeds (indent level text).toList := by
  rw [indent, String.toList_ofList]
  intro c member breaks
  rcases mem_indentChars member with within | rfl | rfl
  · exact feeds c within breaks
  · cases breaks
  · rfl

/-- A text is passed over when at least so many parentheses are open in front of it. -/
structure IsPassedOver (least : Nat) (text : String) : Prop where
  feeds : BreaksByFeeds text.toList
  passed
    : ∀ parens braces line rest,
        least ≤ parens →
          read parens braces line (text.toList ++ rest) = read parens braces line rest

namespace IsPassedOver

theorem empty : IsPassedOver least "" :=
  ⟨fun _ member => (nomatch member), fun _ _ _ _ _ => rfl⟩

theorem append (here : IsPassedOver least first) (there : IsPassedOver least second)
    : IsPassedOver least (first ++ second) where
  feeds := by
    rw [String.toList_append]
    exact here.feeds.append there.feeds
  passed parens braces line rest enough := by
    rw [String.toList_append, List.append_assoc, here.passed _ _ _ _ enough,
      there.passed _ _ _ _ enough]

theorem mono {more : Nat} (passes : IsPassedOver least text) (le : least ≤ more)
    : IsPassedOver more text :=
  ⟨passes.feeds, fun _ _ _ _ enough => passes.passed _ _ _ _ (Nat.le_trans le enough)⟩

/-- Inside of parentheses quiet characters are passed over, by induction on the text. -/
theorem ofQuiet (quiet : IsQuiet text) : IsPassedOver 1 text := by
  refine ⟨quiet.feeds, fun parens braces line rest enough => ?_⟩
  have inside : 0 < parens := enough
  unfold IsQuiet at quiet
  generalize text.toList = characters at quiet
  induction characters with
  | nil => rfl
  | cons c more ih =>
      obtain ⟨notOpen, notClose, -⟩ := quiet c List.mem_cons_self
      rw [List.cons_append, read, if_neg notOpen, if_neg notClose, if_pos inside,
        ih fun other member => quiet other (List.mem_cons_of_mem c member)]

/-- With parentheses around it a text is passed over anywhere. -/
theorem parenthesized (passes : IsPassedOver 1 text) : IsPassedOver 0 ("(" ++ text ++ ")") := by
  have spelled : ("(" ++ text ++ ")").toList = '(' :: (text.toList ++ [')']) := by simp
  constructor
  · simp only [String.toList_append]
    have opened : BreaksByFeeds ("(".toList ++ text.toList) :=
      BreaksByFeeds.append (by decide) passes.feeds
    exact opened.append (by decide)
  · intro parens braces line rest _
    rw [spelled, List.cons_append, List.append_assoc, read, if_pos rfl,
      passes.passed _ _ _ _ (by omega), List.singleton_append, read]
    simp

/-- On lines of its own a text may be indented. -/
theorem indented (passes : IsPassedOver 1 text) (level : Nat)
    : IsPassedOver 1 ("\n" ++ indent level text ++ "\n") := by
  have spelled
      : ("\n" ++ indent level text ++ "\n").toList
        = '\n' :: (indentChars level text.toList ++ ['\n']) := by
    simp [indent]
  constructor
  · simp only [String.toList_append]
    have opened : BreaksByFeeds ("\n".toList ++ (indent level text).toList) :=
      BreaksByFeeds.append (by decide) (breaksByFeeds_indent passes.feeds)
    exact opened.append (by decide)
  · intro parens braces line rest enough
    have inside : 0 < parens := enough
    have feed (rest : List Char)
        : read parens braces line ('\n' :: rest) = read parens braces line rest := by
      rw [read, if_neg (by decide), if_neg (by decide), if_pos inside]
    have unindented :=
      @alikeAtStart_indentChars level _ passes.feeds rest parens braces line (.inl inside)
    rw [spelled, List.cons_append, List.append_assoc, feed, List.singleton_append, unindented,
      passes.passed _ _ _ _ enough, feed]

/-- Texts with a passed over separator between them, by induction on the texts. -/
theorem intercalate {separator : String} {texts : List String}
    (between : IsPassedOver least separator) (each : ∀ text ∈ texts, IsPassedOver least text)
    : IsPassedOver least (separator.intercalate texts) := by
  induction texts with
  | nil => exact empty
  | cons text rest ih =>
      have here := each text List.mem_cons_self
      have later := ih fun other member => each other (List.mem_cons_of_mem text member)
      cases rest with
      | nil => rwa [String.intercalate_singleton]
      | cons next more =>
          rw [String.intercalate_cons_cons]
          exact (here.append between).append later

end IsPassedOver

end Reading

mutual

/-- A readable outline can be passed, and inside of the parentheses it is passed over. -/
theorem Outline.IsReadable.argument
    : (value : Outline) → value.IsReadable →
        ∃ text, value.argument = .ok text ∧ IsPassedOver 1 text
  | .leaf _, ⟨text, rfl, plain⟩ => ⟨text, rfl, .ofQuiet plain.isQuiet⟩
  | .cut, _ => ⟨_, rfl, .ofQuiet (by decide)⟩
  | .object entries, readable => by
      obtain ⟨texts, shown, each⟩ := Outlines.AreReadable.arguments entries readable
      have comma : IsPassedOver 1 ",\n" := .ofQuiet (by decide)
      have inner := comma.intercalate each
      have opened : IsPassedOver 1 "\x7b" := .ofQuiet (by decide)
      have closed : IsPassedOver 1 "\x7d" := .ofQuiet (by decide)
      rw [Outline.argument, shown]
      dsimp only [ok_bind]
      split
      · refine ⟨_, rfl, ?_⟩
        have lined := (opened.append (inner.indented 1)).append closed
        have spelled (text : String)
            : "\x7b\n" ++ text ++ "\n\x7d" = "\x7b" ++ ("\n" ++ text ++ "\n") ++ "\x7d" := by
          rw [← String.toList_inj]
          simp
        rwa [spelled]
      · exact ⟨_, rfl, (opened.append inner).append closed⟩
  | .list (.leaf _), ⟨text, rfl, plain⟩ => by
      have opened : IsPassedOver 1 "[" := .ofQuiet (by decide)
      have closed : IsPassedOver 1 "]" := .ofQuiet (by decide)
      exact ⟨_, rfl, (opened.append (.ofQuiet plain.isQuiet)).append closed⟩
  | .list .cut, _ => ⟨_, rfl, .ofQuiet (by decide)⟩
  | .list (.object entries), readable => by
      obtain ⟨text, shown, inner⟩ := Outline.IsReadable.argument (.object entries) readable
      have opened : IsPassedOver 1 "[" := .ofQuiet (by decide)
      have closed : IsPassedOver 1 "]" := .ofQuiet (by decide)
      rw [Outline.argument, shown]
      · exact ⟨_, rfl, (opened.append inner).append closed⟩
      · intro value same
        cases same

/-- Readable outlines can be passed, and inside of the parentheses they are passed over. -/
theorem Outlines.AreReadable.arguments
    : (outlines : Outlines) → outlines.AreReadable →
        ∃ texts, outlines.arguments = .ok texts ∧ ∀ text ∈ texts, IsPassedOver 1 text
  | .nil, _ => ⟨[], rfl, fun _ member => nomatch member⟩
  | .cons _ value arguments rest,
    ⟨⟨name, rfl, isName⟩, readable, argumentsReadable, restReadable⟩ => by
      obtain ⟨inner, innerShown, innerEach⟩ :=
        Outlines.AreReadable.arguments arguments argumentsReadable
      obtain ⟨shown, valueShown, passes⟩ := Outline.IsReadable.argument value readable
      obtain ⟨more, restShown, restEach⟩ := Outlines.AreReadable.arguments rest restReadable
      have named : IsPassedOver 1 name := .ofQuiet isName.isQuiet
      have colon : IsPassedOver 1 ": " := .ofQuiet (by decide)
      have comma : IsPassedOver 1 ",\n" := .ofQuiet (by decide)
      rw [Outlines.arguments, innerShown, valueShown, restShown]
      cases arguments.isEmpty with
      | true =>
          refine ⟨_, rfl, List.forall_mem_cons.mpr ⟨?_, restEach⟩⟩
          exact (named.append colon).append passes
      | false =>
          refine ⟨_, rfl, List.forall_mem_cons.mpr ⟨?_, restEach⟩⟩
          have passed := (comma.intercalate innerEach).parenthesized.mono (Nat.zero_le 1)
          have pair := ((named.append passed).append colon).append passes
          simpa only [String.append_assoc] using pair

end

/-- What stands behind the name of a field is passed over. -/
theorem Outlines.AreReadable.argumentSuffix {arguments : Outlines}
    (readable : arguments.AreReadable)
    : ∃ text, arguments.argumentSuffix = .ok text ∧ IsPassedOver 0 text := by
  obtain ⟨texts, shown, each⟩ := Outlines.AreReadable.arguments arguments readable
  have comma : IsPassedOver 1 ",\n" := .ofQuiet (by decide)
  have inner := comma.intercalate each
  rw [Outlines.argumentSuffix, Outlines.argumentText, shown]
  split
  · exact ⟨"", rfl, .empty⟩
  · simp only [ok_bind, pure_bind]
    split
    · refine ⟨_, rfl, ?_⟩
      have lined := (inner.indented 1).parenthesized
      have spelled (text : String)
          : "(\n" ++ text ++ "\n)" = "(" ++ ("\n" ++ text ++ "\n") ++ ")" := by
        rw [← String.toList_inj]
        simp
      rwa [spelled]
    · exact ⟨_, rfl, inner.parenthesized⟩

end RubySchema
