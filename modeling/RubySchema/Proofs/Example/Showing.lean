import RubySchema.Proofs.Example.Passing
import RubySchema.Proofs.Runs

/-!
The two texts of an example show the same data. What either shows is told by the outline alone, and
a selection and its response agree on it, down to the places that they cut off.
-/

namespace RubySchema

open Text Reading

-----------------------------------------------------------------------------------------
-- What an outline shows
-----------------------------------------------------------------------------------------

mutual

/-- What a value shows where some braces are open: its fields, or that it is cut off. -/
def Outline.marks (limit level : Int) : Outline → Nat → List (Nat × Mark)
  | .leaf _ => fun _ => []
  | .cut => fun braces => [(braces, .cut)]
  | .object entries =>
      if level < limit then entries.marks limit (level + 1) else fun braces => [(braces, .cut)]
  | .list item => item.marks limit level

/-- What fields show where some braces are open: their names, below each what its value shows. -/
def Outlines.marks (limit level : Int) : Outlines → Nat → List (Nat × Mark)
  | .nil => fun _ => []
  | .cons name value _ rest => fun braces =>
      (braces, .field name.display.toList)
        :: (value.marks limit level (braces + 1) ++ rest.marks limit level braces)

end

namespace Reading

variable {braces : Nat} {line text rest : List Char} {name suffix body inner before behind : String}
  {shown shownBelow : Nat → List (Nat × Mark)}

theorem read_feed
    : read 0 braces line ('\n' :: rest)
      = marksOfLines braces [line] ++ read 0 (depthAfter braces line) [] rest := by
  simp [read]

theorem depthAfter_append (free : '\x7b' ∉ line ∧ '\x7d' ∉ line) (tail : List Char)
    : depthAfter braces (line ++ tail) = depthAfter braces tail := by
  simp [depthAfter, List.count_append, List.count_eq_zero.mpr free.1,
    List.count_eq_zero.mpr free.2]

theorem IsName.free (isName : IsName name) : '\x7b' ∉ name.toList ∧ '\x7d' ∉ name.toList :=
  ⟨isName.not_mem (by decide), isName.not_mem (by decide)⟩

theorem IsPlain.free {text : String} (plain : IsPlain text)
    : '\x7b' ∉ text.toList ∧ '\x7d' ∉ text.toList := by
  constructor
  · intro member
    exact (plain _ member).2 (by decide)
  · intro member
    exact (plain _ member).2 (by decide)

theorem IsName.isInLine (isName : IsName name) : IsInLine name.toList := by
  intro c member
  obtain ⟨notOpen, notClose, -⟩ := isName.isQuiet c member
  refine ⟨notOpen, notClose, ?_⟩
  rintro rfl
  exact isName.not_mem (by decide) member

theorem IsPlain.isInLine {text : String} (plain : IsPlain text) : IsInLine text.toList := by
  intro c member
  obtain ⟨notOpen, notClose, -⟩ := plain.isQuiet c member
  refine ⟨notOpen, notClose, ?_⟩
  rintro rfl
  cases (plain _ member).1

/-- A line that begins with a name shows a field of that name. -/
theorem marksOfLines_field (isName : IsName name) {tail : List Char}
    (ends : StopsRun isNameChar tail)
    : marksOfLines braces [name.toList ++ tail] = [(braces, .field name.toList)] := by
  obtain ⟨c, more, spelled⟩ := List.exists_cons_of_ne_nil isName.1
  have letter : isNameChar c = true := isName.2 c (by simp [spelled])
  have notBlank : isBlank c = false := by
    simp only [isNameChar, Bool.and_eq_true, Bool.not_eq_true'] at letter
    exact letter.1
  have noHash : '#' ∉ name.toList := isName.not_mem (by decide)
  have notHash : c ≠ '#' := by
    rintro rfl
    simp [spelled] at noHash
  obtain ⟨whole, -⟩ := takeWhile_dropWhile_eq_iff.mpr ⟨isName.2, ends, rfl⟩
  have shown : (name.toList ++ tail).dropWhile isBlank = name.toList ++ tail := by
    rw [spelled, List.cons_append, List.dropWhile_cons_of_neg (by simp [notBlank])]
  have notCut : name.toList ++ tail ≠ ellipsis.toList := by
    intro same
    rw [spelled] at same
    exact notHash (List.cons.inj same).1
  have marked : mark? (name.toList ++ tail) = some (.field name.toList) := by
    unfold mark?
    rw [shown, if_neg notCut, whole, spelled]
  simp [marksOfLines, marked]

/-- A line that begins with a sign shows nothing. -/
theorem marksOfLines_brace (tail : List Char)
    : marksOfLines braces ['\x7d' :: tail] = [] := by
  have shown : ('\x7d' :: tail).dropWhile isBlank = '\x7d' :: tail :=
    List.dropWhile_cons_of_neg (by decide)
  have notCut : '\x7d' :: tail ≠ ellipsis.toList := by
    intro same
    have first : '\x7d' = '#' := (List.cons.inj same).1
    cases first
  have notName : ('\x7d' :: tail).takeWhile isNameChar = [] :=
    List.takeWhile_cons_of_neg (by decide)
  have unmarked : mark? ('\x7d' :: tail) = none := by
    unfold mark?
    rw [shown, if_neg notCut, notName]
  simp [marksOfLines, unmarked]

-----------------------------------------------------------------------------------------
-- The selection
-----------------------------------------------------------------------------------------

/-- A text of lines behind the line they are put to: what they show lies as deep as that line leaves
off, and they leave no brace open.
-/
structure IsSelection (shown : Nat → List (Nat × Mark)) (text : String) : Prop where
  feeds : BreaksByFeeds text.toList
  opens : text.toList = [] ∨ ∃ more, text.toList = '\n' :: more ∧ more ≠ []
  shows
    : ∀ braces line rest,
        read 0 braces line (text.toList ++ '\n' :: rest)
          = marksOfLines braces [line] ++ shown (depthAfter braces line)
            ++ read 0 (depthAfter braces line) [] rest

theorem isSelection_empty : IsSelection (fun _ => []) "" where
  feeds _ member := nomatch member
  opens := .inl rfl
  shows braces line rest := by simp [read_feed]

theorem isSelection_ellipsis
    : IsSelection (fun braces => [(braces, .cut)]) ("\n" ++ ellipsis) where
  feeds := by decide
  opens := .inr ⟨ellipsis.toList, by simp, by decide⟩
  shows braces line rest := by
    have cut : marksOfLines (depthAfter braces line) [ellipsis.toList]
        = [(depthAfter braces line, .cut)] := by
      simp [marksOfLines, mark?, ellipsis, isBlank, isLineBreak]
    have closed : depthAfter (depthAfter braces line) ellipsis.toList = depthAfter braces line :=
      rfl
    rw [String.toList_append]
    show read 0 braces line ('\n' :: (ellipsis.toList ++ '\n' :: rest)) = _
    rw [read_feed, read_append (by decide), if_neg (by decide), List.nil_append, read_feed, cut,
      closed, List.append_assoc]

/-- Behind a line feed a field begins a line, whatever is passed over behind its name. -/
theorem read_key (isName : IsName name) (passes : IsPassedOver 0 suffix) (rest : List Char)
    : read 0 braces line ('\n' :: (name.toList ++ (suffix.toList ++ rest)))
      = marksOfLines braces [line] ++ read 0 (depthAfter braces line) name.toList rest := by
  rw [read_feed, read_append isName.isInLine, if_neg (by decide), List.nil_append,
    passes.passed _ _ _ _ (Nat.zero_le 0)]

/-- A field of which nothing is selected, and further fields behind it. -/
theorem IsSelection.leaf {more : String} (isName : IsName name) (passes : IsPassedOver 0 suffix)
    (further : IsSelection shown more)
    : IsSelection (fun braces => (braces, .field name.toList) :: shown braces)
        ("\n" ++ name ++ suffix ++ more) := by
  have spelled
      : ("\n" ++ name ++ suffix ++ more).toList
        = '\n' :: (name.toList ++ (suffix.toList ++ more.toList)) := by
    simp
  constructor
  · simp only [String.toList_append]
    have key : BreaksByFeeds ("\n".toList ++ name.toList) :=
      BreaksByFeeds.append (by decide) isName.isQuiet.feeds
    exact (key.append passes.feeds).append further.feeds
  · exact .inr ⟨_, spelled, by simp [isName.1]⟩
  · intro braces line rest
    have fieldLine := @marksOfLines_field (depthAfter braces line) name isName [] stopsRun_nil
    have sameDepth := @depthAfter_append (depthAfter braces line) _ isName.free []
    rw [List.append_nil] at fieldLine sameDepth
    have closed : depthAfter (depthAfter braces line) [] = depthAfter braces line := rfl
    simp only [spelled, List.cons_append, List.append_assoc, read_key isName passes, further.shows,
      fieldLine, sameDepth, closed, List.nil_append]

/-- A field with what is selected of it in braces, and further fields behind it. -/
theorem IsSelection.nested {more : String} (isName : IsName name) (passes : IsPassedOver 0 suffix)
    (below : IsSelection shownBelow body) (further : IsSelection shown more)
    : IsSelection
        (fun braces =>
          (braces, .field name.toList) :: (shownBelow (braces + 1) ++ shown braces))
        ("\n" ++ name ++ suffix ++ " \x7b" ++ indent 1 body ++ "\n\x7d" ++ more) := by
  have spelled
      : ("\n" ++ name ++ suffix ++ " \x7b" ++ indent 1 body ++ "\n\x7d" ++ more).toList
        = '\n' :: (name.toList ++ (suffix.toList ++ (" \x7b".toList
            ++ (indentChars 1 body.toList ++ '\n' :: '\x7d' :: more.toList)))) := by
    simp [indent]
  constructor
  · simp only [String.toList_append]
    have key : BreaksByFeeds ("\n".toList ++ name.toList) :=
      BreaksByFeeds.append (by decide) isName.isQuiet.feeds
    have opened : BreaksByFeeds ("\n".toList ++ name.toList ++ suffix.toList ++ " \x7b".toList) :=
      (key.append passes.feeds).append (by decide)
    have inner : BreaksByFeeds (indent 1 body).toList := breaksByFeeds_indent below.feeds
    exact ((opened.append inner).append (by decide)).append further.feeds
  · exact .inr ⟨_, spelled, by simp [isName.1]⟩
  · intro braces line rest
    have ends : StopsRun isNameChar " \x7b".toList := stopsRun_cons.mpr rfl
    have opened := @marksOfLines_field (depthAfter braces line) name isName " \x7b".toList ends
    have opens : depthAfter (depthAfter braces line) (name.toList ++ " \x7b".toList)
        = depthAfter braces line + 1 := by
      rw [depthAfter_append isName.free]
      rfl
    have closed := @marksOfLines_brace (depthAfter braces line + 1) []
    have closes : depthAfter (depthAfter braces line + 1) ['\x7d'] = depthAfter braces line := rfl
    have brace (depth : Nat) (rest : List Char)
        : read 0 depth [] ('\x7d' :: rest) = read 0 depth ['\x7d'] rest := by
      simp [read]
    simp only [spelled, List.cons_append, List.append_assoc, read_key isName passes]
    rw [read_append (by decide), if_neg (by decide), read_indentChars below.feeds below.opens,
      below.shows, opened, opens, brace, further.shows, closed, closes]
    simp

end Reading

mutual

theorem Outline.IsReadable.selectionBody? (limit level : Int)
    : (value : Outline) → value.IsReadable →
        (value.selectionBody? limit level = .ok none ∧ value.marks limit level = fun _ => [])
        ∨ ∃ text,
            value.selectionBody? limit level = .ok (some text)
            ∧ IsSelection (value.marks limit level) text
  | .leaf _, _ => .inl ⟨rfl, rfl⟩
  | .cut, _ => .inr ⟨_, rfl, isSelection_ellipsis⟩
  | .object entries, readable => by
      obtain ⟨text, shown, isSelection⟩ :=
        Outlines.AreReadable.selection limit (level + 1) entries readable
      rw [Outline.selectionBody?, shown, ok_bind]
      unfold Outline.marks
      split
      · exact .inr ⟨text, rfl, isSelection⟩
      · exact .inr ⟨_, rfl, isSelection_ellipsis⟩
  | .list (.leaf _), _ => .inl ⟨rfl, rfl⟩
  | .list .cut, _ => .inr ⟨_, rfl, isSelection_ellipsis⟩
  | .list (.object entries), readable =>
      Outline.IsReadable.selectionBody? limit level (.object entries) readable

theorem Outlines.AreReadable.selection (limit level : Int)
    : (outlines : Outlines) → outlines.AreReadable →
        ∃ text,
          outlines.selection limit level = .ok text
          ∧ IsSelection (outlines.marks limit level) text
  | .nil, _ => ⟨"", rfl, isSelection_empty⟩
  | .cons _ value arguments rest,
    ⟨⟨name, rfl, isName⟩, readable, argumentsReadable, restReadable⟩ => by
      obtain ⟨suffix, suffixShown, passes⟩ := argumentsReadable.argumentSuffix
      obtain ⟨more, restShown, further⟩ :=
        Outlines.AreReadable.selection limit level rest restReadable
      have body := Outline.IsReadable.selectionBody? limit level value readable
      rw [Outlines.selection, suffixShown, restShown]
      unfold Outlines.marks
      rcases body with ⟨bodyShown, unmarked⟩ | ⟨text, bodyShown, below⟩
      · rw [bodyShown, unmarked]
        exact ⟨_, rfl, further.leaf isName passes⟩
      · rw [bodyShown]
        refine ⟨_, rfl, ?_⟩
        have nested := below.nested isName passes further
        simp only [String.append_assoc] at nested ⊢
        exact nested

end

-----------------------------------------------------------------------------------------
-- The response
-----------------------------------------------------------------------------------------

namespace Reading

variable {braces : Nat} {name inner before behind : String} {shown : Nat → List (Nat × Mark)}

/-- A text of lines between the braces of a field. -/
structure IsNested (shown : Nat → List (Nat × Mark)) (text : String) : Prop where
  quiet : IsQuiet text
  shows
    : ∀ braces rest,
        read 0 braces [] (text.toList ++ '\n' :: rest) = shown braces ++ read 0 braces [] rest

structure IsResponse (shown : Nat → List (Nat × Mark)) (text : String) : Prop where
  quiet : IsQuiet text
  shows
    : ∀ braces name rest,
        IsName name →
          read 0 braces [] (name.toList ++ (": ".toList ++ (text.toList ++ rest)))
            = (braces, .field name.toList) :: (shown (braces + 1) ++ read 0 braces [] rest)

/-- A text of lines, which show something wherever they begin. -/
structure AreResponses (shown : Nat → List (Nat × Mark)) (text : String) : Prop where
  quiet : IsQuiet text
  shows
    : ∀ braces rest,
        read 0 braces [] (text.toList ++ rest) = shown braces ++ read 0 braces [] rest

theorem areResponses_empty : AreResponses (fun _ => []) "" :=
  ⟨fun _ member => (nomatch member), fun _ _ => rfl⟩

/-- In braces an empty line ends the lines. -/
theorem AreResponses.nested (responses : AreResponses shown inner) : IsNested shown inner where
  quiet := responses.quiet
  shows braces rest := by
    rw [responses.shows, read_feed]
    rfl

/-- The response of a field, and those of further fields behind it. -/
theorem AreResponses.cons {more : String} {shownMore : Nat → List (Nat × Mark)}
    (isName : IsName name) (response : IsResponse shown inner)
    (further : AreResponses shownMore more)
    : AreResponses
        (fun braces =>
          (braces, .field name.toList) :: (shown (braces + 1) ++ shownMore braces))
        (name ++ ": " ++ inner ++ more) where
  quiet := by
    have key : IsQuiet (name ++ ": ") := isName.isQuiet.append (by decide)
    exact (key.append response.quiet).append further.quiet
  shows braces rest := by
    simp only [String.toList_append, List.append_assoc]
    rw [response.shows _ _ _ isName, further.shows]
    simp

theorem isNested_ellipsis : IsNested (fun braces => [(braces, .cut)]) ellipsis where
  quiet := by decide
  shows braces rest := by
    have cut : marksOfLines braces [ellipsis.toList] = [(braces, .cut)] := by
      simp [marksOfLines, mark?, ellipsis, isBlank, isLineBreak]
    have closed : depthAfter braces ellipsis.toList = braces := rfl
    rw [read_append (by decide), if_neg (by decide), List.nil_append, read_feed, cut, closed]

/-- A line that begins with a name is read as a whole, if no parenthesis stands in it. -/
theorem read_field (isName : IsName name) {tail : List Char} (inLine : IsInLine tail)
    (ends : StopsRun isNameChar tail) (rest : List Char)
    : read 0 braces [] (name.toList ++ (tail ++ '\n' :: rest))
      = (braces, .field name.toList) :: read 0 (depthAfter braces tail) [] rest := by
  rw [read_append isName.isInLine, if_neg (by decide), read_append inLine, if_neg (by decide),
    List.nil_append, read_feed, marksOfLines_field isName ends, depthAfter_append isName.free]
  rfl

/-- The response of a leaf is a single line. -/
theorem isResponse_leaf (plain : IsPlain inner) : IsResponse (fun _ => []) (inner ++ ",\n") where
  quiet := plain.isQuiet.append (by decide)
  shows braces name rest isName := by
    have whole : IsPlain (": " ++ inner ++ ",") :=
      (IsPlain.append (by decide) plain).append (by decide)
    have spelled
        : ": ".toList ++ ((inner ++ ",\n").toList ++ rest)
          = (": " ++ inner ++ ",").toList ++ '\n' :: rest := by
      simp
    have closed := @depthAfter_append braces _ whole.free []
    rw [List.append_nil] at closed
    have ends : StopsRun isNameChar (": " ++ inner ++ ",").toList := by
      simp only [String.toList_append, String.reduceToList, List.cons_append]
      exact stopsRun_cons.mpr (by decide)
    rw [spelled, read_field isName whole.isInLine ends, closed]
    rfl

/-- The response of a field with lines in braces, which brackets may surround. -/
theorem isResponse_nested (nested : IsNested shown inner) (opening : IsPlain before)
    (closing : IsPlain behind)
    : IsResponse shown (before ++ "\x7b\n" ++ indent 1 inner ++ "\n\x7d" ++ behind ++ ",\n") where
  quiet := by
    have opened : IsQuiet (before ++ "\x7b\n") := opening.isQuiet.append (by decide)
    have closed : IsQuiet (before ++ "\x7b\n" ++ indent 1 inner ++ "\n\x7d") :=
      (opened.append (nested.quiet.indent 1)).append (by decide)
    exact (closed.append closing.isQuiet).append (by decide)
  shows braces name rest isName := by
    have first : IsPlain (": " ++ before) := IsPlain.append (by decide) opening
    have last : IsPlain (behind ++ ",") := IsPlain.append closing (by decide)
    have spelled
        : ": ".toList
            ++ ((before ++ "\x7b\n" ++ indent 1 inner ++ "\n\x7d" ++ behind ++ ",\n").toList
              ++ rest)
          = ((": " ++ before).toList ++ ['\x7b'])
            ++ '\n' :: (indentChars 1 inner.toList
              ++ '\n' :: (('\x7d' :: (behind ++ ",").toList) ++ '\n' :: rest)) := by
      simp [indent]
    have openLine
        : IsInLine ((": " ++ before).toList ++ ['\x7b']) :=
      List.forall_mem_append.mpr ⟨first.isInLine, (by decide : IsInLine ['\x7b'])⟩
    have closeLine
        : IsInLine ('\x7d' :: (behind ++ ",").toList) :=
      List.forall_mem_cons.mpr ⟨by decide, last.isInLine⟩
    have opened : depthAfter braces ((": " ++ before).toList ++ ['\x7b']) = braces + 1 :=
      depthAfter_append first.free ['\x7b']
    have closed : depthAfter (braces + 1) ('\x7d' :: (behind ++ ",").toList) = braces := by
      rw [depthAfter, List.count_cons_of_ne (by decide), List.count_cons_self,
        List.count_eq_zero.mpr last.free.1, List.count_eq_zero.mpr last.free.2]
      rfl
    have unindented (rest : List Char) :=
      @alikeAtStart_indentChars 1 _ nested.quiet.feeds rest 0 (braces + 1) [] (.inr rfl)
    have ends : StopsRun isNameChar ((": " ++ before).toList ++ ['\x7b']) := by
      simp only [String.toList_append, String.reduceToList, List.cons_append]
      exact stopsRun_cons.mpr (by decide)
    rw [spelled, read_field isName openLine ends, opened, unindented, nested.shows,
      read_append closeLine, if_neg (by decide), List.nil_append, read_feed, marksOfLines_brace,
      closed, List.nil_append]

theorem isResponse_braces (nested : IsNested shown inner)
    : IsResponse shown ("\x7b\n" ++ indent 1 inner ++ "\n\x7d,\n") := by
  have response := isResponse_nested nested (by decide : IsPlain "") (by decide : IsPlain "")
  have spelled
      : "" ++ "\x7b\n" ++ indent 1 inner ++ "\n\x7d" ++ "" ++ ",\n"
        = "\x7b\n" ++ indent 1 inner ++ "\n\x7d,\n" := by
    rw [← String.toList_inj]
    simp
  rwa [spelled] at response

theorem isResponse_brackets (nested : IsNested shown inner)
    : IsResponse shown ("[\x7b\n" ++ indent 1 inner ++ "\n\x7d],\n") := by
  have response := isResponse_nested nested (by decide : IsPlain "[") (by decide : IsPlain "]")
  have spelled
      : "[" ++ "\x7b\n" ++ indent 1 inner ++ "\n\x7d" ++ "]" ++ ",\n"
        = "[\x7b\n" ++ indent 1 inner ++ "\n\x7d],\n" := by
    rw [← String.toList_inj]
    simp
  rwa [spelled] at response

end Reading

theorem Outline.isNested_object {limit level : Int} {entries : Outlines}
    (responses : AreResponses (entries.marks limit (level + 1)) (entries.result limit (level + 1)))
    : IsNested ((Outline.object entries).marks limit level)
        ((Outline.object entries).nestedResult limit level) := by
  unfold Outline.marks Outline.nestedResult
  split
  · exact responses.nested
  · exact isNested_ellipsis

theorem Outline.isNested_cut {limit level : Int}
    : IsNested (Outline.cut.marks limit level) (Outline.cut.nestedResult limit level) := by
  rw [Outline.nestedResult]
  · exact isNested_ellipsis
  · intro entries same
    cases same

mutual

/-- The response of a readable outline is read as what the outline shows. -/
theorem Outline.IsReadable.resultOf (limit level : Int)
    : (value : Outline) → value.IsReadable →
        IsResponse (value.marks limit level) (value.resultOf limit level)
  | .leaf _, ⟨text, rfl, plain⟩ => by
      rw [Outline.resultOf]
      exact isResponse_leaf plain
  | .cut, _ => by
      rw [Outline.resultOf]
      · exact isResponse_braces Outline.isNested_cut
      all_goals
        intros
        contradiction
  | .object entries, readable => by
      have below := Outlines.AreReadable.result limit (level + 1) entries readable
      rw [Outline.resultOf]
      · exact isResponse_braces (Outline.isNested_object below)
      all_goals
        intros
        contradiction
  | .list (.leaf _), ⟨text, rfl, plain⟩ => by
      have bracketed : IsPlain ("[" ++ text ++ "]") :=
        (IsPlain.append (by decide) plain).append (by decide)
      have spelled : "[" ++ text ++ "]" ++ ",\n" = "[" ++ text ++ "],\n" := by
        rw [← String.toList_inj]
        simp
      have response := isResponse_leaf bracketed
      rw [spelled] at response
      rw [Outline.resultOf]
      exact response
  | .list .cut, _ => by
      rw [Outline.resultOf]
      · exact isResponse_brackets Outline.isNested_cut
      all_goals
        intros
        contradiction
  | .list (.object entries), readable => by
      have below := Outlines.AreReadable.result limit (level + 1) entries readable
      rw [Outline.resultOf]
      · exact isResponse_brackets (Outline.isNested_object below)
      all_goals
        intros
        contradiction

/-- The response of readable outlines is read as what the outlines show. -/
theorem Outlines.AreReadable.result (limit level : Int)
    : (outlines : Outlines) → outlines.AreReadable →
        AreResponses (outlines.marks limit level) (outlines.result limit level)
  | .nil, _ => by
      rw [Outlines.result]
      exact areResponses_empty
  | .cons _ value arguments rest,
    ⟨⟨name, rfl, isName⟩, readable, argumentsReadable, restReadable⟩ => by
      rw [Outlines.result]
      exact (Outlines.AreReadable.result limit level rest restReadable).cons isName
        (Outline.IsReadable.resultOf limit level value readable)

end

theorem Reading.withoutParentheses_of_quiet {text : List Char} (quiet : ∀ c ∈ text, IsQuietChar c)
    : withoutParentheses 0 text = text := by
  induction text with
  | nil => rfl
  | cons c rest ih =>
      obtain ⟨notOpen, notClose, -⟩ := quiet c List.mem_cons_self
      have later := ih fun other member => quiet other (List.mem_cons_of_mem c member)
      rw [withoutParentheses, if_neg notOpen, if_neg notClose, if_neg (Nat.lt_irrefl 0), later]

/-- A query and the response it expects show the same fields in the same order, equally deep, and
cut off the same places, once the arguments are taken out of the query. What both show is told by
the outlines of the example.
-/
theorem Entries.AreReadable.marks_eq {entries : Entries} (readable : entries.AreReadable)
    (limit level : Int)
    : ∃ text,
        entries.selection limit level = .ok text
        ∧ marks (withoutParentheses 0 text.toList) = marks (entries.result limit level).toList
        ∧ marks (entries.result limit level).toList = entries.outlines.marks limit level 0 := by
  have outlined := Entries.AreReadable.outlines entries readable
  obtain ⟨text, shown, selected⟩ := Outlines.AreReadable.selection limit level _ outlined
  have responses := Outlines.AreReadable.result limit level _ outlined
  have none : read 0 0 [] [] = [] := rfl
  have queried
      : marks (withoutParentheses 0 text.toList) = entries.outlines.marks limit level 0 := by
    rw [marks_withoutParentheses, ← read_append_feed, selected.shows]
    show [] ++ entries.outlines.marks limit level 0 ++ read 0 0 [] [] = _
    rw [none, List.append_nil, List.nil_append]
  have answered
      : marks (entries.result limit level).toList = entries.outlines.marks limit level 0 := by
    rw [Entries.result, ← withoutParentheses_of_quiet responses.quiet, marks_withoutParentheses]
    have whole := responses.shows 0 []
    rwa [none, List.append_nil, List.append_nil] at whole
  exact ⟨text, shown, queried.trans answered.symm, answered⟩

/-- A widget with a list of connections to its parts, of which some are asked for, and an owner that
lies too deep.
-/
def Entries.ofWidget : Entries :=
  let wanted := .single (.string "ids") (.list (.literal (.string "1")))
  let part := .single (.string "name") (.sentinel "Widget")
  .single (.string "widget")
    (.object
      (.cons (.string "parts") (.list (.connection (.object part)))
        (.cons (.string "wanted") (.object wanted) .nil
          (.single (.string "page") (.literal (.string "2"))))
        (.single (.string "owner") .truncated)))

theorem Entries.marks_eq_ofWidget
    : ofWidget.AreReadable
      ∧ ∃ text,
          ofWidget.selection 4 1 = .ok text
          ∧ marks (withoutParentheses 0 text.toList) = marks (ofWidget.result 4 1).toList
          ∧ marks (ofWidget.result 4 1).toList
            = [
                (0, .field "widget".toList), (1, .field "parts".toList),
                (2, .field "edges".toList), (3, .field "node".toList), (4, .cut),
                (2, .field "pageInfo".toList), (3, .field "hasNextPage".toList),
                (3, .field "hasPreviousPage".toList), (1, .field "owner".toList), (2, .cut)
              ] := by
  have readable : ofWidget.AreReadable := by
    simp only [ofWidget, single, AreReadable, Example.IsReadable, Json.string.injEq,
      exists_eq_left']
    decide
  exact ⟨readable, readable.marks_eq 4 1⟩

end RubySchema
