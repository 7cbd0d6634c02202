import RubySchema.Proofs.Example.Cut
import RubySchema.Proofs.Generation.Indentation
import RubySchema.Proofs.Generation.Queries

/-!
A selection and a response have the lines of their fields, each indented once, by the number of
fields around it, and the examples of a schema have the names of its fields. What is selected of a
field is indented below it, and indented again for each field around that one; so is what responds
in braces.
-/

namespace RubySchema

open Text

-----------------------------------------------------------------------------------------
-- Lines at a depth
-----------------------------------------------------------------------------------------

namespace Text

def linesAt (depth : Nat) (text : String) : List (List Char) :=
  (lines text.toList).map (indentLine depth)

def blockAt (depth : Nat) (opening : String) (inner : List (List Char)) (closing : String)
    : List (List Char) :=
  linesAt depth opening ++ inner ++ linesAt depth closing

end Text

def Outlines.fieldLines (depth : Nat) (key : String) : Option (List (List Char)) → List (List Char)
  | none => linesAt depth key
  | some body => blockAt depth (key ++ " \x7b") body "\x7d"

mutual

/-- The lines of what is selected of a field, one level further in than the field. -/
def Outline.selectionLines? (limit level : Int) (depth : Nat)
    : Outline → Except Error (Option (List (List Char)))
  | .leaf _ | .list (.leaf _) => .ok none
  | .object entries | .list (.object entries) => do
      if level < limit then return some (← entries.selectionLines limit (level + 1) (depth + 1))
      else return some (linesAt (depth + 1) ellipsis)
  | _ => .ok (some (linesAt (depth + 1) ellipsis))

def Outlines.selectionLines (limit level : Int) (depth : Nat)
    : Outlines → Except Error (List (List Char))
  | .nil => .ok []
  | .cons name value arguments rest => do
      let key := (← name.asText) ++ (← arguments.argumentSuffix)
      let body? ← value.selectionLines? limit level depth
      return Outlines.fieldLines depth key body? ++ (← rest.selectionLines limit level depth)

end

def Outline.responseLines (depth : Nat) (name : String) (body : List (List Char))
    : Outline → List (List Char)
  | .leaf value => linesAt depth (name ++ ": " ++ value.display ++ ",")
  | .list (.leaf value) | .list (.list (.leaf value)) =>
      linesAt depth (name ++ ": [" ++ value.display ++ "],")
  | .list _ => blockAt depth (name ++ ": [\x7b") body "\x7d],"
  | _ => blockAt depth (name ++ ": \x7b") body "\x7d,"

mutual

/-- The lines of what a field responds with in braces, one level further in than the field. An
object without fields leaves an empty line.
-/
def Outline.bodyLines (limit level : Int) (depth : Nat) : Outline → List (List Char)
  | .object entries | .list (.object entries) | .list (.list (.object entries)) =>
      if level < limit then
        if entries.isEmpty then [[]] else entries.resultLines limit (level + 1) (depth + 1)
      else linesAt (depth + 1) ellipsis
  | _ => linesAt (depth + 1) ellipsis

def Outlines.resultLines (limit level : Int) (depth : Nat) : Outlines → List (List Char)
  | .nil => []
  | .cons name value _ rest =>
      value.responseLines depth name.display (value.bodyLines limit level depth)
        ++ rest.resultLines limit level depth

end

-----------------------------------------------------------------------------------------
-- Selections
-----------------------------------------------------------------------------------------

/-- The last line of a value that is a text is not blank, nor ended. -/
def Json.EndsVisibly : Json → Prop
  | .string text => Text.EndsVisibly text.toList
  | _ => True

instance : DecidablePred Json.EndsVisibly
  | .string text => inferInstanceAs (Decidable (Text.EndsVisibly text.toList))
  | .null | .bool _ | .number _ | .array _ | .object _ => instDecidableTrue

theorem Json.EndsVisibly.of_asText {value : Json} {text : String} (ends : value.EndsVisibly)
    (found : value.asText = .ok text) : Text.EndsVisibly text.toList := by
  cases value with
  | string shown =>
      obtain rfl := Except.ok.inj found
      exact ends
  | _ => cases found

mutual

def Outline.IsNamed : Outline → Prop
  | .leaf _ | .cut => True
  | .object entries => entries.AreNamed
  | .list item => item.IsNamed

def Outlines.AreNamed : Outlines → Prop
  | .nil => True
  | .cons name value _ rest => name.EndsVisibly ∧ value.IsNamed ∧ rest.AreNamed

end

namespace Text

theorem lines_indent {text : String} (shows : ShowsLastLine text.toList) (level : Nat)
    : lines (indent level text).toList = linesAt level text := by
  rw [indent, String.toList_ofList, shows.lines_indentChars, linesAt]

/-- Lines of a level within another stand as many levels in as both say. -/
theorem map_linesBelow (outer inner : Nat) (text : List Char)
    : (linesBelow inner text).map (indentLine outer) = linesBelow (outer + inner) text := by
  rw [linesBelow, List.map_map, linesBelow]
  exact List.map_congr_left fun line _ => indentLine_indentLine outer inner line

theorem map_linesAt (outer inner : Nat) (text : String)
    : (linesAt inner text).map (indentLine outer) = linesAt (outer + inner) text := by
  rw [linesAt, List.map_map, linesAt]
  exact List.map_congr_left fun line _ => indentLine_indentLine outer inner line

end Text

/-- Arguments in parentheses end visibly. -/
theorem Outlines.endsVisibly_argumentSuffix {arguments : Outlines} {name suffix : String}
    (shown : arguments.argumentSuffix = .ok suffix) (ends : EndsVisibly name.toList)
    : EndsVisibly (name ++ suffix).toList := by
  unfold argumentSuffix at shown
  rw [String.toList_append]
  split at shown
  · obtain rfl := Except.ok.inj shown
    simpa using ends
  · obtain ⟨text, -, shown⟩ := bind_eq_ok.mp shown
    split at shown
    all_goals
      obtain rfl := Except.ok.inj shown
      rw [String.toList_append]
      exact (EndsVisibly.append (by decide) _).append _

namespace Outlines

def fieldText (key : String) : Option String → String
  | none => "\n" ++ key
  | some body => "\n" ++ key ++ " \x7b" ++ indent 1 body ++ "\n\x7d"

theorem exists_of_selection {limit level : Int} {name : Json} {value : Outline}
    {arguments rest : Outlines} {text : String}
    (selected : (cons name value arguments rest).selection limit level = .ok text)
    : ∃ key suffix body? more,
        name.asText = .ok key
        ∧ arguments.argumentSuffix = .ok suffix
        ∧ value.selectionBody? limit level = .ok body?
        ∧ rest.selection limit level = .ok more
        ∧ text = fieldText (key ++ suffix) body? ++ more := by
  obtain ⟨key, keyed, selected⟩ := bind_eq_ok.mp selected
  obtain ⟨suffix, suffixed, selected⟩ := bind_eq_ok.mp selected
  obtain ⟨body?, bodied, selected⟩ := bind_eq_ok.mp selected
  cases body? with
  | none | some body =>
      obtain ⟨field, made, selected⟩ := bind_eq_ok.mp selected
      obtain rfl := Except.ok.inj made
      obtain ⟨more, further, same⟩ := bind_eq_ok.mp selected
      obtain rfl := Except.ok.inj same
      refine ⟨key, suffix, _, more, keyed, suffixed, bodied, further, ?_⟩
      simp only [fieldText, String.append_assoc]

/-- The lines of a field are below the line that the selection goes on from. -/
theorem linesBelow_fieldText {key : String} (ends : EndsVisibly key.toList)
    {body? : Option String} (below : ∀ body ∈ body?, IsBelow body.toList)
    : IsBelow (fieldText key body?).toList
      ∧ ∀ depth,
          linesBelow depth (fieldText key body?).toList
          = fieldLines depth key (body?.map fun body => linesBelow (depth + 1) body.toList) := by
  cases body? with
  | none =>
      have spelled : (fieldText key none).toList = '\n' :: key.toList := by simp [fieldText]
      rw [spelled]
      exact ⟨ends.isBelow, fun depth => linesBelow_feed depth key.toList⟩
  | some body =>
      have opens : EndsVisibly (key.toList ++ " \x7b".toList) := EndsVisibly.append (by decide) _
      have closes : EndsVisibly "\x7d".toList := by decide
      have spelled
          : (fieldText key (some body)).toList
            = '\n'
              :: (key.toList ++ " \x7b".toList ++ indentChars 1 body.toList
                ++ '\n' :: "\x7d".toList) := by
        simp [fieldText, indent]
      rw [spelled]
      refine ⟨((closes.append ['\n']).append _).isBelow, fun depth => ?_⟩
      rw [linesBelow_feed, (below body rfl).lines_append_feed opens, List.map_append,
        List.map_append, map_linesBelow, Option.map_some, fieldLines, blockAt, linesAt,
        String.toList_append]
      rfl

end Outlines

/-- The mark of a place that is cut off goes on below its field. -/
theorem Text.isBelow_ellipsis {text : String} (cut : text = "\n" ++ ellipsis)
    : IsBelow text.toList ∧ ∀ depth, linesBelow depth text.toList = linesAt depth ellipsis := by
  subst cut
  exact ⟨EndsVisibly.isBelow (by decide), fun depth => linesBelow_feed depth ellipsis.toList⟩

mutual

/-- What is selected of a field goes on below it, one level further in. -/
theorem Outline.lines_selectionBody? (limit level : Int)
    : (value : Outline) → value.IsNamed → ∀ {body? : Option String},
        value.selectionBody? limit level = .ok body? →
          (∀ body ∈ body?, IsBelow body.toList)
          ∧ ∀ depth,
              value.selectionLines? limit level depth
              = .ok (body?.map fun body => linesBelow (depth + 1) body.toList)
  | .leaf _, _, _, shown | .list (.leaf _), _, _, shown => by
      obtain rfl := Except.ok.inj shown
      exact ⟨nofun, fun depth => rfl⟩
  | .object entries, named, _, shown | .list (.object entries), named, _, shown => by
      have inner (text : String) := @Outlines.lines_selection limit (level + 1) entries named text
      simp only [Outline.selectionBody?] at shown
      simp only [Outline.selectionLines?]
      split at shown
      case isTrue deeper =>
        obtain ⟨text, selected, same⟩ := bind_eq_ok.mp shown
        obtain rfl := Except.ok.inj same
        obtain ⟨below, rows⟩ := inner text selected
        refine ⟨fun body member => Option.some.inj member ▸ below, fun depth => ?_⟩
        rw [if_pos deeper, rows]
        rfl
      case isFalse cut =>
        obtain rfl := Except.ok.inj shown
        obtain ⟨below, rows⟩ := isBelow_ellipsis rfl
        refine ⟨fun body member => Option.some.inj member ▸ below, fun depth => ?_⟩
        rw [if_neg cut, Option.map_some, rows]
        rfl
  | .cut, _, _, shown | .list .cut, _, _, shown | .list (.list _), _, _, shown => by
      obtain rfl := Except.ok.inj shown
      obtain ⟨below, rows⟩ := isBelow_ellipsis rfl
      refine ⟨fun body member => Option.some.inj member ▸ below, fun depth => ?_⟩
      rw [Option.map_some, rows]
      rfl

/-- The lines of a selection are those of its fields, each indented once, by its depth. -/
theorem Outlines.lines_selection (limit level : Int)
    : (outlines : Outlines) → outlines.AreNamed → ∀ {text : String},
        outlines.selection limit level = .ok text →
          IsBelow text.toList
          ∧ ∀ depth,
              outlines.selectionLines limit level depth = .ok (linesBelow depth text.toList)
  | .nil, _, _, shown => by
      obtain rfl := Except.ok.inj shown
      exact ⟨.inl rfl, fun depth => rfl⟩
  | .cons name value arguments rest, ⟨isName, isNamed, restNamed⟩, _, shown => by
      obtain ⟨key, suffix, body?, more, keyed, suffixed, bodied, further, rfl⟩ :=
        Outlines.exists_of_selection shown
      have ends := Outlines.endsVisibly_argumentSuffix suffixed (isName.of_asText keyed)
      obtain ⟨bodyBelow, bodyLines⟩ := Outline.lines_selectionBody? limit level value isNamed bodied
      obtain ⟨fieldBelow, fieldLines⟩ := Outlines.linesBelow_fieldText ends bodyBelow
      obtain ⟨restBelow, restLines⟩ := Outlines.lines_selection limit level rest restNamed further
      obtain ⟨whole, split⟩ := fieldBelow.append restBelow
      rw [String.toList_append]
      refine ⟨whole, fun depth => ?_⟩
      rw [Outlines.selectionLines, keyed, suffixed, bodyLines, restLines, split, fieldLines]
      rfl

end

example
    : Entries.ofParts.outlines.selectionLines 3 1 1
      = .ok
          ([
            "  parts \x7b",
            "    edges \x7b",
            "      node \x7b",
            "        # ...",
            "      \x7d",
            "    \x7d",
            "    pageInfo \x7b",
            "      hasNextPage",
            "      hasPreviousPage",
            "    \x7d",
            "  \x7d"
          ].map String.toList) :=
  rfl

-----------------------------------------------------------------------------------------
-- Responses
-----------------------------------------------------------------------------------------

namespace Text

/-- The lines of a text between two lines: an empty one if there is no text. -/
def linesBetween (depth : Nat) (text : String) : List (List Char) :=
  if text.isEmpty then [[]] else linesAt depth text

theorem linesAt_append {first second : String} (ended : IsEnded first.toList) (depth : Nat)
    : linesAt depth (first ++ second) = linesAt depth first ++ linesAt depth second := by
  rw [linesAt, String.toList_append, ended.lines_append, List.map_append, linesAt, linesAt]

/-- A line of its own. -/
theorem linesAt_line {text : String} (ends : EndsVisibly text.toList)
    : IsEnded (text ++ "\n").toList
      ∧ ∀ depth, linesAt depth (text ++ "\n") = linesAt depth text := by
  rw [String.toList_append]
  refine ⟨ends.isEnded, fun depth => ?_⟩
  rw [linesAt, String.toList_append]
  exact congrArg (List.map (indentLine depth)) ends.lines_concat_feed

def blockText (opening body closing : String) : String :=
  opening ++ "\n" ++ indent 1 body ++ "\n" ++ closing

theorem linesAt_blockText {opening body closing : String} (opens : EndsVisibly opening.toList)
    (shows : ShowsLastLine body.toList) (closes : EndsVisibly closing.toList)
    : EndsVisibly (blockText opening body closing).toList
      ∧ ∀ depth,
          linesAt depth (blockText opening body closing)
          = blockAt depth opening (linesBetween (depth + 1) body) closing := by
  have spelled
      : (blockText opening body closing).toList
        = opening.toList ++ '\n' :: (indentChars 1 body.toList ++ '\n' :: closing.toList) := by
    simp [blockText, indent]
  refine ⟨spelled ▸ (((closes.append ['\n']).append _).append ['\n']).append _, fun depth => ?_⟩
  rw [linesAt, spelled, opens.lines_append_feed, blockAt, linesBetween]
  by_cases empty : body = ""
  · subst empty
    rw [String.toList_empty, show indentChars 1 [] = [] from rfl, List.nil_append,
      Statement.lines_feed]
    simp [linesAt, indentLine]
  · have filled : body.toList ≠ [] := fun none => empty (String.toList_eq_nil_iff.mp none)
    have some : body.isEmpty = false := by simpa using empty
    have twice := map_linesAt depth 1 body
    rw [linesAt] at twice
    rw [shows.lines_indentChars_feed filled, some, List.map_append, List.map_append, twice]
    simp [linesAt]

end Text

namespace Outline

/-- What a field responds with in braces. A list of lists responds as the inner lists do. -/
def responseBody (limit level : Int) : Outline → String
  | .list (.list item) => item.nestedResult limit level
  | .list item => item.nestedResult limit level
  | value => value.nestedResult limit level

def responseText (name body : String) : Outline → String
  | .leaf value => name ++ ": " ++ value.display ++ ","
  | .list (.leaf value) | .list (.list (.leaf value)) => name ++ ": [" ++ value.display ++ "],"
  | .list _ => blockText (name ++ ": [\x7b") body "\x7d],"
  | _ => blockText (name ++ ": \x7b") body "\x7d,"

variable {limit level : Int}

theorem resultOf_eq (name : String) (value : Outline)
    : name ++ ": " ++ value.resultOf limit level
      = responseText name (value.responseBody limit level) value ++ "\n" := by
  rw [← String.toList_inj]
  unfold resultOf
  split
  case h_4 item isOther =>
    cases item with
    | leaf value => exact absurd rfl (isOther value)
    | cut | object | list => simp [responseText, responseBody, blockText]
  all_goals simp [responseText, responseBody, blockText]

theorem linesAt_responseText (name : String) {body : String} (shows : ShowsLastLine body.toList)
    (value : Outline)
    : EndsVisibly (responseText name body value).toList
      ∧ ∀ depth,
          linesAt depth (responseText name body value)
          = value.responseLines depth name (linesBetween (depth + 1) body) := by
  have named {opening : String} (opens : EndsVisibly opening.toList)
      : EndsVisibly (name ++ opening).toList := by
    rw [String.toList_append]
    exact opens.append _
  match value with
  | .leaf value =>
      refine ⟨?_, fun depth => rfl⟩
      rw [responseText, String.toList_append]
      exact EndsVisibly.append (by decide) _
  | .list (.leaf value) | .list (.list (.leaf value)) =>
      refine ⟨?_, fun depth => rfl⟩
      rw [responseText, String.toList_append]
      exact EndsVisibly.append (by decide) _
  | .list .cut | .list (.object _) | .list (.list .cut) | .list (.list (.object _))
  | .list (.list (.list _)) =>
      exact linesAt_blockText (named (by decide)) shows (by decide)
  | .cut | .object _ => exact linesAt_blockText (named (by decide)) shows (by decide)

end Outline

mutual

/-- What a field responds with in braces has its lines one level further in. -/
theorem Outline.lines_responseBody (limit level : Int)
    : (value : Outline) →
        ShowsLastLine (value.responseBody limit level).toList
        ∧ ∀ depth,
            value.bodyLines limit level depth
            = linesBetween (depth + 1) (value.responseBody limit level)
  | .object entries | .list (.object entries) | .list (.list (.object entries)) => by
      obtain ⟨ended, none, rows⟩ := Outlines.lines_result limit (level + 1) entries
      simp only [Outline.responseBody, Outline.nestedResult, Outline.bodyLines]
      split
      case isTrue =>
        refine ⟨ended.showsLastLine, fun depth => ?_⟩
        rw [linesBetween, none, rows]
      case isFalse => exact ⟨by decide, fun depth => rfl⟩
  | .leaf _ | .cut | .list (.leaf _) | .list .cut | .list (.list (.leaf _)) | .list (.list .cut)
  | .list (.list (.list _)) => by
      simp only [Outline.responseBody, Outline.nestedResult, Outline.bodyLines]
      exact ⟨by decide, fun depth => rfl⟩

/-- The lines of a response are those of its fields, each indented once, by its depth. -/
theorem Outlines.lines_result (limit level : Int)
    : (outlines : Outlines) →
        IsEnded (outlines.result limit level).toList
        ∧ (outlines.result limit level).isEmpty = outlines.isEmpty
        ∧ ∀ depth,
            outlines.resultLines limit level depth = linesAt depth (outlines.result limit level)
  | .nil => by
      rw [Outlines.result]
      exact ⟨.inl rfl, rfl, fun depth => rfl⟩
  | .cons name value arguments rest => by
      obtain ⟨shows, bodyRows⟩ := Outline.lines_responseBody limit level value
      obtain ⟨ends, rows⟩ := Outline.linesAt_responseText name.display shows value
      obtain ⟨ended, fieldRows⟩ := linesAt_line ends
      obtain ⟨restEnded, -, restRows⟩ := Outlines.lines_result limit level rest
      have whole
          : (Outlines.cons name value arguments rest).result limit level
            = Outline.responseText name.display (value.responseBody limit level) value ++ "\n"
              ++ rest.result limit level := by
        rw [Outlines.result, Outline.resultOf_eq]
      rw [whole]
      refine ⟨?_, ?_, fun depth => ?_⟩
      · rw [String.toList_append]
        exact ended.append restEnded
      · simp [Outlines.isEmpty]
      · rw [linesAt_append ended, fieldRows, rows, Outlines.resultLines, bodyRows, restRows]

end

-----------------------------------------------------------------------------------------
-- Names in examples
-----------------------------------------------------------------------------------------

def Schema.HasVisibleNames (schema : Schema) : Prop :=
  ∀ type ∈ schema.types, ∀ member ∈ type.members, member.name.EndsVisibly

instance : DecidablePred Schema.HasVisibleNames := fun schema =>
  inferInstanceAs (Decidable (∀ type ∈ schema.types, ∀ member ∈ type.members,
    member.name.EndsVisibly))

/-- A connection around its node has names that end visibly. -/
theorem Outline.IsNamed.ofConnection {node : Outline} (named : node.IsNamed)
    : (Outline.ofConnection node).IsNamed := by
  have visible (name : String) (ends : EndsVisibly name.toList) : (Json.string name).EndsVisibly :=
    ends
  have page
      : (Outlines.cons (.string "hasNextPage") (.ofText "true") .nil
          (.single "hasPreviousPage" (.ofText "false"))).AreNamed :=
    ⟨visible _ (by decide), trivial, visible _ (by decide), trivial, trivial⟩
  exact ⟨visible _ (by decide), ⟨visible _ (by decide), named, trivial⟩, visible _ (by decide),
    page, trivial⟩

namespace Expander

variable {expander : Expander} {exampleOf : String → Except Error Example}

def ShowsNamed (exampleOf : String → Except Error Example) : Prop :=
  ∀ name value, exampleOf name = .ok value → value.outline.IsNamed

theorem isNamed_fieldExample (shows : ShowsNamed exampleOf) {field : Field} {value : Example}
    (made : expander.fieldExample exampleOf field = .ok value) : value.outline.IsNamed := by
  rw [fieldExample] at made
  obtain ⟨resolved, -, made⟩ := bind_eq_ok.mp made
  obtain ⟨inner, shown, made⟩ := bind_eq_ok.mp made
  cases made
  have named := shows resolved.name inner shown
  have connected
      : (if resolved.isConnection then Example.connection inner else inner).outline.IsNamed := by
    cases resolved.isConnection with
    | true => exact Outline.IsNamed.ofConnection named
    | false => exact named
  cases resolved.isArray with
  | true => exact connected
  | false => exact connected

/-- Members with such names have examples with such names, by induction on the members. -/
theorem areNamed_memberExamples (shows : ShowsNamed exampleOf) {members : List Field}
    (named : ∀ member ∈ members, member.name.EndsVisibly) {entries : Entries}
    (made : expander.memberExamples exampleOf members = .ok entries)
    : entries.outlines.AreNamed := by
  induction members generalizing entries with
  | nil =>
      cases made
      trivial
  | cons member rest ih =>
      obtain ⟨here, later⟩ := List.forall_mem_cons.mp named
      rw [memberExamples] at made
      obtain ⟨value, valued, made⟩ := bind_eq_ok.mp made
      obtain ⟨arguments, -, made⟩ := bind_eq_ok.mp made
      obtain ⟨others, othersMade, made⟩ := bind_eq_ok.mp made
      cases made
      exact ⟨here, isNamed_fieldExample shows valued, ih later othersMade⟩

/-- What is shown below any ancestors has names that end visibly, by induction on the room that the
limit leaves.
-/
theorem showsNamed (named : expander.schema.HasVisibleNames) (limit depth : Int)
    (ancestors : Finset String) : ShowsNamed (expander.exampleBelow limit depth ancestors) := by
  intro name value made
  cases exampleBelow_eq_ok_iff.mp made with
  | builtin | sentinel | truncated => trivial
  | leaf _ _ leaf =>
      obtain ⟨shown, rfl⟩ := exists_literal_of_leaf? leaf
      trivial
  | object found _ _ inside entriesMade =>
      obtain ⟨member, -⟩ := Schema.typeNamed?_eq_some (typeNamed?_of_definition found)
      exact areNamed_memberExamples (showsNamed named limit (depth + 1) _) (named _ member)
        entriesMade
termination_by (limit - depth).toNat
decreasing_by omega

end Expander

namespace Contribution

variable {plan : Plan} {field : Field}

/-- The example of a field has names that end visibly if the schema has. -/
theorem areNamed_fieldExample (named : plan.schema.HasVisibleNames)
    (isNamed : field.name.EndsVisibly) {entries : Entries}
    (made : fieldExample plan field = .ok entries) : entries.outlines.AreNamed := by
  obtain ⟨value, valued, made⟩ := bind_eq_ok.mp made
  obtain ⟨arguments, -, same⟩ := bind_eq_ok.mp made
  obtain rfl := Except.ok.inj same
  rw [Expander.fromEmpty_fieldValue] at valued
  exact ⟨isNamed, Expander.isNamed_fieldExample (Expander.showsNamed named _ _ _) valued, trivial⟩

end Contribution

end RubySchema
