import RubySchema.Proofs.Generation.Comments
import RubySchema.Proofs.Generation.Depths

/-!
Each line of a selection, a response, a stub and a spec stands as many levels in as there are around
it. The method of a field is indented once as a whole, and its spec is, with the query and the
response that stand within it, so the levels add up.
-/

namespace RubySchema

open Text

namespace Text

/-- A text between line feeds has its lines among those of the whole. -/
theorem lines_infix (above text below : List Char)
    : lines text <:+: lines (above ++ '\n' :: (text ++ '\n' :: below)) := by
  obtain ⟨extra, -, same⟩ := Statement.lines_append_feed above
  obtain ⟨more, -, further⟩ := Statement.lines_append_feed text
  refine ⟨lines above ++ extra, more ++ lines below, ?_⟩
  rw [same, further]
  simp only [List.append_assoc]

theorem IsBelow.linesBelow_infix {text : List Char} (isBelow : IsBelow text) (depth : Nat)
    (above below : List Char)
    : linesBelow depth text <:+: lines (above ++ indentChars depth text ++ '\n' :: below) := by
  rcases isBelow with rfl | ⟨inner, rfl, ends⟩
  · exact List.nil_infix
  · rw [ends.indentChars_feed, linesBelow_feed, ← ends.showsLastLine.lines_indentChars,
      List.append_assoc]
    exact lines_infix above (Text.indentChars depth inner) below

theorem indentLine_requote (depth : Nat) (line : List Char)
    : indentLine depth (line.map Contribution.requote)
      = (indentLine depth line).map Contribution.requote := by
  have blank := Statement.all_isBlank_map Contribution.requote_of_isBlank
    Contribution.isBlank_requote line
  unfold indentLine
  rw [blank]
  split
  · rfl
  · rw [List.map_append, List.map_replicate]
    rfl

theorem map_requote_linesAt (outer inner : Nat) (text : String)
    : ((linesAt inner text).map (List.map Contribution.requote)).map (indentLine outer)
      = (linesAt (outer + inner) text).map (List.map Contribution.requote) := by
  rw [← map_linesAt, List.map_map, List.map_map]
  exact List.map_congr_left fun line _ => indentLine_requote outer line

end Text

namespace Page

/-- A spec holds its query and the response on lines of their own. -/
theorem exists_around (page : FieldPage)
    : ∃ above between below : List Char,
        ∀ query result,
          (fieldSpecText page query result).toList
          = above ++ query.toList ++ between ++ '\n' :: (result.toList ++ '\n' :: below) := by
  have inFront
      : "\n    \x7d\n  \x7d\n  let!(:result) \x7b\n    \x7b\n      data: \x7b\n"
        = "\n    \x7d\n  \x7d\n  let!(:result) \x7b\n    \x7b\n      data: \x7b" ++ "\n" := by
    decide
  have behind
      : "\n      \x7d,\n      #errors: \x7b\x7d,\n    \x7d\n  \x7d\n  #it 'succeeds' do\n"
        = "\n"
          ++ "      \x7d,\n      #errors: \x7b\x7d,\n    \x7d\n  \x7d\n  #it 'succeeds' do\n" :=
    by decide
  refine ⟨(fieldComment page false ++ "describe '" ++ page.name
      ++ "' do\n  let!(:query) \x7b\n    %q\x7b\n").toList,
    "\n    \x7d\n  \x7d\n  let!(:result) \x7b\n    \x7b\n      data: \x7b".toList,
    ("      \x7d,\n      #errors: \x7b\x7d,\n    \x7d\n  \x7d\n  #it 'succeeds' do\n"
      ++ "  #  execute\n  #  expect(response_hash).to eq(result_hash)\n  #end\nend").toList,
    fun query result => ?_⟩
  unfold fieldSpecText
  rw [inFront, behind]
  simp only [String.toList_append, List.append_assoc]
  rfl

theorem endsVisibly_fieldSpecText (page : FieldPage) (query result : String)
    : EndsVisibly (fieldSpecText page query result).toList := by
  obtain ⟨inner, spelled⟩ := exists_fieldSpecText page query result
  exact spelled ▸ EndsVisibly.append (by decide) _

theorem endsVisibly_fieldMethodText (modules : Modules) (page : FieldPage)
    (methodName signature : String)
    : EndsVisibly (fieldMethodText modules page methodName signature).toList := by
  unfold fieldMethodText
  rw [String.toList_append]
  exact EndsVisibly.append (by decide) _

end Page

namespace Contribution

variable {plan : Plan} {subject : Subject} {field : Field} {resolved : Resolved}
variable {typeName text : String} {entries : Entries}

/-- How many levels in the fields of a query stand within a spec, and those of its response. -/
def specDepth (plan : Plan) (typeName : String) : Nat :=
  if Json.string typeName == plan.schema.mutationType then 4 else 5

theorem exists_selection {query : String} (queried : queryText plan typeName entries = .ok query)
    : ∃ selection,
        entries.selection plan.settings.maxDepth = .ok selection
        ∧ ∃ opening closing,
            query.toList
            = opening ++ indentChars (specDepth plan typeName) selection.toList
              ++ '\n' :: closing := by
  obtain ⟨selection, selected, queried⟩ := bind_eq_ok.mp queried
  refine ⟨selection, selected, ?_⟩
  unfold specDepth
  split at queried
  case isTrue isMutation =>
    obtain rfl := Except.ok.inj queried
    rw [if_pos isMutation]
    refine ⟨("      " ++ Naming.camelLower typeName ++ " \x7b").toList, "      \x7d".toList, ?_⟩
    simp [indent]
  case isFalse other =>
    obtain rfl := Except.ok.inj queried
    rw [if_neg other]
    refine ⟨("      " ++ plan.schema.operationFor (.string typeName) ++ " \x7b\n        "
      ++ Naming.camelLower typeName ++ " \x7b").toList, "        \x7d\n      \x7d".toList, ?_⟩
    simp [indent]

/-- Wherever the result of a spec stands, it has the lines of the response, with single quotes. -/
theorem resultLines_infix (plan : Plan) (typeName : String) (entries : Entries)
    (above below : List Char)
    : (linesAt (specDepth plan typeName) (entries.result plan.settings.maxDepth)).map
          (List.map requote)
      <:+: lines
        (above ++ '\n' :: ((resultText plan typeName entries).toList ++ '\n' :: below)) := by
  let result := entries.result plan.settings.maxDepth
  let opening := "        " ++ Naming.camelLower typeName ++ ": \x7b"
  have ended : IsEnded result.toList :=
    (Outlines.lines_result plan.settings.maxDepth 1 entries.outlines).1
  have shown (depth : Nat)
      : (linesAt depth result).map (List.map requote)
        = lines ((indentChars depth result.toList).map requote) := by
    rw [Statement.lines_map requote_of_isBlank isBlank_requote,
      ended.showsLastLine.lines_indentChars, linesAt]
  have spelled
      : (resultText plan typeName entries).toList
        = (if Json.string typeName == plan.schema.mutationType then indentChars 4 result.toList
          else opening.toList ++ '\n' :: (indentChars 5 result.toList
            ++ '\n' :: "        \x7d".toList)).map requote := by
    unfold resultText
    dsimp only
    rw [String.toList_ofList]
    show List.map requote _ = _
    split
    case isTrue => rw [indent, String.toList_ofList]
    case isFalse => simp [indent, opening, result]
  rw [shown, spelled, specDepth]
  by_cases isMutation : Json.string typeName == plan.schema.mutationType
  · rw [if_pos isMutation, if_pos isMutation]
    exact lines_infix above _ below
  · have inner := lines_infix (above ++ '\n' :: opening.toList.map requote)
      ((indentChars 5 result.toList).map requote)
      ("        \x7d".toList.map requote ++ '\n' :: below)
    rw [if_neg isMutation, if_neg isMutation, List.map_append, List.map_cons, List.map_append,
      List.map_cons, show requote '\n' = '\n' from rfl]
    simpa only [List.append_assoc, List.cons_append] using inner

/-- A method stands one level in. -/
theorem lines_methodText (standard : plan.templates = []) {isShown : Bool}
    (made : methodText plan isShown field resolved = .ok text)
    : ∃ page signature,
        fieldPage plan isShown field resolved = .ok page
        ∧ lines text.toList
          = linesAt 1
              (Page.fieldMethodText plan.modules page (Naming.snakeCase page.name) signature) := by
  obtain ⟨page, paged, rfl⟩ := exists_page_of_methodText standard made
  have ends := Page.endsVisibly_fieldMethodText plan.modules page (Naming.snakeCase page.name)
    ("(" ++ ", ".intercalate (page.parameters.map fun parameter => parameter.name ++ ":") ++ ")")
  exact ⟨page, _, paged, lines_indent ends.showsLastLine 1⟩

/-- A spec stands two levels in. The lines of the fields of its query, and those of its response,
stand as many levels further in as there are around them.
-/
structure IsNestedSpec (plan : Plan) (typeName : String) (page : FieldPage) (entries : Entries)
    (query text : String) : Prop where
  whole
    : lines text.toList
      = linesAt 2 (Page.fieldSpecText page query (resultText plan typeName entries))
  selection
    : ∃ rows,
        entries.outlines.selectionLines plan.settings.maxDepth 1 (2 + specDepth plan typeName)
          = .ok rows
        ∧ rows <:+: lines text.toList
  result
    : (entries.outlines.resultLines plan.settings.maxDepth 1 (2 + specDepth plan typeName)).map
          (List.map requote)
      <:+: lines text.toList

theorem lines_specText (standard : plan.templates = [])
    (named : plan.schema.HasVisibleNames) (isNamed : field.name.EndsVisibly)
    (made : specText plan subject field resolved = .ok text)
    : ∃ entries page query,
        fieldExample plan field = .ok entries
        ∧ fieldPage plan true field resolved = .ok page
        ∧ queryText plan subject.mapping.schemaName entries = .ok query
        ∧ IsNestedSpec plan subject.mapping.schemaName page entries query text := by
  obtain ⟨entries, page, query, shown, paged, queried, rfl⟩ :=
    exists_page_of_specText standard made
  refine ⟨entries, page, query, shown, paged, queried, ?_⟩
  let typeName := subject.mapping.schemaName
  let limit := plan.settings.maxDepth
  let depth := specDepth plan typeName
  let result := resultText plan typeName entries
  have ends := Page.endsVisibly_fieldSpecText page query result
  have whole := lines_indent ends.showsLastLine 2
  obtain ⟨above, between, below, around⟩ := Page.exists_around page
  have named := areNamed_fieldExample named isNamed shown
  refine ⟨whole, ?_, ?_⟩
  · obtain ⟨selection, selected, opening, closing, spelled⟩ := exists_selection queried
    obtain ⟨isBelow, rows⟩ := Outlines.lines_selection limit 1 entries.outlines named selected
    refine ⟨_, rows (2 + depth), ?_⟩
    have inner := isBelow.linesBelow_infix depth (above ++ opening)
      (closing ++ between ++ '\n' :: (result.toList ++ '\n' :: below))
    rw [whole, linesAt, around, spelled, ← map_linesBelow]
    simpa [List.append_assoc] using inner.map (indentLine 2)
  · have inner := resultLines_infix plan typeName entries (above ++ query.toList ++ between) below
    obtain ⟨-, -, rows⟩ := Outlines.lines_result limit 1 entries.outlines
    rw [whole, linesAt, around, rows, ← map_requote_linesAt]
    exact inner.map (indentLine 2)

end Contribution

-----------------------------------------------------------------------------------------
-- All levels
-----------------------------------------------------------------------------------------

/-- Levels of indentation add up in a text whose last line is not blank. So each line of a
selection, of a response, of a stub and of a spec stands as many levels in as there are around it.
-/
theorem Text.levels_add_up
    : (∀ (outer inner : Nat) (text : String),
        ShowsLastLine text.toList →
          indent outer (indent inner text) = indent (outer + inner) text
          ∧ IsIndented (outer + inner) text.toList (indent (outer + inner) text).toList)
      ∧ (∀ (limit level : Int) (depth : Nat) (entries : Entries) (text : String),
          entries.outlines.AreNamed → entries.selection limit level = .ok text →
            ∃ rows,
              entries.outlines.selectionLines limit level depth = .ok rows
              ∧ ∀ opening,
                  EndsVisibly opening →
                    lines (opening ++ (indent depth text).toList) = lines opening ++ rows)
      ∧ (∀ (limit level : Int) (depth : Nat) (entries : Entries),
          lines (indent depth (entries.result limit level)).toList
          = entries.outlines.resultLines limit level depth)
      ∧ (∀ (plan : Plan) (isShown : Bool) (field : Field) (resolved : Resolved) (text : String),
          plan.templates = [] → Contribution.methodText plan isShown field resolved = .ok text →
            ∃ page signature,
              Contribution.fieldPage plan isShown field resolved = .ok page
              ∧ lines text.toList
                = linesAt 1
                    (Page.fieldMethodText plan.modules page (Naming.snakeCase page.name) signature))
      ∧ ∀ (plan : Plan) (subject : Subject) (field : Field) (resolved : Resolved) (text : String),
          plan.templates = [] → plan.schema.HasVisibleNames → field.name.EndsVisibly →
            Contribution.specText plan subject field resolved = .ok text →
              ∃ entries page query,
                Contribution.fieldExample plan field = .ok entries
                ∧ Contribution.fieldPage plan true field resolved = .ok page
                ∧ Contribution.queryText plan subject.mapping.schemaName entries = .ok query
                ∧ Contribution.IsNestedSpec plan subject.mapping.schemaName page entries query
                    text := by
  refine ⟨fun outer inner text shows => ⟨?_, ?_⟩, ?_, fun limit level depth entries => ?_, ?_, ?_⟩
  · rw [indent, indent, String.toList_ofList, shows.indentChars_indentChars, indent]
  · rw [indent, String.toList_ofList]
    exact shows.isIndented (outer + inner)
  · intro limit level depth entries text named selected
    obtain ⟨below, rows⟩ := Outlines.lines_selection limit level entries.outlines named selected
    refine ⟨_, rows depth, fun opening ends => ?_⟩
    rw [indent, String.toList_ofList, below.lines_append ends]
  · obtain ⟨ended, -, rows⟩ := Outlines.lines_result limit level entries.outlines
    rw [rows]
    exact lines_indent ended.showsLastLine depth
  · exact fun plan isShown field resolved text standard made =>
      Contribution.lines_methodText standard made
  · exact fun plan subject field resolved text standard named isNamed made =>
      Contribution.lines_specText standard named isNamed made

namespace Job

/-- Levels add up in a text with blank lines, in the parts of widgets, and in a run on a query. -/
theorem levels_add_up_of_code
    : (indent 1 (indent 2 "part \x7b\r\n  id\n \n\x7d\n") = indent 3 "part \x7b\r\n  id\n \n\x7d\n"
        ∧ IsIndented 3 "part \x7b\r\n  id\n \n\x7d\n".toList
            (indent 3 "part \x7b\r\n  id\n \n\x7d\n").toList)
      ∧ (∃ text rows,
          Entries.ofParts.selection 3 = .ok text
          ∧ Entries.ofParts.outlines.selectionLines 3 1 2 = .ok rows
          ∧ ∀ opening,
              EndsVisibly opening →
                lines (opening ++ (indent 2 text).toList) = lines opening ++ rows)
      ∧ ∃ draft,
          (describing "A code." "a").draft.outcome = .ok draft
          ∧ ∃ subject ∈ (describing "A code." "a").subjects draft.plan,
              ∃ resolved,
                Resolved.ofField draft.plan.classified (describedField "A code." "a") = .ok resolved
                ∧ (∃ text,
                    Contribution.methodText draft.plan true (describedField "A code." "a") resolved
                      = .ok text
                    ∧ ∃ page signature,
                        Contribution.fieldPage draft.plan true (describedField "A code." "a")
                            resolved
                          = .ok page
                        ∧ lines text.toList
                          = linesAt 1
                              (Page.fieldMethodText draft.plan.modules page
                                (Naming.snakeCase page.name) signature))
                ∧ ∃ text,
                    Contribution.specText draft.plan subject (describedField "A code." "a") resolved
                      = .ok text
                    ∧ ∃ entries page query,
                        Contribution.IsNestedSpec draft.plan subject.mapping.schemaName page entries
                          query text := by
  obtain ⟨levels, selections, -, methods, specs⟩ := Text.levels_add_up
  have named : Entries.ofParts.outlines.AreNamed := by
    simp only [Entries.ofParts, Entries.single, Entries.outlines, Example.outline,
      Outline.ofConnection, Outlines.single, Outline.ofText, Outlines.AreNamed, Outline.IsNamed]
    decide
  obtain ⟨text, selected⟩ : ∃ text, Entries.ofParts.selection 3 = .ok text := ⟨_, rfl⟩
  obtain ⟨rows, shown, below⟩ := selections 3 1 2 _ text named selected
  obtain ⟨draft, drafted, subject, isSubject, standard, resolved, resolves, method, defined, spec,
      exemplified, visible⟩
      : ∃ draft,
          (describing "A code." "a").draft.outcome = .ok draft
          ∧ ∃ subject ∈ (describing "A code." "a").subjects draft.plan,
              draft.plan.templates = []
              ∧ ∃ resolved,
                  Resolved.ofField draft.plan.classified (describedField "A code." "a")
                    = .ok resolved
                  ∧ ∃ method,
                      Contribution.methodText draft.plan true (describedField "A code." "a")
                          resolved
                        = .ok method
                      ∧ ∃ spec,
                          Contribution.specText draft.plan subject (describedField "A code." "a")
                              resolved
                            = .ok spec
                          ∧ draft.plan.schema.HasVisibleNames := by
    decide +kernel
  refine ⟨levels 1 2 _ (by decide), ⟨text, rows, selected, shown, below⟩, draft, drafted, subject,
    isSubject, resolved, resolves, ⟨method, defined, ?_⟩, spec, exemplified, ?_⟩
  · exact methods draft.plan true _ resolved method standard defined
  · obtain ⟨entries, page, query, -, -, -, nested⟩ :=
      specs draft.plan subject _ resolved spec standard visible (by decide) exemplified
    exact ⟨entries, page, query, nested⟩

end Job

end RubySchema
