import RubySchema.Proofs.Generation.Indentation
import RubySchema.Proofs.Generation.Signatures
import RubySchema.Proofs.Generation.Stages

/-!
The lines above the method of a field, and above its examples, are comments if and only if each text
on a comment line goes on as a comment behind its line breaks. Texts do whose lines are broken by
line feeds only, next to default values on one line: a description is put on one line by its line
feeds alone, and a default value is written as it is, but indentation opens a line behind every line
break.
-/

namespace RubySchema

open Text

-----------------------------------------------------------------------------------------
-- Lines of indented texts
-----------------------------------------------------------------------------------------

namespace Statement

/-- Texts that each end in a line feed have the lines of each, by induction on the texts. -/
theorem lines_flatMap_feed (texts : List String) (rest : List Char)
    : lines ((texts.flatMap fun text => text.toList ++ ['\n']) ++ rest)
      = (texts.flatMap fun text => lines (text.toList ++ ['\n'])) ++ lines rest := by
  induction texts with
  | nil => rfl
  | cons text more ih =>
      obtain ⟨extra, -, same⟩ := lines_append_feed text.toList
      rw [List.flatMap_cons, List.flatMap_cons, List.append_assoc, List.append_assoc,
        List.singleton_append, same, same [], ih]
      simp [lines]

end Statement

-----------------------------------------------------------------------------------------
-- Comments
-----------------------------------------------------------------------------------------

/-- A line is empty, or a number sign is its first character other than a space. -/
def IsComment (line : List Char) : Prop :=
  line = [] ∨ (line.dropWhile (· == ' ')).head? = some '#'

instance : DecidablePred IsComment :=
  fun line =>
    inferInstanceAs (Decidable (line = [] ∨ (line.dropWhile (· == ' ')).head? = some '#'))

/-- Behind each of its line breaks a text goes on with a blank line or with a comment. -/
def GoesOnAsComment (text : String) : Prop :=
  ∀ line ∈ (lines text.toList).tail, line.all isBlank = true ∨ IsComment line

section
variable {level : Nat} {line : List Char} {text : String}

theorem isComment_indentLine
    : IsComment (indentLine level line) ↔ line.all isBlank = true ∨ IsComment line := by
  unfold indentLine
  split
  case isTrue blank => exact iff_of_true (.inl rfl) (.inl blank)
  case isFalse shown =>
    have filled : line ≠ [] := by
      rintro rfl
      exact shown rfl
    have spaces : ∀ c ∈ List.replicate (2 * level) ' ', (c == ' ') = true := by
      intro c member
      rw [List.eq_of_mem_replicate member]
      rfl
    unfold IsComment
    rw [List.dropWhile_append_of_pos spaces]
    simp [filled, shown]

theorem GoesOnAsComment.of_unbroken (unbroken : Statement.IsUnbroken text.toList)
    : GoesOnAsComment text := by
  unfold GoesOnAsComment
  rw [Statement.lines_of_unbroken unbroken]
  split <;> exact fun _ member => nomatch member

/-- A text behind a number sign makes comments if and only if it goes on as one. -/
theorem forall_isComment_iff (sign : text.toList.head? = some '#')
    : (∀ line ∈ lines (text.toList ++ ['\n']), IsComment (indentLine level line))
      ↔ GoesOnAsComment text := by
  obtain ⟨rest, spelled⟩ : ∃ rest, text.toList = ['#'] ++ rest := by
    cases shown : text.toList with
    | nil =>
        rw [shown] at sign
        cases sign
    | cons c rest =>
        rw [shown] at sign
        exact ⟨rest, by rw [Option.some.inj sign]; rfl⟩
  obtain ⟨start, more, first, -⟩ :=
    Statement.lines_append_of_unbroken (by decide) (List.cons_ne_nil '#' []) rest
  obtain ⟨extra, form, same⟩ := Statement.lines_append_feed text.toList
  have blank : ∀ line ∈ extra, IsComment (indentLine level line) := by
    intro line member
    rcases form with rfl | ⟨rfl, -⟩
    · cases member
    · exact List.mem_singleton.mp member ▸ .inl rfl
  have opens : IsComment (indentLine level (['#'] ++ start)) :=
    isComment_indentLine.mpr (.inr (.inr rfl))
  unfold GoesOnAsComment
  rw [same [], spelled, first, lines, List.append_nil, List.forall_mem_append,
    List.forall_mem_cons, List.tail_cons]
  simp only [isComment_indentLine] at opens blank ⊢
  constructor
  · rintro ⟨⟨-, each⟩, -⟩
    exact each
  · exact fun each => ⟨⟨opens, each⟩, blank⟩

end

-----------------------------------------------------------------------------------------
-- Comments of pages
-----------------------------------------------------------------------------------------

namespace FieldPage

/-- The texts on the comment lines of a field. Those above its method also tell what its parameters
are for.
-/
def comments (page : FieldPage) (kind : DocumentKind) : List String :=
  Page.comments page (kind != .spec)

/-- The line that the comment of a field stands above: its method in the stub, its examples in the
spec.
-/
def opening (page : FieldPage) : DocumentKind → String
  | .spec => "describe '" ++ page.name ++ "' do"
  | _ =>
      "def " ++ Naming.snakeCase page.name
        ++ ("(" ++ ", ".intercalate (page.parameters.map fun parameter => parameter.name ++ ":")
          ++ ")")

/-- How far a field is indented in a document that has comments. -/
def level : DocumentKind → Nat
  | .spec => 2
  | _ => 1

/-- The lines above the opening of a field. -/
def above (page : FieldPage) (kind : DocumentKind) : List (List Char) :=
  ([] :: (page.comments kind).flatMap fun text => lines (text.toList ++ ['\n'])).map
    (indentLine (level kind))

/-- The lines of a fragment begin with those above the opening of a field, and with the opening. -/
def Opens (page : FieldPage) (kind : DocumentKind) (text : String) : Prop :=
  page.above kind ++ [indentLine (level kind) (page.opening kind).toList] <+: lines text.toList

instance (page : FieldPage) (kind : DocumentKind) (text : String)
    : Decidable (page.Opens kind text) :=
  inferInstanceAs (Decidable (_ <+: _))

variable {page : FieldPage} {kind : DocumentKind}

/-- The lines above a field are comments if and only if each text on them goes on as a comment. -/
theorem forall_above_isComment
    : (∀ line ∈ page.above kind, IsComment line)
      ↔ ∀ text ∈ page.comments kind, GoesOnAsComment text := by
  have signs : ∀ text ∈ page.comments kind, text.toList.head? = some '#' := by
    intro text member
    rcases List.mem_cons.mp member with rfl | member
    · simp
    rcases List.mem_append.mp member with member | member
    · obtain ⟨parameter, -, rfl⟩ := List.mem_map.mp member
      simp [Page.parameterLine]
    · rw [List.mem_singleton.mp member]
      simp
  unfold above
  rw [List.forall_mem_map, List.forall_mem_cons]
  constructor
  · rintro ⟨-, each⟩ text member
    exact (forall_isComment_iff (signs text member)).mp fun line isLine =>
      each line (List.mem_flatMap.mpr ⟨text, member, isLine⟩)
  · intro each
    refine ⟨.inl rfl, fun line member => ?_⟩
    obtain ⟨text, among, isLine⟩ := List.mem_flatMap.mp member
    exact (forall_isComment_iff (signs text among)).mpr (each text among) line isLine

/-- Behind its comments a field opens on a line of its own, if that line is not broken. -/
theorem opens_indent (unbroken : Statement.IsUnbroken (page.opening kind).toList) (body : String)
    : page.Opens kind
        (indent (level kind)
          (Page.fieldComment page (kind != .spec)
            ++ (page.opening kind ++ ("\n" ++ (body ++ ("\n" ++ "end")))))) := by
  obtain ⟨extra, -, same⟩ := Statement.lines_append_feed body.toList
  have whole
      : lines (Page.fieldComment page (kind != .spec)
            ++ (page.opening kind ++ ("\n" ++ (body ++ ("\n" ++ "end"))))).toList
        = ([] :: (page.comments kind).flatMap fun text => lines (text.toList ++ ['\n']))
          ++ (page.opening kind).toList
            :: (lines body.toList ++ extra ++ lines "end".toList) := by
    rw [Page.toList_fieldComment, Statement.lines_feed, Statement.lines_flatMap_feed,
      Page.toList_feeds, Statement.lines_line unbroken, same]
    rfl
  have ends
      : EndsVisibly (Page.fieldComment page (kind != .spec)
          ++ (page.opening kind ++ ("\n" ++ (body ++ ("\n" ++ "end"))))).toList := by
    simp only [String.toList_append, ← List.append_assoc]
    exact EndsVisibly.append (by decide) _
  unfold Opens
  rw [indent, String.toList_ofList, ends.showsLastLine.lines_indentChars, whole, List.map_append,
    List.map_cons]
  exact ⟨_, List.append_assoc _ _ _⟩

end FieldPage

-----------------------------------------------------------------------------------------
-- Fields
-----------------------------------------------------------------------------------------

variable {plan : Plan} {subject : Subject} {field : Field} {resolved : Resolved}
variable {page : FieldPage} {text : String}

namespace Contribution

section
variable (arguments : ∀ argument ∈ field.arguments, argument.name.IsName)
variable (shows : IsPageOf plan field resolved page)
include arguments shows

/-- The line that a field opens on is not broken when its names are usual ones. -/
theorem isUnbroken_opening (named : field.name.IsName) (kind : DocumentKind)
    : Statement.IsUnbroken (page.opening kind).toList := by
  have usual : TypeName.IsGraphQL page.name := shows.name ▸ named.isGraphQL
  have keywords : ∀ name ∈ page.parameters.map Parameter.name, TypeName.IsGraphQL name := by
    intro name among
    obtain ⟨parameter, isParameter, rfl⟩ := List.mem_map.mp among
    obtain ⟨argument, member, use, -, here⟩ :=
      exists_of_mem_parameters arguments shows.parameters isParameter
    exact here.name ▸ Naming.isGraphQL_snakeCase (arguments argument member).isGraphQL
  have method : Statement.IsUnbroken (page.opening .implementation).toList := by
    have signature := Statement.isUnbroken_signature keywords
    rw [List.map_map] at signature
    unfold FieldPage.opening
    rw [String.toList_append, String.toList_append]
    exact (Statement.IsUnbroken.append (by decide)
      (Naming.isGraphQL_snakeCase usual).isUnbroken).append signature
  cases kind with
  | schema | implementation => exact method
  | spec =>
      unfold FieldPage.opening
      simp only [String.toList_append]
      exact (Statement.IsUnbroken.append (by decide) usual.isUnbroken).append (by decide)

end

section
variable (standard : plan.templates = []) (named : field.name.IsName)
variable (arguments : ∀ argument ∈ field.arguments, argument.name.IsName)
include standard named arguments

theorem opens_methodText {isShown : Bool}
    (made : methodText plan isShown field resolved = .ok text)
    : ∃ page,
        fieldPage plan isShown field resolved = .ok page ∧ page.Opens .implementation text := by
  obtain ⟨page, paged, rfl⟩ := exists_page_of_methodText standard made
  have unbroken := isUnbroken_opening arguments (isPageOf named paged) named .implementation
  refine ⟨page, paged, ?_⟩
  have spelled : page.opening .implementation = "def " ++ (Naming.snakeCase page.name ++ _) :=
    String.append_assoc ..
  rw [Page.fieldMethodText_eq, ← spelled]
  exact FieldPage.opens_indent unbroken _

theorem opens_specText (made : specText plan subject field resolved = .ok text)
    : ∃ page, fieldPage plan true field resolved = .ok page ∧ page.Opens .spec text := by
  obtain ⟨entries, page, query, -, paged, -, rfl⟩ := exists_page_of_specText standard made
  have unbroken := isUnbroken_opening arguments (isPageOf named paged) named .spec
  refine ⟨page, paged, ?_⟩
  have spelled : page.opening .spec = "describe '" ++ (page.name ++ "' do") :=
    String.append_assoc ..
  rw [Page.fieldSpecText_eq, ← spelled]
  exact FieldPage.opens_indent unbroken _

end

end Contribution

-----------------------------------------------------------------------------------------
-- Texts that fit a comment line
-----------------------------------------------------------------------------------------

/-- The short form of a type is not broken when its generated name is not: the namespace, which may
be, is left out.
-/
theorem Notation.isUnbroken_short {resolved : Resolved} (schemaNamespace : String)
    (unbroken : Statement.IsUnbroken resolved.targetName.toList)
    : Statement.IsUnbroken (short schemaNamespace resolved).toList := by
  let ending := if resolved.isConnection then ".connection_type" else ""
  have whole : Statement.IsUnbroken (resolved.targetName ++ ending).toList := by
    rw [String.toList_append]
    refine unbroken.append ?_
    simp only [ending]
    split <;> decide
  have rests {start rest : List Char}
      (found : afterStart? start (resolved.targetName ++ ending).toList = some rest)
      : Statement.IsUnbroken (String.ofList rest).toList := by
    unfold afterStart? at found
    split at found
    · cases found
      rw [String.toList_ofList]
      exact fun c member => whole c (List.mem_of_mem_drop member)
    · cases found
  have inner
      : Statement.IsUnbroken
          (withoutNamespace schemaNamespace (reference schemaNamespace resolved)).toList := by
    unfold withoutNamespace reference qualify
    by_cases absolute : startsWith resolved.targetName "::" = true
    · rw [if_pos absolute]
      split
      case h_1 found => exact rests found
      case h_2 =>
        split
        case h_1 found => exact rests found
        case h_2 => exact whole
    · have behind
          : afterStart? ("::" ++ schemaNamespace ++ "::").toList
              ("::" ++ schemaNamespace ++ "::" ++ resolved.targetName ++ ending).toList
            = some (resolved.targetName ++ ending).toList := by
        simp [afterStart?, List.isPrefixOf_iff_prefix]
      rw [if_neg absolute, behind]
      dsimp only
      rw [String.ofList_toList]
      exact whole
  unfold short
  dsimp only
  rw [String.toList_append]
  refine Statement.IsUnbroken.append ?_ ?_
  · split
    · simp only [String.toList_append]
      refine ((Statement.IsUnbroken.append (by decide) inner).append ?_).append (by decide)
      split <;> decide
    · exact inner
  · split <;> decide

def Plan.HasNamesInLines (plan : Plan) : Prop :=
  ∀ mapping ∈ plan.classified.mappings.values, Statement.IsUnbroken mapping.targetName.toList

instance : DecidablePred Plan.HasNamesInLines := fun plan =>
  inferInstanceAs (Decidable (∀ mapping ∈ plan.classified.mappings.values,
    Statement.IsUnbroken mapping.targetName.toList))

/-- A field or an argument whose texts fit a comment line: its description is broken by line feeds
only, and its default value is not broken.
-/
structure Field.FitsComment (field : Field) : Prop where
  description : field.description.BreaksByFeeds
  default : field.defaultValue.IsUnbroken

instance : DecidablePred Field.FitsComment := fun field =>
  decidable_of_iff (field.description.BreaksByFeeds ∧ field.defaultValue.IsUnbroken)
    ⟨fun ⟨description, default⟩ => ⟨description, default⟩,
      fun fits => ⟨fits.description, fits.default⟩⟩

namespace Contribution

section
variable (arguments : ∀ argument ∈ field.arguments, argument.name.IsName)
include arguments

/-- Names and texts that fit comment lines break none of them. -/
theorem goesOnAsComment_of_fits (inLines : plan.HasNamesInLines) (named : field.name.IsName)
    (fits : field.FitsComment) (argumentsFit : ∀ argument ∈ field.arguments, argument.FitsComment)
    (resolves : Resolved.ofField plan.classified field = .ok resolved)
    (shows : IsPageOf plan field resolved page) {kind : DocumentKind}
    : ∀ text ∈ page.comments kind, GoesOnAsComment text := by
  have short {field : Field} {resolved : Resolved}
      (resolves : Resolved.ofField plan.classified field = .ok resolved)
      : Statement.IsUnbroken (Notation.short plan.modules.schemaNamespace resolved).toList := by
    obtain ⟨mapping, known, same, -⟩ := Resolved.exists_of_ofField resolves
    have listed : mapping ∈ plan.classified.mappings.values :=
      List.mem_map.mpr ⟨_, Table.mem_of_get? known, rfl⟩
    exact Notation.isUnbroken_short _ (same ▸ inLines mapping listed)
  intro text member
  apply GoesOnAsComment.of_unbroken
  rcases List.mem_cons.mp member with rfl | member
  · have usual : TypeName.IsGraphQL page.name := shows.name ▸ named.isGraphQL
    have described := isUnbroken_onelineValue fits.description shows.description
    rw [String.toList_append, String.toList_append]
    exact (Statement.IsUnbroken.append (by decide) usual.isUnbroken).append
      (Page.isUnbroken_around (by decide) described (by decide))
  rcases List.mem_append.mp member with member | member
  · obtain ⟨parameter, isParameter, rfl⟩ := List.mem_map.mp member
    obtain ⟨argument, among, use, used, here⟩ :=
      exists_of_mem_parameters arguments shows.parameters isParameter
    have usual : TypeName.IsGraphQL parameter.name :=
      here.name ▸ Naming.isGraphQL_snakeCase (arguments argument among).isGraphQL
    have described :=
      isUnbroken_onelineValue (argumentsFit argument among).description here.description
    have defaulted := isUnbroken_defaultLiteral (argumentsFit argument among).default here.default
    have typed
        : Statement.IsUnbroken
            ("# @param " ++ parameter.name ++ " [" ++ parameter.short ++ "]").toList := by
      simp only [String.toList_append, here.short]
      exact (((Statement.IsUnbroken.append (by decide) usual.isUnbroken).append (by decide)).append
        (short used)).append (by decide)
    unfold Page.parameterLine
    rw [String.toList_append, String.toList_append]
    refine (typed.append (Page.isUnbroken_around (by decide) defaulted (by decide))).append ?_
    split
    · exact Page.isUnbroken_around (by decide) described (by decide)
    · decide
  · rw [List.mem_singleton.mp member, shows.returns]
    simp only [String.toList_append]
    exact (Statement.IsUnbroken.append (by decide) (short resolves)).append (by decide)

end

/-- A field that is kept has its method in the stub of its type. -/
theorem mem_ofField_of_methodText {position : Nat} (kept : isFieldLeftOut subject field = false)
    (has : subject.hasDocument .implementation = true)
    (resolves : Resolved.ofField plan.classified field = .ok resolved)
    (made : methodText plan (subject.unshown ≤ position) field resolved = .ok text)
    : .ok (.fragment .implementation .fields text) ∈ ofField plan subject field position := by
  unfold ofField ofKeptField
  rw [if_neg (Bool.not_eq_true _ ▸ kept), resolves]
  dsimp only
  rw [made]
  simp [Subject.fragment, has, Except.map]

/-- In the stub and in the spec a field opens behind lines that are all comments if and only if each
text on a comment line goes on as a comment behind its line breaks. They are when the names and
texts of the field fit comment lines.
-/
theorem comments_of_field (standard : plan.templates = []) (named : field.name.IsName)
    (arguments : ∀ argument ∈ field.arguments, argument.name.IsName) {position : Nat}
    {kind : DocumentKind} (isOther : kind ≠ .schema) {place : Section}
    (made : .ok (.fragment kind place text) ∈ ofField plan subject field position)
    : ∃ resolved page isShown,
        Resolved.ofField plan.classified field = .ok resolved
        ∧ fieldPage plan isShown field resolved = .ok page
        ∧ page.Opens kind text
        ∧ ((∀ line ∈ page.above kind, IsComment line)
          ↔ ∀ shown ∈ page.comments kind, GoesOnAsComment shown)
        ∧ (plan.HasNamesInLines → field.FitsComment
          → (∀ argument ∈ field.arguments, argument.FitsComment)
          → ∀ line ∈ page.above kind, IsComment line) := by
  obtain ⟨resolved, page, isShown, resolves, paged, opens⟩
      : ∃ resolved page isShown,
          Resolved.ofField plan.classified field = .ok resolved
          ∧ fieldPage plan isShown field resolved = .ok page
          ∧ page.Opens kind text := by
    generalize spelled : Contribution.fragment kind place text = contribution at made
    cases isOfField contribution made with
    | reference => cases spelled
    | opening | ending =>
        cases spelled
        exact absurd rfl isOther
    | argument _ inner =>
        cases isOfArgument contribution inner with
        | reference => cases spelled
        | line =>
            cases spelled
            exact absurd rfl isOther
    | method resolves makes =>
        cases spelled
        obtain ⟨page, paged, opens⟩ := opens_methodText standard named arguments makes
        exact ⟨_, page, _, resolves, paged, opens⟩
    | spec resolves makes =>
        cases spelled
        obtain ⟨page, paged, opens⟩ := opens_specText standard named arguments makes
        exact ⟨_, page, true, resolves, paged, opens⟩
    | listed makes =>
        obtain ⟨name, arguments, -, rfl⟩ := exists_of_listing makes
        cases spelled
  refine ⟨resolved, page, isShown, resolves, paged, opens, FieldPage.forall_above_isComment, ?_⟩
  intro inLines fits argumentsFit
  exact FieldPage.forall_above_isComment.mpr (goesOnAsComment_of_fits arguments inLines named fits
    argumentsFit resolves (isPageOf named paged))

end Contribution

-----------------------------------------------------------------------------------------
-- A field with texts
-----------------------------------------------------------------------------------------

namespace Job

/-- The code of a query is described, and its argument has a default value. -/
def describedField (description default : String) : Field :=
  {
    plainField "code" "ID" [{ plainField "by" "ID" [] with defaultValue := .string default }] with
    description := .string description
  }

/-- A run on a query of a code. -/
def describing (description default : String) : Job :=
  smallJob "Query" "Query" [plainType "Query" .object [describedField description default]]

/-- Behind a description with a line feed the code opens below comments only. -/
theorem comments_of_code
    : ∃ draft,
        (describing "A code.\nputs 1" "a").draft.outcome = .ok draft
        ∧ ∃ subject ∈ (describing "A code.\nputs 1" "a").subjects draft.plan,
            ∃ text,
              .ok (.fragment .implementation .fields text)
                ∈ Contribution.ofField draft.plan subject
                  (describedField "A code.\nputs 1" "a") 0
              ∧ ∃ page : FieldPage,
                  page.Opens .implementation text
                  ∧ ∀ line ∈ page.above .implementation, IsComment line := by
  obtain ⟨draft, drafted, subject, isSubject, standard, kept, has, resolved, resolves, text, made,
      inLines⟩
      : ∃ draft,
          (describing "A code.\nputs 1" "a").draft.outcome = .ok draft
          ∧ ∃ subject ∈ (describing "A code.\nputs 1" "a").subjects draft.plan,
              draft.plan.templates = []
              ∧ Contribution.isFieldLeftOut subject (describedField "A code.\nputs 1" "a") = false
              ∧ subject.hasDocument .implementation = true
              ∧ ∃ resolved,
                  Resolved.ofField draft.plan.classified (describedField "A code.\nputs 1" "a")
                    = .ok resolved
                  ∧ ∃ text,
                      Contribution.methodText draft.plan (subject.unshown ≤ 0)
                          (describedField "A code.\nputs 1" "a") resolved
                        = .ok text
                      ∧ draft.plan.HasNamesInLines := by
    decide +kernel
  have written := Contribution.mem_ofField_of_methodText kept has resolves made
  obtain ⟨_, page, _, -, -, opens, -, comments⟩ :=
    Contribution.comments_of_field standard (by decide) (by decide) (by decide) written
  exact ⟨draft, drafted, subject, isSubject, text, written, page, opens,
    comments inLines (by decide) (by decide)⟩

/-- Above the method of the code, in the stub of its type, stands a line that is no comment. -/
def Leaks (description default : String) : Prop :=
  ∃ draft,
    (describing description default).draft.outcome = .ok draft
    ∧ ∃ subject ∈ (describing description default).subjects draft.plan,
        ∃ resolved,
          Resolved.ofField draft.plan.classified (describedField description default)
            = .ok resolved
          ∧ ∃ page,
              Contribution.fieldPage draft.plan true (describedField description default) resolved
                = .ok page
              ∧ ∃ text,
                  Contribution.methodText draft.plan true (describedField description default)
                      resolved
                    = .ok text
                  ∧ .ok (.fragment .implementation .fields text)
                    ∈ Contribution.ofField draft.plan subject
                      (describedField description default) 0
                  ∧ page.Opens .implementation text
                  ∧ ∃ line ∈ page.above .implementation, ¬IsComment line

/-- Behind a carriage return in a description, and behind a line feed in a default value, a line
above the method is no comment.
-/
theorem leaks_of_line_breaks
    : Leaks "A code.\rputs 1" "a" ∧ Leaks "A code." "a\nputs 1" := by
  suffices each
      : ∀ texts ∈ [("A code.\rputs 1", "a"), ("A code.", "a\nputs 1")], Leaks texts.1 texts.2 from
    ⟨each ("A code.\rputs 1", "a") (by decide), each ("A code.", "a\nputs 1") (by decide)⟩
  intro texts listed
  obtain ⟨draft, drafted, subject, isSubject, standard, kept, has, shown, resolved, resolves, page,
      paged, text, made, leaked⟩
      : ∃ draft,
          (describing texts.1 texts.2).draft.outcome = .ok draft
          ∧ ∃ subject ∈ (describing texts.1 texts.2).subjects draft.plan,
              draft.plan.templates = []
              ∧ Contribution.isFieldLeftOut subject (describedField texts.1 texts.2) = false
              ∧ subject.hasDocument .implementation = true
              ∧ subject.unshown = 0
              ∧ ∃ resolved,
                  Resolved.ofField draft.plan.classified (describedField texts.1 texts.2)
                    = .ok resolved
                  ∧ ∃ page,
                      Contribution.fieldPage draft.plan true (describedField texts.1 texts.2)
                          resolved
                        = .ok page
                      ∧ ∃ text,
                          Contribution.methodText draft.plan true
                              (describedField texts.1 texts.2) resolved
                            = .ok text
                          ∧ ∃ line ∈ page.above .implementation, ¬IsComment line := by
    revert texts
    decide +kernel
  have written : _ ∈ Contribution.ofField draft.plan subject _ 0 :=
    Contribution.mem_ofField_of_methodText kept has resolves (by simpa [shown])
  have named : (describedField texts.1 texts.2).name.IsName :=
    (by decide : (Json.string "code").IsName)
  have arguments : ∀ argument ∈ (describedField texts.1 texts.2).arguments, argument.name.IsName :=
    List.forall_mem_singleton.mpr (by decide : (Json.string "by").IsName)
  obtain ⟨_, same, opens⟩ := Contribution.opens_methodText standard named arguments made
  obtain rfl := Except.ok.inj (paged.symm.trans same)
  exact ⟨draft, drafted, subject, isSubject, resolved, resolves, page, paged, text, made, written,
    opens, leaked⟩

end Job

end RubySchema
