import RubySchema.Proofs.Generation.Hanging
import RubySchema.Proofs.Generation.Layout

/-!
The schema document has the default value of an argument or an input field as a literal if and only
if it has no line break, and else the literal with its line breaks changed. The line of an argument
is indented when its default value is part of it already, so a default value stands there as within
an indented text: its line breaks become line feeds with spaces behind them.
-/

namespace RubySchema

open Text

-----------------------------------------------------------------------------------------
-- Literals within indented texts
-----------------------------------------------------------------------------------------

/-- The characters of a part are those of the text that holds it, by induction on the text. -/
theorem Text.mem_of_contains {part text : List Char} {c : Char} (held : contains part text = true)
    (member : c ∈ part) : c ∈ text := by
  induction text with
  | nil =>
      rw [contains, List.isEmpty_iff] at held
      rw [held] at member
      cases member
  | cons d rest ih =>
      rcases Bool.or_eq_true_iff.mp held with here | later
      · exact (List.isPrefixOf_iff_prefix.mp here).subset member
      · exact List.mem_cons_of_mem d (ih later)

/-- A string stands within an indented one as it is if and only if it has no line break. -/
theorem Text.hang_eq_self_iff {level : Nat} (indented : 0 < level) {text : String}
    : hang level text = text ↔ Statement.IsUnbroken text.toList := by
  rw [← hangChars_eq_self_iff indented, ← String.toList_inj, hang, String.toList_ofList]

namespace Ruby

theorem isEscaped_quotes_of_isBlank (c : Char) (blank : isBlank c = true)
    : Delimiters.quotes.isEscaped c = false := by
  have notBackslash : c ≠ '\\' := by
    rintro rfl
    exact absurd blank (by decide)
  have notQuote : c ≠ '\x27' := by
    rintro rfl
    exact absurd blank (by decide)
  simp [Delimiters.isEscaped, Delimiters.quotes, notBackslash, notQuote]

/-- A bare token is not broken. -/
theorem isUnbroken_of_isBare {text : String} (bare : isBare text = true)
    : Statement.IsUnbroken text.toList := by
  intro c member
  have token := isTokenChar_of_isBare bare c member
  cases breaks : isLineBreak c with
  | false => rfl
  | true => simp [isTokenChar, isBlank, breaks] at token

theorem defaultValue_ne_empty (text : Option String) : (defaultValue text).isEmpty = false := by
  cases text with
  | none => rfl
  | some text =>
      unfold defaultValue
      dsimp only
      split
      case isTrue bare =>
        cases empty : text.isEmpty with
        | false => rfl
        | true =>
            obtain rfl := String.isEmpty_iff.mp empty
            exact absurd bare (by decide)
      case isFalse => simp

/-- The literal of a default value stands within an indented text as that of another default value.
-/
theorem hangChars_defaultValue (level : Nat) (text : String)
    : hangChars level (defaultValue (some text)).toList
      = (defaultValue (some (hang level text))).toList := by
  have hung : (hang level text).toList = hangChars level text.toList := String.toList_ofList
  cases bare : isBare text with
  | true =>
      have unbroken := isUnbroken_of_isBare bare
      have same : hang level text = text := by
        rw [← String.toList_inj, hung, hangChars_of_isUnbroken unbroken]
      have literal : defaultValue (some text) = text := by
        simp [defaultValue, bare]
      rw [same, literal, hangChars_of_isUnbroken unbroken]
  | false =>
      -- a text that is broken is not bare within the indented one either
      have quoted : isBare (hang level text) = false := by
        cases other : isBare (hang level text) with
        | false => rfl
        | true =>
            have unbroken := isUnbroken_of_isBare other
            rw [hung] at unbroken
            have whole : hangChars level text.toList = text.toList :=
              hangChars_of_isUnbroken (isUnbroken_of_hangChars unbroken)
            rw [← String.ofList_toList (s := text), ← whole] at bare
            rw [hang, bare] at other
            cases other
      have literal {text : String} (quoted : isBare text = false)
          : (defaultValue (some text)).toList
            = ['\x27'] ++ (Delimiters.quotes.escape text.toList ++ ['\x27']) := by
        simp [defaultValue, quoted, escapeQuoted_eq]
      rw [literal bare, literal quoted, hangChars_append_left (by decide),
        hangChars_append_right (by decide), hangChars_escape isEscaped_quotes_of_isBlank, hung]

/-- The literal of a default value stands in front of a text that begins with the literal within an
indented text if and only if the default value has no line break.
-/
theorem isPrefix_defaultValue_iff {level : Nat} (indented : 0 < level) (text : String)
    (rest : List Char)
    : (defaultValue (some text)).toList
          <+: (defaultValue (some (hang level text))).toList ++ ',' :: rest
      ↔ Statement.IsUnbroken text.toList := by
  constructor
  · rintro ⟨more, same⟩
    cases bare : isBare text with
    | true => exact isUnbroken_of_isBare bare
    | false =>
        have read := readDefault_append (some (hang level text)) rest
        rw [← same, readDefault_of_quoted bare] at read
        exact (hang_eq_self_iff indented).mp
          (Option.some.inj (Prod.mk.inj (Option.some.inj read)).1).symm
  · intro unbroken
    rw [(hang_eq_self_iff indented).mpr unbroken]
    exact List.prefix_append _ _

end Ruby

-----------------------------------------------------------------------------------------
-- Arguments
-----------------------------------------------------------------------------------------

/-- The text of an argument in front of its default value. -/
def Plan.LeadsDefault (plan : Plan) (level : Nat) (argument : Field) (lead : String) : Prop :=
  ∃ name resolved type,
    argument.name.asText = .ok name
    ∧ Resolved.ofField plan.classified argument = .ok resolved
    ∧ Notation.argument plan.modules.schemaNamespace resolved = .ok type
    ∧ lead
      = indent level ("argument :" ++ Naming.snakeCase name ++ ", " ++ type ++ ",")
        ++ " default_value: "

/-- A default value that is given is written in any case. -/
theorem Contribution.defaultLiteral_of_string {argument : Field} {resolved : Resolved}
    {default : String} (given : argument.defaultValue = .string default)
    : defaultLiteral argument resolved = .ok (some (Ruby.defaultValue (some default))) := by
  unfold defaultLiteral
  rw [given]
  rfl

/-- The line of an argument with a default value has the literal of that value as it stands within
an indented text, with the description behind it.
-/
theorem Contribution.exists_of_argumentLine {plan : Plan} {level : Nat} {argument : Field}
    {resolved : Resolved} {text default : String}
    (resolves : Resolved.ofField plan.classified argument = .ok resolved)
    (made : argumentLine plan level argument resolved = .ok text)
    (given : argument.defaultValue = .string default)
    : ∃ lead content,
        plan.LeadsDefault level argument lead
        ∧ argument.description.asTextIfAny = .ok content
        ∧ text
          = lead ++ Ruby.defaultValue (some (hang level default))
            ++ (", description: " ++ Ruby.description content) := by
  obtain ⟨literal, defaulted, made⟩ := bind_eq_ok.mp made
  obtain ⟨name, named, made⟩ := bind_eq_ok.mp made
  obtain ⟨type, typed, made⟩ := bind_eq_ok.mp made
  obtain ⟨content, described, same⟩ := bind_eq_ok.mp made
  obtain rfl := Except.ok.inj same
  rw [defaultLiteral_of_string given] at defaulted
  obtain rfl := Except.ok.inj defaulted
  refine ⟨_, content, ⟨name, resolved, type, named, resolves, typed, rfl⟩, described, ?_⟩
  have line
      : ("argument :" ++ Naming.snakeCase name ++ ", " ++ type ++ ","
            ++ Page.around " default_value: " (Ruby.defaultValue (some default)) ","
            ++ " description: ").toList
        = ("argument :" ++ Naming.snakeCase name ++ ", " ++ type).toList ++ [',']
          ++ ((" default_value: ".toList ++ (Ruby.defaultValue (some default)).toList)
            ++ ", description: ".toList) := by
    rw [Page.around, if_neg (by simp [Ruby.defaultValue_ne_empty])]
    simp
  have lead
      : ("argument :" ++ Naming.snakeCase name ++ ", " ++ type ++ ",").toList
        = ("argument :" ++ Naming.snakeCase name ++ ", " ++ type).toList ++ [','] := by
    simp
  have indented :
      indent level ("argument :" ++ Naming.snakeCase name ++ ", " ++ type ++ ","
            ++ Page.around " default_value: " (Ruby.defaultValue (some default)) ","
            ++ " description: ")
        = indent level ("argument :" ++ Naming.snakeCase name ++ ", " ++ type ++ ",")
          ++ " default_value: " ++ Ruby.defaultValue (some (hang level default))
          ++ ", description: " := by
    rw [← String.toList_inj, indent, String.toList_ofList, line,
      indentChars_append_hangChars (by decide) (by decide) (by decide) (by decide),
      hangChars_append_left (by decide), Ruby.hangChars_defaultValue, ← lead]
    simp [indent]
  rw [Option.getD_some, indented, String.append_assoc]

/-- A text of a document gives a default value behind some text, as the literal of that value as it
stands within an indented text. From there the rendered document is read up to the end of that
literal. It begins there with the literal of the default value itself, and the default value is what
is read, if and only if the default value has no line break.
-/
def Document.GivesDefault (document : Document) (level : Nat) (text lead default : String) : Prop :=
  ∃ content front back,
    let literal := Ruby.defaultValue (some (hang level default))
    let rest := ", description: " ++ Ruby.description content
    text = lead ++ literal ++ rest
    ∧ StandsBetween front text back document.render
    ∧ Ruby.readDefault (literal ++ rest ++ back).toList
      = some (some (hang level default), (rest ++ back).toList)
    ∧ ((Ruby.defaultValue (some default)).toList <+: (literal ++ rest ++ back).toList
      ↔ Statement.IsUnbroken default.toList)
    ∧ (hang level default = default ↔ Statement.IsUnbroken default.toList)

/-- The text of an entry gives the default value, if the entry is an argument that has one. -/
def Plan.ShowsDefault (plan : Plan) (document : Document) (entry : SchemaEntry) (text : String)
    : Prop :=
  ∀ level argument default,
    entry = .argument level argument
    → argument.defaultValue = .string default
    → ∃ lead,
        plan.LeadsDefault level argument lead
        ∧ document.GivesDefault level text lead default

/-- Arguments are indented. -/
theorem Subject.level_pos {subject : Subject} {level : Nat} {argument : Field}
    (member : .argument level argument ∈ subject.schemaEntries) : 0 < level := by
  simp only [schemaEntries, Field.schemaEntries, List.mem_append, List.mem_flatMap, List.mem_cons,
    List.mem_map, List.not_mem_nil, SchemaEntry.argument.injEq, reduceCtorEq, or_false, false_or,
    and_false, exists_false] at member
  rcases member with ⟨field, -, _, -, rfl, -⟩ | ⟨_, -, rfl, -⟩
  · exact Nat.two_pos
  · exact Nat.one_pos

section
variable {plan : Plan} {document : Document} {entry : SchemaEntry} {text : String}

/-- What an entry writes gives its default value. -/
theorem Plan.Writes.showsDefault (writes : plan.Writes entry text)
    (member : text ∈ document.fragments .fields)
    (indented : ∀ level argument, entry = .argument level argument → 0 < level)
    : plan.ShowsDefault document entry text := by
  intro level argument default isArgument given
  have positive := indented level argument isArgument
  cases writes with
  | argument resolves made =>
      cases isArgument
      obtain ⟨lead, content, leads, -, rfl⟩ :=
        Contribution.exists_of_argumentLine resolves made given
      have filled
          : (lead ++ Ruby.defaultValue (some (hang level default))
              ++ (", description: " ++ Ruby.description content)).isEmpty
            = false := by
        simp
      obtain ⟨front, back, stands⟩ := document.exists_standsBetween member filled
      have spelled
          : (Ruby.defaultValue (some (hang level default))
              ++ (", description: " ++ Ruby.description content) ++ back).toList
            = (Ruby.defaultValue (some (hang level default))).toList
              ++ ',' :: (" description: " ++ Ruby.description content ++ back).toList := by
        simp
      refine ⟨lead, leads, content, front, back, rfl, stands, ?_, ?_, hang_eq_self_iff positive⟩
      · rw [spelled, Ruby.readDefault_append]
        simp
      · rw [spelled]
        exact Ruby.isPrefix_defaultValue_iff positive default _
  | field | ending | value => cases isArgument

end

namespace Job

variable {job : Job} {draft : Draft} {generation : Generation}

/-- Default values in a run that comes to files, without headers: the schema document of each type
is among the files and has a text for each field, argument, value and input field that is kept, in
order. The text of an argument or input field with a default value gives that value as it stands
within an indented text, and the value itself if and only if it has no line break.
-/
theorem defaults_of_build (plain : job.hooks.headers = []) (built : job.build.outcome = .ok generation)
    : ∃ draft,
        job.draft.outcome = .ok draft
        ∧ ∀ subject ∈ job.subjects draft.plan,
            ∃ document,
              draft.schemaDocument? subject.mapping.targetName = some document
              ∧ List.Forall₂ (draft.plan.ShowsDefault document) subject.schemaEntries
                (document.fragments .fields)
              ∧ ∃ file ∈ generation.files,
                  file.path
                      = job.settings.libDir ++ "/schema/"
                        ++ Naming.filePath subject.mapping.targetName ++ ".rb"
                    ∧ file.content = document.render := by
  obtain ⟨draft, files, drafted, -⟩ := build_eq_ok_iff.mp built
  refine ⟨draft, drafted, fun subject member => ?_⟩
  obtain ⟨document, found, writes, file, among, path, content⟩ :=
    exists_schemaDocument drafted built member
  refine ⟨document, found, ?_, file, among, path, by rw [content, Hooks.applyHeaders, plain]; rfl⟩
  refine List.forall₂_iff_zip.mpr ⟨writes.length_eq, fun among => ?_⟩
  obtain ⟨isEntry, isText⟩ := List.of_mem_zip among
  refine (List.forall₂_zip writes among).showsDefault isText ?_
  rintro level argument rfl
  exact subject.level_pos isEntry

/-- An argument has a block of lines for its default value, and so does an input field; the default
value of another argument stays in a line.
-/
def defaulting : Job :=
  let withDefault (field : Field) (text : String) : Field :=
    { field with defaultValue := .string text }
  let block : String := "\"\"\"\nit's\r\n \n\\ 1\"\"\""
  let range : TypeDef :=
    {
      plainType "Range" .inputObject [] with
      inputFields := some [withDefault (plainField "low" "ID" []) block]
    }
  smallJob "Query" "Query"
    [
      plainType "Query" .object
        [
          plainField "code" "ID"
            [
              withDefault (plainField "by" "Range" []) block,
              withDefault (plainField "mark" "ID" []) "\"it's \\\""
            ]
        ],
      range
    ]

theorem succeeds_defaulting : Succeeds defaulting.build.outcome := by
  decide +kernel

/-- The default values of the small schema are given as in every run. -/
theorem defaults_of_defaulting
    : defaulting.hooks.headers = []
      ∧ ∃ generation,
          defaulting.build.outcome = .ok generation
          ∧ ∃ draft,
              defaulting.draft.outcome = .ok draft
              ∧ ∀ subject ∈ defaulting.subjects draft.plan,
                  ∃ document,
                    draft.schemaDocument? subject.mapping.targetName = some document
                    ∧ List.Forall₂ (draft.plan.ShowsDefault document) subject.schemaEntries
                      (document.fragments .fields)
                    ∧ ∃ file ∈ generation.files,
                        file.path
                            = defaulting.settings.libDir ++ "/schema/"
                              ++ Naming.filePath subject.mapping.targetName ++ ".rb"
                          ∧ file.content = document.render := by
  obtain ⟨generation, built⟩ := succeeds_defaulting
  exact ⟨rfl, generation, built, defaults_of_build rfl built⟩

/-- An argument has a block of two lines for its default value. -/
def breaking : Job :=
  let block : String := "\"\"\"\r\n1\"\"\""
  smallJob "Query" "Query"
    [
      plainType "Query" .object
        [plainField "a" "ID" [{ plainField "b" "ID" [] with defaultValue := .string block }]]
    ]

theorem succeeds_breaking : Succeeds breaking.build.outcome := by
  decide +kernel

/-- The literal of a block of lines is not in the schema document of its type: no carriage return
is.
-/
theorem loses_break_of_default
    : ¬∀ (job : Job) (draft : Draft),
        job.templates = []
        → job.hooks.headers = []
        → Succeeds job.build.outcome
        → job.draft.outcome = .ok draft
        → ∀ subject ∈ job.subjects draft.plan,
            ∀ document,
              draft.schemaDocument? subject.mapping.targetName = some document
              → ∀ field ∈ subject.keptFields,
                  ∀ argument ∈ field.keptArguments,
                    ∀ default,
                      argument.defaultValue = .string default
                      → contains (" default_value: " ++ Ruby.defaultValue (some default)).toList
                          document.render.toList
                        = true := by
  intro claim
  obtain ⟨draft, drafted, subject, member, document, found, lost, field, kept, argument, listed,
      given⟩
      : ∃ draft,
          breaking.draft.outcome = .ok draft
          ∧ ∃ subject ∈ breaking.subjects draft.plan,
              ∃ document ∈ draft.schemaDocument? subject.mapping.targetName,
                (∀ entry ∈ document.placed, '\r' ∉ entry.2.toList)
                ∧ ∃ field ∈ subject.keptFields,
                    ∃ argument ∈ field.keptArguments,
                      argument.defaultValue = .string "\"\"\"\r\n1\"\"\"" := by
    decide +kernel
  have held := claim breaking draft rfl rfl succeeds_breaking drafted subject member document found
    field kept argument listed _ given
  have carriage : '\r' ∈ document.render.toList := mem_of_contains held (by decide)
  rcases mem_intercalate carriage with feed | ⟨text, among, inside⟩
  · exact absurd feed (by decide)
  · obtain ⟨place, -, fragment⟩ := List.mem_flatMap.mp (List.mem_of_mem_filter among)
    obtain ⟨entry, placed, same⟩ := List.mem_filterMap.mp fragment
    split at same
    · obtain rfl := Option.some.inj same
      exact lost entry placed inside
    · cases same

end Job

end RubySchema
