import RubySchema.Proofs.Generation.Layout
import RubySchema.Proofs.Literal

/-!
Every description stands in the schema document of its type as a literal, and reading the document
from there gives the description and ends with its literal. A type is described in the header, and
fields, arguments, values and input fields where they are declared; the literal is joined to text
that has been indented before, so it is not touched itself.
-/

namespace RubySchema

open Text

-----------------------------------------------------------------------------------------
-- Texts that end in a description
-----------------------------------------------------------------------------------------

def SchemaEntry.description? : SchemaEntry → Option Json
  | .field declared | .argument _ declared => some declared.description
  | .ending => none
  | .value listed => some listed.description

/-- The text of an entry in front of its description. -/
inductive Plan.Leads (plan : Plan) : SchemaEntry → String → Prop where
  | field {field : Field} {name : String} {resolved : Resolved}
      (named : field.name.asText = .ok name)
      (resolves : Resolved.ofField plan.classified field = .ok resolved)
    : plan.Leads (.field field)
        (indent 1
          ("field :" ++ Naming.snakeCase name ++ ", "
            ++ Notation.field plan.modules.schemaNamespace resolved ++ " do\n  description "))
  | argument {level : Nat} {argument : Field} {name type : String} {resolved : Resolved}
      {default : Option String} (named : argument.name.asText = .ok name)
      (resolves : Resolved.ofField plan.classified argument = .ok resolved)
      (typed : Notation.argument plan.modules.schemaNamespace resolved = .ok type)
      (defaulted : Contribution.defaultLiteral argument resolved = .ok default)
    : plan.Leads (.argument level argument)
        (indent level
          ("argument :" ++ Naming.snakeCase name ++ ", " ++ type ++ ","
            ++ Page.around " default_value: " (default.getD "") "," ++ " description: "))
  | value {value : EnumValue}
    : plan.Leads (.value value) (indent 1 ("value '" ++ value.name.display ++ "', "))

/-- A text of a document ends in a description, as a literal from which the rendered document is
read up to the end of that literal.
-/
def Document.Describes (document : Document) (text lead : String) (description : Json) : Prop :=
  ∃ content front back,
    description.asTextIfAny = .ok content
    ∧ text = lead ++ Ruby.description content
    ∧ StandsBetween front text back document.render
    ∧ Ruby.readDescription (Ruby.description content ++ back).toList = some (content, back.toList)

def Plan.Shows (plan : Plan) (document : Document) (entry : SchemaEntry) (text : String) : Prop :=
  match entry.description? with
  | none => text = indent 1 "end\n"
  | some description => ∃ lead, plan.Leads entry lead ∧ document.Describes text lead description

/-- What a schema document says of the descriptions of its type. -/
structure Plan.StatesDescriptions (plan : Plan) (subject : Subject) (document : Document)
    : Prop where
  /-- There is one header, which ends in the description of the type. -/
  header
    : ∃ text,
        document.fragments .header = [text]
        ∧ document.Describes text (Page.schemaHeaderText plan.modules subject.mapping "")
          subject.type.description
  /-- The texts in the section of fields end in the descriptions of the entries, in order. -/
  entries : List.Forall₂ (plan.Shows document) subject.schemaEntries (document.fragments .fields)

section
variable {plan : Plan} {subject : Subject} {document : Document} {place : Section}
  {entry : SchemaEntry} {lead text : String} {description : Json} {content : Option String}

theorem Ruby.description_ne_empty (content : Option String)
    : (Ruby.description content).isEmpty = false := by
  cases content with
  | none => rfl
  | some text => simp [Ruby.description]

/-- A text that ends in a literal is one of the document that ends in what it describes. -/
theorem Document.describes_of_mem (described : description.asTextIfAny = .ok content)
    (member : lead ++ Ruby.description content ∈ document.fragments place)
    : document.Describes (lead ++ Ruby.description content) lead description := by
  have filled : (lead ++ Ruby.description content).isEmpty = false := by
    have literal := Ruby.description_ne_empty content
    simp only [String.isEmpty_eq_false_iff] at literal ⊢
    simp [literal]
  obtain ⟨front, back, stands⟩ := document.exists_standsBetween member filled
  refine ⟨content, front, back, described, rfl, stands, ?_⟩
  rw [String.toList_append, Ruby.readDescription_append]

/-- What an entry writes ends in its description. -/
theorem Plan.Writes.shows (writes : plan.Writes entry text)
    (member : text ∈ document.fragments .fields) : plan.Shows document entry text := by
  cases writes with
  | field resolves made =>
      obtain ⟨name, named, made⟩ := bind_eq_ok.mp made
      obtain ⟨content, described, same⟩ := bind_eq_ok.mp made
      obtain rfl := Except.ok.inj same
      exact ⟨_, .field named resolves, document.describes_of_mem described member⟩
  | argument resolves made =>
      obtain ⟨default, defaulted, made⟩ := bind_eq_ok.mp made
      obtain ⟨name, named, made⟩ := bind_eq_ok.mp made
      obtain ⟨type, typed, made⟩ := bind_eq_ok.mp made
      obtain ⟨content, described, same⟩ := bind_eq_ok.mp made
      obtain rfl := Except.ok.inj same
      exact ⟨_, .argument named resolves typed defaulted,
        document.describes_of_mem described member⟩
  | ending => rfl
  | value described => exact ⟨_, .value, document.describes_of_mem described member⟩

end

/-- The opening of a schema document ends in the description. -/
theorem Page.schemaHeaderText_eq (modules : Modules) (mapping : NameMapping) (description : String)
    : schemaHeaderText modules mapping description
      = schemaHeaderText modules mapping "" ++ description := by
  simp [schemaHeaderText, String.append_assoc]

namespace Job

variable {job : Job} {draft : Draft} {generation : Generation}

/-- A schema document says of the descriptions of its type what its steps have placed. -/
theorem Stages.statesDescriptions (stages : job.Stages draft) (standard : job.templates = [])
    {subject : Subject} (member : subject ∈ job.subjects draft.plan) (graph : DependencyGraph)
    : draft.plan.StatesDescriptions subject (subject.documents draft.plan graph).schema := by
  have whole := Progress.isWhole_of_performSubjects (congrArg Prod.snd stages.performed) _ member
  have writes
      : List.Forall₂ draft.plan.Writes subject.schemaEntries
          ((subject.documents draft.plan graph).schema.fragments .fields) :=
    whole.writes
  refine ⟨?_, List.forall₂_iff_zip.mpr ⟨writes.length_eq, fun among =>
    (List.forall₂_zip writes among).shows (List.of_mem_zip among).2⟩⟩
  obtain ⟨content, described, opened⟩ := stages.exists_standardHeader standard member graph
  rw [Page.schemaHeaderText_eq] at opened
  have among := opened.symm ▸ List.mem_singleton_self _
  exact ⟨_, opened, Document.describes_of_mem described among⟩

/-- Descriptions in a run that comes to files, with neither templates of one's own nor headers: the
schema document of each type is among the files. It has one header, which ends in the description of
the type, and a text for each field, argument, value and input field that is kept, in order, which
ends in the description of that. The literal of a description is `nil` when there is none, and it is
read back from the document, up to the last character of the literal.
-/
theorem descriptions_of_build (standard : job.templates = []) (plain : job.hooks.headers = [])
    (built : job.build.outcome = .ok generation)
    : ∃ draft,
        job.draft.outcome = .ok draft
        ∧ ∀ subject ∈ job.subjects draft.plan,
            ∃ document,
              draft.schemaDocument? subject.mapping.targetName = some document
              ∧ draft.plan.StatesDescriptions subject document
              ∧ ∃ file ∈ generation.files,
                  file.path
                      = job.settings.libDir ++ "/schema/"
                        ++ Naming.filePath subject.mapping.targetName ++ ".rb"
                    ∧ file.content = document.render := by
  obtain ⟨draft, files, drafted, -⟩ := build_eq_ok_iff.mp built
  have stages := draft_eq_ok_iff.mp drafted
  refine ⟨draft, drafted, fun subject member => ?_⟩
  obtain ⟨earlier, later, split⟩ := List.append_of_mem member
  obtain ⟨file, among, path, content⟩ := exists_file_of_subject drafted built split
  refine ⟨_, stages.schemaDocument?_eq stages.nodup_targets split,
    stages.statesDescriptions standard member _, file, among, path, ?_⟩
  rw [content, Hooks.applyHeaders, plain]
  rfl

/-- A query, an argument, a value and an input field are described by texts with braces,
backslashes, quotes and line breaks, and another type is not described.
-/
def annotated : Job :=
  let described (field : Field) (text : String) : Field :=
    { field with description := .string text }
  let query : TypeDef :=
    {
      plainType "Query" .object
        [described (plainField "code" "Mode" [described (plainField "by" "Range" []) "\x7d\\"])
          "A \x7bcode\x7d.\nputs 'x'"] with
      description := .string "\\\x7b\r\n\\\\\x7d"
    }
  let mode : TypeDef :=
    {
      plainType "Mode" .enum [] with
      enumValues := [⟨.string "FAST", .string "\x7b\x7b\x7d", false⟩]
    }
  let range : TypeDef :=
    {
      plainType "Range" .inputObject [] with
      inputFields := some [described (plainField "low" "ID" []) "%q\x7bx\x7d"]
    }
  smallJob "Query" "Query" [query, mode, range]

theorem succeeds_annotated : Succeeds annotated.build.outcome := by
  decide +kernel

/-- The texts of the annotated schema are stated and read back as in every run. -/
theorem descriptions_of_annotated
    : annotated.templates = []
      ∧ annotated.hooks.headers = []
      ∧ ∃ generation,
          annotated.build.outcome = .ok generation
          ∧ ∃ draft,
              annotated.draft.outcome = .ok draft
              ∧ ∀ subject ∈ annotated.subjects draft.plan,
                  ∃ document,
                    draft.schemaDocument? subject.mapping.targetName = some document
                    ∧ draft.plan.StatesDescriptions subject document
                    ∧ ∃ file ∈ generation.files,
                        file.path
                            = annotated.settings.libDir ++ "/schema/"
                              ++ Naming.filePath subject.mapping.targetName ++ ".rb"
                          ∧ file.content = document.render := by
  obtain ⟨generation, built⟩ := succeeds_annotated
  exact ⟨rfl, rfl, generation, built, descriptions_of_build rfl rfl built⟩

end Job

end RubySchema
