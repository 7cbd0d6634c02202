import Mathlib.Algebra.Ring.Nat
import RubySchema.Proofs.Generation.Listing
import RubySchema.Proofs.Generation.References

/-!
The schema document, the stub and the spec of each type tell the same fields with the same arguments
in one order, the count is that of the fields declared, and the list of fields holds them line by
line. What a type has in common is written down in several places, each with rules of its own for
what is left out.
-/

namespace RubySchema

open Text

namespace Statement

def isField : Statement → Bool
  | .field _ => true
  | _ => false

def countFields (text : String) : Nat :=
  (ofText text.toList).countP isField

/-- Each signature declares one field. -/
theorem countP_declared (signatures : List Signature)
    : (signatures.flatMap fun signature => signature.stated .schema).countP isField
      = signatures.length := by
  induction signatures with
  | nil => rfl
  | cons signature rest ih =>
      have none
          : (signature.arguments.map fun name => argument (Naming.snakeCase name)).countP isField
            = 0 := by
        simp [List.countP_map, Function.comp_def, isField]
      rw [List.flatMap_cons, List.countP_append, ih, List.length_cons, Nat.add_comm]
      congr 1
      show (field _ :: signature.arguments.map fun name => _).countP isField = 1
      rw [List.countP_cons, none]
      rfl

end Statement

/-- A schema with usual names, whose descriptions and default values stay in their lines. -/
structure Schema.IsPlain (schema : Schema) : Prop where
  names : ∀ type ∈ schema.types, type.name.IsName
  descriptions : ∀ type ∈ schema.types, type.description.IsUnbroken
  fields
    : ∀ type ∈ schema.types,
        ∀ field ∈ type.fields.getD [],
          field.IsPlain ∧ ∀ argument ∈ field.arguments, argument.IsPlain
  inputs : ∀ type ∈ schema.types, ∀ input ∈ type.inputFields.getD [], input.IsPlain
  values
    : ∀ type ∈ schema.types,
        ∀ value ∈ type.enumValues, value.name.IsName ∧ value.description.IsUnbroken

/-- The documents of a type agree: each of them states the signatures of the type's fields. -/
structure Subject.AgreesWith (settings : Settings) (subject : Subject) (artifacts : Artifacts)
    : Prop where
  filed : artifacts.IsFiled subject.mapping.targetName
  body
    : ∀ kind, ∀ document ∈ artifacts.document? kind,
        Statement.ofText document.body.toList
          = subject.signatures.flatMap fun signature => signature.stated kind
  whole
    : settings.StaysInLines →
        ∀ kind, ∀ document ∈ artifacts.document? kind,
          Statement.ofText document.render.toList
            = subject.signatures.flatMap fun signature => signature.stated kind

namespace Job

-----------------------------------------------------------------------------------------
-- Places that may be written in a line
-----------------------------------------------------------------------------------------

section
variable {job : Job} {draft : Draft} {start : Registry} {entry : String × TypeDef}

theorem continues_place (graphQL : TypeName.IsGraphQL entry.1)
    : Continues (start.place entry).targetName := by
  have word (category : Category) : Continues category.word := by
    cases category <;> decide
  exact ((word _).append (by decide)).append (graphQL.categorize entry.2.kind).continues

theorem continues_builtin {builtins : List String} {name : String}
    (accepted : job.settings.IsAccepted) (known : job.reference.builtinNames = .ok builtins)
    (member : name ∈ builtins) : Continues (job.settings.builtinNamespace ++ "::" ++ name) := by
  rw [String.append_assoc]
  apply Continues.constant accepted.isConstantPath.2
  exact .of_unbroken fun c within =>
    isLineBreak_of_isWord (Reference.isWord_of_builtinNames known name member c within)

/-- The base of a type stays in its line when those that the settings give do. -/
theorem continues_baseType {settings : Settings} (stays : settings.StaysInLines)
    (overrides : start.baseOverrides = settings.baseTypeOverrides) (type : TypeDef)
    (category : Category) (target : String)
    : Continues (start.baseType type category target) := by
  unfold Registry.baseType
  rw [overrides]
  split
  case h_1 base given => exact .of_unbroken (stays.bases _ (Table.mem_of_get? given))
  case h_2 =>
    split
    · decide
    split
    case h_1 base found =>
      unfold BaseType.ofKind? at found
      split at found <;> cases found <;> decide
    case h_2 =>
      split <;> decide

section
variable (stages : job.Stages draft) (accepted : job.settings.IsAccepted)
variable (plain : job.schema.IsPlain)
include stages plain

/-- A kept type has a usual name. -/
theorem Stages.isGraphQL_of_mem_kept (keeps : entry ∈ start.kept draft.plan.schema.types)
    : TypeName.IsGraphQL entry.1 := by
  obtain ⟨among, named, -⟩ := Registry.mem_kept.mp keeps
  have usual := plain.names _ ((Hooks.isCutFrom stages.filtered).mem among)
  rwa [named] at usual

/-- Every generated name of a run may be written in a line. -/
theorem Stages.hasPaths (accepted : job.settings.IsAccepted) : draft.plan.HasPaths := by
  obtain ⟨builtins, known, placed⟩ := stages.exists_placed
  refine ⟨stages.settings ▸ accepted.isConstantPath.1, fun {name mapping} found => ?_⟩
  rw [placed.classified_eq] at found
  rcases Registry.get?_withPlaces_cases found with builtin | ⟨type, keeps, rfl⟩
  · obtain ⟨member, rfl⟩ := get?_startRegistry_eq_some.mp builtin
    exact continues_builtin accepted known member
  · exact continues_place (stages.isGraphQL_of_mem_kept plain keeps)

/-- Every generated name that is looked up may be written in a line, and so may its base. -/
theorem Stages.continues_of_byTarget? (accepted : job.settings.IsAccepted)
    (stays : job.settings.StaysInLines) {target : String} {mapping : NameMapping}
    (found : draft.plan.classified.byTarget? target = some mapping)
    : Continues target ∧ Continues (mapping.baseType.getD "None") := by
  obtain ⟨builtins, known, placed⟩ := stages.exists_placed
  obtain ⟨rfl, ⟨entry, keeps, rfl⟩ | ⟨entry, member, rfl⟩⟩ := placed.cases_of_byTarget? found
  · exact ⟨continues_place (stages.isGraphQL_of_mem_kept plain keeps),
      continues_baseType stays (startRegistry_start job.settings builtins).2 _ _ _⟩
  · obtain ⟨among, same⟩ := mem_startRegistry member
    rw [same]
    exact ⟨continues_builtin accepted known among, (by decide : Continues "None")⟩

/-- The types of a run on a plain schema are plain. -/
theorem Stages.isPlain {subject : Subject} (member : subject ∈ job.subjects draft.plan)
    : subject.IsPlain draft.plan.settings := by
  obtain ⟨builtins, -, placed⟩ := stages.exists_placed
  obtain ⟨entry, keeps, typeSame, mappingSame⟩ := placed.exists_of_mem member
  obtain ⟨among, -, -⟩ := Registry.mem_kept.mp keeps
  have type := (Hooks.isCutFrom stages.filtered).mem (typeSame ▸ among)
  have usual := stages.isGraphQL_of_mem_kept plain keeps
  refine ⟨?_, ?_, fun stays => ?_, plain.descriptions _ type, plain.fields _ type,
    plain.inputs _ type, plain.values _ type⟩
  · rw [mappingSame]
    exact usual
  · rw [mappingSame]
    exact continues_place usual
  · rw [mappingSame]
    exact continues_baseType (stages.settings ▸ stays)
      (startRegistry_start job.settings builtins).2 _ _ _

end

end

-----------------------------------------------------------------------------------------
-- Documents, the count and the list
-----------------------------------------------------------------------------------------

/-- The fields that schema documents declare are as many as the signatures that they state, by
induction on the types.
-/
theorem sum_countFields {view : Document → String} {subjects : List Subject}
    {documents : List Artifacts}
    (states
      : List.Forall₂
          (fun subject artifacts =>
            Statement.ofText (view artifacts.schema).toList
              = subject.signatures.flatMap fun signature => signature.stated .schema)
          subjects documents)
    : (documents.map fun artifacts => Statement.countFields (view artifacts.schema)).sum
      = (subjects.flatMap Subject.signatures).length := by
  induction states with
  | nil => rfl
  | cons here _ ih =>
      rw [List.map_cons, List.sum_cons, ih, List.flatMap_cons, List.length_append,
        Statement.countFields, here, Statement.countP_declared]

/-- What a run writes down of the fields of its types is the same in all places. The documents of
each type agree and are among the files; the total is the number of fields that schema documents
declare; and when no type has two fields of one name, the list of fields has those of all types in
order, a line for each.
-/
structure IsCoherent (job : Job) (draft : Draft) (generation : Generation) : Prop where
  documents
    : List.Forall₂ (Subject.AgreesWith job.settings) (job.subjects draft.plan)
        draft.assembly.artifacts.values
  files
    : ∀ artifacts ∈ draft.assembly.artifacts.values,
        ∀ file ∈ artifactFiles job.settings artifacts,
          { file with content := job.hooks.applyHeaders file.path file.content }
            ∈ generation.files
  total
    : generation.total
      = (draft.assembly.artifacts.values.map fun artifacts =>
          Statement.countFields artifacts.schema.body).sum
  wholeTotal
    : job.settings.StaysInLines →
        generation.total
          = (draft.assembly.artifacts.values.map fun artifacts =>
              Statement.countFields artifacts.schema.render).sum
  list
    : (∀ subject ∈ job.subjects draft.plan, (subject.signatures.map Signature.name).Nodup) →
        generation.fieldList = (job.subjects draft.plan).flatMap Subject.entries
          ∧ ∃ file ∈ generation.files,
              file.path = job.settings.libDir ++ "/field_list.md"
              ∧ ∃ text,
                  file.content = job.hooks.applyHeaders file.path text
                  ∧ lines text.toList
                    = generation.fieldList.map fun entry =>
                        ("1. [ ] " ++ entry.1 ++ entry.2.getD "").toList

section
variable {job : Job} {draft : Draft} {generation : Generation}
variable (stages : job.Stages draft) (standard : job.templates = [])
variable (accepted : job.settings.IsAccepted) (plain : job.schema.IsPlain)
include stages standard accepted plain

/-- The documents of each type agree. -/
theorem Stages.agree
    : List.Forall₂ (Subject.AgreesWith job.settings) (job.subjects draft.plan)
        draft.assembly.artifacts.values := by
  have none : draft.plan.templates = [] := stages.templates.trans standard
  have paths := stages.hasPaths plain accepted
  have whole := Progress.isWhole_of_performSubjects (congrArg Prod.snd stages.performed)
  rw [(stages.artifacts_eq stages.nodup_targets).1]
  have sideBySide := (List.forall₂_and_left _ _).mpr
    ⟨fun _ member => member,
      draft.plan.forall₂_documents DependencyGraph.empty (job.subjects draft.plan)⟩
  apply sideBySide.imp
  rintro subject artifacts ⟨member, graph, rfl⟩
  have usual := stages.isPlain plain member
  have states (kind : DocumentKind) (document : Document)
      (found : document ∈ (subject.documents draft.plan graph).document? kind) :=
    subject.ofText_body none paths usual (whole subject member) found
  refine ⟨Subject.isFiled_documents, states, fun stays kind document found => ?_⟩
  have opening := subject.ofText_opening none paths usual (stages.settings ▸ stays)
    (fun _ _ found => stages.continues_of_byTarget? plain accepted stays found) found
  rw [Document.ofText_render, opening, states kind document found, List.nil_append]

/-- Every type lists its fields. -/
theorem Stages.lists
    : ∀ subject ∈ job.subjects draft.plan, draft.plan.listedBy subject = subject.entries := by
  have whole := Progress.isWhole_of_performSubjects (congrArg Prod.snd stages.performed)
  intro subject member
  exact Plan.listedBy_eq (stages.templates.trans standard) (stages.hasPaths plain accepted)
    (stages.isPlain plain member) (whole subject member)

/-- The total is the number of signatures. -/
theorem Stages.total_eq
    : draft.progress.total = ((job.subjects draft.plan).flatMap Subject.signatures).length := by
  have ran := Progress.ran_of_performSubjects stages.nodup_targets stages.performed
  rw [ran.total, Plan.length_entries (stages.lists standard accepted plain)]
  exact Nat.zero_add _

/-- The list of fields has those of all types in order when no type has two of one name. -/
theorem Stages.fieldList_eq
    (distinct
      : ∀ subject ∈ job.subjects draft.plan, (subject.signatures.map Signature.name).Nodup)
    : draft.progress.fieldList = (job.subjects draft.plan).flatMap Subject.entries := by
  have ran := Progress.ran_of_performSubjects stages.nodup_targets stages.performed
  rw [ran.fieldList]
  apply Plan.fieldList_eq (stages.lists standard accepted plain) _ _ distinct
  · obtain ⟨builtins, -, placed⟩ := stages.exists_placed
    rw [map_subjects job draft.plan fun _ mapping => mapping.schemaName, placed.subjects_eq,
      List.map_map]
    exact placed.unique
  · intro subject member
    exact (stages.isPlain plain member).name.not_mem (by decide)

end

/-- Schema documents, stubs and specs agree, and so do the count and the list of fields. When a run
without templates of one's own comes to files, under settings that were accepted and on a schema
with usual names whose descriptions and default values stay in their lines, then each document of a
type states the signatures of the fields that are kept, in the order of the schema: a schema
document declares every field with its arguments, a stub defines a method with as many keywords
behind the same parameters, and a spec has examples behind the same parameters. The total is the
number of fields declared, and the list of fields has a line for each.
-/
theorem isCoherent_of_build {job : Job} {generation : Generation} (standard : job.templates = [])
    (accepted : job.settings.IsAccepted) (plain : job.schema.IsPlain)
    (built : job.build.outcome = .ok generation)
    : ∃ draft, job.draft.outcome = .ok draft ∧ job.IsCoherent draft generation := by
  obtain ⟨draft, files, drafted, made, rfl⟩ := build_eq_ok_iff.mp built
  have stages := draft_eq_ok_iff.mp drafted
  have agree := stages.agree standard accepted plain
  have total := stages.total_eq standard accepted plain
  unfold Job.files at made
  obtain ⟨fileList, -, made⟩ := bind_eq_ok.mp made
  obtain ⟨fieldList, listed, made⟩ := bind_eq_ok.mp made
  obtain rfl := Except.ok.inj made
  rw [Contribution.render_eq_standardText (stages.templates.trans standard)] at listed
  obtain rfl := Except.ok.inj listed
  refine ⟨draft, drafted, agree, ?_, ?_, fun stays => ?_, fun distinct => ?_⟩
  · intro artifacts member file among
    rw [stages.settings]
    refine List.mem_map.mpr ⟨file, List.mem_append_left _ (List.mem_append_left _ ?_), rfl⟩
    exact List.mem_flatMap.mpr ⟨artifacts, member, among⟩
  · rw [sum_countFields (agree.imp fun _ _ agrees => agrees.body .schema _ rfl)]
    exact total
  · rw [sum_countFields (agree.imp fun _ _ agrees => agrees.whole stays .schema _ rfl)]
    exact total
  · have list := stages.fieldList_eq standard accepted plain distinct
    refine ⟨list, _, List.mem_map.mpr ⟨_, List.mem_append_right _
      (List.mem_cons_of_mem _ List.mem_cons_self), rfl⟩, ?_, _, rfl, ?_⟩
    · rw [stages.settings]
    · apply Page.lines_fieldListText
      rw [list]
      intro entry member
      obtain ⟨subject, generated, among⟩ := List.mem_flatMap.mp member
      exact (stages.isPlain plain generated).isUnbroken_entries entry among

/-- A gallery of paintings, which are nodes. Copies of a painting are a connection. -/
def gallery : Job :=
  let copies : Field :=
    {
      plainField "copies" "PaintingConnection"
        [
          plainField "first" "ID" [],
          { plainField "like" "ID" [] with defaultValue := .string "oil" },
          { plainField "since" "ID" [] with isDeprecated := true },
          plainField "madeBy" "ID" []
        ] with
      description := .string "Copies of it."
    }
  let painting : TypeDef :=
    {
      plainType "Painting" .object
        [
          plainField "id" "ID" [],
          copies,
          { plainField "oldTitle" "ID" [] with isDeprecated := true },
          plainField "hangsIn" "Room" []
        ] with
      interfaces := [⟨.string "Node", .string "INTERFACE", false⟩]
    }
  let room : TypeDef :=
    {
      plainType "Room" .enum [] with
      enumValues := [⟨.string "HALL", .null, false⟩]
    }
  let input : TypeDef :=
    {
      plainType "HangInput" .inputObject [] with
      fields := none
      inputFields := some [plainField "painting" "ID" []]
    }
  smallJob "Query" "Mutation"
    [
      plainType "Query" .object [plainField "painting" "Painting" [plainField "id" "ID" []]],
      plainType "Mutation" .object
        [plainField "hang" "HangPayload" [plainField "input" "HangInput" []]],
      plainType "HangPayload" .object [plainField "painting" "Painting" []],
      painting, room, input
    ]

def galleryFields : List String :=
  [
    "Query.painting", "Mutation.hang", "HangPayload.painting", "Painting.copies", "Painting.hangsIn"
  ]

/-- The fields of the types of the gallery: the room is an enumeration, and the last type an input
object.
-/
def gallerySignatures : List (List Signature) :=
  [
    [⟨"painting", ["id"]⟩],
    [⟨"hang", ["input"]⟩],
    [⟨"painting", []⟩],
    [⟨"copies", ["like", "madeBy"]⟩, ⟨"hangsIn", []⟩],
    [],
    []
  ]

/-- The run on the gallery is coherent. Its five fields are told: a painting leaves its id to its
base and its old title aside, and its copies have the arguments that not every connection has.
-/
theorem isCoherent_gallery
    : gallery.templates = [] ∧ gallery.settings.IsAccepted ∧ gallery.schema.IsPlain
      ∧ ∃ generation,
          gallery.build.outcome = .ok generation
          ∧ generation.total = 5
          ∧ generation.fieldList.names = galleryFields
          ∧ ∃ draft,
              gallery.draft.outcome = .ok draft
              ∧ gallery.IsCoherent draft generation
              ∧ (gallery.subjects draft.plan).map Subject.signatures = gallerySignatures
              ∧ ∃ painting ∈ draft.assembly.artifacts.values,
                  Statement.ofText painting.schema.body.toList
                    = [.field "copies", .argument "like", .argument "made_by", .field "hangs_in"]
                  ∧ (∃ stub ∈ painting.implementation,
                      Statement.ofText stub.body.toList
                        = [
                          .parameter "like",
                          .parameter "made_by",
                          .method "copies" ["like", "made_by"],
                          .method "hangs_in" []
                        ])
                  ∧ ∃ spec ∈ painting.spec,
                      Statement.ofText spec.body.toList
                        = [
                          .parameter "like",
                          .parameter "made_by",
                          .examples "copies",
                          .examples "hangsIn"
                        ] := by
  have accepted : gallery.settings.IsAccepted := by
    refine ⟨[], ?_⟩
    decide +kernel
  have plain : gallery.schema.IsPlain := by
    constructor <;> decide +kernel
  obtain ⟨generation, built, total, names⟩
      : ∃ generation,
          gallery.build.outcome = .ok generation
          ∧ generation.total = 5
          ∧ generation.fieldList.names = galleryFields := by
    decide +kernel
  obtain ⟨draft, drafted, coherent⟩ := isCoherent_of_build rfl accepted plain built
  obtain ⟨other, same, signatures, ⟨subject, painting⟩, member, told, hasStub, hasSpec⟩
      : ∃ draft,
          gallery.draft.outcome = .ok draft
          ∧ (gallery.subjects draft.plan).map Subject.signatures = gallerySignatures
          ∧ ∃ entry ∈ (gallery.subjects draft.plan).zip draft.assembly.artifacts.values,
              entry.1.signatures = [⟨"copies", ["like", "madeBy"]⟩, ⟨"hangsIn", []⟩]
              ∧ entry.2.implementation.isSome ∧ entry.2.spec.isSome := by
    decide +kernel
  obtain rfl := Except.ok.inj (drafted.symm.trans same)
  obtain ⟨stub, stubFound⟩ := Option.isSome_iff_exists.mp hasStub
  obtain ⟨spec, specFound⟩ := Option.isSome_iff_exists.mp hasSpec
  have agrees := (List.forall₂_zip coherent.documents member).body
  rw [told] at agrees
  refine ⟨rfl, accepted, plain, generation, built, total, names, draft, drafted, coherent,
    signatures, painting, (List.of_mem_zip member).2, ?_, ⟨stub, stubFound, ?_⟩, spec, specFound,
    ?_⟩
  · exact (agrees .schema _ rfl).trans (by decide +kernel)
  · exact (agrees .implementation stub stubFound).trans (by decide +kernel)
  · exact (agrees .spec spec specFound).trans (by decide +kernel)

end Job

end RubySchema
