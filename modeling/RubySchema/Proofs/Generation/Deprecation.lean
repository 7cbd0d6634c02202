import RubySchema.Proofs.Generation.Current
import RubySchema.Proofs.Generation.Reordering

/-!
A run comes to files exactly when the run without deprecated members does and the examples of its
fields can be shown; the files are then the same but for those examples and the list of fields.
-/

namespace RubySchema

-----------------------------------------------------------------------------------------
-- Places
-----------------------------------------------------------------------------------------

namespace Registry

/-- Types get their places without their deprecated members. -/
theorem classifyAll_current (registry : Registry) (types : List TypeDef)
    : registry.classifyAll (types.map TypeDef.current) = registry.classifyAll types := by
  unfold classifyAll
  rw [List.foldlM_map]
  rfl

/-- The mappings that types meet are the same, by induction on the types. -/
theorem mappingsMet_current (registry : Registry) (types : List TypeDef)
    : registry.mappingsMet (types.map TypeDef.current) = registry.mappingsMet types := by
  induction types generalizing registry with
  | nil => rfl
  | cons type rest ih =>
      have here : registry.classifyKept type.current = registry.classifyKept type := rfl
      rw [List.map_cons, mappingsMet, mappingsMet, here]
      split
      · rw [ih]
      · rfl

end Registry

/-- The types that are generated are the same without their deprecated members. -/
theorem Classified.subjects_current (classified : Classified) (types : List TypeDef)
    : classified.subjects (types.map TypeDef.current)
      = (classified.subjects types).map Subject.current := by
  have each (type : TypeDef)
      : classified.subject? type.current = (classified.subject? type).map Subject.current := by
    have named : type.current.name = type.name := rfl
    unfold subject?
    rw [named]
    cases type.name with
    | string name =>
        dsimp only
        cases classified.get? name with
        | none => rfl
        | some mapping =>
            dsimp only
            split <;> rfl
    | _ => rfl
  unfold subjects
  rw [List.filterMap_map, List.map_filterMap]
  congr 1
  funext type
  exact each type

/-- Documents of fixed text leave the others the same but for examples. -/
theorem Assembly.SameButForExamples.withFixed {first second : Assembly}
    (same : first.SameButForExamples second) (texts : List (String × String))
    : (Job.withFixed first texts).SameButForExamples (Job.withFixed second texts) := by
  refine ⟨?_, ?_⟩
  · rw [Job.artifacts_withFixed, Job.artifacts_withFixed]
    exact same.artifacts
  · rw [Job.fixed_withFixed, Job.fixed_withFixed, same.fixed]

/-- Files at one place. Their contents are the same unless they are the list of fields, or a spec,
which then has the same fragments but for what its examples show.
-/
structure GeneratedFile.SameButForExamples (settings : Settings) (first second : GeneratedFile)
    : Prop where
  path : first.path = second.path
  isEditable : first.isEditable = second.isEditable
  content
    : first.content = second.content
      ∨ (∃ name, first.path = settings.specDir ++ "/" ++ name ++ "_spec.rb")
        ∧ (∃ document other : Document,
            document.SameButForExamples .spec other
            ∧ first.content = document.render
            ∧ second.content = other.render)
      ∨ first.path = settings.libDir ++ "/field_list.md"

/-- Documents other than specs are the same text. -/
theorem Document.SameButForExamples.render_eq {kind : DocumentKind} {first second : Document}
    (same : first.SameButForExamples kind second) (noSpec : kind ≠ .spec)
    : first.render = second.render := by
  have fragments : first.fragments = second.fragments := by
    funext place
    exact same.fragments place fun spec => noSpec spec.1
  unfold render
  rw [fragments]

/-- The files of a type are the same but for its spec. -/
theorem Artifacts.SameButForExamples.files {first second : Artifacts}
    (same : first.SameButForExamples second) (settings : Settings)
    : List.Forall₂ (GeneratedFile.SameButForExamples settings) (Job.artifactFiles settings first)
        (Job.artifactFiles settings second) := by
  have schema := same.documents .schema
  have implementation := same.documents .implementation
  have spec := same.documents .spec
  unfold Job.artifactFiles
  dsimp only
  rw [← same.targetName]
  refine .cons ?_ (List.rel_append ?_ ?_)
  · cases schema with
    | some here => exact ⟨rfl, rfl, .inl (here.render_eq (by decide))⟩
  · simp only [document?] at implementation
    generalize first.implementation = stub, second.implementation = otherStub at implementation ⊢
    cases implementation with
    | none => exact .nil
    | some here => exact .cons ⟨rfl, rfl, .inl (here.render_eq (by decide))⟩ .nil
  · simp only [document?] at spec
    generalize first.spec = document, second.spec = otherDocument at spec ⊢
    cases spec with
    | none => exact .nil
    | some here =>
        exact .cons ⟨rfl, rfl, .inr (.inl ⟨⟨_, rfl⟩, _, _, here, rfl, rfl⟩)⟩ .nil

/-- A plan for the types of another schema that have the same places. -/
def Plan.onSchema (plan : Plan) (schema : Schema) : Plan :=
  { plan with schema }

namespace Job

def current (job : Job) : Job :=
  { job with schema := job.schema.current }

theorem classify_current (reference : Reference) (settings : Settings) (schema : Schema)
    : classify reference settings schema.current = classify reference settings schema := by
  have types : schema.current.types = schema.types.map TypeDef.current := rfl
  unfold classify
  rw [types]
  simp only [Registry.classifyAll_current, Registry.mappingsMet_current]

-----------------------------------------------------------------------------------------
-- Documents
-----------------------------------------------------------------------------------------

/-- Drafts that are the same but for the examples in specs and the arguments of listed fields. -/
structure Draft.SameButForExamples (first second : Draft) : Prop where
  assembly : first.assembly.SameButForExamples second.assembly
  unsupported : first.unsupported = second.unsupported
  graph : first.progress.graph = second.progress.graph
  total : first.progress.total = second.progress.total
  fields : first.progress.fieldList.names = second.progress.fieldList.names

/-- Two runs without templates of one's own and without hooks, on schemas that have the same roots
and directives and whose types get the same places.
-/
structure Alongside (first second : Job) : Prop where
  query : second.schema.queryType = first.schema.queryType
  mutation : second.schema.mutationType = first.schema.mutationType
  subscription : second.schema.subscriptionType = first.schema.subscriptionType
  directives : second.schema.directives = first.schema.directives
  places
    : classify second.reference second.settings second.schema
      = classify first.reference first.settings first.schema
  reference : second.reference = first.reference
  settings : second.settings = first.settings
  noTemplates : first.templates = [] ∧ second.templates = []
  noHooks : first.hooks = Hooks.none ∧ second.hooks = Hooks.none

/-- A run comes to the same documents but for examples where another comes to documents, if each of
its types is followed.
-/
theorem Alongside.exists_draft {first second : Job} {draft : Draft}
    (alongside : first.Alongside second) (stages : first.Stages draft)
    (follow
      : List.Forall₂
        (fun subject other =>
          subject.mapping = other.mapping
          ∧ (Contribution.ofSubject draft.plan subject).AreFollowedBy
            (Contribution.ofSubject (draft.plan.onSchema second.schema) other))
        (first.subjects draft.plan)
        (second.subjects (draft.plan.onSchema second.schema)))
    : ∃ other, second.draft.outcome = .ok other ∧ draft.SameButForExamples other := by
  have schema := stages.schema_eq alongside.noHooks.1
  have empty : Progress.empty.SameButForExamples Progress.empty :=
    ⟨⟨.nil, rfl⟩, rfl, rfl, rfl, rfl⟩
  have classified
      : (draft.plan.onSchema second.schema).classified = draft.plan.classified := rfl
  have modules : (draft.plan.onSchema second.schema).modules = draft.plan.modules := rfl
  obtain ⟨progress, performed, same⟩ :=
    empty.performSubjects classified modules follow stages.performed
  obtain ⟨texts, made, assembly⟩ := stages.exists_texts
  have otherMade : fixedTexts (draft.plan.onSchema second.schema) = .ok texts := by
    rw [← made]
    unfold fixedTexts
    rw [schema, ← alongside.query, ← alongside.mutation]
    rfl
  have otherStages
      : second.Stages
        ⟨draft.plan.onSchema second.schema, draft.unsupported, progress,
          withFixed progress.assembly texts⟩ := by
    refine ⟨?_, ?_, ?_, ?_, ?_, ?_, performed, ?_⟩
    · rw [alongside.noHooks.2]
      rfl
    · have rooted := stages.rooted
      unfold checkRoots at rooted ⊢
      rw [schema, ← alongside.query, ← alongside.mutation, ← alongside.subscription] at rooted
      exact rooted
    · have checked := stages.checked
      rw [schema, ← alongside.directives, ← alongside.reference] at checked
      exact checked
    · have classified := stages.classified
      rw [schema, ← alongside.places] at classified
      exact classified
    · exact stages.settings.trans alongside.settings.symm
    · exact stages.templates.trans (alongside.noTemplates.1.trans alongside.noTemplates.2.symm)
    · rw [addFixedDocuments_eq, otherMade]
      rfl
  refine ⟨_, draft_eq_ok_iff.mpr otherStages, ?_, rfl, same.graph, same.total, same.fields⟩
  rw [assembly]
  exact same.assembly.withFixed texts

-----------------------------------------------------------------------------------------
-- Files
-----------------------------------------------------------------------------------------

/-- The list of files is the same when documents are the same but for examples: it only tells which
types have stubs.
-/
theorem paths_congr {first second : Assembly} (same : first.SameButForExamples second)
    : implementationPaths first = implementationPaths second
      ∧ schemaPaths first = schemaPaths second := by
  let view (artifacts : Artifacts) : String × Bool :=
    (artifacts.targetName, artifacts.implementation.isSome)
  have views : first.artifacts.values.map view = second.artifacts.values.map view := by
    rw [← List.forall₂_eq_eq_eq, List.forall₂_map_left_iff, List.forall₂_map_right_iff]
    refine same.artifacts.values.imp fun one other here => ?_
    have implementation := here.documents .implementation
    simp only [Artifacts.document?] at implementation
    simp only [view, here.targetName, Prod.mk.injEq, true_and]
    generalize one.implementation = stub, other.implementation = otherStub at implementation
    cases implementation <;> rfl
  have stubs (artifacts : List Artifacts)
      : (artifacts.filter fun artifacts => artifacts.implementation.isSome).map
          (fun artifacts => Naming.filePath artifacts.targetName)
        = ((artifacts.map view).filter Prod.snd).map fun entry => Naming.filePath entry.1 := by
    rw [List.filter_map, List.map_map]
    rfl
  have definitions (artifacts : List Artifacts)
      : artifacts.map (fun artifacts => Naming.filePath artifacts.targetName)
        = (artifacts.map view).map fun entry => Naming.filePath entry.1 := by
    rw [List.map_map]
    rfl
  unfold implementationPaths schemaPaths
  rw [stubs, stubs, definitions, definitions, views, same.fixed]
  exact ⟨rfl, rfl⟩

/-- Without templates of one's own the files are those of types, those of fixed text and two lists.
-/
theorem files_eq {plan : Plan} (none : plan.templates = []) (assembly : Assembly)
    (fieldList : Table (Option String))
    : Job.files plan assembly fieldList
      = .ok (assembly.artifacts.values.flatMap (artifactFiles plan.settings)
        ++ assembly.fixed.map (fixedFile plan.settings)
        ++ [
          {
            path := plan.settings.libDir ++ "/file_list.rb"
            content := Page.fileListText (implementationPaths assembly) (schemaPaths assembly)
            isEditable := false
          },
          {
            path := plan.settings.libDir ++ "/field_list.md"
            content := Page.fieldListText fieldList
            isEditable := false
          }
        ]) := by
  unfold Job.files Plan.render
  rw [none]
  rfl

/-- Drafts that are the same but for examples come to files that are. -/
theorem Draft.SameButForExamples.files {draft other : Draft} (same : draft.SameButForExamples other)
    (settings : other.plan.settings = draft.plan.settings)
    (none : draft.plan.templates = [] ∧ other.plan.templates = [])
    {files others : List GeneratedFile}
    (made : Job.files draft.plan draft.assembly draft.progress.fieldList = .ok files)
    (otherMade : Job.files other.plan other.assembly other.progress.fieldList = .ok others)
    : List.Forall₂ (GeneratedFile.SameButForExamples draft.plan.settings) files others := by
  rw [files_eq none.1] at made
  rw [files_eq none.2, settings] at otherMade
  cases made
  cases otherMade
  obtain ⟨stubs, definitions⟩ := paths_congr same.assembly
  rw [← same.assembly.fixed, ← stubs, ← definitions]
  refine List.rel_append (List.rel_append ?_ ?_) (.cons ?_ (.cons ?_ .nil))
  · exact List.rel_flatMap same.assembly.artifacts.values fun _ _ here => here.files _
  · exact List.forall₂_same.mpr fun file _ => ⟨rfl, rfl, .inl rfl⟩
  · exact ⟨rfl, rfl, .inl rfl⟩
  · exact ⟨rfl, rfl, .inr (.inr rfl)⟩

-----------------------------------------------------------------------------------------
-- Runs
-----------------------------------------------------------------------------------------

def planFor (job : Job) (classified : Classified) : Plan :=
  { schema := job.schema, classified, settings := job.settings, templates := job.templates }

/-- The example of every field that a run generates can be shown and selected, and all arguments of
the field can be listed.
-/
def PresentsFields (job : Job) : Prop :=
  ∀ classified,
    (classify job.reference job.settings job.schema).outcome = .ok classified →
      ∀ subject ∈ classified.subjects job.schema.types,
        ∀ field ∈ subject.type.fields.getD [],
          Contribution.isFieldLeftOut subject field = false →
            Contribution.IsPresented (job.planFor classified) subject field

theorem Stages.plan_eq {job : Job} {draft : Draft} (stages : job.Stages draft)
    (none : job.hooks = Hooks.none) : draft.plan = job.planFor draft.plan.classified := by
  unfold planFor
  rw [← stages.schema_eq none, ← stages.settings, ← stages.templates]

theorem unshown_of_mem_subjects {classified : Classified} {types : List TypeDef}
    {subject : Subject} (member : subject ∈ classified.subjects types) : subject.unshown = 0 := by
  obtain ⟨type, -, made⟩ := List.mem_filterMap.mp member
  obtain ⟨name, mapping, -, -, -, rfl⟩ := exists_of_subject? made
  rfl

/-- Without templates of one's own a run generates the types that have places. -/
theorem subjects_planFor {job : Job} (none : job.templates = []) (classified : Classified)
    : job.subjects (job.planFor classified) = classified.subjects job.schema.types := by
  have noTemplates : (job.planFor classified).templates = [] := none
  exact subjects_of_no_templates job noTemplates

/-- The run without deprecated members generates the same types without theirs. -/
theorem subjects_current {job : Job} (none : job.templates = []) (classified : Classified)
    : job.current.subjects (job.planFor classified).current
      = (classified.subjects job.schema.types).map Subject.current := by
  have noTemplates : (job.planFor classified).current.templates = [] := none
  rw [subjects_of_no_templates job.current noTemplates]
  exact classified.subjects_current job.schema.types

section
variable {job : Job} {draft : Draft} (hooks : job.hooks = Hooks.none)
variable (templates : job.templates = [])
include hooks templates

/-- A run that comes to documents does so without deprecated members. -/
theorem exists_draft_current (single : ∀ type ∈ job.schema.types, type.HasOneKindOfMembers)
    (drafted : job.draft.outcome = .ok draft)
    : ∃ other, job.current.draft.outcome = .ok other ∧ draft.SameButForExamples other := by
  have alongside : job.Alongside job.current :=
    ⟨rfl, rfl, rfl, rfl, classify_current job.reference job.settings job.schema, rfl, rfl,
      ⟨templates, templates⟩, ⟨hooks, hooks⟩⟩
  have stages := draft_eq_ok_iff.mp drafted
  apply alongside.exists_draft stages
  rw [stages.plan_eq hooks, subjects_planFor templates]
  show List.Forall₂ _ _ (job.current.subjects (job.planFor draft.plan.classified).current)
  rw [subjects_current templates, List.forall₂_map_right_iff, List.forall₂_same]
  intro subject member
  exact ⟨rfl, Contribution.ofSubject_followed templates single (unshown_of_mem_subjects member)⟩

/-- A run comes to documents if it does without deprecated members and its fields are presented. -/
theorem succeeds_draft_of_current (presented : job.PresentsFields)
    (drafted : job.current.draft.outcome = .ok draft) : Succeeds job.draft.outcome := by
  have alongside : job.current.Alongside job :=
    ⟨rfl, rfl, rfl, rfl, (classify_current job.reference job.settings job.schema).symm, rfl, rfl,
      ⟨templates, templates⟩, ⟨hooks, hooks⟩⟩
  have stages := draft_eq_ok_iff.mp drafted
  have plan : draft.plan = (job.planFor draft.plan.classified).current := stages.plan_eq hooks
  have classified : (classify job.reference job.settings job.schema).outcome
      = .ok draft.plan.classified := by
    have classified := stages.classified
    rw [plan] at classified
    exact (congrArg Noted.outcome (classify_current _ _ _)).symm.trans classified
  have follow
      : List.Forall₂
        (fun subject other =>
          subject.mapping = other.mapping
          ∧ (Contribution.ofSubject draft.plan subject).AreFollowedBy
            (Contribution.ofSubject (draft.plan.onSchema job.schema) other))
        (job.current.subjects draft.plan) (job.subjects (draft.plan.onSchema job.schema)) := by
    rw [plan]
    show List.Forall₂ _ _ (job.subjects (job.planFor draft.plan.classified))
    rw [subjects_current templates, subjects_planFor templates, List.forall₂_map_left_iff,
      List.forall₂_same]
    intro subject member
    exact ⟨rfl, Contribution.ofSubject_follows templates (unshown_of_mem_subjects member)
      (presented draft.plan.classified classified subject member)⟩
  obtain ⟨other, made, -⟩ := alongside.exists_draft stages follow
  exact ⟨other, made⟩

/-- A run that comes to documents presents its fields. -/
theorem presentsFields_of_draft (drafted : job.draft.outcome = .ok draft) : job.PresentsFields := by
  have stages := draft_eq_ok_iff.mp drafted
  have plan := stages.plan_eq hooks
  have whole := Progress.isWhole_of_performSubjects (congrArg Prod.snd stages.performed)
  intro classified classifies subject member field among kept
  have same : classified = draft.plan.classified := by
    have otherwise := stages.classified
    rw [plan] at otherwise
    exact Except.ok.inj (classifies.symm.trans otherwise)
  subst same
  rw [plan, subjects_planFor templates] at whole
  exact (whole subject member).isPresented templates (unshown_of_mem_subjects member) among kept

end

/-- A run comes to files exactly when it does without deprecated members and its fields can be
presented with them. Then it comes to the same files but for the examples in specs and the arguments
in the list of fields: the same documents otherwise, the same references, and the same fields.
-/
theorem build_iff_current {job : Job} (hooks : job.hooks = Hooks.none)
    (templates : job.templates = [])
    (single : ∀ type ∈ job.schema.types, type.HasOneKindOfMembers)
    : (Succeeds job.build.outcome ↔ Succeeds job.current.build.outcome ∧ job.PresentsFields)
      ∧ ∀ generation other,
          job.build.outcome = .ok generation
          → job.current.build.outcome = .ok other
          → List.Forall₂ (GeneratedFile.SameButForExamples job.settings) generation.files
              other.files
            ∧ ∃ draft otherDraft,
                job.draft.outcome = .ok draft
                ∧ draft.IsReportedBy generation
                ∧ job.current.draft.outcome = .ok otherDraft
                ∧ otherDraft.IsReportedBy other
                ∧ draft.SameButForExamples otherDraft := by
  refine ⟨?_, ?_⟩
  · have otherTemplates : job.current.templates = [] := templates
    rw [succeeds_build_iff templates, succeeds_build_iff otherTemplates]
    constructor
    · rintro ⟨draft, drafted⟩
      obtain ⟨other, made, -⟩ := exists_draft_current hooks templates single drafted
      exact ⟨⟨other, made⟩, presentsFields_of_draft hooks templates drafted⟩
    · rintro ⟨⟨draft, drafted⟩, presented⟩
      exact succeeds_draft_of_current hooks templates presented drafted
  · intro generation other built otherBuilt
    obtain ⟨draft, files, drafted, made, rfl⟩ := build_eq_ok_iff.mp built
    obtain ⟨otherDraft, others, otherDrafted, otherMade, rfl⟩ := build_eq_ok_iff.mp otherBuilt
    obtain ⟨current, currentDrafted, same⟩ := exists_draft_current hooks templates single drafted
    obtain rfl : otherDraft = current := Except.ok.inj (otherDrafted.symm.trans currentDrafted)
    refine ⟨?_, draft, otherDraft, drafted, ⟨rfl, rfl, rfl, rfl⟩, otherDrafted,
      ⟨rfl, rfl, rfl, rfl⟩, same⟩
    have stages := draft_eq_ok_iff.mp drafted
    have otherStages := draft_eq_ok_iff.mp otherDrafted
    have alike := same.files (otherStages.settings.trans stages.settings.symm)
      ⟨stages.templates.trans templates, otherStages.templates.trans templates⟩ made otherMade
    rw [stages.settings] at alike
    rw [List.forall₂_map_left_iff, List.forall₂_map_right_iff]
    have otherHooks : job.current.hooks = Hooks.none := hooks
    refine alike.imp fun file other here => ⟨here.path, here.isEditable, ?_⟩
    rw [hooks, otherHooks]
    exact here.content

def remembering (type : String) : Job :=
  let old : Field := { plainField "old" type [] with isDeprecated := true }
  smallJob "Query" "Query"
    [
      plainType "Query" .object [plainField "user" "User" [old]],
      plainType "User" .object [plainField "id" "ID" [], old]
    ]

/-- Deprecated members of a type that is there change examples and the list of fields only. -/
theorem build_remembering
    : (remembering "ID").PresentsFields
      ∧ ∃ generation other,
          (remembering "ID").build.outcome = .ok generation
          ∧ (remembering "ID").current.build.outcome = .ok other
          ∧ List.Forall₂ (GeneratedFile.SameButForExamples Settings.standard) generation.files
            other.files := by
  have built : Succeeds (remembering "ID").build.outcome := by
    decide +kernel
  obtain ⟨coincide, same⟩ := @build_iff_current (remembering "ID") rfl rfl (by decide)
  obtain ⟨⟨other, otherBuilt⟩, presented⟩ := coincide.mp built
  obtain ⟨generation, built⟩ := built
  exact
    ⟨presented, generation, other, built, otherBuilt, (same generation other built otherBuilt).1⟩

/-- Deprecated members leave traces. If their type is not there, the run fails where it would not
without them; otherwise a deprecated argument is listed.
-/
theorem traces_of_deprecated
    : (¬Succeeds (remembering "Gone").build.outcome
          ∧ Succeeds (remembering "Gone").current.build.outcome)
      ∧ ∃ generation other,
          (remembering "ID").build.outcome = .ok generation
          ∧ (remembering "ID").current.build.outcome = .ok other
          ∧ Table.get? generation.fieldList "Query.user" = some (some "(old)")
          ∧ Table.get? other.fieldList "Query.user" = some none
          ∧ generation.files ≠ other.files := by
  have compared
      : ∃ generation,
          (remembering "ID").build.outcome = .ok generation
          ∧ ∃ other,
              (remembering "ID").current.build.outcome = .ok other
              ∧ Table.get? generation.fieldList "Query.user" = some (some "(old)")
              ∧ Table.get? other.fieldList "Query.user" = some none
              ∧ generation.files.getLast? ≠ other.files.getLast? := by
    decide +kernel
  obtain ⟨generation, built, other, otherBuilt, listed, otherListed, lists⟩ := compared
  refine ⟨by decide +kernel, generation, other, built, otherBuilt, listed, otherListed, ?_⟩
  intro same
  exact lists (congrArg List.getLast? same)

end Job

end RubySchema
