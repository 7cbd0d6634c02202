import RubySchema.Proofs.Generation.Order
import RubySchema.Proofs.Generation.Stages
import RubySchema.Proofs.Schema.Names

/-!
A run comes to files for one order of the types of its schema exactly when it does for another, and
then to the same documents and the same files, apart from forward declarations.
-/

namespace RubySchema

structure Assembly.SameButForPreambles (first second : Assembly) : Prop where
  artifacts
    : ∀ target,
        Option.Rel Artifacts.SameButForPreamble (Table.get? first.artifacts target)
          (Table.get? second.artifacts target)
  values
    : ∃ reordered,
        List.Forall₂ Artifacts.SameButForPreamble first.artifacts.values reordered
        ∧ reordered.Perm second.artifacts.values
  fixed : first.fixed = second.fixed

/-- Documents of fixed text leave the others the same but for forward declarations. -/
theorem Assembly.SameButForPreambles.withFixed {first second : Assembly}
    (same : first.SameButForPreambles second) (texts : List (String × String))
    : (Job.withFixed first texts).SameButForPreambles (Job.withFixed second texts) := by
  refine ⟨?_, ?_, ?_⟩
  · rw [Job.artifacts_withFixed, Job.artifacts_withFixed]
    exact same.artifacts
  · rw [Job.artifacts_withFixed, Job.artifacts_withFixed]
    exact same.values
  · rw [Job.fixed_withFixed, Job.fixed_withFixed, same.fixed]

structure Progress.SameButForOrder (first second : Progress) : Prop where
  assembly : first.assembly.SameButForPreambles second.assembly
  total : first.total = second.total
  references : first.graph.sorted = second.graph.sorted
  mutualPairs : first.graph.mutualPairs = second.graph.mutualPairs

/-- Files that are the same, or definitions of types that are but for forward declarations. What
users may edit, stubs and specs among it, is the same.
-/
inductive GeneratedFile.SameButForPreamble : GeneratedFile → GeneratedFile → Prop
  | same (file : GeneratedFile) : SameButForPreamble file file
  | definition (path : String) {first second : Document}
      (fragments : ∀ place, place ≠ .preamble → first.fragments place = second.fragments place)
      : SameButForPreamble ⟨path, first.render, false⟩ ⟨path, second.render, false⟩

theorem Artifacts.SameButForPreamble.files {first second : Artifacts}
    (same : first.SameButForPreamble second) (settings : Settings)
    : List.Forall₂ GeneratedFile.SameButForPreamble (Job.artifactFiles settings first)
        (Job.artifactFiles settings second) := by
  unfold Job.artifactFiles
  rw [same.targetName, same.implementation, same.spec]
  exact .cons (.definition _ same.schema) (List.forall₂_same.mpr fun file _ => .same file)

namespace Job

def HasPlainNames (types : List TypeDef) : Prop :=
  ∀ type ∈ types, ∀ name, type.name = .string name → '.' ∉ name.toList

/-- Two runs without templates of one's own and without hooks, on schemas that differ in the order
of their types only.
-/
structure Reordered (first second : Job) : Prop where
  types : first.schema.types.Perm second.schema.types
  schema : second.schema = { first.schema with types := second.schema.types }
  reference : second.reference = first.reference
  settings : second.settings = first.settings
  noTemplates : first.templates = [] ∧ second.templates = []
  noHooks : first.hooks = Hooks.none ∧ second.hooks = Hooks.none

structure Draft.SameButForOrder (first second : Draft) : Prop where
  assembly : first.assembly.SameButForPreambles second.assembly
  unsupported : first.unsupported = second.unsupported
  total : first.progress.total = second.progress.total
  references : first.progress.graph.sorted = second.progress.graph.sorted
  mutualPairs : first.progress.graph.mutualPairs = second.progress.graph.mutualPairs

def Draft.typeFiles (draft : Draft) : List GeneratedFile :=
  draft.assembly.artifacts.values.flatMap (artifactFiles draft.plan.settings)

def Draft.fixedFiles (draft : Draft) : List GeneratedFile :=
  draft.assembly.fixed.map (fixedFile draft.plan.settings)

/-- The files of a result are those of a draft's types and of its fixed texts, and two lists. -/
def Draft.IsWrittenTo (draft : Draft) (generation : Generation) : Prop :=
  ∃ fileList fieldList : String,
    generation.files
    = draft.typeFiles ++ draft.fixedFiles
      ++ [
        ⟨draft.plan.settings.libDir ++ "/file_list.rb", fileList, false⟩,
        ⟨draft.plan.settings.libDir ++ "/field_list.md", fieldList, false⟩
      ]

/-- The files of types are the same but for forward declarations and stand in another order. -/
structure Draft.SameFilesButForOrder (first second : Draft) : Prop where
  types
    : ∃ reordered,
        List.Forall₂ GeneratedFile.SameButForPreamble first.typeFiles reordered
        ∧ reordered.Perm second.typeFiles
  fixed : first.fixedFiles = second.fixedFiles

/-- A result tells what a draft has come to. -/
structure Draft.IsReportedBy (draft : Draft) (generation : Generation) : Prop where
  unsupported : generation.unsupported = draft.unsupported
  total : generation.total = draft.progress.total
  graph : generation.graph = draft.progress.graph
  fieldList : generation.fieldList = draft.progress.fieldList

theorem Reordered.symm {first second : Job} (reordered : first.Reordered second)
    : second.Reordered first := by
  refine ⟨reordered.types.symm, ?_, reordered.reference.symm, reordered.settings.symm,
    reordered.noTemplates.symm, reordered.noHooks.symm⟩
  rw [reordered.schema]

/-- Types placed in another order have places that agree. -/
theorem Placed.agrees {start : Registry} {types others : List TypeDef}
    {classified otherClassified : Classified} (placed : Placed start types classified)
    (otherPlaced : Placed start others otherClassified) (perm : types.Perm others)
    : classified.Agrees otherClassified := by
  have kept : (start.kept types).Perm (start.kept others) := perm.filterMap _
  refine ⟨?_, ?_⟩
  · intro name
    rw [placed.classified_eq, otherPlaced.classified_eq]
    exact Registry.get?_withPlaces_perm kept placed.unique name
  · intro target
    rw [placed.classified_eq, otherPlaced.classified_eq]
    exact Registry.byTarget?_withPlaces_perm kept placed.apart target

/-- Plans that hold the types and places of a schema in another order agree. -/
theorem Placed.plan_agrees {start : Registry} {first second : Plan}
    (placed : Placed start first.schema.types first.classified)
    (otherPlaced : Placed start second.schema.types second.classified)
    (perm : first.schema.types.Perm second.schema.types)
    (distinct : (first.schema.types.map TypeDef.name).Nodup)
    (schema : second.schema = { first.schema with types := second.schema.types })
    (settings : first.settings = second.settings) (templates : first.templates = second.templates)
    : first.Agrees second := by
  refine ⟨?_, ?_, Schema.typeNamed?_perm perm distinct, placed.agrees otherPlaced perm, settings,
    templates⟩
  · rw [schema]
  · rw [schema]

theorem fixedTexts_congr {first second : Plan} (agrees : first.Agrees second)
    : fixedTexts first = fixedTexts second := by
  unfold fixedTexts
  simp only [agrees.queryType, agrees.mutationType, agrees.classified.lookupValue_eq,
    agrees.render_eq]

theorem graphOf_congr {first second : Plan} (agrees : first.Agrees second)
    (subjects : List Subject) : first.graphOf subjects = second.graphOf subjects := by
  have after : DependencyGraph.after first = DependencyGraph.after second := by
    funext graph subject
    exact DependencyGraph.after_congr agrees graph subject
  unfold Plan.graphOf
  rw [after]

theorem scripts_congr {first second : Plan} (agrees : first.Agrees second)
    : Contribution.script second = Contribution.script first := by
  funext subject
  exact (Contribution.script_congr agrees subject).symm

/-- Carried out in another order under a plan that agrees, the same types come to the same. -/
theorem ran_of_reordered {first second : Plan} {subjects others : List Subject}
    {progress : Progress} (agrees : first.Agrees second) (perm : subjects.Perm others)
    (apart : (subjects.map fun subject => subject.mapping.targetName).Nodup)
    (performed : Progress.empty.performSubjects first subjects = (progress, none))
    : ∃ next,
        Progress.empty.performSubjects second others = (next, none)
        ∧ Progress.Ran second others Progress.empty next := by
  have whole := Progress.isWhole_of_performSubjects (congrArg Prod.snd performed)
  apply Progress.performSubjects_empty_ran
  · intro subject member
    unfold Contribution.IsWhole
    rw [← Contribution.ofSubject_congr agrees]
    exact whole subject (perm.mem_iff.mpr member)
  · exact (perm.map _).nodup_iff.mp apart

/-- What the same types come to in two orders is the same but for forward declarations. -/
theorem sameButForOrder_of_ran {first second : Plan} {subjects others : List Subject}
    {progress other : Progress} (ran : Progress.Ran first subjects Progress.empty progress)
    (otherRan : Progress.Ran second others Progress.empty other) (agrees : first.Agrees second)
    (perm : subjects.Perm others)
    (apart : (subjects.map fun subject => subject.mapping.targetName).Nodup)
    : progress.SameButForOrder other := by
  have graph : progress.graph = first.graphOf subjects := ran.graph
  have otherGraph : other.graph = first.graphOf others :=
    otherRan.graph.trans (graphOf_congr agrees others).symm
  have edges : (first.graphOf subjects).edges.Perm (first.graphOf others).edges :=
    Plan.edges_graphOf_perm perm apart
  have unique : (first.graphOf subjects).HasUniqueSources :=
    DependencyGraph.HasUniqueSources.foldl_after List.nodup_nil
  refine ⟨⟨?_, ?_, ?_⟩, ?_, ?_, ?_⟩
  · intro target
    rw [ran.artifacts, otherRan.artifacts]
    exact Plan.documents_perm agrees perm apart _ _ target
  · rw [ran.artifacts, otherRan.artifacts]
    exact Plan.values_documents_perm agrees perm _ _
  · rw [ran.fixed, otherRan.fixed]
  · rw [ran.total, otherRan.total, scripts_congr agrees]
    congr 1
    exact ((perm.flatMap_right _).filterMap _).length_eq
  · rw [graph, otherGraph]
    exact DependencyGraph.sorted_perm edges unique
  · rw [graph, otherGraph]
    exact DependencyGraph.mutualPairs_perm edges unique

/-- The same types list the same fields in two orders, if no full stop stands in their names. -/
theorem get?_fieldList_of_ran {first second : Plan} {subjects others : List Subject}
    {progress other : Progress} (ran : Progress.Ran first subjects Progress.empty progress)
    (otherRan : Progress.Ran second others Progress.empty other) (agrees : first.Agrees second)
    (perm : subjects.Perm others)
    (unique : (subjects.map fun subject => subject.mapping.schemaName).Nodup)
    (plain : ∀ subject ∈ subjects, '.' ∉ subject.mapping.schemaName.toList) (field : String)
    : Table.get? progress.fieldList field = Table.get? other.fieldList field := by
  rw [ran.fieldList, otherRan.fieldList, scripts_congr agrees]
  exact Plan.fieldList_perm perm unique plain field

/-- Types that have been placed can be placed in another order. -/
theorem Placed.reordered {start : Registry} {types others : List TypeDef}
    {classified : Classified} (placed : Placed start types classified) (perm : types.Perm others)
    (distinct : (others.map TypeDef.name).Nodup)
    : Placed start others (start.withPlaces (start.kept others)).finalize := by
  have kept : (start.kept types).Perm (start.kept others) := perm.filterMap _
  apply placed_of_count placed.only
  · intro type member
    exact placed.texts type (perm.mem_iff.mpr member)
  · intro entry _
    exact List.nodup_iff_count_le_one.mp distinct _
  · exact (kept.map fun entry => (start.place entry).targetName).nodup_iff.mp placed.apart

/-- Types in another order are generated in that order. -/
theorem Placed.subjects_perm {start : Registry} {first second : Job} {plan other : Plan}
    (placed : Placed start plan.schema.types plan.classified)
    (otherPlaced : Placed start other.schema.types other.classified)
    (perm : plan.schema.types.Perm other.schema.types) (none : plan.templates = [])
    (otherNone : other.templates = []) : (first.subjects plan).Perm (second.subjects other) := by
  rw [subjects_of_no_templates first none, subjects_of_no_templates second otherNone,
    placed.subjects_eq, otherPlaced.subjects_eq]
  exact (perm.filterMap _).map _

/-- The stages of a run on the types in another order are those of the one run: its checks are the
same, its types have been placed, and its documents can be made.
-/
theorem Reordered.stages {first second : Job} {draft : Draft} {plan : Plan} {progress : Progress}
    {builtins : List String} {texts : List (String × String)} (reordered : first.Reordered second)
    (stages : first.Stages draft) (schema : plan.schema = second.schema)
    (same : second.schema = { draft.plan.schema with types := second.schema.types })
    (settings : plan.settings = second.settings) (templates : plan.templates = second.templates)
    (known : first.reference.builtinNames = .ok builtins)
    (placed
      : Placed (startRegistry first.settings builtins) second.schema.types plan.classified)
    (agrees : draft.plan.Agrees plan) (made : fixedTexts draft.plan = .ok texts)
    (performed
      : Progress.empty.performSubjects plan (second.subjects plan) = (progress, none))
    : second.Stages
        ⟨plan, draft.unsupported, progress, withFixed progress.assembly texts⟩ := by
  refine ⟨?_, ?_, ?_, ?_, settings, templates, performed, ?_⟩
  · rw [reordered.noHooks.2, schema]
    rfl
  · show checkRoots plan.schema = .ok ()
    rw [schema, same]
    exact stages.rooted
  · show (checkDirectives second.reference plan.schema.directives).outcome = _
    rw [schema, same, reordered.reference]
    exact stages.checked
  · show (classify second.reference second.settings plan.schema).outcome = .ok plan.classified
    rw [schema, classify_eq_ok_iff, reordered.reference, reordered.settings]
    refine ⟨builtins, known, placed.texts, ?_, ?_⟩
    · rw [Registry.firsts_eq_self placed.unique]
      exact placed.apart
    · rw [Registry.firsts_eq_self placed.unique]
      exact placed.classified_eq
  · rw [addFixedDocuments_eq, ← fixedTexts_congr agrees, made]
    rfl

/-- A run on the types in another order comes to the same documents: the stages of the one run are
those of the other, and types contribute the same under plans that agree.
-/
theorem Reordered.exists_draft {first second : Job} {draft : Draft}
    (reordered : first.Reordered second) (distinct : (first.schema.types.map TypeDef.name).Nodup)
    (drafted : first.draft.outcome = .ok draft)
    : ∃ other,
        second.draft.outcome = .ok other
        ∧ draft.SameButForOrder other
        ∧ (HasPlainNames first.schema.types
          → ∀ field,
              Table.get? draft.progress.fieldList field
                = Table.get? other.progress.fieldList field) := by
  have stages := draft_eq_ok_iff.mp drafted
  have schemaSame := stages.schema_eq reordered.noHooks.1
  have schema : second.schema = { draft.plan.schema with types := second.schema.types } :=
    schemaSame ▸ reordered.schema
  have perm : draft.plan.schema.types.Perm second.schema.types := schemaSame ▸ reordered.types
  rw [← schemaSame] at distinct
  obtain ⟨builtins, known, placed⟩ := stages.placed distinct
  let start := startRegistry first.settings builtins
  have otherPlaced := placed.reordered perm ((perm.map TypeDef.name).nodup_iff.mp distinct)
  let plan : Plan :=
    {
      schema := second.schema
      classified := (start.withPlaces (start.kept second.schema.types)).finalize
      settings := second.settings
      templates := second.templates
    }
  have none : draft.plan.templates = [] := stages.templates.trans reordered.noTemplates.1
  have agrees : draft.plan.Agrees plan :=
    placed.plan_agrees otherPlaced perm distinct schema
      (stages.settings.trans reordered.settings.symm) (none.trans reordered.noTemplates.2.symm)
  have subjects : (first.subjects draft.plan).Perm (second.subjects plan) :=
    placed.subjects_perm otherPlaced perm none reordered.noTemplates.2
  have apart : ((first.subjects draft.plan).map fun subject => subject.mapping.targetName).Nodup :=
    placed.nodup_targets
  -- the other run carries out the same types, under a plan that agrees
  have ran := Progress.ran_of_performSubjects apart stages.performed
  obtain ⟨progress, performed, otherRan⟩ := ran_of_reordered agrees subjects apart stages.performed
  obtain ⟨texts, made, assembly⟩ := stages.exists_texts
  have otherStages :=
    reordered.stages stages rfl schema rfl rfl known otherPlaced agrees made performed
  have same := sameButForOrder_of_ran ran otherRan agrees subjects apart
  refine ⟨_, draft_eq_ok_iff.mpr otherStages,
    ⟨?_, rfl, same.total, same.references, same.mutualPairs⟩, ?_⟩
  · rw [assembly]
    exact same.assembly.withFixed texts
  · intro plain field
    rw [← schemaSame] at plain
    apply get?_fieldList_of_ran ran otherRan agrees subjects
    · rw [map_subjects first draft.plan fun _ mapping => mapping.schemaName, placed.subjects_eq,
        List.map_map]
      exact placed.unique
    · intro subject member
      obtain ⟨entry, keeps, -, place⟩ := placed.exists_of_mem member
      obtain ⟨among, named, -⟩ := Registry.mem_kept.mp keeps
      rw [place]
      exact plain entry.2 among entry.1 named

/-- A result tells what the draft of its run has come to. -/
theorem exists_draft_of_build {job : Job} {generation : Generation}
    (built : job.build.outcome = .ok generation)
    : ∃ draft, job.draft.outcome = .ok draft ∧ draft.IsReportedBy generation := by
  obtain ⟨draft, files, drafted, -, rfl⟩ := build_eq_ok_iff.mp built
  exact ⟨draft, drafted, rfl, rfl, rfl, rfl⟩

/-- The files of a run without hooks are those of its draft. -/
theorem Draft.isWrittenTo_of_build {job : Job} {draft : Draft} {generation : Generation}
    (none : job.hooks = Hooks.none) (drafted : job.draft.outcome = .ok draft)
    (built : job.build.outcome = .ok generation) : draft.IsWrittenTo generation := by
  obtain ⟨other, files, otherDrafted, made, rfl⟩ := build_eq_ok_iff.mp built
  obtain rfl := Except.ok.inj (drafted.symm.trans otherDrafted)
  obtain ⟨fileList, -, made⟩ := bind_eq_ok.mp made
  obtain ⟨fieldList, -, made⟩ := bind_eq_ok.mp made
  obtain rfl := Except.ok.inj made
  refine ⟨fileList, fieldList, ?_⟩
  rw [none]
  exact List.map_id' _

/-- Drafts of the same documents but for their order and forward declarations have such files. -/
theorem Draft.SameButForOrder.files {draft other : Draft} (same : draft.SameButForOrder other)
    (settings : other.plan.settings = draft.plan.settings)
    : draft.SameFilesButForOrder other := by
  obtain ⟨reordered, beside, moved⟩ := same.assembly.values
  refine ⟨⟨reordered.flatMap (artifactFiles draft.plan.settings), ?_, ?_⟩, ?_⟩
  · exact List.rel_flatMap beside fun _ _ here => here.files _
  · unfold Draft.typeFiles
    rw [settings]
    exact moved.flatMap_right _
  · unfold Draft.fixedFiles
    rw [same.assembly.fixed, settings]

/-- A run comes to files for one order of the types of its schema exactly when it does for another,
and then to the same documents but for forward declarations, the same references and the same total;
and to the same list of fields, if no full stop stands in the names of types. Its files are the same
but for forward declarations in the definitions of types, the two lists aside.
-/
theorem build_of_reordered {first second : Job} (reordered : first.Reordered second)
    (distinct : (first.schema.types.map TypeDef.name).Nodup)
    : (Succeeds first.build.outcome ↔ Succeeds second.build.outcome)
      ∧ ∀ generation other,
          first.build.outcome = .ok generation
          → second.build.outcome = .ok other
          → ∃ draft otherDraft,
              first.draft.outcome = .ok draft
              ∧ draft.IsReportedBy generation
              ∧ second.draft.outcome = .ok otherDraft
              ∧ otherDraft.IsReportedBy other
              ∧ draft.SameButForOrder otherDraft
              ∧ draft.IsWrittenTo generation
              ∧ otherDraft.IsWrittenTo other
              ∧ draft.SameFilesButForOrder otherDraft
              ∧ (HasPlainNames first.schema.types
                → ∀ field,
                    Table.get? generation.fieldList field
                      = Table.get? other.fieldList field) := by
  have otherDistinct : (second.schema.types.map TypeDef.name).Nodup :=
    (reordered.types.map TypeDef.name).nodup_iff.mp distinct
  refine ⟨?_, ?_⟩
  · rw [succeeds_build_iff reordered.noTemplates.1, succeeds_build_iff reordered.noTemplates.2]
    constructor
    · rintro ⟨draft, drafted⟩
      obtain ⟨other, made, -, -⟩ := reordered.exists_draft distinct drafted
      exact ⟨other, made⟩
    · rintro ⟨draft, drafted⟩
      obtain ⟨other, made, -, -⟩ := reordered.symm.exists_draft otherDistinct drafted
      exact ⟨other, made⟩
  · intro generation other built otherBuilt
    obtain ⟨draft, drafted, reported⟩ := exists_draft_of_build built
    obtain ⟨otherDraft, otherDrafted, otherReported⟩ := exists_draft_of_build otherBuilt
    obtain ⟨made, madeDrafted, same, fields⟩ := reordered.exists_draft distinct drafted
    obtain rfl : otherDraft = made := Except.ok.inj (otherDrafted.symm.trans madeDrafted)
    have settings : otherDraft.plan.settings = draft.plan.settings :=
      (draft_eq_ok_iff.mp otherDrafted).settings.trans
        (reordered.settings.trans (draft_eq_ok_iff.mp drafted).settings.symm)
    refine ⟨draft, otherDraft, drafted, reported, otherDrafted, otherReported, same,
      Draft.isWrittenTo_of_build reordered.noHooks.1 drafted built,
      Draft.isWrittenTo_of_build reordered.noHooks.2 otherDrafted otherBuilt,
      same.files settings, ?_⟩
    rw [reported.fieldList, otherReported.fieldList]
    exact fields

/-- Objects of one field each, which is a query and a mutation. The second field has an argument. -/
def twoRoots (query queryField mutation mutationField : String) : List TypeDef :=
  [
    plainType query .object [plainField queryField "ID" []],
    plainType mutation .object [plainField mutationField "ID" [plainField "x" "ID" []]]
  ]

theorem reordered_twoRoots (query queryField mutation mutationField : String)
    : (smallJob query mutation (twoRoots query queryField mutation mutationField)).Reordered
        (smallJob query mutation (twoRoots query queryField mutation mutationField).reverse) :=
  ⟨(List.reverse_perm _).symm, rfl, rfl, rfl, ⟨rfl, rfl⟩, ⟨rfl, rfl⟩⟩

/-- A query and a mutation in both orders come to the same list of fields. -/
theorem fieldList_of_query_and_mutation
    : ∃ generation other,
        (smallJob "Query" "Mutation" (twoRoots "Query" "a" "Mutation" "b")).build.outcome
          = .ok generation
        ∧ (smallJob "Query" "Mutation" (twoRoots "Query" "a" "Mutation" "b").reverse).build.outcome
          = .ok other
        ∧ Table.get? generation.fieldList "Mutation.b" = some (some "(x)")
        ∧ ∀ field, Table.get? generation.fieldList field = Table.get? other.fieldList field := by
  have built
      : ∃ generation,
          (smallJob "Query" "Mutation" (twoRoots "Query" "a" "Mutation" "b")).build.outcome
            = .ok generation
          ∧ Table.get? generation.fieldList "Mutation.b" = some (some "(x)") := by
    decide +kernel
  obtain ⟨generation, built, listed⟩ := built
  obtain ⟨coincide, same⟩ :=
    build_of_reordered (reordered_twoRoots "Query" "a" "Mutation" "b") (by decide)
  obtain ⟨other, otherBuilt⟩ := coincide.mp ⟨generation, built⟩
  refine ⟨generation, other, built, otherBuilt, listed, ?_⟩
  obtain ⟨-, -, -, -, -, -, -, -, -, -, fields⟩ := same generation other built otherBuilt
  apply fields
  intro type member name named
  rcases List.mem_cons.mp member with rfl | member
  · cases named
    decide
  · rcases List.mem_singleton.mp member with rfl
    cases named
    decide

/-- With a full stop in the name of a type, two types can list a field of one name, and the later
one stands.
-/
theorem fieldList_depends_on_order
    : ¬∀ first second : Job,
        first.Reordered second
        → (first.schema.types.map TypeDef.name).Nodup
        → ∀ generation other,
            first.build.outcome = .ok generation
            → second.build.outcome = .ok other
            → ∀ field,
                Table.get? generation.fieldList field = Table.get? other.fieldList field := by
  intro claim
  have built
      : ∃ generation,
          (smallJob "A" "A.b" (twoRoots "A" "b.c" "A.b" "c")).build.outcome = .ok generation
          ∧ Table.get? generation.fieldList "A.b.c" = some (some "(x)") := by
    decide +kernel
  have otherBuilt
      : ∃ generation,
          (smallJob "A" "A.b" (twoRoots "A" "b.c" "A.b" "c").reverse).build.outcome = .ok generation
          ∧ Table.get? generation.fieldList "A.b.c" = some none := by
    decide +kernel
  obtain ⟨generation, built, listed⟩ := built
  obtain ⟨other, otherBuilt, otherListed⟩ := otherBuilt
  have same :=
    claim _ _ (reordered_twoRoots "A" "b.c" "A.b" "c") (by decide) generation other built otherBuilt
      "A.b.c"
  rw [listed, otherListed] at same
  cases same

end Job

end RubySchema
