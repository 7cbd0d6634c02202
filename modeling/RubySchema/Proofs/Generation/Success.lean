import RubySchema.Proofs.Generation.Totality
import RubySchema.Proofs.Reference
import RubySchema.Proofs.Settings

/-!
A run on a well-formed schema comes to files if its directives can be looked up and arguments of
input fields can be passed.
-/

namespace RubySchema

/-- A run without hooks and templates of one's own on a schema that is well-formed under every
mapping of its types. Built-in types are found, the roots are those that are needed, all names are
texts, and no place is taken twice.
-/
structure Job.IsWellFormed (job : Job) : Prop where
  hooks : job.hooks = Hooks.none
  templates : job.templates = []
  builtins : Succeeds job.reference.builtinNames
  query : job.schema.queryType.isVoid = false
  mutation : job.schema.mutationType.isVoid = false
  subscription : job.schema.subscriptionType.isVoid = true
  names : ∀ type ∈ job.schema.types, type.name.IsText
  directives : ∀ directive ∈ job.schema.directives, directive.name.IsText
  places
    : ∀ target first second,
        (Job.classify job.reference job.settings job.schema).outcome
          ≠ .error (.duplicateTarget target first second)
  wellFormed
    : ∀ classified,
        (Job.classify job.reference job.settings job.schema).outcome = .ok classified →
          job.schema.IsWellFormed classified

/-- Every directive of a run that is not deprecated can be looked up in the reference library. -/
def Job.FindsDirectives (job : Job) : Prop :=
  ∀ directive ∈ job.schema.directives, directive.isDeprecated = false →
    Succeeds (job.reference.supportsDirective directive.name)

/-- Arguments of input fields can be passed under every mapping of a run's types. -/
def Job.HasPassableInputs (job : Job) : Prop :=
  ∀ classified,
    (Job.classify job.reference job.settings job.schema).outcome = .ok classified →
      job.schema.HasPassableInputs classified

namespace Job

/-- Classification of a schema can fail only for a place that is taken when built-in types are found
and all names are texts.
-/
theorem classify_eq_error {reference : Reference} {settings : Settings} {schema : Schema}
    {cause : Error} (builtins : Succeeds reference.builtinNames)
    (texts : ∀ type ∈ schema.types, ∃ name, type.name = .string name)
    (failed : (classify reference settings schema).outcome = .error cause)
    : ∃ target first second, cause = .duplicateTarget target first second := by
  obtain ⟨names, found⟩ := builtins
  unfold classify at failed
  simp only [Noted.outcome_bind, Noted.outcome_ofExcept, Noted.outcome_note, Noted.outcome_pure,
    found] at failed
  change ((startRegistry settings names).classifyAll schema.types >>= fun registry =>
    Except.ok registry.finalize) = .error cause at failed
  cases classifies : (startRegistry settings names).classifyAll schema.types with
  | ok registry =>
      rw [classifies] at failed
      cases failed
  | error other =>
      rw [classifies] at failed
      cases failed
      exact Registry.classifyAll_eq_error texts classifies

/-- Classification of a well-formed run comes to mappings. -/
theorem IsWellFormed.succeeds_classify {job : Job} (wellFormed : job.IsWellFormed)
    : Succeeds (classify job.reference job.settings job.schema).outcome := by
  cases outcome : (classify job.reference job.settings job.schema).outcome with
  | ok classified => exact succeeds_ok classified
  | error cause =>
      obtain ⟨target, first, second, rfl⟩ :=
        classify_eq_error wellFormed.builtins wellFormed.names outcome
      exact absurd outcome (wellFormed.places target first second)

/-- Directives are checked when they can be looked up and their names are texts, by induction on the
directives.
-/
theorem succeeds_checkDirectives {reference : Reference} {directives : List Directive}
    (texts : ∀ directive ∈ directives, directive.name.IsText)
    (found
      : ∀ directive ∈ directives, directive.isDeprecated = false →
          Succeeds (reference.supportsDirective directive.name))
    : Succeeds (checkDirectives reference directives).outcome := by
  induction directives with
  | nil => exact succeeds_ok []
  | cons directive rest ih =>
      have later :=
        ih (fun other member => texts other (List.mem_cons_of_mem directive member))
          fun other member => found other (List.mem_cons_of_mem directive member)
      obtain ⟨unsupported, checked⟩ := later
      obtain ⟨name, named⟩ := texts directive List.mem_cons_self
      unfold checkDirectives
      cases deprecated : directive.isDeprecated with
      | true => exact ⟨unsupported, checked⟩
      | false =>
          obtain ⟨supported, looked⟩ := found directive List.mem_cons_self deprecated
          simp only [Bool.false_eq_true, if_false, Noted.outcome_bind, Noted.outcome_ofExcept,
            looked]
          cases supported with
          | true => exact ⟨unsupported, checked⟩
          | false =>
              refine ⟨directive.name :: unsupported, ?_⟩
              rw [named]
              show (checkDirectives reference rest >>= fun more =>
                (pure (Json.string name :: more) : Noted (List Json))).outcome = _
              rw [Noted.outcome_bind, checked]
              rfl

theorem succeeds_addFixedDocuments {plan : Plan} (none : plan.templates = [])
    (query : plan.classified.Knows plan.schema.queryType)
    (mutation : plan.classified.Knows plan.schema.mutationType) (assembly : Assembly)
    : Succeeds (addFixedDocuments plan assembly) := by
  obtain ⟨queryMapping, queryFound⟩ := Contribution.succeeds_lookupValue query
  obtain ⟨mutationMapping, mutationFound⟩ := Contribution.succeeds_lookupValue mutation
  have bases
      : Succeeds (bases.mapM fun base => do
          let text ← plan.render (.baseType base.name base.superclass base.body base.userModule)
          return ("schema/" ++ Naming.filePath base.name, text ++ "\n")) := by
    apply succeeds_mapM
    intro base _
    rw [Contribution.render_eq_standardText none]
    exact succeeds_ok _
  have modules
      : Succeeds (userModules.mapM fun name => do
          let text ← plan.render (.userModule name)
          return (Naming.filePath name, text ++ "\n")) := by
    apply succeeds_mapM
    intro name _
    rw [Contribution.render_eq_standardText none]
    exact succeeds_ok _
  obtain ⟨baseTexts, basesMade⟩ := bases
  obtain ⟨userTexts, modulesMade⟩ := modules
  rw [addFixedDocuments_eq, fixedTexts, queryFound, mutationFound, basesMade, modulesMade]
  show Succeeds ((plan.render _ >>= _).map _)
  rw [Contribution.render_eq_standardText none]
  exact succeeds_ok _

/-- The plan of a well-formed run is well-formed: a mapping is that of a built-in type, or the place
of a type of the schema.
-/
theorem IsWellFormed.plan {job : Job} (wellFormed : job.IsWellFormed)
    (inputs : job.HasPassableInputs) {classified : Classified}
    (classifies : (classify job.reference job.settings job.schema).outcome = .ok classified)
    : Plan.IsWellFormed
        { schema := job.schema, classified, settings := job.settings, templates := job.templates }
      := by
  refine ⟨⟨?_, (wellFormed.wellFormed classified classifies).types, inputs classified classifies⟩,
    wellFormed.templates⟩
  intro name mapping found notBuiltin
  obtain ⟨builtins, -, placed⟩ :=
    exists_placed classifies (wellFormed.wellFormed classified classifies).unique
  change classified.get? name = some mapping at found
  obtain ⟨type, keeps, -⟩ := placed.exists_of_get? found notBuiltin
  obtain ⟨member, named, -⟩ := Registry.mem_kept.mp keeps
  exact ⟨type, member, named⟩

theorem IsWellFormed.isWhole {job : Job} (wellFormed : job.IsWellFormed)
    (inputs : job.HasPassableInputs) {classified : Classified} {builtins : List String}
    (classifies : (classify job.reference job.settings job.schema).outcome = .ok classified)
    (placed : Placed (startRegistry job.settings builtins) job.schema.types classified)
    : ∀ subject ∈ job.subjects
          { schema := job.schema, classified, settings := job.settings
            templates := job.templates },
        Contribution.IsWhole
          { schema := job.schema, classified, settings := job.settings
            templates := job.templates }
          subject := by
  intro subject member
  obtain ⟨entry, keeps, typed, -⟩ := placed.exists_of_mem member
  obtain ⟨among, named, -⟩ := Registry.mem_kept.mp keeps
  have mapped :=
    Registry.get?_of_mem placed.unique (Registry.get?_eq_none_of_mem_kept placed.only keeps) keeps
  have known : classified.Knows entry.2.name := by
    refine ⟨entry.1, named, ?_⟩
    rw [placed.classified_eq, mapped]
    rfl
  apply Contribution.isWhole_of_isWellFormed (wellFormed.plan inputs classifies)
  rw [typed]
  exact (wellFormed.wellFormed classified classifies).types entry.2 among known

/-- A run on a well-formed schema comes to files: no check fails, every type is classified,
resolved, expanded and written, and no document is written to after its end. It is enough that
directives can be looked up, and that examples can show the arguments of input fields.
-/
theorem succeeds_build {job : Job} (wellFormed : job.IsWellFormed) (found : job.FindsDirectives)
    (inputs : job.HasPassableInputs) : Succeeds job.build.outcome := by
  rw [succeeds_build_iff wellFormed.templates]
  obtain ⟨classified, classifies⟩ := wellFormed.succeeds_classify
  have formed := wellFormed.wellFormed classified classifies
  obtain ⟨builtins, -, placed⟩ := exists_placed classifies formed.unique
  obtain ⟨unsupported, checked⟩ := succeeds_checkDirectives wellFormed.directives found
  let plan : Plan :=
    { schema := job.schema, classified, settings := job.settings, templates := job.templates }
  have apart : ((job.subjects plan).map fun subject => subject.mapping.targetName).Nodup :=
    placed.nodup_targets
  obtain ⟨progress, performed, -⟩ :=
    Progress.performSubjects_empty_ran (wellFormed.isWhole inputs classifies placed) apart
  obtain ⟨assembly, completed⟩ : Succeeds (addFixedDocuments plan progress.assembly) :=
    succeeds_addFixedDocuments wellFormed.templates formed.query formed.mutation progress.assembly
  have filtered : job.hooks.applyFilters job.schema = .ok job.schema := by
    rw [wellFormed.hooks]
    rfl
  have rooted : checkRoots job.schema = .ok () := by
    unfold checkRoots
    rw [wellFormed.query, wellFormed.mutation, wellFormed.subscription]
    rfl
  exact ⟨{ plan, unsupported, progress, assembly },
    draft_eq_ok_iff.mpr
      ⟨filtered, rooted, checked, classifies, rfl, rfl, performed, completed⟩⟩

/-- Directives that are checked could be looked up, by induction on the directives. -/
theorem succeeds_supportsDirective {reference : Reference} {directives : List Directive}
    (checked : Succeeds (checkDirectives reference directives).outcome)
    : ∀ directive ∈ directives, directive.isDeprecated = false →
        Succeeds (reference.supportsDirective directive.name) := by
  induction directives with
  | nil => simp
  | cons first rest ih =>
      obtain ⟨unsupported, checked⟩ := checked
      unfold checkDirectives at checked
      intro directive member current
      cases deprecated : first.isDeprecated with
      | true =>
          rw [deprecated] at checked
          rcases List.mem_cons.mp member with rfl | later
          · rw [deprecated] at current
            cases current
          · exact ih ⟨unsupported, checked⟩ directive later current
      | false =>
          simp only [deprecated, Bool.false_eq_true, if_false, Noted.outcome_bind,
            Noted.outcome_ofExcept] at checked
          obtain ⟨supported, looked, checked⟩ := bind_eq_ok.mp checked
          rcases List.mem_cons.mp member with rfl | later
          · exact ⟨supported, looked⟩
          · cases supported with
            | true => exact ih ⟨unsupported, checked⟩ directive later current
            | false =>
                simp only [Bool.false_eq_true, if_false, Noted.outcome_bind] at checked
                obtain ⟨-, -, checked⟩ := bind_eq_ok.mp checked
                split at checked
                · cases checked
                · rw [Noted.outcome_bind] at checked
                  obtain ⟨more, checked, -⟩ := bind_eq_ok.mp checked
                  exact ih ⟨more, checked⟩ directive later current

/-- A run without hooks that comes to files could look up its directives. -/
theorem findsDirectives_of_succeeds {job : Job} (none : job.hooks = Hooks.none)
    (succeeds : Succeeds job.build.outcome) : job.FindsDirectives := by
  obtain ⟨generation, built⟩ := succeeds
  obtain ⟨draft, files, drafted, -⟩ := build_eq_ok_iff.mp built
  have stages := draft_eq_ok_iff.mp drafted
  unfold FindsDirectives
  rw [← stages.schema_eq none]
  exact succeeds_supportsDirective ⟨draft.unsupported, stages.checked⟩

instance (job : Job) : Decidable job.FindsDirectives :=
  inferInstanceAs (Decidable (∀ directive ∈ job.schema.directives, _ → _))

instance (job : Job) : Decidable job.HasPassableInputs :=
  inferInstanceAs (Decidable (∀ classified, _ = Except.ok classified → _))

/-- A run whose types get mappings under which its schema is well-formed is well-formed. -/
theorem isWellFormed_of_exists {job : Job}
    (standard : job.hooks = Hooks.none ∧ job.templates = [])
    (builtins : Succeeds job.reference.builtinNames)
    (roots
      : job.schema.queryType.isVoid = false ∧ job.schema.mutationType.isVoid = false
        ∧ job.schema.subscriptionType.isVoid = true)
    (texts
      : (∀ type ∈ job.schema.types, type.name.IsText)
        ∧ ∀ directive ∈ job.schema.directives, directive.name.IsText)
    (formed
      : ∃ classified,
          (classify job.reference job.settings job.schema).outcome = .ok classified
          ∧ job.schema.IsWellFormed classified)
    : job.IsWellFormed := by
  obtain ⟨classified, classifies, here⟩ := formed
  refine ⟨standard.1, standard.2, builtins, roots.1, roots.2.1, roots.2.2, texts.1, texts.2, ?_, ?_⟩
  · intro target first second failed
    rw [classifies] at failed
    cases failed
  · intro other otherwise
    rw [classifies] at otherwise
    exact Except.ok.inj otherwise ▸ here

/-- A catalog of items, which hold one another and are found by nested filters. -/
def catalog : Job :=
  let item (name : String) : Field :=
    plainField name "Item" [plainField "by" "Filter" []]
  let object : TypeDef :=
    {
      plainType "Item" .object
        [
          plainField "id" "ID" [],
          plainField "kind" "Kind" [],
          { item "parts" with type := .list (.nonNull (.named (.string "Item") none)) },
          plainField "related" "ResultConnection" []
        ] with
      interfaces := [⟨.string "Node", .string "INTERFACE", false⟩]
    }
  let kind : TypeDef :=
    {
      plainType "Kind" .enum [] with
      enumValues := [⟨.string "SOLID", .null, false⟩, ⟨.string "LIQUID", .null, false⟩]
    }
  let result : TypeDef :=
    {
      plainType "Result" .union [] with
      possibleTypes := [⟨.string "Item", .string "OBJECT", false⟩]
    }
  let filter : TypeDef :=
    {
      plainType "Filter" .inputObject [] with
      fields := none
      inputFields := some [plainField "id" "ID" [], plainField "not" "Filter" []]
    }
  smallJob "Query" "Query" [plainType "Query" .object [item "item"], object, kind, result, filter]

/-- The run on the catalog comes to files. -/
theorem succeeds_build_catalog
    : catalog.IsWellFormed ∧ catalog.FindsDirectives ∧ catalog.HasPassableInputs
      ∧ Succeeds catalog.build.outcome := by
  have wellFormed : catalog.IsWellFormed := by
    apply isWellFormed_of_exists <;> decide +kernel
  have found : catalog.FindsDirectives := by
    decide +kernel
  have inputs : catalog.HasPassableInputs := by
    decide +kernel
  exact ⟨wellFormed, found, inputs, succeeds_build wellFormed found inputs⟩

def longName : String :=
  String.ofList (List.replicate 300 'a')

def longDirective : Job :=
  let directive : Directive :=
    {
      name := .string longName
      description := .null
      locations := [.string "FIELD"]
      isDeprecated := false
    }
  let small := smallJob "Query" "Query" [plainType "Query" .object [plainField "id" "ID" []]]
  let library : FileTree :=
    {
      small.reference.tree with
      directories := [["ref", "lib", "graphql", "directive"]]
    }
  {
    small with
    schema := { small.schema with directives := [directive] }
    reference := { small.reference with tree := library }
  }

theorem supportsDirective_longName
    : longDirective.reference.supportsDirective (.string longName) = .error .fileSystem := by
  have chars : longName.toList = List.replicate 300 'a' := String.toList_ofList
  apply Reference.supportsDirective_of_long
  · intro c member
    rw [chars] at member
    rw [List.eq_of_mem_replicate member]
    decide
  · rw [String.toList_append, List.length_append, chars, List.length_replicate]
    decide
  · decide +kernel
  · decide +kernel

def strayArgument : Job :=
  let filter : TypeDef :=
    {
      plainType "Filter" .inputObject [] with
      fields := none
      inputFields := some [plainField "id" "ID" [plainField "a" "Unknown" []]]
    }
  let query := plainType "Query" .object [plainField "node" "ID" [plainField "by" "Filter" []]]
  smallJob "Query" "Query" [query, filter]

/-- A well-formed run can stop for either of two causes: the name of a directive is too long to be
looked up, or an example shows an argument of an input field whose type is unknown.
-/
theorem not_succeeds_of_isWellFormed_alone
    : (longDirective.settings.IsAccepted ∧ longDirective.IsWellFormed
        ∧ longDirective.HasPassableInputs ∧ ¬Succeeds longDirective.build.outcome)
      ∧ (strayArgument.settings.IsAccepted ∧ strayArgument.IsWellFormed
        ∧ strayArgument.FindsDirectives ∧ ¬Succeeds strayArgument.build.outcome) := by
  have accepted : Settings.standard.IsAccepted := by
    refine ⟨[], ?_⟩
    decide +kernel
  refine ⟨⟨accepted, ?_, ?_, ?_⟩, accepted, ?_, ?_, ?_⟩
  · apply isWellFormed_of_exists <;> decide +kernel
  · decide +kernel
  · intro succeeds
    obtain ⟨supported, found⟩ :=
      findsDirectives_of_succeeds rfl succeeds _ (List.mem_singleton_self _) rfl
    cases supportsDirective_longName.symm.trans found
  · apply isWellFormed_of_exists <;> decide +kernel
  · decide +kernel
  · decide +kernel

end Job

end RubySchema
