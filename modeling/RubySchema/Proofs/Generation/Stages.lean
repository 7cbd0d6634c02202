import RubySchema.Generation.Build
import RubySchema.Proofs.Outcome
import RubySchema.Proofs.Registry.Places

/-!
The stages of a run. A run comes to documents when each of its stages succeeds, and to files when
its two lists can be written besides.
-/

namespace RubySchema

namespace Noted

variable {α : Type}

@[simp]
theorem outcome_ofExcept (outcome : Except Error α) : (ofExcept outcome).outcome = outcome :=
  rfl

@[simp]
theorem outcome_note (notes : List Note) : (note notes).outcome = .ok () :=
  rfl

@[simp]
theorem outcome_pure (value : α) : (pure value : Noted α).outcome = .ok value :=
  rfl

end Noted

namespace Job

def subjects (job : Job) (plan : Plan) : List Subject :=
  let subjects := plan.classified.subjects plan.schema.types
  if job.isRepeated then subjects else plan.subjectsOf subjects

structure Stages (job : Job) (draft : Draft) : Prop where
  filtered : job.hooks.applyFilters job.schema = .ok draft.plan.schema
  rooted : checkRoots draft.plan.schema = .ok ()
  checked
    : (checkDirectives job.reference draft.plan.schema.directives).outcome = .ok draft.unsupported
  classified
    : (classify job.reference job.settings draft.plan.schema).outcome = .ok draft.plan.classified
  settings : draft.plan.settings = job.settings
  templates : draft.plan.templates = job.templates
  performed
    : Progress.empty.performSubjects draft.plan (job.subjects draft.plan) = (draft.progress, none)
  completed : addFixedDocuments draft.plan draft.progress.assembly = .ok draft.assembly

/-- Without hooks the plan is made from the schema as it is. -/
theorem Stages.schema_eq {job : Job} {draft : Draft} (stages : job.Stages draft)
    (none : job.hooks = Hooks.none) : draft.plan.schema = job.schema := by
  have filtered := stages.filtered
  rw [none] at filtered
  exact (Except.ok.inj filtered).symm

/-- Contributions of subjects are carried out when none of them has failed. -/
theorem carryOut_eq_ok {plan : Plan} {subjects : List Subject} {progress : Progress}
    : (carryOut plan subjects).outcome = .ok progress
      ↔ Progress.empty.performSubjects plan subjects = (progress, none) := by
  unfold carryOut
  cases performed : Progress.empty.performSubjects plan subjects with
  | mk reached failure => cases failure <;> simp

/-- A run comes to documents exactly through its stages. -/
theorem draft_eq_ok_iff {job : Job} {draft : Draft}
    : job.draft.outcome = .ok draft ↔ job.Stages draft := by
  unfold Job.draft
  simp only [Noted.outcome_bind, Noted.outcome_ofExcept, Noted.outcome_note, Noted.outcome_pure,
    bind_eq_ok]
  constructor
  · rintro ⟨schema, filtered, _, rooted, _, -, unsupported, checked, classified, classifies, _, -,
      progress, performed, assembly, completed, same⟩
    cases same
    exact ⟨filtered, rooted, checked, classifies, rfl, rfl, carryOut_eq_ok.mp performed, completed⟩
  · rintro stages
    obtain ⟨⟨schema, classified, settings, templates⟩, unsupported, progress, assembly⟩ := draft
    obtain ⟨filtered, rooted, checked, classifies, rfl, rfl, performed, completed⟩ := stages
    exact ⟨schema, filtered, (), rooted, (), trivial, unsupported, checked, classified,
      classifies, (), trivial, progress, carryOut_eq_ok.mpr performed, assembly, completed, rfl⟩

/-- A run comes to files when it comes to documents and its two lists can be written. -/
theorem build_eq_ok_iff {job : Job} {generation : Generation}
    : job.build.outcome = .ok generation
      ↔ ∃ draft files,
          job.draft.outcome = .ok draft
          ∧ Job.files draft.plan draft.assembly draft.progress.fieldList = .ok files
          ∧ generation
            = {
                files := files.map fun file =>
                  { file with content := job.hooks.applyHeaders file.path file.content }
                unsupported := draft.unsupported
                graph := draft.progress.graph
                fieldList := draft.progress.fieldList
                total := draft.progress.total
              } := by
  unfold Job.build
  simp only [Noted.outcome_bind, Noted.outcome_ofExcept, Noted.outcome_note, Noted.outcome_pure,
    bind_eq_ok]
  constructor
  · rintro ⟨draft, drafted, files, made, _, -, same⟩
    exact ⟨draft, files, drafted, made, (Except.ok.inj same).symm⟩
  · rintro ⟨draft, files, drafted, made, rfl⟩
    exact ⟨draft, drafted, files, made, (), trivial, rfl⟩

theorem succeeds_files {plan : Plan} (none : plan.templates = []) (assembly : Assembly)
    (fieldList : Table (Option String)) : Succeeds (Job.files plan assembly fieldList) := by
  unfold Job.files Plan.render
  rw [none]
  exact succeeds_ok _

/-- Without templates of one's own a run comes to files when it comes to documents. -/
theorem succeeds_build_iff {job : Job} (none : job.templates = [])
    : Succeeds job.build.outcome ↔ Succeeds job.draft.outcome := by
  constructor
  · rintro ⟨generation, built⟩
    obtain ⟨draft, files, drafted, -⟩ := build_eq_ok_iff.mp built
    exact ⟨draft, drafted⟩
  · rintro ⟨draft, drafted⟩
    have stages := draft_eq_ok_iff.mp drafted
    obtain ⟨files, made⟩ := succeeds_files (stages.templates.trans none) draft.assembly
      draft.progress.fieldList
    exact ⟨_, build_eq_ok_iff.mpr ⟨draft, files, drafted, made, rfl⟩⟩

-----------------------------------------------------------------------------------------
-- Documents of fixed text
-----------------------------------------------------------------------------------------

/-- The documents of fixed text that a plan has, in order, by their paths. -/
def fixedTexts (plan : Plan) : Except Error (List (String × String)) := do
  let query ← plan.classified.lookupValue plan.schema.queryType
  let mutation ← plan.classified.lookupValue plan.schema.mutationType
  let root ← plan.render (.schemaRoot query.targetName mutation.targetName)
  let baseTexts ← bases.mapM fun base => do
    let text ← plan.render (.baseType base.name base.superclass base.body base.userModule)
    return ("schema/" ++ Naming.filePath base.name, text ++ "\n")
  let userTexts ← userModules.mapM fun name => do
    let text ← plan.render (.userModule name)
    return (Naming.filePath name, text ++ "\n")
  return ("schema/schema", root ++ "\n") :: (baseTexts ++ userTexts)

def withFixed (assembly : Assembly) (texts : List (String × String)) : Assembly :=
  texts.foldl (fun current text => current.addFixed text.1 text.2) assembly

@[simp]
theorem artifacts_withFixed (assembly : Assembly) (texts : List (String × String))
    : (withFixed assembly texts).artifacts = assembly.artifacts := by
  induction texts generalizing assembly with
  | nil => rfl
  | cons text rest ih => exact ih _

theorem fixed_withFixed (assembly : Assembly) (texts : List (String × String))
    : (withFixed assembly texts).fixed
      = texts.foldl (fun table text => Table.put table text.1 text.2) assembly.fixed := by
  induction texts generalizing assembly with
  | nil => rfl
  | cons text rest ih => exact ih _

/-- Documents of fixed text are added as their texts are found, by induction on what they are for.
-/
theorem foldlM_addFixed {α : Type} (items : List α) (path : α → String)
    (render : α → Except Error String) (assembly : Assembly)
    : items.foldlM (fun (current : Assembly) item => do
        let text ← render item
        return current.addFixed (path item) (text ++ "\n")) assembly
      = (items.mapM fun item => do
          let text ← render item
          return (path item, text ++ "\n")).map (withFixed assembly) := by
  induction items generalizing assembly with
  | nil => rfl
  | cons item rest ih =>
      rw [List.foldlM_cons, List.mapM_cons]
      cases render item with
      | error cause => rfl
      | ok text =>
          refine (ih _).trans ?_
          show _ = Except.map _ (List.mapM _ rest >>= _)
          cases List.mapM (fun item => do
            let text ← render item
            return (path item, text ++ "\n")) rest <;> rfl

/-- The documents of fixed text are added to an assembly when all of them can be made. -/
theorem addFixedDocuments_eq (plan : Plan) (assembly : Assembly)
    : addFixedDocuments plan assembly = (fixedTexts plan).map (withFixed assembly) := by
  have basesAdded := foldlM_addFixed bases (fun base => "schema/" ++ Naming.filePath base.name)
    fun base => plan.render (.baseType base.name base.superclass base.body base.userModule)
  have modulesAdded := foldlM_addFixed userModules Naming.filePath fun name =>
    plan.render (.userModule name)
  unfold addFixedDocuments fixedTexts
  simp only [basesAdded, modulesAdded]
  -- both sides make the same texts in the same order, and fail where one of them does
  cases plan.classified.lookupValue plan.schema.queryType with
  | error cause => rfl
  | ok query =>
  cases plan.classified.lookupValue plan.schema.mutationType with
  | error cause => rfl
  | ok mutation =>
  show (plan.render (.schemaRoot query.targetName mutation.targetName) >>= _)
    = Except.map _ (plan.render (.schemaRoot query.targetName mutation.targetName) >>= _)
  cases plan.render (.schemaRoot query.targetName mutation.targetName) with
  | error cause => rfl
  | ok root =>
  show (Except.map _ (bases.mapM _) >>= _) = Except.map _ (bases.mapM _ >>= _)
  generalize (bases.mapM fun base => do
    let text ← plan.render (.baseType base.name base.superclass base.body base.userModule)
    return ("schema/" ++ Naming.filePath base.name, text ++ "\n")) = baseTexts
  cases baseTexts with
  | error cause => rfl
  | ok baseTexts =>
  show Except.map _ (userModules.mapM _) = Except.map _ (userModules.mapM _ >>= _)
  generalize (userModules.mapM fun name => do
    let text ← plan.render (.userModule name)
    return (Naming.filePath name, text ++ "\n")) = userTexts
  cases userTexts with
  | error cause => rfl
  | ok userTexts =>
  show Except.ok _ = Except.ok (List.foldl _ _ (_ :: (baseTexts ++ userTexts)))
  rw [List.foldl_cons, List.foldl_append]
  rfl

/-- The documents of a run are those of its types, with those of fixed text. -/
theorem Stages.exists_texts {job : Job} {draft : Draft} (stages : job.Stages draft)
    : ∃ texts,
        fixedTexts draft.plan = .ok texts
        ∧ draft.assembly = withFixed draft.progress.assembly texts := by
  have completed := stages.completed
  rw [addFixedDocuments_eq] at completed
  cases made : fixedTexts draft.plan with
  | error cause =>
      rw [made] at completed
      cases completed
  | ok texts =>
      rw [made] at completed
      exact ⟨texts, rfl, (Except.ok.inj completed).symm⟩

-----------------------------------------------------------------------------------------
-- Places of types
-----------------------------------------------------------------------------------------

/-- A registry that knows the built-in types has their mappings and no others. -/
theorem get?_startRegistry (settings : Settings) (builtins : List String) (name : String)
    : (startRegistry settings builtins).get? name
      = if name ∈ builtins then
          some ((Registry.empty settings.builtinNamespace settings.baseTypeOverrides).builtinMapping
            name)
        else none := by
  have general (registry : Registry)
      : (builtins.foldl Registry.registerBuiltin registry).get? name
        = if name ∈ builtins then some (registry.builtinMapping name)
          else registry.get? name := by
    induction builtins generalizing registry with
    | nil => rfl
    | cons builtin rest ih =>
        have here : (registry.registerBuiltin builtin).get? name
            = if builtin = name then some (registry.builtinMapping builtin)
              else registry.get? name :=
          Table.get?_put registry.mappings builtin name (registry.builtinMapping builtin)
        have same : (registry.registerBuiltin builtin).builtinMapping name
            = registry.builtinMapping name := rfl
        rw [List.foldl_cons, ih, here, same]
        by_cases later : name ∈ rest
        · simp [later]
        · by_cases first : builtin = name
          · subst first
            simp [later]
          · simp [later, first, Ne.symm first]
  exact general _

theorem get?_startRegistry_eq_some {settings : Settings} {builtins : List String} {name : String}
    {mapping : NameMapping}
    : (startRegistry settings builtins).get? name = some mapping
      ↔ name ∈ builtins
        ∧ mapping
          = (Registry.empty settings.builtinNamespace settings.baseTypeOverrides).builtinMapping
            name := by
  rw [get?_startRegistry, Option.ite_none_right_eq_some, Option.some.injEq, eq_comm]

theorem nodup_startRegistry (settings : Settings) (builtins : List String)
    : (startRegistry settings builtins).mappings.names.Nodup := by
  have general (registry : Registry) (unique : registry.mappings.names.Nodup)
      : (builtins.foldl Registry.registerBuiltin registry).mappings.names.Nodup := by
    induction builtins generalizing registry with
    | nil => exact unique
    | cons builtin rest ih =>
        exact ih (registry.registerBuiltin builtin) (Table.nodup_names_put unique _ _)
  exact general _ List.nodup_nil

/-- The mappings of a registry that knows the built-in types are theirs. -/
theorem mem_startRegistry {settings : Settings} {builtins : List String}
    {entry : String × NameMapping} (member : entry ∈ (startRegistry settings builtins).mappings)
    : entry.1 ∈ builtins
      ∧ entry.2
        = (Registry.empty settings.builtinNamespace settings.baseTypeOverrides).builtinMapping
          entry.1 :=
  get?_startRegistry_eq_some.mp
    ((Table.get?_eq_some_iff (nodup_startRegistry settings builtins)).mpr member)

/-- A registry that knows the built-in types has taken no place. -/
theorem onlyBuiltins_startRegistry (settings : Settings) (builtins : List String)
    : (startRegistry settings builtins).OnlyBuiltins := by
  refine ⟨?_, ?_⟩
  · intro name mapping found
    obtain ⟨-, rfl⟩ := get?_startRegistry_eq_some.mp found
    rfl
  · have general (registry : Registry)
        : (builtins.foldl Registry.registerBuiltin registry).targets = registry.targets := by
      induction builtins generalizing registry with
      | nil => rfl
      | cons builtin rest ih => exact ih _
    exact general _

/-- Classification of a schema succeeds when built-in types are found, all names are texts, and the
places of the names that come first differ.
-/
theorem classify_eq_ok_iff {reference : Reference} {settings : Settings} {schema : Schema}
    {classified : Classified}
    : (classify reference settings schema).outcome = .ok classified
      ↔ ∃ builtins,
          reference.builtinNames = .ok builtins
          ∧ (∀ type ∈ schema.types, ∃ name, type.name = .string name)
          ∧ ((Registry.firsts ((startRegistry settings builtins).kept schema.types)).map
              fun entry => ((startRegistry settings builtins).place entry).targetName).Nodup
          ∧ classified
            = ((startRegistry settings builtins).withPlaces
                (Registry.firsts
                  ((startRegistry settings builtins).kept schema.types))).finalize := by
  unfold classify
  simp only [Noted.outcome_bind, Noted.outcome_ofExcept, Noted.outcome_note, Noted.outcome_pure,
    bind_eq_ok]
  constructor
  · rintro ⟨builtins, found, _, -, _, -, registry, classifies, same⟩
    obtain ⟨texts, apart, rfl⟩ :=
      (Registry.classifyAll_eq_ok_iff (onlyBuiltins_startRegistry settings builtins) _ _).mp
        classifies
    exact ⟨builtins, found, texts, apart, (Except.ok.inj same).symm⟩
  · rintro ⟨builtins, found, texts, apart, rfl⟩
    have classifies :=
      (Registry.classifyAll_eq_ok_iff (onlyBuiltins_startRegistry settings builtins) _ _).mpr
        ⟨texts, apart, rfl⟩
    exact ⟨builtins, found, (), trivial, (), trivial, _, classifies, rfl⟩

/-- A type with the place that it gets. -/
def subjectAt (start : Registry) (entry : String × TypeDef) : Subject :=
  { type := entry.2, mapping := start.place entry, unshown := 0 }

/-- When no other type has the name of a kept one, the types that are generated are those that are
kept.
-/
theorem subjects_withPlaces {start : Registry} {types : List TypeDef} (only : start.OnlyBuiltins)
    (unique : ((start.kept types).map Prod.fst).Nodup)
    (alone
      : ∀ type ∈ types, ∀ entry ∈ start.kept types, type.name = .string entry.1 → type = entry.2)
    : (start.withPlaces (start.kept types)).finalize.subjects types
      = (start.kept types).map (subjectAt start) := by
  have each
      : ∀ type ∈ types,
          (start.withPlaces (start.kept types)).finalize.subject? type
            = (start.keep? type).map (subjectAt start) := by
    intro type member
    unfold Classified.subject? Registry.keep?
    cases named : type.name with
    | string name =>
        cases out : start.leavesOut name type with
        | false =>
            have keeps : (name, type) ∈ start.kept types :=
              Registry.mem_kept.mpr ⟨member, named, out⟩
            have found :=
              Registry.get?_of_mem unique (Registry.get?_eq_none_of_mem_kept only keeps) keeps
            simp [found, out, Registry.place_isBuiltin, subjectAt]
        | true =>
            cases found : (start.withPlaces (start.kept types)).finalize.get? name with
            | none => simp [found, out]
            | some mapping =>
                rcases Registry.get?_withPlaces_cases found with builtin | ⟨other, keeps, rfl⟩
                · simp [found, out, only.builtin builtin]
                · -- the mapping is that of a kept type of this name, which is this type
                  obtain rfl := alone type member (name, other) keeps named
                  have not_out := (Registry.mem_kept.mp keeps).2.2
                  rw [out] at not_out
                  cases not_out
    | _ => rfl
  unfold Classified.subjects
  conv => rhs; rw [Registry.kept, List.map_filterMap]
  exact List.filterMap_congr each

/-- A registry that knows the built-in types has placed the kept types of a schema, each at a place
of its own, and these are the types that are generated.
-/
structure Placed (start : Registry) (types : List TypeDef) (classified : Classified) : Prop where
  only : start.OnlyBuiltins
  texts : ∀ type ∈ types, ∃ name, type.name = .string name
  unique : ((start.kept types).map Prod.fst).Nodup
  apart : ((start.kept types).map fun entry => (start.place entry).targetName).Nodup
  classified_eq : classified = (start.withPlaces (start.kept types)).finalize
  subjects_eq : classified.subjects types = (start.kept types).map (subjectAt start)

/-- Types have been placed when their places differ and no other type has the name of a kept one. -/
theorem placed_of_count {start : Registry} {types : List TypeDef} (only : start.OnlyBuiltins)
    (texts : ∀ type ∈ types, ∃ name, type.name = .string name)
    (single
      : ∀ entry ∈ start.kept types, (types.map TypeDef.name).count (.string entry.1) ≤ 1)
    (apart : ((start.kept types).map fun entry => (start.place entry).targetName).Nodup)
    : Placed start types (start.withPlaces (start.kept types)).finalize := by
  have unique := Registry.nodup_names_kept texts single
  refine ⟨only, texts, unique, apart, rfl, subjects_withPlaces only unique ?_⟩
  intro type member entry keeps named
  obtain ⟨other, entryNamed, -⟩ := Registry.mem_kept.mp keeps
  have count := single entry keeps
  rw [← named] at count
  exact eq_of_count_map_le_one count member other (entryNamed.trans named.symm)

/-- A mapping that is not that of a built-in type is the place of a kept type. -/
theorem Placed.exists_of_get? {start : Registry} {types : List TypeDef} {classified : Classified}
    {name : String} {mapping : NameMapping} (placed : Placed start types classified)
    (found : classified.get? name = some mapping) (own : mapping.isBuiltin = false)
    : ∃ type, (name, type) ∈ start.kept types ∧ mapping = start.place (name, type) := by
  rw [placed.classified_eq] at found
  exact Registry.exists_of_get?_withPlaces placed.only found own

/-- Types have been placed by a classification when no other type has the name of a generated one.
-/
theorem exists_placed {reference : Reference} {settings : Settings} {schema : Schema}
    {classified : Classified}
    (classifies : (classify reference settings schema).outcome = .ok classified)
    (unique
      : ∀ entry ∈ classified.mappings, entry.2.isBuiltin = false →
          (schema.types.map TypeDef.name).count (.string entry.1) ≤ 1)
    : ∃ builtins,
        reference.builtinNames = .ok builtins
        ∧ Placed (startRegistry settings builtins) schema.types classified := by
  obtain ⟨builtins, found, texts, apart, same⟩ := classify_eq_ok_iff.mp classifies
  have single
      : ∀ entry ∈ (startRegistry settings builtins).kept schema.types,
          (schema.types.map TypeDef.name).count (.string entry.1) ≤ 1 := by
    intro entry keeps
    have among
        : entry.1
          ∈ (Registry.firsts ((startRegistry settings builtins).kept schema.types)).map Prod.fst :=
      Registry.mem_names_addNew keeps
    obtain ⟨first, member, named⟩ := List.mem_map.mp among
    have mapped
        : (entry.1, (startRegistry settings builtins).place first) ∈ classified.mappings := by
      rw [same, ← named]
      exact List.mem_append_right _ (List.mem_map.mpr ⟨first, member, rfl⟩)
    exact unique _ mapped (Registry.place_isBuiltin _ first)
  rw [Registry.firsts_eq_self (Registry.nodup_names_kept texts single)] at apart same
  have only := onlyBuiltins_startRegistry settings builtins
  exact ⟨builtins, found, same ▸ placed_of_count only texts single apart⟩

/-- The types of a run have been placed when their names differ. -/
theorem Stages.placed {job : Job} {draft : Draft} (stages : job.Stages draft)
    (distinct : (draft.plan.schema.types.map TypeDef.name).Nodup)
    : ∃ builtins,
        job.reference.builtinNames = .ok builtins
        ∧ Placed (startRegistry job.settings builtins) draft.plan.schema.types
          draft.plan.classified :=
  exists_placed stages.classified fun _ _ _ => List.nodup_iff_count_le_one.mp distinct _

theorem map_subjects {α : Type} (job : Job) (plan : Plan) (view : TypeDef → NameMapping → α)
    : (job.subjects plan).map (fun subject => view subject.type subject.mapping)
      = (plan.classified.subjects plan.schema.types).map fun subject =>
        view subject.type subject.mapping := by
  have counted (shown : List String) (subjects : List Subject)
      : (plan.withUnshown shown subjects).map (fun subject => view subject.type subject.mapping)
        = subjects.map fun subject => view subject.type subject.mapping := by
    induction subjects generalizing shown with
    | nil => rfl
    | cons subject rest ih =>
        unfold Plan.withUnshown
        exact congrArg (view subject.type subject.mapping :: ·) (ih _)
  unfold Job.subjects Plan.subjectsOf
  dsimp only
  split
  · rfl
  split
  · exact counted [] _
  · rfl

/-- A type of a run is generated, whatever is known of its first fields. -/
theorem exists_generated_of_mem {job : Job} {plan : Plan} {subject : Subject}
    (member : subject ∈ job.subjects plan)
    : ∃ original ∈ plan.classified.subjects plan.schema.types,
        original.type = subject.type ∧ original.mapping = subject.mapping := by
  have among : (subject.type, subject.mapping)
      ∈ (job.subjects plan).map fun subject => (subject.type, subject.mapping) :=
    List.mem_map.mpr ⟨subject, member, rfl⟩
  rw [map_subjects job plan Prod.mk] at among
  obtain ⟨original, generated, same⟩ := List.mem_map.mp among
  exact ⟨original, generated, Prod.mk.inj same⟩

/-- A type is generated when its name has a mapping that is not that of a built-in type. -/
theorem exists_of_subject? {classified : Classified} {type : TypeDef} {subject : Subject}
    (made : classified.subject? type = some subject)
    : ∃ name mapping,
        type.name = .string name
        ∧ classified.get? name = some mapping
        ∧ mapping.isBuiltin = false
        ∧ subject = { type, mapping, unshown := 0 } := by
  unfold Classified.subject? at made
  split at made
  case h_2 => cases made
  case h_1 name named =>
    split at made
    case h_2 => cases made
    case h_1 mapping found =>
      split at made
      case isTrue => cases made
      case isFalse own =>
        cases made
        exact ⟨name, mapping, named, found, Bool.eq_false_iff.mpr own, rfl⟩

/-- A type of a run has its mapping under its name. -/
theorem exists_of_mem_subjects {job : Job} {plan : Plan} {subject : Subject}
    (member : subject ∈ job.subjects plan)
    : subject.type ∈ plan.schema.types
      ∧ ∃ name,
          subject.type.name = .string name
          ∧ plan.classified.get? name = some subject.mapping
          ∧ subject.mapping.isBuiltin = false := by
  obtain ⟨original, generated, typeSame, mappingSame⟩ := exists_generated_of_mem member
  obtain ⟨type, isType, made⟩ := List.mem_filterMap.mp generated
  obtain ⟨name, mapping, named, found, own, rfl⟩ := exists_of_subject? made
  exact ⟨typeSame ▸ isType, name, typeSame ▸ named, mappingSame ▸ found, mappingSame ▸ own⟩

theorem subjects_of_no_templates (job : Job) {plan : Plan} (none : plan.templates = [])
    : job.subjects plan = plan.classified.subjects plan.schema.types := by
  unfold Job.subjects Plan.subjectsOf
  rw [none]
  simp [Table.has, Table.get?]

/-- Types of a run that were placed have generated names of their own. -/
theorem Placed.nodup_targets {job : Job} {plan : Plan} {start : Registry}
    (placed : Placed start plan.schema.types plan.classified)
    : ((job.subjects plan).map fun subject => subject.mapping.targetName).Nodup := by
  rw [map_subjects job plan fun _ mapping => mapping.targetName, placed.subjects_eq, List.map_map]
  exact placed.apart

/-- A type of a run is a kept type at its place. -/
theorem Placed.exists_of_mem {job : Job} {plan : Plan} {start : Registry} {subject : Subject}
    (placed : Placed start plan.schema.types plan.classified)
    (member : subject ∈ job.subjects plan)
    : ∃ entry ∈ start.kept plan.schema.types,
        subject.type = entry.2 ∧ subject.mapping = start.place entry := by
  obtain ⟨original, generated, typeSame, mappingSame⟩ := exists_generated_of_mem member
  rw [placed.subjects_eq] at generated
  obtain ⟨entry, keeps, rfl⟩ := List.mem_map.mp generated
  exact ⟨entry, keeps, typeSame.symm, mappingSame.symm⟩

-----------------------------------------------------------------------------------------
-- Small runs
-----------------------------------------------------------------------------------------

def plainField (name type : String) (arguments : List Field) : Field :=
  {
    name := .string name
    type := .named (.string type) none
    arguments
    description := .null
    isDeprecated := false
    defaultValue := .null
  }

def plainType (name : String) (kind : TypeKind) (fields : List Field) : TypeDef :=
  {
    name := .string name
    kind
    fields := some fields
    inputFields := none
    interfaces := []
    possibleTypes := []
    enumValues := []
    description := .null
    isDeprecated := false
  }

/-- A run on types with a library that has `ID` built in. -/
def smallJob (query mutation : String) (types : List TypeDef) : Job :=
  let library : FileTree :=
    { files := [(["ref", "lib", "graphql", "types", "id.rb"], "class ID < Scalar")] }
  {
    schema :=
      {
        queryType := .string query
        mutationType := .string mutation
        subscriptionType := .null
        directives := []
        types
        description := .null
      }
    reference := { root := "ref", place := ["ref"], tree := library }
    settings := Settings.standard
    hooks := Hooks.none
    templates := []
  }

end Job

end RubySchema
