import RubySchema.Proofs.Generation.Paths
import RubySchema.Proofs.Generation.Pieces

/-!
Whatever a schema document refers to is provided by the reference library or by a definition among
the files of the run, and every module of the user that a document includes is among the files.
-/

namespace RubySchema

-----------------------------------------------------------------------------------------
-- Filters
-----------------------------------------------------------------------------------------

namespace Schema

/-- A schema has some types of another, and all types of their names. -/
structure IsCutFrom (part whole : Schema) : Prop where
  mem : ∀ {type}, type ∈ part.types → type ∈ whole.types
  namesakes
    : ∀ {type other}, type ∈ part.types → other ∈ whole.types → other.name = type.name →
        other ∈ part.types

theorem IsCutFrom.trans {part middle whole : Schema} (first : part.IsCutFrom middle)
    (second : middle.IsCutFrom whole) : part.IsCutFrom whole :=
  {
    mem := fun member => second.mem (first.mem member)
    namesakes := fun member among same =>
      first.namesakes member (second.namesakes (first.mem member) among same) same
  }

end Schema

/-- A filter keeps all types of a name or none. -/
theorem TypeFilter.isCutFrom {filter : TypeFilter} {schema kept : Schema}
    (applied : filter.apply schema = .ok kept) : kept.IsCutFrom schema := by
  obtain ⟨types, made, same⟩ := bind_eq_ok.mp applied
  cases same
  have filtered := eq_filter_of_filterM made
  refine ⟨fun member => ?_, fun member among same => ?_⟩
  · rw [filtered] at member
    exact (List.mem_filter.mp member).1
  · rw [filtered] at member ⊢
    refine List.mem_filter.mpr ⟨among, ?_⟩
    have passes := (List.mem_filter.mp member).2
    unfold TypeFilter.keeps at passes ⊢
    rwa [same]

/-- The filters of a run keep all types of a name or none, by induction on the filters. -/
theorem Hooks.isCutFrom {hooks : Hooks} {schema kept : Schema}
    (applied : hooks.applyFilters schema = .ok kept) : kept.IsCutFrom schema := by
  unfold applyFilters at applied
  generalize hooks.filters = filters at applied
  induction filters generalizing schema with
  | nil =>
      cases applied
      exact ⟨id, fun _ among _ => among⟩
  | cons filter rest ih =>
      obtain ⟨middle, first, later⟩ := bind_eq_ok.mp applied
      exact (ih later).trans (TypeFilter.isCutFrom first)

-----------------------------------------------------------------------------------------
-- Mappings
-----------------------------------------------------------------------------------------

namespace Job

/-- All mappings that there are before types are placed are those of built-in types, and bases are
chosen as the settings say.
-/
theorem startRegistry_start (settings : Settings) (builtins : List String)
    : (∀ entry ∈ (startRegistry settings builtins).mappings, entry.2.isBuiltin = true)
      ∧ (startRegistry settings builtins).baseOverrides = settings.baseTypeOverrides := by
  have overrides (registry : Registry)
      : (builtins.foldl Registry.registerBuiltin registry).baseOverrides
        = registry.baseOverrides := by
    induction builtins generalizing registry with
    | nil => rfl
    | cons builtin rest ih => exact ih _
  refine ⟨fun entry member => ?_, overrides _⟩
  rw [(mem_startRegistry member).2]
  rfl

/-- The base of a place is that of a base class when the settings name no other. -/
theorem baseType_mem_bases {start : Registry} (plain : start.baseOverrides = [])
    (type : TypeDef) (category : Category) (target : String)
    : start.baseType type category target ∈ bases.map Base.name := by
  unfold Registry.baseType
  rw [plain]
  show (if category == .payloads then _ else _) ∈ _
  split
  · decide
  split
  case h_1 base found =>
    unfold BaseType.ofKind? at found
    split at found <;> cases found <;> decide
  case h_2 =>
    split <;> decide

/-- A place has the base class of its type. -/
theorem exists_base_of_place {start : Registry} (plain : start.baseOverrides = [])
    (entry : String × TypeDef)
    : ∃ base, (start.place entry).baseType = some base.name ∧ base ∈ bases := by
  obtain ⟨base, member, same⟩ := List.mem_map.mp
    (baseType_mem_bases plain entry.2 (TypeName.categorize entry.2.kind entry.1).1
      ((TypeName.categorize entry.2.kind entry.1).1.word ++ "::"
        ++ (TypeName.categorize entry.2.kind entry.1).2))
  exact ⟨base, congrArg some same.symm, member⟩

/-- A type for which users get a stub has one. -/
theorem spec_mem_kindsFor_place {start : Registry} {entry : String × TypeDef}
    (own : (start.place entry).hasImplementation = true)
    : .spec ∈ Artifacts.kindsFor (start.place entry).targetName := by
  simp only [NameMapping.hasImplementation, Bool.or_eq_true, beq_iff_eq] at own
  exact (Artifacts.spec_mem_kindsFor _ _).mpr own

section
variable {job : Job} {draft : Draft} {generation : Generation} {start : Registry}

/-- A kept type is generated under its place. -/
theorem Placed.mem_targets (job : Job) {plan : Plan} {entry : String × TypeDef}
    (placed : Placed start plan.schema.types plan.classified)
    (keeps : entry ∈ start.kept plan.schema.types)
    : (start.place entry).targetName
      ∈ (job.subjects plan).map fun subject => subject.mapping.targetName := by
  rw [map_subjects job plan fun _ mapping => mapping.targetName, placed.subjects_eq, List.map_map]
  exact List.mem_map.mpr ⟨entry, keeps, rfl⟩

/-- What is found under a generated name is the place of a kept type, or has been there before. -/
theorem Placed.cases_of_byTarget? {types : List TypeDef} {classified : Classified}
    {target : String} {mapping : NameMapping} (placed : Placed start types classified)
    (found : classified.byTarget? target = some mapping)
    : mapping.targetName = target
      ∧ ((∃ entry ∈ start.kept types, mapping = start.place entry)
        ∨ ∃ entry ∈ start.mappings, mapping = entry.2) := by
  refine ⟨eq_of_beq
    (List.find?_some (p := fun mapping : NameMapping => mapping.targetName == target) found), ?_⟩
  rw [placed.classified_eq, Registry.byTarget?_withPlaces, Option.or_eq_some_iff] at found
  rcases found with here | ⟨-, before⟩
  · obtain ⟨entry, keeps, same⟩ := List.mem_map.mp
      (List.mem_reverse.mp (List.mem_of_find?_eq_some here))
    exact .inl ⟨entry, keeps, same.symm⟩
  · obtain ⟨entry, member, same⟩ := List.mem_map.mp
      (List.mem_reverse.mp (List.mem_of_find?_eq_some before))
    exact .inr ⟨entry, member, same.symm⟩

/-- What is found under a generated name, other than a built-in type, is the place of a kept type.
-/
theorem Placed.exists_of_byTarget? {types : List TypeDef} {classified : Classified}
    {target : String} {mapping : NameMapping} (placed : Placed start types classified)
    (builtin : ∀ entry ∈ start.mappings, entry.2.isBuiltin = true)
    (found : classified.byTarget? target = some mapping) (own : mapping.isBuiltin = false)
    : ∃ entry ∈ start.kept types, mapping = start.place entry ∧ mapping.targetName = target := by
  obtain ⟨named, ⟨entry, keeps, same⟩ | ⟨entry, member, rfl⟩⟩ := placed.cases_of_byTarget? found
  · exact ⟨entry, keeps, same, named⟩
  · rw [builtin entry member] at own
    cases own

/-- Under the generated name of a kept type the place of a kept type is found. -/
theorem Placed.exists_byTarget? {types : List TypeDef} {classified : Classified}
    {entry : String × TypeDef} (placed : Placed start types classified)
    (keeps : entry ∈ start.kept types)
    : ∃ other ∈ start.kept types,
        classified.byTarget? (start.place entry).targetName = some (start.place other) := by
  rw [placed.classified_eq, Registry.byTarget?_withPlaces]
  let places := ((start.kept types).map start.place).reverse
  cases found : places.find? fun mapping =>
      mapping.targetName == (start.place entry).targetName with
  | none =>
      have here : start.place entry ∈ places :=
        List.mem_reverse.mpr (List.mem_map.mpr ⟨entry, keeps, rfl⟩)
      exact absurd (beq_self_eq_true _) (List.find?_eq_none.mp found _ here)
  | some mapping =>
      obtain ⟨other, alsoKeeps, same⟩ := List.mem_map.mp
        (List.mem_reverse.mp (List.mem_of_find?_eq_some found))
      exact ⟨other, alsoKeeps, by rw [Option.some_or, same]⟩

-----------------------------------------------------------------------------------------
-- What is among the files
-----------------------------------------------------------------------------------------

/-- A definition of a generated name is among the files. -/
def Defines (job : Job) (generation : Generation) (target : String) : Prop :=
  job.settings.libDir ++ "/schema/" ++ Naming.filePath target ++ ".rb"
    ∈ generation.files.map GeneratedFile.path

def HasUserModule (job : Job) (generation : Generation) (target : String) : Prop :=
  job.settings.libDir ++ "/" ++ Naming.filePath target ++ ".rb"
    ∈ generation.files.map GeneratedFile.path

/-- A generated name is that of a built-in type, or its definition is among the files. -/
def Provides (job : Job) (plan : Plan) (generation : Generation) (target : String) : Prop :=
  (∃ name mapping,
      plan.classified.get? name = some mapping
      ∧ mapping.isBuiltin = true ∧ mapping.targetName = target)
    ∨ job.Defines generation target

/-- The files of a run that comes to them: the definition of each type, its stub if it has one, and
those of the base classes and their modules.
-/
structure HasFiles (job : Job) (plan : Plan) (generation : Generation) : Prop where
  type
    : ∀ target ∈ (job.subjects plan).map fun subject => subject.mapping.targetName,
        job.Defines generation target
        ∧ (.spec ∈ Artifacts.kindsFor target → job.HasUserModule generation target)
  base : ∀ base ∈ bases, job.Defines generation base.name
  user : ∀ name ∈ userModules, job.HasUserModule generation name

theorem hasFiles_of_build (drafted : job.draft.outcome = .ok draft)
    (built : job.build.outcome = .ok generation) : job.HasFiles draft.plan generation := by
  obtain ⟨targets, -, names, paths⟩ := paths_of_build drafted built
  have shared {path : String} (member : path ∈ fixedPaths)
      : job.settings.libDir ++ "/" ++ path ++ ".rb"
        ∈ targets.flatMap (artifactPaths job.settings) ++ sharedPaths job.settings := by
    apply List.mem_append_right
    apply List.mem_append_left
    exact List.mem_map.mpr ⟨path, List.mem_append_left _ member, rfl⟩
  refine ⟨?_, ?_, ?_⟩
  · intro target member
    have own {path : String} (among : path ∈ artifactPaths job.settings target)
        : path ∈ generation.files.map GeneratedFile.path := by
      rw [paths]
      exact List.mem_append_left _
        (List.mem_flatMap.mpr ⟨target, (names target).mpr member, among⟩)
    refine ⟨own List.mem_cons_self, fun has => own ?_⟩
    unfold artifactPaths
    dsimp only
    rw [if_pos has]
    exact List.mem_cons_of_mem _ List.mem_cons_self
  · intro base member
    unfold Defines
    rw [paths]
    have among : "schema/" ++ Naming.filePath base.name ∈ fixedPaths :=
      List.mem_cons_of_mem _ (List.mem_append_left _ (List.mem_map.mpr ⟨base, member, rfl⟩))
    have joined
        : job.settings.libDir ++ "/" ++ ("schema/" ++ Naming.filePath base.name) ++ ".rb"
          = job.settings.libDir ++ "/schema/" ++ Naming.filePath base.name ++ ".rb" := by
      rw [← String.toList_inj]
      simp
    exact joined ▸ shared among
  · intro name member
    unfold HasUserModule
    rw [paths]
    exact shared
      (List.mem_cons_of_mem _ (List.mem_append_right _ (List.mem_map.mpr ⟨name, member, rfl⟩)))

-----------------------------------------------------------------------------------------
-- References of types
-----------------------------------------------------------------------------------------

/-- A name is that of a type of a kind in the schema, and not that of a built-in type. -/
def Names (job : Job) (kind : TypeKind) (name : Json) : Prop :=
  (∃ type ∈ job.schema.types, type.name = name ∧ type.kind = kind)
  ∧ ∀ builtins, job.reference.builtinNames = .ok builtins → name ∉ builtins.map Json.string

/-- What a type implements are interfaces of the schema, and what a union may be are objects of it.
-/
structure HasOwnReferences (job : Job) : Prop where
  interfaces
    : ∀ type ∈ job.schema.types, ∀ mention ∈ type.interfaces, job.Names .interface mention.name
  members
    : ∀ type ∈ job.schema.types, type.kind = .union →
        ∀ mention ∈ type.possibleTypes, job.Names .object mention.name

/-- A name that is not that of a built-in type is looked up at the place of the type of that name,
whose kind is the one that the schema has for it.
-/
theorem Placed.exists_of_names {builtins : List String} {kind : TypeKind} {name : Json}
    {mapping : NameMapping} (stages : job.Stages draft)
    (known : job.reference.builtinNames = .ok builtins)
    (placed
      : Placed (startRegistry job.settings builtins) draft.plan.schema.types
          draft.plan.classified)
    (names : job.Names kind name) (found : draft.plan.classified.lookupValue name = .ok mapping)
    : ∃ entry ∈ (startRegistry job.settings builtins).kept draft.plan.schema.types,
        mapping = (startRegistry job.settings builtins).place entry ∧ entry.2.kind = kind := by
  obtain ⟨⟨type, member, named, ofKind⟩, notBuiltin⟩ := names
  obtain ⟨text, rfl, mapped⟩ := Classified.lookupValue_eq_ok.mp found
  have own : mapping.isBuiltin = false := by
    rw [placed.classified_eq] at mapped
    rcases Registry.get?_withPlaces_cases mapped with builtin | ⟨other, -, rfl⟩
    · obtain ⟨among, -⟩ := get?_startRegistry_eq_some.mp builtin
      exact absurd (List.mem_map.mpr ⟨text, among, rfl⟩) (notBuiltin builtins known)
    · exact Registry.place_isBuiltin _ _
  obtain ⟨kept, keeps, rfl⟩ := placed.exists_of_get? mapped own
  obtain ⟨among, keptName, -⟩ := Registry.mem_kept.mp keeps
  -- the filters have kept the type that the schema has, and it is the only one of its name
  have alsoKept : type ∈ draft.plan.schema.types :=
    (Hooks.isCutFrom stages.filtered).namesakes among member (named.trans keptName.symm)
  have single := stages.count_le_one mapped own
  rw [← keptName] at single
  have same : kept = type :=
    eq_of_count_map_le_one single among alsoKept (named.trans keptName.symm)
  exact ⟨(text, kept), keeps, rfl, same ▸ ofKind⟩

/-- What a type of a run refers to is provided, and the modules of the user that it includes are
among the files.
-/
theorem Stages.hasReferences (stages : job.Stages draft)
    (files : job.HasFiles draft.plan generation) (plain : job.settings.baseTypeOverrides = [])
    (own : job.HasOwnReferences) {subject : Subject}
    (member : subject ∈ job.subjects draft.plan)
    : subject.HasReferences draft.plan (job.Provides draft.plan generation)
        (job.HasUserModule generation) := by
  obtain ⟨builtins, known, placed⟩ := stages.exists_placed
  have noOverrides := (startRegistry_start job.settings builtins).2.trans plain
  obtain ⟨entry, keeps, typeSame, mappingSame⟩ := placed.exists_of_mem member
  have here := files.type subject.mapping.targetName (List.mem_map.mpr ⟨subject, member, rfl⟩)
  refine ⟨?_, .inr here.1, ?_, ?_, ?_⟩
  · intro name mapping found
    cases builtin : mapping.isBuiltin with
    | true => exact .inl ⟨name, mapping, found, builtin, rfl⟩
    | false =>
        obtain ⟨type, keeps, rfl⟩ := placed.exists_of_get? found builtin
        exact .inr (files.type _ (placed.mem_targets job keeps)).1
  · obtain ⟨base, based, isBase⟩ := exists_base_of_place noOverrides entry
    exact ⟨base.name, mappingSame ▸ based, .inr (files.base base isBase)⟩
  · intro implemented
    apply here.2
    rw [mappingSame] at implemented ⊢
    exact spec_mem_kindsFor_place implemented
  · intro mention mentioned mapping found
    obtain ⟨among, -, -⟩ := Registry.mem_kept.mp keeps
    have type : subject.type ∈ job.schema.types :=
      (Hooks.isCutFrom stages.filtered).mem (typeSame ▸ among)
    obtain ⟨other, alsoKeeps, rfl, ofKind⟩ :=
      Placed.exists_of_names stages known placed (own.interfaces _ type mention mentioned) found
    apply (files.type _ (placed.mem_targets job alsoKeeps)).2
    apply spec_mem_kindsFor_place
    simp [NameMapping.hasImplementation, Registry.place, Registry.mappingFor, TypeName.categorize,
      ofKind]

/-- A declaration in the preamble of a type names what is provided. -/
theorem Stages.isPiece_declaration (stages : job.Stages draft)
    (files : job.HasFiles draft.plan generation) (plain : job.settings.baseTypeOverrides = [])
    (own : job.HasOwnReferences) {subject : Subject} (member : subject ∈ job.subjects draft.plan)
    {graph : DependencyGraph} {contribution : Contribution} {source target : String}
    (made : contribution ∈ Contribution.script draft.plan subject)
    (declared : contribution.declared? draft.plan graph source = some target)
    : IsPiece draft.plan.modules (job.Provides draft.plan generation) (job.HasUserModule generation)
        (draft.plan.declaration target) := by
  obtain ⟨builtins, known, placed⟩ := stages.exists_placed
  obtain ⟨onlyBuiltins, noOverrides⟩ := startRegistry_start job.settings builtins
  rw [plain] at noOverrides
  -- the place of a kept type is found under the name that is declared
  have place
      : ∃ entry ∈ (startRegistry job.settings builtins).kept draft.plan.schema.types,
          draft.plan.classified.byTarget? target
            = some ((startRegistry job.settings builtins).place entry) := by
    rcases Contribution.declared?_eq_some.mp declared with ⟨tracked, -⟩ | rfl
    · cases contribution with
      | reference other =>
          simp only [Contribution.tracked?, Option.ite_none_right_eq_some, Option.some.injEq]
            at tracked
          obtain ⟨tracked, rfl⟩ := tracked
          unfold Classified.isTracked at tracked
          split at tracked
          case h_1 => cases tracked
          case h_2 mapping found =>
            have notBuiltin : mapping.isBuiltin = false := by simpa using tracked
            obtain ⟨entry, keeps, rfl, -⟩ :=
              placed.exists_of_byTarget? onlyBuiltins found notBuiltin
            exact ⟨entry, keeps, found⟩
      | _ => cases tracked
    · obtain ⟨isUnion, mention, mentioned, mapping, found, rfl⟩
          : Contribution.IsMemberTarget draft.plan subject target :=
        (Contribution.isBodyOf_or_isClosing made).elim id False.elim
      obtain ⟨entry, keeps, typeSame, -⟩ := placed.exists_of_mem member
      obtain ⟨among, -, -⟩ := Registry.mem_kept.mp keeps
      have type : subject.type ∈ job.schema.types :=
        (Hooks.isCutFrom stages.filtered).mem (typeSame ▸ among)
      obtain ⟨other, alsoKeeps, rfl, -⟩ :=
        Placed.exists_of_names stages known placed (own.members _ type isUnion mention mentioned)
          found
      exact placed.exists_byTarget? alsoKeeps
  obtain ⟨entry, keeps, found⟩ := place
  obtain ⟨base, based, isBase⟩ := exists_base_of_place noOverrides entry
  have named : ((startRegistry job.settings builtins).place entry).targetName = target :=
    eq_of_beq
      (List.find?_some (p := fun mapping : NameMapping => mapping.targetName == target) found)
  have there : job.Provides draft.plan generation target :=
    .inr (named ▸ (files.type _ (placed.mem_targets job keeps)).1)
  unfold Plan.declaration ForwardDeclaration.text
  rw [found]
  dsimp only
  split
  · refine ⟨.declaredModule target, ?_, ?_, by simp [SchemaPiece.included?]⟩
    · simp only [SchemaPiece.text, String.append_assoc]
    · simpa [SchemaPiece.targets] using there
  · refine ⟨.declaredClass target base.name, ?_, ?_, by simp [SchemaPiece.included?]⟩
    · simp only [SchemaPiece.text, based, Option.getD_some, String.append_assoc]
    · simpa [SchemaPiece.targets] using ⟨there, .inr (files.base base isBase)⟩

-----------------------------------------------------------------------------------------
-- References of documents
-----------------------------------------------------------------------------------------

/-- What the documents of types and those of fixed text refer to is provided, and what they include
is among the files.
-/
structure IsLinked (job : Job) (draft : Draft) (generation : Generation) : Prop where
  definitions
    : ∀ artifacts ∈ draft.assembly.artifacts.values,
        ∀ place, ∀ text ∈ artifacts.schema.fragments place,
          IsPiece draft.plan.modules (job.Provides draft.plan generation)
            (job.HasUserModule generation) text
  stubs
    : ∀ artifacts ∈ draft.assembly.artifacts.values,
        ∀ document ∈ artifacts.implementation,
          ∀ place, ∀ text ∈ document.fragments place,
            IsStubPiece draft.plan.modules (job.HasUserModule generation) text
  root
    : ∃ query mutation,
        draft.assembly.fixed.get? "schema/schema"
            = some (Page.schemaRootText draft.plan.modules query mutation ++ "\n")
          ∧ job.Provides draft.plan generation query
          ∧ job.Provides draft.plan generation mutation
  bases
    : ∀ base ∈ bases,
        draft.assembly.fixed.get? ("schema/" ++ Naming.filePath base.name)
            = some
              (Page.baseTypeText draft.plan.modules base.name base.superclass base.body
                  base.userModule
                ++ "\n")
          ∧ ∀ name ∈ base.userModule, job.HasUserModule generation name

/-- Without templates of one's own the documents of fixed text are those of the roots, and the base
classes.
-/
theorem Stages.fixed_get? (stages : job.Stages draft) (standard : job.templates = [])
    : (∃ query mutation,
        draft.plan.classified.lookupValue draft.plan.schema.queryType = .ok query
        ∧ draft.plan.classified.lookupValue draft.plan.schema.mutationType = .ok mutation
        ∧ draft.assembly.fixed.get? "schema/schema"
          = some
            (Page.schemaRootText draft.plan.modules query.targetName mutation.targetName ++ "\n"))
      ∧ ∀ base ∈ bases,
          draft.assembly.fixed.get? ("schema/" ++ Naming.filePath base.name)
            = some
              (Page.baseTypeText draft.plan.modules base.name base.superclass base.body
                  base.userModule
                ++ "\n") := by
  obtain ⟨texts, made, -⟩ := stages.exists_texts
  have unique : (Table.names texts).Nodup := by
    rw [Table.names, paths_fixedTexts made]
    exact nodup_fixedPaths.of_append_left
  rw [stages.fixed_eq made]
  simp only [Table.get?_eq_some_iff unique]
  unfold fixedTexts at made
  simp only [Contribution.render_eq_standardText (stages.templates.trans standard), bind_eq_ok]
    at made
  obtain ⟨query, queried, mutation, mutated, root, rooted, baseTexts, basesMade, made⟩ := made
  obtain ⟨userTexts, -, same⟩ := made
  obtain rfl := Except.ok.inj rooted
  obtain rfl := Except.ok.inj same
  refine ⟨⟨query, mutation, queried, mutated, List.mem_cons_self⟩, ?_⟩
  intro base member
  -- every base class has a text, so the texts are those of the base classes in order
  obtain rfl := Except.ok.inj (basesMade.symm.trans (mapM_eq_ok fun _ _ => rfl))
  exact List.mem_cons_of_mem _
    (List.mem_append_left _ (List.mem_map.mpr ⟨base, member, rfl⟩))

/-- A contribution that places a text in a schema document writes a piece. -/
theorem isPiece_of_placed? {contribution : Contribution} {modules : Modules}
    {isThere isModule : String → Prop} {place : Section} {text : String}
    (writes : contribution.WritesPieces modules isThere isModule)
    (placed : contribution.placed? .schema place = some text)
    : IsPiece modules isThere isModule text := by
  rcases Contribution.placed?_eq_some placed with rfl | ⟨rfl, -⟩ <;> exact writes

/-- A contribution that places a text in a stub writes a piece of a stub. -/
theorem isStubPiece_of_placed? {contribution : Contribution} {modules : Modules}
    {isThere isModule : String → Prop} {place : Section} {text : String}
    (writes : contribution.WritesPieces modules isThere isModule)
    (placed : contribution.placed? .implementation place = some text)
    : IsStubPiece modules isModule text := by
  rcases Contribution.placed?_eq_some placed with rfl | ⟨rfl, -⟩ <;> exact writes

/-- The documents of a run are those of its types. -/
theorem Stages.exists_of_mem_artifacts (stages : job.Stages draft) {found : Artifacts}
    (member : found ∈ draft.assembly.artifacts.values)
    : ∃ subject ∈ job.subjects draft.plan,
        ∃ graph, found = subject.documents draft.plan graph := by
  have artifacts := (stages.artifacts_eq stages.nodup_targets).1
  obtain ⟨entry, among, rfl⟩ := List.mem_map.mp member
  rw [artifacts] at among
  obtain ⟨earlier, subject, later, split, same⟩ := Plan.exists_of_mem_documents among
  exact ⟨subject, split ▸ List.mem_append_right _ List.mem_cons_self, _, (Prod.mk.inj same).2⟩

/-- Outside of preambles the fragments of the documents of a run are pieces whose names are there,
when all references of its types are.
-/
theorem Stages.isPiece_of_mem_fragments (stages : job.Stages draft) (standard : job.templates = [])
    {isThere isModule : String → Prop}
    (references
      : ∀ subject ∈ job.subjects draft.plan,
          subject.HasReferences draft.plan isThere isModule)
    {found : Artifacts} (member : found ∈ draft.assembly.artifacts.values)
    : (∀ place ≠ .preamble, ∀ text ∈ found.schema.fragments place,
        IsPiece draft.plan.modules isThere isModule text)
      ∧ ∀ document ∈ found.implementation, ∀ place, ∀ text ∈ document.fragments place,
          IsStubPiece draft.plan.modules isModule text := by
  obtain ⟨subject, generated, graph, rfl⟩ := stages.exists_of_mem_artifacts member
  have writes {contribution : Contribution}
      (made : contribution ∈ Contribution.script draft.plan subject) :=
    Contribution.writesPieces_of_mem_script (stages.templates.trans standard)
      (references subject generated) made
  constructor
  · intro place outside text among
    rw [Subject.schema_documents,
      Document.fragments_foldl_receive fun same => absurd same outside] at among
    obtain ⟨contribution, made, placed⟩ := List.mem_filterMap.mp among
    exact isPiece_of_placed? (writes made) placed
  · intro document isStub place text among
    have stub : (subject.documents draft.plan graph).document? .implementation = some document :=
      isStub
    rw [Subject.fragments_of_document? stub fun _ => by decide] at among
    obtain ⟨contribution, made, placed⟩ := List.mem_filterMap.mp among
    exact isStubPiece_of_placed? (writes made) placed

/-- The run is linked: each fragment of a document is a piece that a contribution writes, or a
declaration in the preamble.
-/
theorem Stages.isLinked (stages : job.Stages draft) (files : job.HasFiles draft.plan generation)
    (standard : job.templates = []) (plain : job.settings.baseTypeOverrides = [])
    (own : job.HasOwnReferences) : job.IsLinked draft generation := by
  have pieces {found : Artifacts} (member : found ∈ draft.assembly.artifacts.values) :=
    stages.isPiece_of_mem_fragments standard
      (fun _ generated => stages.hasReferences files plain own generated) member
  refine ⟨?_, fun found member => (pieces member).2, ?_, ?_⟩
  · intro found member place text among
    by_cases preamble : place = .preamble
    · subst preamble
      obtain ⟨subject, generated, graph, rfl⟩ := stages.exists_of_mem_artifacts member
      obtain ⟨contribution, made, target, declared, rfl⟩ := Subject.mem_preamble.mp among
      exact stages.isPiece_declaration files plain own generated made declared
    · exact (pieces member).1 place preamble text among
  · obtain ⟨⟨query, mutation, queried, mutated, text⟩, -⟩ := stages.fixed_get? standard
    have there {name : Json} {mapping : NameMapping}
        (found : draft.plan.classified.lookupValue name = .ok mapping)
        : job.Provides draft.plan generation mapping.targetName := by
      obtain ⟨known, -, found⟩ := Classified.lookupValue_eq_ok.mp found
      obtain ⟨builtins, -, placed⟩ := stages.exists_placed
      cases builtin : mapping.isBuiltin with
      | true => exact .inl ⟨known, mapping, found, builtin, rfl⟩
      | false =>
          obtain ⟨type, keeps, rfl⟩ := placed.exists_of_get? found builtin
          exact .inr (files.type _ (placed.mem_targets job keeps)).1
    exact ⟨query.targetName, mutation.targetName, text, there queried, there mutated⟩
  · intro base member
    refine ⟨(stages.fixed_get? standard).2 base member, fun name has => files.user name ?_⟩
    have included : ∀ base ∈ Job.bases, ∀ name ∈ base.userModule, name ∈ userModules := by decide
    exact included base member name has

/-- Nothing that generated code names is missing. When a run without templates and base classes of
one's own comes to files, and the types of its schema implement interfaces of the schema and unite
objects of it, then whatever a schema document names is provided by the reference library or defined
by a file of the run, be it the type of a field or an argument, an interface, a member of a union, a
root, or a base; and each module of the user that a document includes has a file.
-/
theorem isLinked_of_build (standard : job.templates = [])
    (plain : job.settings.baseTypeOverrides = []) (own : job.HasOwnReferences)
    (built : job.build.outcome = .ok generation)
    : ∃ draft, job.draft.outcome = .ok draft ∧ job.IsLinked draft generation := by
  obtain ⟨draft, files, drafted, -⟩ := build_eq_ok_iff.mp built
  have stages := draft_eq_ok_iff.mp drafted
  exact ⟨draft, drafted, stages.isLinked (hasFiles_of_build drafted built) standard plain own⟩

end

def people : Job :=
  let named : TypeDef := plainType "Named" .interface [plainField "id" "ID" []]
  let person : TypeDef :=
    {
      plainType "Person" .object
        [plainField "friends" "PersonConnection" [plainField "like" "Sample" []]] with
      interfaces := [⟨.string "Named", .string "INTERFACE", false⟩]
    }
  let result : TypeDef :=
    {
      plainType "Result" .union [] with
      possibleTypes := [⟨.string "Person", .string "OBJECT", false⟩]
    }
  let sample : TypeDef :=
    {
      plainType "Sample" .inputObject [] with
      fields := none
      inputFields := some [plainField "person" "ID" []]
    }
  smallJob "Query" "Query"
    [plainType "Query" .object [plainField "search" "Result" []], named, person, result, sample]

/-- The run on people comes to files, and all that it names is there. -/
theorem isLinked_people
    : people.templates = [] ∧ people.settings.baseTypeOverrides = [] ∧ people.HasOwnReferences
      ∧ ∃ generation,
          people.build.outcome = .ok generation
          ∧ ∃ draft, people.draft.outcome = .ok draft ∧ people.IsLinked draft generation := by
  have own : people.HasOwnReferences := by
    constructor <;> unfold Names <;> decide +kernel
  have succeeds : Succeeds people.build.outcome := by
    decide +kernel
  obtain ⟨generation, built⟩ := succeeds
  exact ⟨rfl, rfl, own, generation, built, isLinked_of_build rfl rfl own built⟩

end Job

end RubySchema
