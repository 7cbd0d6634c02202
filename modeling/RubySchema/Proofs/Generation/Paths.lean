import Mathlib.Data.List.Nodup
import Mathlib.Data.List.Pairwise
import RubySchema.Proofs.Generation.Filing
import RubySchema.Proofs.Generation.Stages
import RubySchema.Proofs.Registry.FilePaths
import RubySchema.Proofs.Runs
import RubySchema.Proofs.Settings

/-!
The paths of the files of a run differ exactly when the generated names have file paths of their
own, which are not those of base classes, and no spec has the path of a definition or a stub.
-/

namespace RubySchema

open Text

namespace Job

-----------------------------------------------------------------------------------------
-- Paths that a run has
-----------------------------------------------------------------------------------------

def artifactPaths (settings : Settings) (target : String) : List String :=
  let path := Naming.filePath target
  (settings.libDir ++ "/schema/" ++ path ++ ".rb")
    :: if .spec ∈ Artifacts.kindsFor target then
        [settings.libDir ++ "/" ++ path ++ ".rb", settings.specDir ++ "/" ++ path ++ "_spec.rb"]
      else []

def fixedPaths : List String :=
  "schema/schema"
    :: (bases.map (fun base => "schema/" ++ Naming.filePath base.name)
      ++ userModules.map Naming.filePath)

def sharedPaths (settings : Settings) : List String :=
  (fixedPaths ++ ["file_list"]).map (fun path => settings.libDir ++ "/" ++ path ++ ".rb")
    ++ [settings.libDir ++ "/field_list.md"]

variable {settings : Settings}

theorem paths_artifactFiles {name : String} {artifacts : Artifacts} (filed : artifacts.IsFiled name)
    : (artifactFiles settings artifacts).map GeneratedFile.path = artifactPaths settings name := by
  have both
      : DocumentKind.implementation ∈ Artifacts.kindsFor name
        ↔ DocumentKind.spec ∈ Artifacts.kindsFor name := by
    unfold Artifacts.kindsFor
    split <;> simp
  have stub : artifacts.implementation.isSome = true ↔ _ := filed.kinds .implementation
  have spec : artifacts.spec.isSome = true ↔ _ := filed.kinds .spec
  rw [both] at stub
  unfold artifactFiles artifactPaths
  rw [filed.named]
  by_cases has : DocumentKind.spec ∈ Artifacts.kindsFor name
  · obtain ⟨implementation, hasStub⟩ := Option.isSome_iff_exists.mp (stub.mpr has)
    obtain ⟨document, hasSpec⟩ := Option.isSome_iff_exists.mp (spec.mpr has)
    simp [has, hasStub, hasSpec]
  · have noStub : artifacts.implementation = none := by
      rw [← Option.not_isSome_iff_eq_none, stub]
      exact has
    have noSpec : artifacts.spec = none := by
      rw [← Option.not_isSome_iff_eq_none, spec]
      exact has
    simp [has, noStub, noSpec]

/-- The documents of fixed text have the same paths in every run. -/
theorem paths_fixedTexts {plan : Plan} {texts : List (String × String)}
    (made : fixedTexts plan = .ok texts) : texts.map Prod.fst = fixedPaths := by
  unfold fixedTexts at made
  simp only [bind_eq_ok] at made
  obtain ⟨query, -, mutation, -, root, -, baseTexts, basesMade, userTexts, usersMade, same⟩ := made
  cases same
  have bases : baseTexts.map Prod.fst = Job.bases.map fun base =>
      "schema/" ++ Naming.filePath base.name := by
    refine map_of_mapM (fun base _ entry made => ?_) basesMade
    obtain ⟨text, -, same⟩ := bind_eq_ok.mp made
    cases same
    rfl
  have users : userTexts.map Prod.fst = userModules.map Naming.filePath := by
    refine map_of_mapM (fun name _ entry made => ?_) usersMade
    obtain ⟨text, -, same⟩ := bind_eq_ok.mp made
    cases same
    rfl
  rw [List.map_cons, List.map_append, bases, users]
  rfl

theorem fixedPaths_eq
    : fixedPaths
      = [
          "schema/schema", "schema/types/base_object", "schema/types/base_object_node",
          "schema/types/base_enum", "schema/types/base_scalar",
          "schema/interfaces/base_interface", "schema/types/base_union",
          "schema/inputs/base_input", "schema/payloads/base_payload", "types/base_object",
          "types/base_enum", "types/base_scalar", "interfaces/base_interface",
          "types/base_union"
        ] := by
  decide +kernel

theorem nodup_fixedPaths : (fixedPaths ++ ["file_list"]).Nodup := by
  rw [fixedPaths_eq]
  decide +kernel

/-- The documents of fixed text are there as they were made. -/
theorem Stages.fixed_eq {job : Job} {draft : Draft} {texts : List (String × String)}
    (stages : job.Stages draft) (made : fixedTexts draft.plan = .ok texts)
    : draft.assembly.fixed = texts := by
  obtain ⟨others, again, completed⟩ := stages.exists_texts
  obtain rfl : texts = others := Except.ok.inj (made.symm.trans again)
  have holds := Progress.holds_performSubjects Assembly.Holds.empty stages.performed
  have unique : (Table.names ([] ++ texts)).Nodup := by
    show (texts.map Prod.fst).Nodup
    rw [paths_fixedTexts made]
    exact nodup_fixedPaths.of_append_left
  rw [completed, fixed_withFixed, holds.fixed, Table.foldl_put_of_nodup unique, List.nil_append]

/-- The paths of a run's files are those of its generated names, and the shared ones. -/
theorem paths_of_build {job : Job} {draft : Draft} {generation : Generation}
    (drafted : job.draft.outcome = .ok draft) (built : job.build.outcome = .ok generation)
    : ∃ targets : List String,
        targets.Nodup
        ∧ (∀ name,
            name ∈ targets
            ↔ name ∈ (job.subjects draft.plan).map fun subject => subject.mapping.targetName)
        ∧ generation.files.map GeneratedFile.path
          = targets.flatMap (artifactPaths job.settings) ++ sharedPaths job.settings := by
  have stages := draft_eq_ok_iff.mp drafted
  obtain ⟨texts, made, completed⟩ := stages.exists_texts
  have holds := Progress.holds_performSubjects Assembly.Holds.empty stages.performed
  obtain ⟨other, files, redrafted, listed, rfl⟩ := build_eq_ok_iff.mp built
  obtain rfl : draft = other := Except.ok.inj (drafted.symm.trans redrafted)
  have fixed := stages.fixed_eq made
  have artifacts : draft.assembly.artifacts = draft.progress.assembly.artifacts := by
    rw [completed, artifacts_withFixed]
  refine ⟨draft.progress.assembly.artifacts.names, holds.unique, ?_, ?_⟩
  · intro name
    rw [holds.names, List.nil_append]
  · unfold Job.files at listed
    obtain ⟨fileList, -, listed⟩ := bind_eq_ok.mp listed
    obtain ⟨fieldList, -, listed⟩ := bind_eq_ok.mp listed
    obtain rfl := Except.ok.inj listed
    have own
        : (draft.assembly.artifacts.values.flatMap (artifactFiles draft.plan.settings)).map
            GeneratedFile.path
          = draft.progress.assembly.artifacts.names.flatMap (artifactPaths job.settings) := by
      rw [artifacts, stages.settings, List.map_flatMap, Table.values, Table.names,
        List.flatMap_map, List.flatMap_map]
      apply List.flatMap_congr
      intro entry member
      exact paths_artifactFiles (holds.filed (Table.get?_eq_some_iff holds.unique |>.mpr member))
    have shared
        : (draft.assembly.fixed.map (fixedFile draft.plan.settings)).map GeneratedFile.path
          = fixedPaths.map fun path => job.settings.libDir ++ "/" ++ path ++ ".rb" := by
      rw [fixed, stages.settings, List.map_map, ← paths_fixedTexts made, List.map_map]
      rfl
    have unheaded (files : List GeneratedFile)
        : (files.map fun file =>
            { file with content := job.hooks.applyHeaders file.path file.content }).map
              GeneratedFile.path
          = files.map GeneratedFile.path := by
      rw [List.map_map]
      rfl
    show List.map GeneratedFile.path (List.map _ _) = _
    have listName
        : job.settings.libDir ++ "/" ++ "file_list" ++ ".rb"
          = job.settings.libDir ++ "/file_list.rb" := by
      rw [← String.toList_inj]
      simp
    rw [unheaded, List.map_append, List.map_append, own, shared, stages.settings, sharedPaths,
      List.map_append, List.map_singleton, listName, List.append_assoc, List.append_assoc]
    rfl

-----------------------------------------------------------------------------------------
-- Paths that meet
-----------------------------------------------------------------------------------------

/-- A generated name as types with usual names have it. -/
def IsTypeName (target : String) : Prop :=
  ∃ category stem, target = Category.word category ++ "::" ++ stem ∧ TypeName.IsGraphQL stem

/-- A file path as types with usual names have it: a name in the directory of a category. -/
def IsTypePath (path : String) : Prop :=
  ∃ category name, '/' ∉ name.toList ∧ path = Category.directory category ++ "/" ++ name

variable {path other first second target : String}

theorem IsTypeName.isTypePath (isName : IsTypeName target)
    : IsTypePath (Naming.filePath target) := by
  obtain ⟨category, stem, rfl, graphQL⟩ := isName
  exact ⟨category, _, Naming.slash_not_mem_snakeCase graphQL,
    Naming.filePath_category category graphQL⟩

/-- The path of a spec is that of a type as well. -/
theorem IsTypePath.spec (isPath : IsTypePath path) : IsTypePath (path ++ "_spec") := by
  obtain ⟨category, name, free, rfl⟩ := isPath
  refine ⟨category, name ++ "_spec", ?_, String.append_assoc⟩
  rw [String.toList_append, List.mem_append, not_or]
  exact ⟨free, by decide⟩

theorem isTypePath_base : ∀ base ∈ bases, IsTypePath (Naming.filePath base.name) := by
  have graphQL (category : Category) (stem : String) (usual : TypeName.IsGraphQL stem)
      : IsTypePath (Naming.filePath (category.word ++ "::" ++ stem)) :=
    IsTypeName.isTypePath ⟨category, stem, rfl, usual⟩
  intro base member
  simp only [bases, List.mem_cons, List.not_mem_nil, or_false] at member
  rcases member with rfl | rfl | rfl | rfl | rfl | rfl | rfl | rfl
  · exact graphQL .types "BaseObject" (by decide)
  · exact graphQL .types "BaseObjectNode" (by decide)
  · exact graphQL .types "BaseEnum" (by decide)
  · exact graphQL .types "BaseScalar" (by decide)
  · exact graphQL .interfaces "BaseInterface" (by decide)
  · exact graphQL .types "BaseUnion" (by decide)
  · exact graphQL .inputs "BaseInput" (by decide)
  · exact graphQL .payloads "BasePayload" (by decide)

/-- Every user module belongs to a base class. -/
theorem exists_base_of_mem_userModules
    : ∀ name ∈ userModules, ∃ base ∈ bases, base.name = name := by
  decide

theorem IsTypePath.slash_mem (isPath : IsTypePath path) : '/' ∈ path.toList := by
  obtain ⟨category, name, -, rfl⟩ := isPath
  simp

/-- No category has the directory of definitions. -/
theorem IsTypePath.ne_schema (isPath : IsTypePath path) (other : String)
    : path ≠ "schema/" ++ other := by
  obtain ⟨category, name, -, rfl⟩ := isPath
  intro same
  have spelled := congrArg String.toList same
  have begins : ∃ c rest, category.directory.toList = c :: rest ∧ c ≠ 's' := by
    cases category <;> exact ⟨_, _, rfl, by decide⟩
  obtain ⟨c, rest, starts, notSchema⟩ := begins
  simp only [String.toList_append, starts, List.cons_append] at spelled
  exact notSchema (List.cons.inj spelled).1

/-- Texts with the same last name behind a slash are the same in front of it. -/
theorem eq_of_append_slash {name last : String} (free : '/' ∉ name.toList)
    (otherFree : '/' ∉ last.toList) (same : first ++ "/" ++ name = second ++ "/" ++ last)
    : first = second ∧ name = last := by
  have spelled (text name : String)
      : (text ++ "/" ++ name).toList.reverse
        = name.toList.reverse ++ '/' :: text.toList.reverse := by
    simp
  have reversed
      : name.toList.reverse ++ '/' :: first.toList.reverse
        = last.toList.reverse ++ '/' :: second.toList.reverse := by
    rw [← spelled, ← spelled, same]
  have names : name = last := by
    rw [← String.toList_inj, ← List.reverse_inj]
    exact eq_of_append_cons (by simpa using free) (by simpa using otherFree) reversed
  refine ⟨?_, names⟩
  rw [names] at reversed
  rw [← String.toList_inj, ← List.reverse_inj]
  exact (List.cons.inj (List.append_cancel_left reversed)).2

/-- Places of types are the same only when both their roots and their paths are. -/
theorem IsTypePath.eq_of_append (isPath : IsTypePath path) (otherPath : IsTypePath other)
    (same : first ++ "/" ++ path = second ++ "/" ++ other) : first = second ∧ path = other := by
  obtain ⟨category, name, free, rfl⟩ := isPath
  obtain ⟨directory, last, otherFree, rfl⟩ := otherPath
  have directoryFree (category : Category) : '/' ∉ category.directory.toList := by
    cases category <;> decide
  simp only [← String.append_assoc] at same
  obtain ⟨front, rfl⟩ := eq_of_append_slash free otherFree same
  obtain ⟨roots, directories⟩ :=
    eq_of_append_slash (directoryFree category) (directoryFree directory) front
  exact ⟨roots, by rw [directories]⟩

/-- Texts with different last characters differ. -/
theorem ne_of_getLast? {before behind front back : List Char} (filled : behind ≠ [])
    (backFilled : back ≠ []) (ends : behind.getLast? ≠ back.getLast?)
    : before ++ behind ≠ front ++ back := by
  intro same
  have last := congrArg List.getLast? same
  rw [List.getLast?_append_of_ne_nil _ filled, List.getLast?_append_of_ne_nil _ backFilled] at last
  exact ends last

/-- A definition of a type has the path of a shared file only when that is of a base class. -/
theorem IsTypePath.schema_mem_fixedPaths (isPath : IsTypePath path)
    (member : "schema/" ++ path ∈ fixedPaths ++ ["file_list"])
    : ∃ base ∈ bases, path = Naming.filePath base.name := by
  simp only [fixedPaths, List.cons_append, List.append_assoc, List.mem_cons, List.mem_append,
    List.mem_map, List.not_mem_nil, or_false] at member
  rcases member with root | ⟨base, among, same⟩ | ⟨name, among, same⟩ | list
  · have single : path = "schema" := (String.append_right_inj "schema/").mp root
    have slash := isPath.slash_mem
    rw [single] at slash
    exact absurd slash (by decide)
  · exact ⟨base, among, ((String.append_right_inj "schema/").mp same).symm⟩
  · obtain ⟨base, isBase, rfl⟩ := exists_base_of_mem_userModules name among
    exact absurd same ((isTypePath_base base isBase).ne_schema path)
  · have spelled := congrArg String.toList list
    rw [String.toList_append] at spelled
    cases spelled

/-- A stub has the path of a shared file only when that is of a user module. -/
theorem IsTypePath.mem_fixedPaths (isPath : IsTypePath path)
    (member : path ∈ fixedPaths ++ ["file_list"])
    : ∃ base ∈ bases, path = Naming.filePath base.name := by
  simp only [fixedPaths, List.cons_append, List.append_assoc, List.mem_cons, List.mem_append,
    List.mem_map, List.not_mem_nil, or_false] at member
  rcases member with rfl | ⟨base, among, rfl⟩ | ⟨name, among, rfl⟩ | rfl
  · exact absurd rfl (isPath.ne_schema "schema")
  · exact absurd rfl (isPath.ne_schema _)
  · obtain ⟨base, isBase, rfl⟩ := exists_base_of_mem_userModules name among
    exact ⟨base, isBase, rfl⟩
  · exact absurd isPath.slash_mem (by decide)

/-- No shared file has a path like that of a spec. -/
theorem spec_not_mem_sharedPaths (front : String)
    : front ++ "_spec.rb" ∉ sharedPaths settings := by
  have ends
      : ∀ path ∈ fixedPaths ++ ["file_list"],
          path.toList ≠ [] ∧ path.toList.getLast? ≠ "_spec".toList.getLast? := by
    rw [fixedPaths_eq]
    decide +kernel
  have cut : front ++ "_spec.rb" = front ++ "_spec" ++ ".rb" := by
    rw [← String.toList_inj]
    simp
  intro member
  rcases List.mem_append.mp member with member | member
  · obtain ⟨path, among, same⟩ := List.mem_map.mp member
    obtain ⟨filled, notSpec⟩ := ends path among
    rw [cut] at same
    have spelled := congrArg String.toList ((String.append_left_inj ".rb").mp same)
    simp only [String.toList_append] at spelled
    exact ne_of_getLast? filled (by decide) notSpec spelled
  · have spelled := congrArg String.toList (List.mem_singleton.mp member)
    simp only [String.toList_append] at spelled
    exact ne_of_getLast? (by decide) (by decide) (by decide) spelled

theorem nodup_sharedPaths : (sharedPaths settings).Nodup := by
  unfold sharedPaths
  rw [List.nodup_append]
  refine ⟨?_, List.nodup_singleton _, ?_⟩
  · apply nodup_fixedPaths.map
    intro first second same
    exact (String.append_right_inj _).mp ((String.append_left_inj ".rb").mp same)
  · rintro path member last single rfl
    obtain ⟨name, -, same⟩ := List.mem_map.mp member
    rw [List.mem_singleton.mp single] at same
    have spelled := congrArg String.toList same
    simp only [String.toList_append] at spelled
    exact ne_of_getLast? (by decide) (by decide) (by decide) spelled

/-- Where the files of a generated name lie: the directory and the file path below it. -/
def places (settings : Settings) (target : String) : List (String × String) :=
  let path := Naming.filePath target
  (settings.libDir ++ "/schema", path)
    :: if .spec ∈ Artifacts.kindsFor target then
        [(settings.libDir, path), (settings.specDir, path ++ "_spec")]
      else []

def pathAt (place : String × String) : String :=
  place.1 ++ "/" ++ place.2 ++ ".rb"

theorem artifactPaths_eq (settings : Settings) (target : String)
    : artifactPaths settings target = (places settings target).map pathAt := by
  have definition (path : String)
      : settings.libDir ++ "/schema/" ++ path ++ ".rb"
        = settings.libDir ++ "/schema" ++ "/" ++ path ++ ".rb" := by
    rw [← String.toList_inj]
    simp
  have spec (path : String)
      : settings.specDir ++ "/" ++ path ++ "_spec.rb"
        = settings.specDir ++ "/" ++ (path ++ "_spec") ++ ".rb" := by
    rw [← String.toList_inj]
    simp
  unfold artifactPaths places
  by_cases has : DocumentKind.spec ∈ Artifacts.kindsFor target
  · simp [has, definition, spec, pathAt]
  · simp [has, definition, pathAt]

theorem mem_places {place : String × String}
    : place ∈ places settings target
      ↔ place = (settings.libDir ++ "/schema", Naming.filePath target)
        ∨ .spec ∈ Artifacts.kindsFor target
          ∧ (place = (settings.libDir, Naming.filePath target)
            ∨ place = (settings.specDir, Naming.filePath target ++ "_spec")) := by
  unfold places
  by_cases has : DocumentKind.spec ∈ Artifacts.kindsFor target <;> simp [has]

theorem IsTypeName.isTypePath_of_mem_places (isName : IsTypeName target) {place : String × String}
    (member : place ∈ places settings target) : IsTypePath place.2 := by
  rcases mem_places.mp member with rfl | ⟨-, rfl | rfl⟩
  · exact isName.isTypePath
  · exact isName.isTypePath
  · exact isName.isTypePath.spec

/-- Places of types tell their paths. -/
theorem eq_of_pathAt_eq {place otherPlace : String × String} (isPath : IsTypePath place.2)
    (otherPath : IsTypePath otherPlace.2) (same : pathAt place = pathAt otherPlace)
    : place = otherPlace := by
  have cut := (String.append_left_inj ".rb").mp same
  exact Prod.ext_iff.mpr (isPath.eq_of_append otherPath cut)

theorem append_spec_ne (path : String) : path ++ "_spec" ≠ path := by
  intro same
  have lengths := congrArg (fun text => text.toList.length) same
  simp at lengths

theorem nodup_artifactPaths (isName : IsTypeName target)
    : (artifactPaths settings target).Nodup := by
  have unique : (places settings target).Nodup := by
    unfold places
    split
    · simp [Ne.symm (append_spec_ne _)]
    · exact List.nodup_singleton _
  rw [artifactPaths_eq, List.nodup_map_iff_inj_on unique]
  intro place member otherPlace otherMember same
  exact eq_of_pathAt_eq (isName.isTypePath_of_mem_places member)
    (isName.isTypePath_of_mem_places otherMember) same

/-- Specs may have the paths of other files: they lie where stubs or definitions do. -/
def SharesSpecs (settings : Settings) : Prop :=
  settings.specDir = settings.libDir ∨ settings.specDir = settings.libDir ++ "/schema"

/-- The spec of a name has the path of a file of another name. -/
def SpecMeets (settings : Settings) (first second : String) : Prop :=
  SharesSpecs settings
    ∧ .spec ∈ Artifacts.kindsFor first
    ∧ Naming.filePath second = Naming.filePath first ++ "_spec"

/-- A name with the path of a spec has a spec itself: it is of the same category. -/
theorem IsTypeName.spec_mem_kindsFor (isName : IsTypeName first) (otherName : IsTypeName second)
    (same : Naming.filePath second = Naming.filePath first ++ "_spec")
    (has : .spec ∈ Artifacts.kindsFor first) : .spec ∈ Artifacts.kindsFor second := by
  obtain ⟨category, stem, rfl, graphQL⟩ := isName
  obtain ⟨otherCategory, otherStem, rfl, otherGraphQL⟩ := otherName
  have specFree : '/' ∉ (Naming.snakeCase stem ++ "_spec").toList := by
    rw [String.toList_append, List.mem_append, not_or]
    exact ⟨Naming.slash_not_mem_snakeCase graphQL, by decide⟩
  have spelled
      : otherCategory.directory ++ "/" ++ Naming.snakeCase otherStem
        = category.directory ++ "/" ++ (Naming.snakeCase stem ++ "_spec") := by
    rw [← Naming.filePath_category _ otherGraphQL, same, Naming.filePath_category _ graphQL,
      String.append_assoc]
  have directories : otherCategory.directory = category.directory :=
    (eq_of_append_slash (Naming.slash_not_mem_snakeCase otherGraphQL) specFree spelled).1
  have categories : otherCategory = category := Category.directory_injective directories
  rw [Artifacts.spec_mem_kindsFor] at has ⊢
  rwa [categories]

/-- Where a file of one name lies as one of another does, both have the same file path, or one has
that of the other's spec.
-/
theorem meet_of_mem_places {place : String × String} (member : place ∈ places settings first)
    (otherMember : place ∈ places settings second)
    : Naming.filePath first = Naming.filePath second
      ∨ SpecMeets settings first second ∨ SpecMeets settings second first := by
  rcases mem_places.mp member with rfl | ⟨has, rfl | rfl⟩
  · rcases mem_places.mp otherMember with same | ⟨otherHas, same | same⟩
    · exact .inl (Prod.mk.inj same).2
    · exact .inl (Prod.mk.inj same).2
    · obtain ⟨root, path⟩ := Prod.mk.inj same
      exact .inr (.inr ⟨.inr root.symm, otherHas, path⟩)
  · rcases mem_places.mp otherMember with same | ⟨otherHas, same | same⟩
    · exact .inl (Prod.mk.inj same).2
    · exact .inl (Prod.mk.inj same).2
    · obtain ⟨root, path⟩ := Prod.mk.inj same
      exact .inr (.inr ⟨.inl root.symm, otherHas, path⟩)
  · rcases mem_places.mp otherMember with same | ⟨otherHas, same | same⟩
    · obtain ⟨root, path⟩ := Prod.mk.inj same
      exact .inr (.inl ⟨.inr root, has, path.symm⟩)
    · obtain ⟨root, path⟩ := Prod.mk.inj same
      exact .inr (.inl ⟨.inl root, has, path.symm⟩)
    · exact .inl ((String.append_left_inj "_spec").mp (Prod.mk.inj same).2)

/-- The spec that has the path of another file lies where the stub or the definition of the other
name does.
-/
theorem exists_place_of_specMeets (isName : IsTypeName first) (otherName : IsTypeName second)
    (meets : SpecMeets settings first second)
    : ∃ place ∈ places settings first, place ∈ places settings second := by
  obtain ⟨shares, has, same⟩ := meets
  refine ⟨_, mem_places.mpr (.inr ⟨has, .inr rfl⟩), mem_places.mpr ?_⟩
  rcases shares with root | root
  · exact .inr ⟨isName.spec_mem_kindsFor otherName same has, .inl (by rw [root, same])⟩
  · exact .inl (by rw [root, same])

/-- Two generated names have a path in common exactly when they have the same file path, or one has
the file path of the other's spec.
-/
theorem artifactPaths_meet (isName : IsTypeName first) (otherName : IsTypeName second)
    : (∃ path ∈ artifactPaths settings first, path ∈ artifactPaths settings second)
      ↔ Naming.filePath first = Naming.filePath second
        ∨ SpecMeets settings first second ∨ SpecMeets settings second first := by
  have ofPlace
      : (∃ place ∈ places settings first, place ∈ places settings second) →
          ∃ path ∈ artifactPaths settings first, path ∈ artifactPaths settings second := by
    rintro ⟨place, member, otherMember⟩
    rw [artifactPaths_eq, artifactPaths_eq]
    exact ⟨_, List.mem_map_of_mem member, List.mem_map_of_mem otherMember⟩
  constructor
  · rintro ⟨path, member, otherMember⟩
    rw [artifactPaths_eq, List.mem_map] at member otherMember
    obtain ⟨place, member, rfl⟩ := member
    obtain ⟨otherPlace, otherMember, same⟩ := otherMember
    obtain rfl := eq_of_pathAt_eq (otherName.isTypePath_of_mem_places otherMember)
      (isName.isTypePath_of_mem_places member) same
    exact meet_of_mem_places member otherMember
  · rintro (same | meets | meets)
    · exact ⟨_, List.mem_cons_self, same ▸ List.mem_cons_self⟩
    · exact ofPlace (exists_place_of_specMeets isName otherName meets)
    · obtain ⟨place, member, otherMember⟩ := exists_place_of_specMeets otherName isName meets
      exact ofPlace ⟨place, otherMember, member⟩

/-- A generated name and a shared file have a path in common exactly when a base class has the file
path of the name.
-/
theorem artifactPaths_meet_sharedPaths (isName : IsTypeName target)
    : (∃ path ∈ artifactPaths settings target, path ∈ sharedPaths settings)
      ↔ ∃ base ∈ bases, Naming.filePath target = Naming.filePath base.name := by
  have isPath := isName.isTypePath
  have notList (front : String) : front ++ ".rb" ≠ settings.libDir ++ "/field_list.md" := by
    intro same
    have spelled := congrArg String.toList same
    simp only [String.toList_append] at spelled
    exact ne_of_getLast? (by decide) (by decide) (by decide) spelled
  have definition (path : String)
      : settings.libDir ++ "/schema/" ++ path ++ ".rb"
        = settings.libDir ++ "/" ++ ("schema/" ++ path) ++ ".rb" := by
    rw [← String.toList_inj]
    simp
  constructor
  · rintro ⟨path, member, shared⟩
    have fixed {name : String}
        (found : settings.libDir ++ "/" ++ name ++ ".rb" ∈ sharedPaths settings)
        : name ∈ fixedPaths ++ ["file_list"] := by
      rcases List.mem_append.mp found with found | found
      · obtain ⟨other, among, same⟩ := List.mem_map.mp found
        obtain rfl : other = name :=
          (String.append_right_inj _).mp ((String.append_left_inj ".rb").mp same)
        exact among
      · exact absurd (List.mem_singleton.mp found) (notList _)
    unfold artifactPaths at member
    rcases List.mem_cons.mp member with rfl | member
    · rw [definition] at shared
      exact isPath.schema_mem_fixedPaths (fixed shared)
    split at member
    case isFalse => cases member
    case isTrue =>
      rcases List.mem_cons.mp member with rfl | member
      · exact isPath.mem_fixedPaths (fixed shared)
      · obtain rfl := List.mem_singleton.mp member
        exact absurd shared (spec_not_mem_sharedPaths _)
  · rintro ⟨base, member, same⟩
    refine ⟨_, List.mem_cons_self, List.mem_append_left _ (List.mem_map.mpr ?_)⟩
    refine ⟨"schema/" ++ Naming.filePath base.name, ?_, by rw [definition, same]⟩
    simp only [fixedPaths, List.cons_append, List.mem_cons, List.mem_append, List.mem_map]
    exact .inr (.inl (.inl ⟨base, member, rfl⟩))

/-- Generated names whose files do not come in each other's way: they have file paths of their own,
which are not those of base classes, nor those of specs where specs lie among other files.
-/
structure AreApart (settings : Settings) (targets : List String) : Prop where
  names
    : ∀ first ∈ targets, ∀ second ∈ targets,
        Naming.filePath first = Naming.filePath second → first = second
  bases
    : ∀ target ∈ targets, ∀ base ∈ bases, Naming.filePath target ≠ Naming.filePath base.name
  specs : ∀ first ∈ targets, ∀ second ∈ targets, ¬SpecMeets settings first second

theorem AreApart.mono {targets others : List String} (apart : AreApart settings targets)
    (subset : others ⊆ targets) : AreApart settings others where
  names first member second otherMember :=
    apart.names first (subset member) second (subset otherMember)
  bases target member := apart.bases target (subset member)
  specs first member second otherMember :=
    apart.specs first (subset member) second (subset otherMember)

/-- Paths differ exactly when no two names have one in common, and none has one in common with the
shared files.
-/
theorem nodup_paths_iff_areApart {targets : List String} (unique : targets.Nodup)
    (isNames : ∀ target ∈ targets, IsTypeName target)
    : (targets.flatMap (artifactPaths settings) ++ sharedPaths settings).Nodup
      ↔ AreApart settings targets := by
  have meet {first second : String} (member : first ∈ targets) (otherMember : second ∈ targets) :=
    @artifactPaths_meet settings first second (isNames first member) (isNames second otherMember)
  have meetShared {target : String} (member : target ∈ targets) :=
    @artifactPaths_meet_sharedPaths settings target (isNames target member)
  rw [List.nodup_append, List.nodup_flatMap]
  constructor
  · rintro ⟨⟨-, apart⟩, -, others⟩
    have : Std.Symm (Function.onFun List.Disjoint (artifactPaths settings)) :=
      ⟨fun _ _ disjoint _ here there => disjoint there here⟩
    have disjoint {first second : String} (member : first ∈ targets)
        (otherMember : second ∈ targets) (different : first ≠ second)
        : ¬∃ path ∈ artifactPaths settings first, path ∈ artifactPaths settings second :=
      fun ⟨_, here, there⟩ =>
        apart.forall member otherMember different here there
    refine ⟨?_, ?_, ?_⟩
    · intro first member second otherMember same
      by_contra different
      exact disjoint member otherMember different ((meet member otherMember).mpr (.inl same))
    · intro target member base isBase same
      obtain ⟨path, here, there⟩ := (meetShared member).mpr ⟨base, isBase, same⟩
      exact others path (List.mem_flatMap.mpr ⟨target, member, here⟩) path there rfl
    · intro first member second otherMember meets
      have different : first ≠ second := by
        rintro rfl
        exact append_spec_ne _ meets.2.2.symm
      exact disjoint member otherMember different
        ((meet member otherMember).mpr (.inr (.inl meets)))
  · intro apart
    refine ⟨⟨fun target member => nodup_artifactPaths (isNames target member), ?_⟩,
      nodup_sharedPaths, ?_⟩
    · apply unique.pairwise_of_forall_ne
      intro first member second otherMember different path here there
      rcases (meet member otherMember).mp ⟨path, here, there⟩ with same | meets | meets
      · exact different (apart.names first member second otherMember same)
      · exact apart.specs first member second otherMember meets
      · exact apart.specs second otherMember first member meets
    · rintro path member other shared rfl
      obtain ⟨target, among, here⟩ := List.mem_flatMap.mp member
      obtain ⟨base, isBase, same⟩ := (meetShared among).mp ⟨path, here, shared⟩
      exact apart.bases target among base isBase same

-----------------------------------------------------------------------------------------
-- Runs
-----------------------------------------------------------------------------------------

/-- A type of a run with usual names is generated under such a name. -/
theorem Stages.isTypeName {job : Job} {draft : Draft} (stages : job.Stages draft)
    (graphQL
      : ∀ type ∈ draft.plan.schema.types,
          ∃ name, type.name = .string name ∧ TypeName.IsGraphQL name)
    {subject : Subject} (member : subject ∈ job.subjects draft.plan)
    : IsTypeName subject.mapping.targetName := by
  obtain ⟨builtins, -, -, -, same⟩ := classify_eq_ok_iff.mp stages.classified
  obtain ⟨isType, name, named, found, own⟩ := exists_of_mem_subjects member
  obtain ⟨other, otherNamed, usual⟩ := graphQL _ isType
  obtain rfl : name = other := Json.string.inj (named.symm.trans otherNamed)
  rw [same] at found
  obtain ⟨first, -, placed⟩ :=
    Registry.exists_of_get?_withPlaces (onlyBuiltins_startRegistry job.settings builtins) found own
  rw [placed]
  exact ⟨_, _, rfl, usual.categorize first.kind⟩

/-- The paths of a run's files differ exactly when its generated names have file paths of their own,
which are not those of base classes, and, where specs lie among other files, not those of specs.
-/
theorem nodup_paths_iff {job : Job} {draft : Draft} {generation : Generation}
    (drafted : job.draft.outcome = .ok draft) (built : job.build.outcome = .ok generation)
    (graphQL
      : ∀ type ∈ draft.plan.schema.types,
          ∃ name, type.name = .string name ∧ TypeName.IsGraphQL name)
    : (generation.files.map GeneratedFile.path).Nodup
      ↔ AreApart job.settings
          ((job.subjects draft.plan).map fun subject => subject.mapping.targetName) := by
  have stages := draft_eq_ok_iff.mp drafted
  obtain ⟨targets, unique, same, paths⟩ := paths_of_build drafted built
  have isNames : ∀ target ∈ targets, IsTypeName target := by
    intro target member
    obtain ⟨subject, among, rfl⟩ := List.mem_map.mp ((same target).mp member)
    exact stages.isTypeName graphQL among
  rw [paths, nodup_paths_iff_areApart unique isNames]
  exact ⟨fun apart => apart.mono fun name => (same name).mpr,
    fun apart => apart.mono fun name => (same name).mp⟩

/-- A run on two objects without fields, which are the query and the mutation. -/
def emptyRoots (query mutation : String) : Job :=
  smallJob query mutation [plainType query .object [], plainType mutation .object []]

/-- Names that differ in more than capitals have paths of their own. -/
theorem nodup_paths_user_and_post
    : ∃ generation,
        (emptyRoots "UserID" "PostPayload").build.outcome = .ok generation
        ∧ (generation.files.map GeneratedFile.path).Nodup := by
  have drafted
      : ∃ draft,
          (emptyRoots "UserID" "PostPayload").draft.outcome = .ok draft
          ∧ draft.plan.schema.types.map TypeDef.name = [.string "UserID", .string "PostPayload"]
          ∧ ((emptyRoots "UserID" "PostPayload").subjects draft.plan).map
              (fun subject => subject.mapping.targetName)
            = ["Types::UserID", "Payloads::Post"] := by
    decide +kernel
  have built : Succeeds (emptyRoots "UserID" "PostPayload").build.outcome := by
    decide +kernel
  obtain ⟨draft, drafted, names, targets⟩ := drafted
  obtain ⟨generation, built⟩ := built
  have graphQL := @TypeName.isGraphQL_of_names _ ["UserID", "PostPayload"] names (by decide)
  refine ⟨generation, built, (nodup_paths_iff drafted built graphQL).mpr ?_⟩
  rw [targets]
  refine ⟨?_, ?_, ?_⟩
  · decide +kernel
  · decide +kernel
  · rintro first - second - ⟨shares, -⟩
    revert shares
    unfold SharesSpecs
    decide

/-- Two files can have one path although their types have different generated names: the path does
not tell how many capitals stood in a row.
-/
theorem paths_of_two_cases
    : ¬∀ (job : Job) (draft : Draft) (generation : Generation),
        job.settings.IsAccepted
        → job.draft.outcome = .ok draft
        → job.build.outcome = .ok generation
        → (∀ type ∈ draft.plan.schema.types,
            ∃ name, type.name = .string name ∧ TypeName.IsGraphQL name)
        → (generation.files.map GeneratedFile.path).Nodup := by
  intro claim
  have drafted
      : ∃ draft,
          (emptyRoots "UserID" "UserId").draft.outcome = .ok draft
          ∧ draft.plan.schema.types.map TypeDef.name = [.string "UserID", .string "UserId"] := by
    decide +kernel
  have built
      : ∃ generation,
          (emptyRoots "UserID" "UserId").build.outcome = .ok generation
          ∧ ¬(generation.files.map GeneratedFile.path).Nodup := by
    decide +kernel
  have accepted : (emptyRoots "UserID" "UserId").settings.IsAccepted := ⟨[], by decide +kernel⟩
  obtain ⟨draft, drafted, names⟩ := drafted
  obtain ⟨generation, built, meets⟩ := built
  have graphQL := @TypeName.isGraphQL_of_names _ ["UserID", "UserId"] names (by decide)
  exact meets (claim _ draft generation accepted drafted built graphQL)

end Job

end RubySchema
