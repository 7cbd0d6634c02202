import RubySchema.Generation.Output
import RubySchema.Proofs.Generation.Paths

/-!
Under settings that were accepted, every file of a run lies inside the directory that it is written
to exactly when the directories of the settings have names and lead up nowhere; and then no file
outside that directory is made or written over.
-/

namespace RubySchema

open Text

namespace Path

-----------------------------------------------------------------------------------------
-- Files below directories
-----------------------------------------------------------------------------------------

/-- A directory that files can be put into without leaving the one that it lies in. -/
def IsSubdirectory (text : String) : Prop :=
  text ≠ "" ∧ IsInner text

/-- A text spells names, one at least, and no step up. -/
def LeadsDown (text : String) : Prop :=
  ¬GoesUp text ∧ names text ≠ []

instance (text : String) : Decidable (LeadsDown text) :=
  inferInstanceAs (Decidable (_ ∧ _))

/-- The path of a file in a directory, or further down. -/
def LiesIn (directory path : String) : Prop :=
  ∃ rest, LeadsDown rest ∧ path = directory ++ "/" ++ rest

variable {directory first path rest text : String}

theorem LeadsDown.append_slash (stays : ¬GoesUp first) (down : LeadsDown rest)
    : LeadsDown (first ++ "/" ++ rest) := by
  rw [LeadsDown, goesUp_append_slash, names_append_slash]
  exact ⟨not_or.mpr ⟨stays, down.1⟩, List.append_ne_nil_of_right_ne_nil _ down.2⟩

/-- A text of three characters or more without a slash is a name, and no step up. -/
theorem leadsDown_of_single (single : '/' ∉ text.toList) (long : 3 ≤ text.toList.length)
    : LeadsDown text := by
  have other (short : String) (length : short.toList.length < 3) : text ≠ short := by
    rintro rfl
    omega
  rw [LeadsDown, goesUp_of_single single, names, splitOn_of_not_mem single]
  simp [other "" (by decide), other "." (by decide), other ".." (by decide)]

/-- A file is inner when the directory that it lies in is. -/
theorem LiesIn.isInner_iff (lies : LiesIn directory path)
    : IsInner path ↔ IsSubdirectory directory := by
  obtain ⟨rest, down, rfl⟩ := lies
  rw [isInner_append_slash, IsSubdirectory, and_iff_left down.1]

theorem LiesIn.names_ne_nil (lies : LiesIn directory path) : names path ≠ [] := by
  obtain ⟨rest, down, rfl⟩ := lies
  rw [names_append_slash]
  exact List.append_ne_nil_of_right_ne_nil _ down.2

theorem LiesIn.of_append_slash (lies : LiesIn (directory ++ "/" ++ first) path)
    (stays : ¬GoesUp first) : LiesIn directory path := by
  obtain ⟨rest, down, rfl⟩ := lies
  refine ⟨first ++ "/" ++ rest, down.append_slash stays, ?_⟩
  simp only [String.append_assoc]

end Path

namespace Output

-----------------------------------------------------------------------------------------
-- What writing leaves as it is
-----------------------------------------------------------------------------------------

variable {directory place : Path}

/-- Writing a file that lies inside a directory changes no file outside of it. -/
theorem read?_writeFile {file : GeneratedFile} (inner : Path.IsInner file.path)
    (named : Path.names file.path ≠ [])
    (outside : ¬Path.IsBeneath (directory.foldl Path.step []) place) (output : Output)
    (overwrite : Bool)
    : (output.writeFile directory overwrite file).1.tree.read? place
      = output.tree.read? place := by
  have isNames : ∀ name ∈ Path.ofText file.path, Path.IsName name := fun _ => inner.isName
  let read (made : FileTree × Option Error) := made.1.read? place
  have lead : (directory ++ Path.ofText file.path).foldl Path.step []
      = directory.foldl Path.step [] ++ Path.ofText file.path := by
    rw [List.foldl_append, Path.foldl_step_of_isName isNames]
  have different : place ≠ (directory ++ Path.ofText file.path).foldl Path.step [] := by
    intro same
    exact outside ⟨_, inner.ofText_eq_names ▸ named, isNames, same.trans lead⟩
  have kept (text : String)
      : read (output.tree.write (directory ++ Path.ofText file.path) text)
        = output.tree.read? place :=
    FileTree.read?_write_of_ne different text
  unfold writeFile
  dsimp only
  rw [Path.isAbsolute_of_isName isNames, if_neg Bool.false_ne_true]
  split
  · rfl
  split
  case h_1 tree cause written => exact (congrArg read written).symm.trans (kept _)
  case h_2 tree written =>
    have same := (congrArg read written).symm.trans (kept _)
    split <;> exact same

/-- Writing files that lie inside a directory changes no file outside of it, by induction on them.
-/
theorem read?_writeFiles {files : List GeneratedFile}
    (inner : ∀ file ∈ files, Path.IsInner file.path)
    (named : ∀ file ∈ files, Path.names file.path ≠ [])
    (outside : ¬Path.IsBeneath (directory.foldl Path.step []) place) (output : Output)
    (overwrite : Bool)
    : (output.writeFiles directory overwrite files).1.tree.read? place
      = output.tree.read? place := by
  induction files generalizing output with
  | nil => rfl
  | cons file rest ih =>
      obtain ⟨here, later⟩ := List.forall_mem_cons.mp inner
      obtain ⟨named, laterNamed⟩ := List.forall_mem_cons.mp named
      have kept := read?_writeFile here named outside output overwrite
      unfold writeFiles
      split
      case h_1 next written =>
        rw [written] at kept
        rw [ih later laterNamed, kept]
      case h_2 next cause written =>
        rw [written] at kept
        exact kept

end Output

namespace Job

-----------------------------------------------------------------------------------------
-- Paths of a run
-----------------------------------------------------------------------------------------

variable {settings : Settings} {path target : String}

theorem IsTypePath.leadsDown (isPath : IsTypePath path) : Path.LeadsDown (path ++ ".rb") := by
  obtain ⟨category, name, free, rfl⟩ := isPath
  have stays : ¬Path.GoesUp category.directory := by
    cases category <;> decide
  have last : Path.LeadsDown (name ++ ".rb") := by
    apply Path.leadsDown_of_single
    · rw [String.toList_append, List.mem_append, not_or]
      exact ⟨free, by decide⟩
    · simp
  rw [String.append_assoc]
  exact last.append_slash stays

/-- The files of a type lie in the directory of the library, but for its spec. -/
theorem liesIn_of_mem_artifactPaths (isName : IsTypeName target)
    (member : path ∈ artifactPaths settings target)
    : Path.LiesIn settings.libDir path
      ∨ .spec ∈ Artifacts.kindsFor target ∧ Path.LiesIn settings.specDir path := by
  rw [artifactPaths_eq] at member
  obtain ⟨place, among, rfl⟩ := List.mem_map.mp member
  have lies : Path.LiesIn place.1 (pathAt place) :=
    ⟨_, (isName.isTypePath_of_mem_places among).leadsDown, String.append_assoc⟩
  have definitions : settings.libDir ++ "/schema" = settings.libDir ++ "/" ++ "schema" := by
    rw [← String.toList_inj]
    simp
  rcases mem_places.mp among with rfl | ⟨has, rfl | rfl⟩
  · rw [definitions] at lies ⊢
    exact .inl (lies.of_append_slash (by decide))
  · exact .inl lies
  · exact .inr ⟨has, lies⟩

theorem exists_spec_of_mem_kindsFor (isName : IsTypeName target)
    (has : .spec ∈ Artifacts.kindsFor target)
    : ∃ path ∈ artifactPaths settings target, Path.LiesIn settings.specDir path := by
  rw [artifactPaths_eq]
  refine ⟨_, List.mem_map_of_mem (mem_places.mpr (.inr ⟨has, .inr rfl⟩)), _, ?_,
    String.append_assoc⟩
  exact isName.isTypePath.spec.leadsDown

/-- The files that belong to no type lie in the directory of the library. -/
theorem liesIn_of_mem_sharedPaths (member : path ∈ sharedPaths settings)
    : Path.LiesIn settings.libDir path := by
  have down : ∀ name ∈ fixedPaths ++ ["file_list"], Path.LeadsDown (name ++ ".rb") := by
    rw [fixedPaths_eq]
    decide +kernel
  rcases List.mem_append.mp member with member | member
  · obtain ⟨name, among, rfl⟩ := List.mem_map.mp member
    exact ⟨name ++ ".rb", down name among, String.append_assoc⟩
  · obtain rfl := List.mem_singleton.mp member
    refine ⟨"field_list.md", by decide +kernel, ?_⟩
    rw [← String.toList_inj]
    simp

-----------------------------------------------------------------------------------------
-- Runs
-----------------------------------------------------------------------------------------

variable {job : Job} {draft : Draft} {generation : Generation}

/-- Every file of a run lies in the directory of the library, or is a spec in that of the specs. -/
theorem liesIn_of_mem_files (drafted : job.draft.outcome = .ok draft)
    (built : job.build.outcome = .ok generation)
    (graphQL
      : ∀ type ∈ draft.plan.schema.types,
          ∃ name, type.name = .string name ∧ TypeName.IsGraphQL name)
    {file : GeneratedFile} (member : file ∈ generation.files)
    : Path.LiesIn job.settings.libDir file.path
      ∨ (∃ subject ∈ job.subjects draft.plan, subject.hasDocument .spec = true)
        ∧ Path.LiesIn job.settings.specDir file.path := by
  have stages := draft_eq_ok_iff.mp drafted
  obtain ⟨targets, -, same, paths⟩ := paths_of_build drafted built
  have among : file.path ∈ generation.files.map GeneratedFile.path := List.mem_map_of_mem member
  rw [paths] at among
  rcases List.mem_append.mp among with own | shared
  · obtain ⟨target, isTarget, own⟩ := List.mem_flatMap.mp own
    obtain ⟨subject, isSubject, rfl⟩ := List.mem_map.mp ((same target).mp isTarget)
    apply (liesIn_of_mem_artifactPaths (stages.isTypeName graphQL isSubject) own).imp_right
    rintro ⟨has, lies⟩
    exact ⟨⟨subject, isSubject, decide_eq_true has⟩, lies⟩
  · exact .inl (liesIn_of_mem_sharedPaths shared)

/-- The directory of the library has files in every run. -/
theorem exists_file_of_libDir (drafted : job.draft.outcome = .ok draft)
    (built : job.build.outcome = .ok generation)
    : ∃ file ∈ generation.files, Path.LiesIn job.settings.libDir file.path := by
  obtain ⟨targets, -, -, paths⟩ := paths_of_build drafted built
  have shared : job.settings.libDir ++ "/field_list.md" ∈ sharedPaths job.settings :=
    List.mem_append_right _ (List.mem_singleton_self _)
  have among := List.mem_append_right (targets.flatMap (artifactPaths job.settings)) shared
  rw [← paths] at among
  obtain ⟨file, member, path⟩ := List.mem_map.mp among
  exact ⟨file, member, path ▸ liesIn_of_mem_sharedPaths shared⟩

/-- The directory of the specs has files where a type has a spec. -/
theorem exists_file_of_specDir (drafted : job.draft.outcome = .ok draft)
    (built : job.build.outcome = .ok generation)
    (graphQL
      : ∀ type ∈ draft.plan.schema.types,
          ∃ name, type.name = .string name ∧ TypeName.IsGraphQL name)
    (has : ∃ subject ∈ job.subjects draft.plan, subject.hasDocument .spec = true)
    : ∃ file ∈ generation.files, Path.LiesIn job.settings.specDir file.path := by
  have stages := draft_eq_ok_iff.mp drafted
  obtain ⟨targets, -, same, paths⟩ := paths_of_build drafted built
  obtain ⟨subject, isSubject, has⟩ := has
  obtain ⟨path, own, lies⟩
      : ∃ path ∈ artifactPaths job.settings subject.mapping.targetName,
          Path.LiesIn job.settings.specDir path :=
    exists_spec_of_mem_kindsFor (stages.isTypeName graphQL isSubject) (of_decide_eq_true has)
  have isTarget := (same _).mpr (List.mem_map_of_mem isSubject)
  have among := List.mem_append_left (sharedPaths job.settings)
    (List.mem_flatMap.mpr ⟨_, isTarget, own⟩)
  rw [← paths] at among
  obtain ⟨file, member, path⟩ := List.mem_map.mp among
  exact ⟨file, member, path ▸ lies⟩

/-- Under settings that were accepted, the files of a run have relative paths without a step up
exactly when the directories of the settings are named and lead up nowhere; that of the specs counts
when a type has a spec. Writing such files into a directory then changes no file outside of it.
-/
theorem isInner_of_build (accepted : job.settings.IsAccepted)
    (drafted : job.draft.outcome = .ok draft) (built : job.build.outcome = .ok generation)
    (graphQL
      : ∀ type ∈ draft.plan.schema.types,
          ∃ name, type.name = .string name ∧ TypeName.IsGraphQL name)
    : ((∀ file ∈ generation.files, Path.IsInner file.path)
        ↔ (job.settings.libDir ≠ "" ∧ ¬Path.GoesUp job.settings.libDir)
          ∧ ((∃ subject ∈ job.subjects draft.plan, subject.hasDocument .spec = true) →
              job.settings.specDir ≠ "" ∧ ¬Path.GoesUp job.settings.specDir))
      ∧ ((∀ file ∈ generation.files, Path.IsInner file.path) →
          ∀ (output : Output) (directory : Path) (overwrite : Bool) (place : Path),
            ¬Path.IsBeneath (directory.foldl Path.step []) place →
            (output.writeFiles directory overwrite generation.files).1.tree.read? place
              = output.tree.read? place) := by
  obtain ⟨libRelative, specRelative⟩ := accepted.relative
  have subdirectory {text : String} (relative : startsWith text "/" = false)
      : Path.IsSubdirectory text ↔ text ≠ "" ∧ ¬Path.GoesUp text := by
    rw [Path.IsSubdirectory, Path.IsInner, and_iff_right relative]
  rw [← subdirectory libRelative, ← subdirectory specRelative]
  refine ⟨⟨fun inner => ⟨?_, fun has => ?_⟩, ?_⟩, ?_⟩
  · obtain ⟨file, member, lies⟩ := exists_file_of_libDir drafted built
    exact lies.isInner_iff.mp (inner file member)
  · obtain ⟨file, member, lies⟩ := exists_file_of_specDir drafted built graphQL has
    exact lies.isInner_iff.mp (inner file member)
  · rintro ⟨lib, spec⟩ file member
    rcases liesIn_of_mem_files drafted built graphQL member with lies | ⟨has, lies⟩
    · exact lies.isInner_iff.mpr lib
    · exact lies.isInner_iff.mpr (spec has)
  · intro inner output directory overwrite place outside
    refine Output.read?_writeFiles inner (fun file member => ?_) outside output overwrite
    rcases liesIn_of_mem_files drafted built graphQL member with lies | ⟨-, lies⟩
    · exact lies.names_ne_nil
    · exact lies.names_ne_nil

/-- A run on two objects without fields, with directories for its files. -/
def rootsIn (libDir specDir : String) : Job :=
  {
    emptyRoots "Query" "Mutation" with
    settings := { Settings.standard with libDir, specDir }
  }

/-- Files in named directories lie inside, and what is written next to them stays as it is. -/
theorem isInner_of_lib_and_spec
    : ∃ generation,
        (rootsIn "lib" "spec/graphql").build.outcome = .ok generation
        ∧ (∀ file ∈ generation.files, Path.IsInner file.path)
        ∧ ∀ output : Output,
            (output.writeFiles ["out"] true generation.files).1.tree.read? ["lib", "file_list.rb"]
              = output.tree.read? ["lib", "file_list.rb"] := by
  have accepted : (rootsIn "lib" "spec/graphql").settings.IsAccepted :=
    ⟨[("lib_dir", .string "lib"), ("spec_dir", .string "spec/graphql/")], by decide +kernel⟩
  have drafted
      : ∃ draft,
          (rootsIn "lib" "spec/graphql").draft.outcome = .ok draft
          ∧ draft.plan.schema.types.map TypeDef.name = [.string "Query", .string "Mutation"] := by
    decide +kernel
  have built : Succeeds (rootsIn "lib" "spec/graphql").build.outcome := by
    decide +kernel
  obtain ⟨draft, drafted, names⟩ := drafted
  obtain ⟨generation, built⟩ := built
  have graphQL := @TypeName.isGraphQL_of_names _ ["Query", "Mutation"] names (by decide)
  obtain ⟨within, kept⟩ := isInner_of_build accepted drafted built graphQL
  have inner := within.mpr ⟨by decide, fun _ => by decide⟩
  refine ⟨generation, built, inner, fun output => kept inner output ["out"] true _ ?_⟩
  rintro ⟨below, -, -, same⟩
  have first : some "lib" = some "out" := congrArg List.head? same
  exact absurd first (by decide)

/-- Directories without a name are accepted, and so are those that lead up. Files in the former have
absolute paths, and files in the latter lie beside the directory that they are written to.
-/
theorem leaves_unnamed_and_outer_directory
    : ∃ draft generation,
        (rootsIn "" "..").settings.IsAccepted
        ∧ (rootsIn "" "..").draft.outcome = .ok draft
        ∧ (rootsIn "" "..").build.outcome = .ok generation
        ∧ (∀ type ∈ draft.plan.schema.types,
            ∃ name, type.name = .string name ∧ TypeName.IsGraphQL name)
        ∧ (∃ file ∈ generation.files, startsWith file.path "/" = true)
        ∧ ∃ file ∈ generation.files, Path.GoesUp file.path := by
  have accepted : (rootsIn "" "..").settings.IsAccepted :=
    ⟨[("lib_dir", .string ""), ("spec_dir", .string "..")], by decide +kernel⟩
  have drafted
      : ∃ draft,
          (rootsIn "" "..").draft.outcome = .ok draft
          ∧ draft.plan.schema.types.map TypeDef.name = [.string "Query", .string "Mutation"] := by
    decide +kernel
  have built
      : ∃ generation,
          (rootsIn "" "..").build.outcome = .ok generation
          ∧ (∃ file ∈ generation.files, startsWith file.path "/" = true)
          ∧ ∃ file ∈ generation.files, Path.GoesUp file.path := by
    decide +kernel
  obtain ⟨draft, drafted, names⟩ := drafted
  obtain ⟨generation, built, absolute, goesUp⟩ := built
  have graphQL := @TypeName.isGraphQL_of_names _ ["Query", "Mutation"] names (by decide)
  exact ⟨draft, generation, accepted, drafted, built, graphQL, absolute, goesUp⟩

end Job

end RubySchema
