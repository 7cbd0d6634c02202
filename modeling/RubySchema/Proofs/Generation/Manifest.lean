import Mathlib.Data.List.Forall2
import RubySchema.Proofs.Generation.Correspondence
import RubySchema.Proofs.Generation.Interfaces
import RubySchema.Proofs.Generation.Paths
import RubySchema.Proofs.Generation.Single
import RubySchema.Proofs.Splitting

/-!
A run has its files in a fixed order, users may edit the stubs, the specs and the user modules, and
the lines of the list of files require exactly the other files of Ruby code and the stubs and user
modules, first those outside the directory of schema definitions and then those inside it.
-/

namespace RubySchema

open Text

-----------------------------------------------------------------------------------------
-- What files are for
-----------------------------------------------------------------------------------------

/-- What a file of a run is for: a document of a type, the root of the schema, a base class, a
module of the user, or one of the two lists.
-/
inductive FileRole where
  | ofType (subject : Subject) (kind : DocumentKind)
  | root
  | baseClass (base : Job.Base)
  | userModule (name : String)
  | fileList
  | fieldList
  deriving Inhabited

namespace FileRole

/-- The place of a file within the directory of the library, less its ending. The root of the schema
counts as a base document; specs and lists have no such place.
-/
def place? : FileRole → Option String
  | .ofType subject .schema => some ("schema/" ++ Naming.filePath subject.mapping.targetName)
  | .ofType subject .implementation => some (Naming.filePath subject.mapping.targetName)
  | .root => some "schema/schema"
  | .baseClass base => some ("schema/" ++ Naming.filePath base.name)
  | .userModule name => some (Naming.filePath name)
  | .ofType _ .spec | .fileList | .fieldList => none

/-- The path of a file: its place, if it has one, in the directory of the library. -/
def path (settings : Settings) (role : FileRole) : String :=
  match role.place? with
  | some place => settings.libDir ++ "/" ++ place ++ ".rb"
  | none =>
      match role with
      | .ofType subject _ =>
          settings.specDir ++ "/" ++ Naming.filePath subject.mapping.targetName ++ "_spec.rb"
      | .fieldList => settings.libDir ++ "/field_list.md"
      | _ => settings.libDir ++ "/file_list.rb"

/-- Users may edit stubs, specs and modules of their own. -/
def isEditable : FileRole → Bool
  | .ofType _ .implementation | .ofType _ .spec | .userModule _ => true
  | _ => false

/-- The text of a file is that of the document or the page that it is for. -/
def HasText (draft : Job.Draft) (text : String) : FileRole → Prop
  | .ofType subject kind =>
      ∃ artifacts document,
        Table.get? draft.assembly.artifacts subject.mapping.targetName = some artifacts
        ∧ artifacts.document? kind = some document
        ∧ text = document.render
  | .root =>
      ∃ query mutation page,
        draft.plan.classified.lookupValue draft.plan.schema.queryType = .ok query
        ∧ draft.plan.classified.lookupValue draft.plan.schema.mutationType = .ok mutation
        ∧ draft.plan.render (.schemaRoot query.targetName mutation.targetName) = .ok page
        ∧ text = page ++ "\n"
  | .baseClass base =>
      ∃ page,
        draft.plan.render (.baseType base.name base.superclass base.body base.userModule) = .ok page
        ∧ text = page ++ "\n"
  | .userModule name =>
      ∃ page, draft.plan.render (.userModule name) = .ok page ∧ text = page ++ "\n"
  | .fileList =>
      draft.plan.render
          (.fileList (Job.implementationPaths draft.assembly) (Job.schemaPaths draft.assembly))
        = .ok text
  | .fieldList => draft.plan.render (.fieldList draft.progress.fieldList) = .ok text

/-- A file is there for what is said. -/
structure Matches (draft : Job.Draft) (role : FileRole) (file : GeneratedFile) : Prop where
  path : file.path = role.path draft.plan.settings
  editable : file.isEditable = role.isEditable
  text : role.HasText draft file.content

end FileRole

/-- The files of a type: its definition, and a stub and a spec if it is one of the types or of the
interfaces.
-/
def Subject.roles (subject : Subject) : List FileRole :=
  .ofType subject .schema
    :: if subject.mapping.category = .types ∨ subject.mapping.category = .interfaces then
        [.ofType subject .implementation, .ofType subject .spec]
      else []

/-- A generated name has a stub when it has a spec. -/
theorem Artifacts.implementation_mem_kindsFor (target : String)
    : DocumentKind.implementation ∈ kindsFor target ↔ DocumentKind.spec ∈ kindsFor target := by
  unfold kindsFor
  split <;> simp

/-- The documents of a type have a stub and a spec if it is one of the types or of the interfaces.
-/
theorem Artifacts.IsFiled.isSome_iff {artifacts : Artifacts} {name stem : String}
    {category : Category} (filed : artifacts.IsFiled name)
    (named : name = category.word ++ "::" ++ stem)
    : (artifacts.implementation.isSome = true ↔ category = .types ∨ category = .interfaces)
      ∧ (artifacts.spec.isSome = true ↔ category = .types ∨ category = .interfaces) := by
  have stub : artifacts.implementation.isSome = true ↔ _ := filed.kinds .implementation
  have spec : artifacts.spec.isSome = true ↔ _ := filed.kinds .spec
  rw [implementation_mem_kindsFor] at stub
  rw [named, spec_mem_kindsFor] at stub spec
  exact ⟨stub, spec⟩

namespace Job

def fixedRoles : List FileRole :=
  .root :: (bases.map .baseClass ++ userModules.map .userModule)

def roles (subjects : List Subject) : List FileRole :=
  subjects.flatMap Subject.roles ++ fixedRoles ++ [.fileList, .fieldList]

example : bases.length = 8 ∧ userModules.length = 5 := by
  decide

-----------------------------------------------------------------------------------------
-- Files beside what they are for
-----------------------------------------------------------------------------------------

/-- A type of a run is generated under a name within its category. -/
theorem Stages.exists_stem {job : Job} {draft : Draft} (stages : job.Stages draft)
    {subject : Subject} (member : subject ∈ job.subjects draft.plan)
    : ∃ stem, subject.mapping.targetName = subject.mapping.category.word ++ "::" ++ stem := by
  obtain ⟨builtins, -, placed⟩ := stages.exists_placed
  obtain ⟨entry, -, -, same⟩ := placed.exists_of_mem member
  exact ⟨(TypeName.categorize entry.2.kind entry.1).2, by rw [same]; rfl⟩

section
variable {draft : Draft} {subject : Subject} {subjects : List Subject}

/-- The files of a type stand beside what they are for. -/
theorem forall₂_artifactFiles {artifacts : Artifacts} {stem : String}
    (found : Table.get? draft.assembly.artifacts subject.mapping.targetName = some artifacts)
    (filed : artifacts.IsFiled subject.mapping.targetName)
    (named : subject.mapping.targetName = subject.mapping.category.word ++ "::" ++ stem)
    : List.Forall₂ (FileRole.Matches draft) subject.roles
        (artifactFiles draft.plan.settings artifacts) := by
  have definition
      : (FileRole.ofType subject .schema).Matches draft
          {
            path := draft.plan.settings.libDir ++ "/schema/"
              ++ Naming.filePath artifacts.targetName ++ ".rb"
            content := artifacts.schema.render
            isEditable := false
          } := by
    refine ⟨?_, rfl, artifacts, artifacts.schema, found, rfl, rfl⟩
    rw [filed.named, ← String.toList_inj]
    simp [FileRole.path, FileRole.place?]
  obtain ⟨stub, spec⟩ := filed.isSome_iff named
  unfold Subject.roles artifactFiles
  split
  case isTrue own =>
    obtain ⟨implementation, hasStub⟩ := Option.isSome_iff_exists.mp (stub.mpr own)
    obtain ⟨document, hasSpec⟩ := Option.isSome_iff_exists.mp (spec.mpr own)
    rw [hasStub, hasSpec, filed.named]
    refine .cons (filed.named ▸ definition) (.cons ?_ (.cons ?_ .nil))
    · exact ⟨rfl, rfl, artifacts, implementation, found, hasStub, rfl⟩
    · exact ⟨rfl, rfl, artifacts, document, found, hasSpec, rfl⟩
  case isFalse other =>
    have noStub : artifacts.implementation = none := by
      rw [← Option.not_isSome_iff_eq_none, stub]
      exact other
    have noSpec : artifacts.spec = none := by
      rw [← Option.not_isSome_iff_eq_none, spec]
      exact other
    rw [noStub, noSpec]
    exact .cons definition .nil

/-- The files of types stand beside what they are for, by induction on the types. -/
theorem forall₂_documents {graph : DependencyGraph}
    (filed
      : ∀ entry ∈ draft.plan.documents graph subjects,
          Table.get? draft.assembly.artifacts entry.1 = some entry.2)
    (named
      : ∀ subject ∈ subjects,
          ∃ stem, subject.mapping.targetName = subject.mapping.category.word ++ "::" ++ stem)
    : List.Forall₂ (FileRole.Matches draft) (subjects.flatMap Subject.roles)
        ((draft.plan.documents graph subjects).values.flatMap
          (artifactFiles draft.plan.settings)) := by
  induction subjects generalizing graph with
  | nil => exact .nil
  | cons subject rest ih =>
      obtain ⟨stem, here⟩ := named subject List.mem_cons_self
      have found := filed _ List.mem_cons_self
      show List.Forall₂ _ (subject.roles ++ _) (artifactFiles _ _ ++ _)
      apply List.rel_append
      · exact forall₂_artifactFiles found Subject.isFiled_documents here
      · apply ih
        · exact fun entry member => filed entry (List.mem_cons_of_mem _ member)
        · exact fun other member => named other (List.mem_cons_of_mem _ member)

def isInSchema (place : String) : Bool :=
  startsWith place "schema/"

theorem isInSchema_append (place : String) : isInSchema ("schema/" ++ place) = true := by
  rw [isInSchema, startsWith, String.toList_append, List.isPrefixOf_iff_prefix]
  exact List.prefix_append _ _

theorem isNone_schemaPath? (place : String) : (schemaPath? place).isNone = !isInSchema place := by
  unfold schemaPath? isInSchema startsWith afterStart?
  cases "schema/".toList.isPrefixOf place.toList <;> rfl

/-- Users may edit the documents of fixed text that lie outside the directory of definitions. -/
theorem isEditable_fixedFile (settings : Settings) (place text : String)
    : (fixedFile settings (place, text)).isEditable = !isInSchema place :=
  isNone_schemaPath? place

/-- User modules lie outside the directory of schema definitions. -/
theorem isInSchema_userModule
    : ∀ name ∈ userModules, isInSchema (Naming.filePath name) = false := by
  decide +kernel

/-- The files of fixed text stand beside what they are for. -/
theorem forall₂_fixedTexts {texts : List (String × String)}
    (made : fixedTexts draft.plan = .ok texts)
    : List.Forall₂ (FileRole.Matches draft) fixedRoles
        (texts.map (fixedFile draft.plan.settings)) := by
  unfold fixedTexts at made
  simp only [bind_eq_ok] at made
  obtain ⟨query, queried, mutation, mutated, root, rooted, baseTexts, basesMade, userTexts,
    usersMade, same⟩ := made
  cases same
  rw [List.map_cons, List.map_append]
  refine .cons ?_ (List.rel_append ?_ ?_)
  · refine ⟨rfl, ?_, query, mutation, root, queried, mutated, rooted, rfl⟩
    rw [isEditable_fixedFile]
    decide
  · rw [List.forall₂_map_left_iff, List.forall₂_map_right_iff]
    refine forall₂_of_mapM (fun base _ entry made => ?_) basesMade
    obtain ⟨page, rendered, same⟩ := bind_eq_ok.mp made
    cases same
    refine ⟨rfl, ?_, page, rendered, rfl⟩
    rw [isEditable_fixedFile, isInSchema_append]
    rfl
  · rw [List.forall₂_map_left_iff, List.forall₂_map_right_iff]
    refine forall₂_of_mapM (fun name member entry made => ?_) usersMade
    obtain ⟨page, rendered, same⟩ := bind_eq_ok.mp made
    cases same
    refine ⟨rfl, ?_, page, rendered, rfl⟩
    rw [isEditable_fixedFile, isInSchema_userModule name member]
    rfl

/-- The files of a run stand beside what they are for, before headers are put on them. -/
theorem Stages.forall₂_files {job : Job} {draft : Draft} (stages : job.Stages draft)
    {files : List GeneratedFile}
    (made : Job.files draft.plan draft.assembly draft.progress.fieldList = .ok files)
    : List.Forall₂ (FileRole.Matches draft) (roles (job.subjects draft.plan)) files := by
  unfold Job.files at made
  obtain ⟨fileList, listed, made⟩ := bind_eq_ok.mp made
  obtain ⟨fieldList, fielded, made⟩ := bind_eq_ok.mp made
  cases made
  have apart := stages.nodup_targets
  have artifacts := (stages.artifacts_eq apart).1
  obtain ⟨texts, textsMade, -⟩ := stages.exists_texts
  rw [stages.fixed_eq textsMade, artifacts]
  refine List.rel_append (List.rel_append ?_ (forall₂_fixedTexts textsMade)) ?_
  · apply forall₂_documents
    · intro entry member
      have unique : draft.assembly.artifacts.names.Nodup := by
        rw [artifacts, Plan.names_documents]
        exact apart
      exact (Table.get?_eq_some_iff unique).mpr (artifacts ▸ member)
    · exact fun subject member => stages.exists_stem member
  · exact .cons ⟨rfl, rfl, listed⟩ (.cons ⟨rfl, rfl, fielded⟩ .nil)

end

-----------------------------------------------------------------------------------------
-- Reading the list of files
-----------------------------------------------------------------------------------------

theorem afterStart?_append (start text : List Char)
    : afterStart? start (start ++ text) = some text := by
  rw [afterStart?, if_pos (List.isPrefixOf_iff_prefix.mpr (List.prefix_append start text)),
    List.drop_left]

theorem beforeEnd?_append (text final : List Char)
    : beforeEnd? final (text ++ final) = some text :=
  Text.beforeEnd?_eq_some_iff.mpr rfl

def requiredPath? (line : List Char) : Option String := do
  let quoted ← afterStart? "require_relative \"./".toList line
  return String.ofList (← beforeEnd? ['"'] quoted)

def required (text : String) : List String :=
  (splitOn '\n' text.toList).filterMap requiredPath?

def requireLine (path : String) : String :=
  "require_relative \"./" ++ path ++ "\""

theorem requiredPath?_requireLine (path : String)
    : requiredPath? (requireLine path).toList = some path := by
  have spelled
      : (requireLine path).toList
        = "require_relative \"./".toList ++ (path.toList ++ ['"']) := by
    unfold requireLine
    rw [String.toList_append, String.toList_append, List.append_assoc]
    rfl
  simp only [requiredPath?, spelled, afterStart?_append, beforeEnd?_append, Option.bind_eq_bind,
    Option.bind_some, String.ofList_toList]
  rfl

/-- What a text requires in front of a line break and behind it. -/
theorem required_append (first second : String)
    : required (first ++ "\n" ++ second) = required first ++ required second := by
  have spelled
      : (first ++ "\n" ++ second).toList = first.toList ++ '\n' :: second.toList := by
    simp
  rw [required, spelled, splitOn_append, List.filterMap_append]
  rfl

theorem unbroken_requireLine {path : String} (unbroken : '\n' ∉ path.toList)
    : '\n' ∉ (requireLine path).toList := by
  unfold requireLine
  rw [String.toList_append, String.toList_append, List.mem_append, List.mem_append, not_or, not_or]
  exact ⟨⟨by decide, unbroken⟩, by decide⟩

/-- Lines without breaks require what each of them requires, by induction on the lines. -/
theorem required_concat {lines : List String} (unbroken : ∀ line ∈ lines, '\n' ∉ line.toList)
    : required (Page.concat (lines.map (· ++ "\n")))
      = (lines.map String.toList).filterMap requiredPath? := by
  induction lines with
  | nil => rfl
  | cons line rest ih =>
      have later := ih fun other member => unbroken other (List.mem_cons_of_mem line member)
      have here : required line = (requiredPath? line.toList).toList := by
        rw [required, splitOn_of_not_mem (unbroken line List.mem_cons_self), List.filterMap_cons]
        cases requiredPath? line.toList <;> rfl
      rw [List.map_cons, List.map_cons, Page.concat, List.foldr_cons, required_append, here,
        List.filterMap_cons, ← later]
      cases requiredPath? line.toList <;> rfl

def listComment : List String :=
  [
    "# This file lists all the files that were auto-generated.",
    "# It cannot be used as-is because the order of includes",
    "# does not represent actual dependencies between files.",
    "#",
    "# Use it only for convenience to easily spot additions",
    "# or removals in the list of files and to then update file",
    "# all.rb manually, taking the necessary order of includes",
    "# into account."
  ]

/-- The lines of the list of files: a comment and two groups of paths, with an empty line between
them.
-/
def listLines (implementations schemas : List String) : List String :=
  listComment ++ implementations.map requireLine ++ [""]
    ++ (schemas.map ("schema/" ++ ·)).map requireLine

theorem concat_append (first second : List String)
    : Page.concat (first ++ second) = Page.concat first ++ Page.concat second := by
  induction first with
  | nil => exact (String.empty_append).symm
  | cons text rest ih =>
      show text ++ Page.concat (rest ++ second) = text ++ Page.concat rest ++ Page.concat second
      rw [ih, String.append_assoc]

theorem fileListText_eq (implementations schemas : List String)
    : Page.fileListText implementations schemas
      = Page.concat ((listLines implementations schemas).map (· ++ "\n")) := by
  have comment
      : "# This file lists all the files that were auto-generated.\n"
          ++ "# It cannot be used as-is because the order of includes\n"
          ++ "# does not represent actual dependencies between files.\n"
          ++ "#\n"
          ++ "# Use it only for convenience to easily spot additions\n"
          ++ "# or removals in the list of files and to then update file\n"
          ++ "# all.rb manually, taking the necessary order of includes\n"
          ++ "# into account.\n"
        = Page.concat (listComment.map (· ++ "\n")) := by
    decide +kernel
  have outside (path : String)
      : "require_relative \"./" ++ path ++ "\"\n" = requireLine path ++ "\n" := by
    have quote : "\"\n" = "\"" ++ "\n" := by decide
    unfold requireLine
    rw [quote, ← String.append_assoc]
  have inside (path : String)
      : "require_relative \"./schema/" ++ path ++ "\"\n"
        = requireLine ("schema/" ++ path) ++ "\n" := by
    have opening : "require_relative \"./schema/" = "require_relative \"./" ++ "schema/" := by
      decide
    rw [opening, ← outside, ← String.append_assoc]
  have blank : Page.concat ([""].map (· ++ "\n")) = "\n" := by decide
  unfold Page.fileListText listLines
  rw [comment, List.map_append, List.map_append, List.map_append, concat_append, concat_append,
    concat_append, blank, List.map_map, List.map_map, List.map_map]
  simp only [outside, inside, Function.comp_def]

/-- The list of files requires the paths that it is made of. -/
theorem required_fileListText {implementations schemas : List String}
    (outside : ∀ path ∈ implementations, '\n' ∉ path.toList)
    (inside : ∀ path ∈ schemas.map ("schema/" ++ ·), '\n' ∉ path.toList)
    : required (Page.fileListText implementations schemas)
      = implementations ++ schemas.map ("schema/" ++ ·) := by
  have read (paths : List String)
      : ((paths.map requireLine).map String.toList).filterMap requiredPath? = paths := by
    rw [List.map_map, List.filterMap_map]
    exact (List.filterMap_congr fun path _ => requiredPath?_requireLine path).trans
      List.filterMap_some
  have comment
      : (listComment.map String.toList).filterMap requiredPath? = []
        ∧ ∀ line ∈ listComment, '\n' ∉ line.toList := by
    decide +kernel
  have blank : ([""].map String.toList).filterMap requiredPath? = [] := by decide
  have unbroken : ∀ line ∈ listLines implementations schemas, '\n' ∉ line.toList := by
    intro line member
    simp only [listLines, List.mem_append] at member
    rcases member with ((above | outer) | empty) | inner
    · exact comment.2 line above
    · obtain ⟨path, among, rfl⟩ := List.mem_map.mp outer
      exact unbroken_requireLine (outside path among)
    · obtain rfl := List.mem_singleton.mp empty
      exact List.not_mem_nil
    · obtain ⟨path, among, rfl⟩ := List.mem_map.mp inner
      exact unbroken_requireLine (inside path among)
  rw [fileListText_eq, required_concat unbroken, listLines]
  simp only [List.map_append, List.filterMap_append, read, comment.1, blank, List.nil_append,
    List.append_nil]

-----------------------------------------------------------------------------------------
-- Places in the list of files
-----------------------------------------------------------------------------------------

theorem exists_of_isInSchema {place : String} (inside : isInSchema place = true)
    : ∃ rest, place = "schema/" ++ rest := by
  obtain ⟨rest, same⟩ := List.isPrefixOf_iff_prefix.mp inside
  refine ⟨String.ofList rest, String.toList_inj.mp ?_⟩
  rw [String.toList_append, ← same]
  exact congrArg ("schema/".toList ++ ·) String.toList_ofList.symm

/-- Paths within the directory of schema definitions are put back there, by induction on the paths.
-/
theorem map_schemaPath? (paths : List String)
    : (paths.filterMap schemaPath?).map ("schema/" ++ ·) = paths.filter isInSchema := by
  induction paths with
  | nil => rfl
  | cons path rest ih =>
      cases inside : isInSchema path with
      | true =>
          obtain ⟨inner, rfl⟩ := exists_of_isInSchema inside
          have found : schemaPath? ("schema/" ++ inner) = some inner := by
            rw [schemaPath?, String.toList_append, afterStart?_append, Option.map_some,
              String.ofList_toList]
          rw [List.filterMap_cons_some found, List.map_cons, ih, List.filter_cons_of_pos inside]
      | false =>
          have missing : schemaPath? path = none := by
            rw [← Option.isNone_iff_eq_none, isNone_schemaPath?, inside]
            rfl
          rw [List.filterMap_cons_none missing, ih, List.filter_cons_of_neg (by simp [inside])]

theorem places_fixedRoles : fixedRoles.filterMap FileRole.place? = fixedPaths := by
  have root : FileRole.root.place? = some "schema/schema" := rfl
  rw [fixedRoles, List.filterMap_cons_some root, List.filterMap_append, List.filterMap_map,
    List.filterMap_map]
  show _ :: (bases.filterMap (some ∘ fun base => "schema/" ++ Naming.filePath base.name)
    ++ userModules.filterMap (some ∘ Naming.filePath)) = _
  rw [List.filterMap_eq_map, List.filterMap_eq_map, fixedPaths]

/-- Places of types come first, then those of documents of fixed text. -/
theorem places_eq (subjects : List Subject)
    : (roles subjects).filterMap FileRole.place?
      = (subjects.flatMap Subject.roles).filterMap FileRole.place? ++ fixedPaths := by
  rw [roles, List.filterMap_append, List.filterMap_append, places_fixedRoles]
  exact List.append_nil _

section
variable {plan : Plan} {subject : Subject} {subjects : List Subject}

/-- The places of a type's files: that of its definition, and that of its stub if it has one. -/
theorem places_roles (subject : Subject)
    : subject.roles.filterMap FileRole.place?
      = ("schema/" ++ Naming.filePath subject.mapping.targetName)
        :: if subject.mapping.category = .types ∨ subject.mapping.category = .interfaces then
            [Naming.filePath subject.mapping.targetName]
          else [] := by
  unfold Subject.roles
  split <;> rfl

/-- The types that have a stub are listed at its place, and all types at that of their definition.
By induction on the types.
-/
theorem places_documents (plan : Plan) (graph : DependencyGraph)
    (named
      : ∀ subject ∈ subjects,
          isInSchema (Naming.filePath subject.mapping.targetName) = false
          ∧ ∃ stem, subject.mapping.targetName = subject.mapping.category.word ++ "::" ++ stem)
    : ((plan.documents graph subjects).values.filter fun artifacts =>
          artifacts.implementation.isSome).map
        (fun artifacts => Naming.filePath artifacts.targetName)
        = ((subjects.flatMap Subject.roles).filterMap FileRole.place?).filter (!isInSchema ·)
      ∧ ((plan.documents graph subjects).values.map fun artifacts =>
          Naming.filePath artifacts.targetName).map ("schema/" ++ ·)
        = ((subjects.flatMap Subject.roles).filterMap FileRole.place?).filter isInSchema := by
  induction subjects generalizing graph with
  | nil => exact ⟨rfl, rfl⟩
  | cons subject rest ih =>
      obtain ⟨⟨outside, stem, here⟩, others⟩ := List.forall_mem_cons.mp named
      obtain ⟨stubs, definitions⟩ := ih (graph.after plan subject) others
      have filed : (subject.documents plan graph).IsFiled subject.mapping.targetName :=
        Subject.isFiled_documents
      obtain ⟨stub, -⟩ := filed.isSome_iff here
      rw [Plan.documents, Table.values, List.map_cons, List.flatMap_cons, List.filterMap_append,
        places_roles, List.filter_append, List.filter_append, ← stubs, ← definitions]
      by_cases own : subject.mapping.category = .types ∨ subject.mapping.category = .interfaces
      · simp [own, stub.mpr own, filed.named, outside, isInSchema_append, Table.values]
      · have none : (subject.documents plan graph).implementation.isSome = false :=
          Bool.eq_false_iff.mpr (mt stub.mp own)
        simp [own, none, filed.named, isInSchema_append, Table.values]

end

section
variable {job : Job} {draft : Draft} {generation : Generation}

/-- The place of a type with a usual name lies outside the directory of definitions. -/
theorem IsTypePath.outside {path : String} (isPath : IsTypePath path)
    : isInSchema path = false := by
  rw [Bool.eq_false_iff]
  intro inside
  obtain ⟨rest, same⟩ := exists_of_isInSchema inside
  exact isPath.ne_schema rest same

/-- The file path of a type with a usual name is on one line. -/
theorem IsTypeName.unbroken {target : String} (isName : IsTypeName target)
    : '\n' ∉ (Naming.filePath target).toList := by
  obtain ⟨category, stem, rfl, graphQL⟩ := isName
  rw [Naming.filePath_category category graphQL, String.toList_append, String.toList_append,
    List.mem_append, List.mem_append, not_or, not_or]
  refine ⟨⟨?_, by decide⟩, fun member => ?_⟩
  · cases category <;> decide
  · exact absurd (Naming.isGraphQL_snakeCase graphQL '\n' member) (by decide)

/-- The places in the list of files are those of the files of a run: first those outside the
directory of schema definitions, then those inside it.
-/
theorem Stages.listed_eq (stages : job.Stages draft)
    (graphQL
      : ∀ type ∈ draft.plan.schema.types,
          ∃ name, type.name = .string name ∧ TypeName.IsGraphQL name)
    : implementationPaths draft.assembly
        = ((roles (job.subjects draft.plan)).filterMap FileRole.place?).filter (!isInSchema ·)
      ∧ (schemaPaths draft.assembly).map ("schema/" ++ ·)
        = ((roles (job.subjects draft.plan)).filterMap FileRole.place?).filter isInSchema := by
  obtain ⟨texts, made, -⟩ := stages.exists_texts
  have named
      : ∀ subject ∈ job.subjects draft.plan,
          isInSchema (Naming.filePath subject.mapping.targetName) = false
          ∧ ∃ stem,
              subject.mapping.targetName = subject.mapping.category.word ++ "::" ++ stem :=
    fun subject member =>
      ⟨(stages.isTypeName graphQL member).isTypePath.outside, stages.exists_stem member⟩
  obtain ⟨stubs, definitions⟩ := places_documents draft.plan DependencyGraph.empty named
  have fixed : draft.assembly.fixed.names = fixedPaths := by
    rw [stages.fixed_eq made]
    exact paths_fixedTexts made
  have artifacts := (stages.artifacts_eq stages.nodup_targets).1
  unfold implementationPaths schemaPaths
  rw [artifacts, fixed, places_eq, List.filter_append, List.filter_append, List.map_append,
    map_schemaPath?, stubs, definitions, List.filter_congr fun path _ => isNone_schemaPath? path]
  exact ⟨rfl, rfl⟩

/-- No place of a type with a usual name or of a document of fixed text breaks a line. -/
theorem Stages.unbroken_places (stages : job.Stages draft)
    (graphQL
      : ∀ type ∈ draft.plan.schema.types,
          ∃ name, type.name = .string name ∧ TypeName.IsGraphQL name)
    {place : String}
    (member : place ∈ (roles (job.subjects draft.plan)).filterMap FileRole.place?)
    : '\n' ∉ place.toList := by
  have inSchema {path : String} (unbroken : '\n' ∉ path.toList)
      : '\n' ∉ ("schema/" ++ path).toList := by
    rw [String.toList_append, List.mem_append, not_or]
    exact ⟨by decide, unbroken⟩
  rw [places_eq, List.filterMap_flatMap, List.mem_append, List.mem_flatMap] at member
  rcases member with ⟨subject, among, member⟩ | fixed
  · have unbroken := (stages.isTypeName graphQL among).unbroken
    rw [places_roles] at member
    rcases List.mem_cons.mp member with rfl | stub
    · exact inSchema unbroken
    · split at stub
      · obtain rfl := List.mem_singleton.mp stub
        exact unbroken
      · cases stub
  · rw [fixedPaths_eq] at fixed
    revert fixed place
    decide +kernel

/-- Files of a run that comes to files, without templates or headers of one's own and with usual
names of types. In order they are, for each type that has a mapping which is not that of a built-in
type, its definition, and its stub and spec if it is one of the types or interfaces; then the root
of the schema, the base classes and the user modules; then the two lists. Each has the path and the
text that belong to it, and users may edit the stubs, the specs and the user modules. The lines of
the list of files require exactly the places of definitions, stubs, base documents with the root,
and user modules: those outside the directory of schema definitions and then those inside it, each
group in the order of the files.
-/
theorem files_of_build (standard : job.templates = []) (bare : job.hooks.headers = [])
    (drafted : job.draft.outcome = .ok draft) (built : job.build.outcome = .ok generation)
    (graphQL
      : ∀ type ∈ draft.plan.schema.types,
          ∃ name, type.name = .string name ∧ TypeName.IsGraphQL name)
    : let all := roles (draft.plan.classified.subjects draft.plan.schema.types)
      let places := all.filterMap FileRole.place?
      List.Forall₂ (FileRole.Matches draft) all generation.files
      ∧ ∃ list ∈ generation.files,
          FileRole.fileList.Matches draft list
          ∧ required list.content
            = places.filter (!isInSchema ·) ++ places.filter isInSchema := by
  obtain ⟨other, files, redrafted, made, rfl⟩ := build_eq_ok_iff.mp built
  obtain rfl : draft = other := Except.ok.inj (drafted.symm.trans redrafted)
  have stages := draft_eq_ok_iff.mp drafted
  have noTemplates : draft.plan.templates = [] := stages.templates.trans standard
  have same : (files.map fun file =>
      { file with content := job.hooks.applyHeaders file.path file.content }) = files := by
    unfold Hooks.applyHeaders
    rw [bare]
    exact List.map_id files
  rw [← subjects_of_no_templates job noTemplates]
  dsimp only
  rw [same]
  have beside := stages.forall₂_files made
  obtain ⟨list, member, isList⟩ :=
    exists_of_forall₂ beside (List.mem_append_right _ List.mem_cons_self)
  have text : list.content
      = Page.fileListText (implementationPaths draft.assembly) (schemaPaths draft.assembly) := by
    have rendered := isList.text
    rw [FileRole.HasText, Plan.render, Page.render, noTemplates] at rendered
    exact (Except.ok.inj rendered).symm
  obtain ⟨outside, inside⟩ := stages.listed_eq graphQL
  refine ⟨beside, list, member, isList, ?_⟩
  have unbroken {among : String → Bool} {place : String}
      (member : place ∈ ((roles (job.subjects draft.plan)).filterMap FileRole.place?).filter among)
      : '\n' ∉ place.toList :=
    stages.unbroken_places graphQL (List.mem_filter.mp member).1
  rw [text, required_fileListText, outside, inside]
  · exact fun place member => unbroken (outside ▸ member)
  · exact fun place member => unbroken (inside ▸ member)

/-- A run on one type of each category, and on a connection, which is left out. -/
def tagging : Job :=
  smallJob "Query" "Query"
    [
      plainType "Query" .object [], plainType "Node" .interface [],
      plainType "TagInput" .inputObject [], plainType "TagPayload" .object [],
      plainType "TagConnection" .object []
    ]

/-- The list of files of the run on tags has a stub for the object and for the interface. -/
theorem files_of_tagging
    : ∃ generation,
        tagging.build.outcome = .ok generation
        ∧ ∃ list ∈ generation.files,
            list.path = tagging.settings.libDir ++ "/file_list.rb"
            ∧ required list.content
              = [
                  "types/query", "interfaces/node", "types/base_object", "types/base_enum",
                  "types/base_scalar", "interfaces/base_interface", "types/base_union",
                  "schema/types/query", "schema/interfaces/node", "schema/inputs/tag",
                  "schema/payloads/tag", "schema/schema", "schema/types/base_object",
                  "schema/types/base_object_node", "schema/types/base_enum",
                  "schema/types/base_scalar", "schema/interfaces/base_interface",
                  "schema/types/base_union", "schema/inputs/base_input",
                  "schema/payloads/base_payload"
                ] := by
  have drafted
      : ∃ draft,
          tagging.draft.outcome = .ok draft
          ∧ draft.plan.schema.types.map TypeDef.name
            = [
                .string "Query", .string "Node", .string "TagInput", .string "TagPayload",
                .string "TagConnection"
              ]
          ∧ ((draft.plan.classified.subjects draft.plan.schema.types).flatMap
                Subject.roles).filterMap FileRole.place?
            = [
                "schema/types/query", "types/query", "schema/interfaces/node", "interfaces/node",
                "schema/inputs/tag", "schema/payloads/tag"
              ] := by
    decide +kernel
  obtain ⟨draft, drafted, names, places⟩ := drafted
  obtain ⟨generation, built⟩ := (succeeds_build_iff rfl).mpr ⟨draft, drafted⟩
  have graphQL := @TypeName.isGraphQL_of_names _
    ["Query", "Node", "TagInput", "TagPayload", "TagConnection"] names (by decide)
  obtain ⟨-, list, member, isList, read⟩ := files_of_build rfl rfl drafted built graphQL
  have stages := draft_eq_ok_iff.mp drafted
  refine ⟨generation, built, list, member, ?_, ?_⟩
  · rw [isList.path, stages.settings]
    rfl
  · rw [read, places_eq, places, fixedPaths_eq]
    decide

end

end Job

end RubySchema
