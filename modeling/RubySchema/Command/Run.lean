import RubySchema.Command.Workspace
import RubySchema.Generation.Output
import RubySchema.Json.Writer
import RubySchema.Schema.File
import RubySchema.Settings.Templates
import RubySchema.Settings.Validation
import RubySchema.Text.Control

/-!
Commands carried out on a workspace. What has been said and written before a failure stays.
-/

namespace RubySchema.Command

open Text

/-- Why a command stops early. -/
inductive Stop where
  | usage
  | cause (cause : Error)
  | archive (file : String) (fault : ArchiveFault)
  deriving Inhabited

/-- A command under way: the files, the lines it has printed, its notes, and how many directories of
extraction are left behind.
-/
structure Session where
  tree : FileTree
  lines : List String
  notes : List Note
  leftovers : Nat
  deriving Inhabited

/-- A part of a command. -/
abbrev Run (α : Type) :=
  EStateM Stop Session α

namespace Run

/-- A line that is printed. Control sequences are left out, and half of a surrogate pair cannot be
encoded.
-/
def say (line : String) : Run Unit := do
  let shown := withoutControls line
  if let some cause := unencodable? isHalf shown then throw (.cause cause)
  modify fun session => { session with lines := session.lines ++ [shown] }

/-- Notes that are made. -/
def note (notes : List Note) : Run Unit :=
  modify fun session => { session with notes := session.notes ++ notes }

/-- A step with notes; its failure stops the command. -/
def carry {α : Type} (step : Noted α) : Run α := do
  note step.notes
  match step.outcome with
  | .ok value => return value
  | .error cause => throw (.cause cause)

/-- A condition of use. -/
def require (condition : Bool) : Run Unit :=
  if condition then pure () else throw .usage

/-- Options that have to be there. -/
def present {α : Type} : Option α → Run α
  | some options => pure options
  | none => throw .usage

/-- The values given to options are what is demanded, one by one. -/
def checkDemands (workspace : Workspace) : List (Demand × String) → Run Unit
  | [] => pure ()
  | (demand, value) :: rest => do
      if demand.isPath then
        if let some cause := Path.fault? [value] then throw (.cause cause)
      require (workspace.meets value demand)
      checkDemands workspace rest

/-- The settings of a file, if one is given, with some entries replaced. -/
def settingsFrom? (workspace : Workspace) (config : Option String) (changes : Table Json)
    : Option Settings := do
  let base ←
    match config with
    | none => some Settings.standard
    | some path => (Settings.ofText (readText (← workspace.read? path))).toOption
  (base.withEntries changes).toOption

/-- The entries that options of generation replace. -/
def changesOf (options : GenerateOptions) : Table Json :=
  ((options.namespaceName.map fun name => ("namespace", Json.string name)).toList
    ++ (options.maxDepth.map fun depth => ("max_depth", Json.number (.integer depth))).toList
    ++ (if options.keepsFiles then [("overwrite", Json.bool false)] else [])
    ++ (options.templateDir.map fun path => ("template_dir", Json.string path)).toList)

/-- Settings, which have to be in order. -/
def settings (workspace : Workspace) (config : Option String) (changes : Table Json)
    : Run Settings := do
  match settingsFrom? workspace config changes with
  | some settings => return settings
  | none => throw .usage

def schema (workspace : Workspace) (path : String) : Run Schema :=
  match workspace.read? path with
  | some text => carry (Schema.ofFile path text)
  | none => throw (.cause .fileSystem)

/-- The reference library in an archive. A member that cannot be put into its place leaves the
directory of extraction behind.
-/
def extracted (workspace : Workspace) (place : Path) (isVerbose : Bool) : Run Reference := do
  let name := place.getLastD ""
  say ("Extracting archive " ++ name ++ "...")
  match (workspace.archiveFile place).extract name with
  | .error (.stopped cause) =>
      modify fun session => { session with leftovers := session.leftovers + 1 }
      throw (.cause cause)
  | .error fault => throw (.archive name fault)
  | .ok extracted =>
      let inner := extracted.referenceRoot
      if isVerbose then say ("  Extracted to: " ++ workspace.scratch.text)
      let place := workspace.scratch ++ inner
      return { root := place.text, place, tree := extracted.tree.under workspace.scratch }

/-- The reference library at a place of the workspace. -/
def reference (workspace : Workspace) (place : Path) (root : Path) : Reference :=
  { root := root.text, place, tree := workspace.tree }

/-- The changes that options of generation ask for. An empty text asks for none. -/
def hooksOf (options : GenerateOptions) : Hooks :=
  let given (text : Option String) : List String := text.toList.filter fun text => text != ""
  {
    filters := (given options.excludePrefix).map fun name => { excludePrefix := .string name }
    headers := (given options.header).map fun header => { header, suffixes := [".rb"] }
  }

/-- The summary of a run, written where the options ask for it. Its directory has to be there. -/
def writeReport (workspace : Workspace) (path : String) (report : Json) : Run Unit := do
  let session ← get
  let path := Path.ofText path
  let current := { workspace with tree := session.tree }
  match (current.find? (Path.text path.dropLast)).filter current.tree.isDirectory with
  | none => throw (.cause .fileSystem)
  | some directory =>
      let (tree, failure) := session.tree.writeIn directory path (report.indented ++ "\n")
      set { session with tree }
      if let some cause := failure then throw (.cause cause)

def generate (workspace : Workspace) (options : GenerateOptions) : Run Unit := do
  let settings ← settings workspace options.config (changesOf options)
  let place := (workspace.find? options.reference).getD []
  let isFile := workspace.tree.isFile place
  require (!isFile || ArchiveFile.isArchiveName (place.getLastD ""))
  let reference ←
    if isFile then extracted workspace place options.isVerbose
    else pure (reference workspace place place)
  let directory := workspace.resolve options.output
  if options.isVerbose then
    say ("Schema: " ++ options.schema)
    say ("Reference: " ++ reference.root)
    say ("Output: " ++ directory.text)
  say "Parsing schema..."
  let schema ← schema workspace options.schema
  say "Generating code..."
  let templates ← carry (settings.templates workspace.tree workspace.home)
  let job : Job := { schema, reference, settings, hooks := hooksOf options, templates }
  let generation ← carry job.build
  let (output, failure) :=
    (Output.start workspace.tree).writeFiles directory settings.overwrite generation.files
  note (output.notes directory.text failure.isNone)
  modify fun session => { session with tree := output.tree }
  if let some cause := failure then throw (.cause cause)
  if options.isVerbose && !output.skipped.isEmpty then
    say ("  Kept existing files: " ++ toString output.skipped.length)
  if !generation.unsupported.isEmpty then
    let names ← carry (Noted.ofExcept (generation.unsupported.mapM Json.asText))
    say ("  Unsupported directives: " ++ ", ".intercalate (sortTexts names.eraseDups))
  match options.report with
  | none | some "" => pure ()
  | some path =>
      writeReport workspace path (generation.report output)
      say ("Report written to " ++ path)
  say ("Done. Methods: " ++ toString generation.total ++ ". Generated code in " ++ directory.text)

/-- The line for a type: its name, where it lands, and its base. -/
def typeLine (name : String) (mapping : NameMapping) : String :=
  name ++ " -> " ++ mapping.targetName ++ " < " ++ mapping.baseType.getD ""

/-- The listing of types, in the order of their names. -/
def types (workspace : Workspace) (options : TypesOptions) : Run Unit := do
  let settings ← settings workspace options.config []
  let schema ← schema workspace options.schema
  let place := (workspace.find? options.reference).getD []
  let reference := reference workspace place (Path.ofText options.reference)
  let classified ← carry (Job.classify reference settings schema)
  for name in sortTexts classified.mappings.names do
    match classified.get? name with
    | some mapping => if !mapping.isBuiltin then say (typeLine name mapping)
    | none => pure ()

end Run

/-- How a command has ended. -/
structure Outcome where
  session : Session
  stop : Option Stop

namespace Outcome

def exitCode (outcome : Outcome) : Nat :=
  match outcome.stop with
  | none => 0
  | some .usage => 2
  | some _ => 1

/-- The report of a failure. Causes outside the schema's own terms are not reported. -/
def failureLine? (outcome : Outcome) : Option String :=
  match outcome.stop with
  | some (.cause cause) => if cause.isReported then some ("Error: " ++ cause.message) else none
  | some (.archive file fault) => some ("Error: Cannot extract " ++ file ++ ": " ++ fault.text)
  | _ => none

def outputLines (outcome : Outcome) : List String :=
  outcome.session.lines

/-- The lines for the error output: notes, with those of detail only if asked for, and the failure.
Halves of surrogate pairs are spelled out.
-/
def errorLines (outcome : Outcome) (isVerbose : Bool) : List String :=
  let notes := outcome.session.notes.filter fun note => isVerbose || note.level != .debug
  let noteLines := notes.map fun note => note.level.word ++ ": " ++ note.text
  (noteLines ++ (outcome.failureLine?.map withoutControls).toList).map spelled

end Outcome

/-- A request carried out. -/
def Request.perform (request : Request) (workspace : Workspace) : Outcome :=
  let start : Session := {
    tree := workspace.tree
    lines := []
    notes := []
    leftovers := workspace.leftovers
  }
  let run : Run Unit := do
    Run.checkDemands workspace request.demands
    match request with
    | .generate given => Run.generate workspace (← Run.present (GenerateOptions.ofGiven? given))
    | .types given => Run.types workspace (← Run.present (TypesOptions.ofGiven? given))
  match run start with
  | .ok _ session => { session, stop := none }
  | .error stop session => { session, stop := some stop }

end RubySchema.Command
