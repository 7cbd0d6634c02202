import RubySchema.Archive.Zip
import RubySchema.Command.Run

/-!
The command line. The files that a request names are read, the request is carried out on them, and
the files that it has changed are written.
-/

namespace RubySchema.Command

/-- How the commands are used. -/
def usageText : String :=
  "Usage: generate -s SCHEMA -r REFERENCE [-o OUTPUT] [-c CONFIG] [--namespace NAME]\n"
    ++ "                [--max-depth N] [--no-overwrite] [--template-dir DIRECTORY]\n"
    ++ "                [--header TEXT] [--exclude-prefix TEXT] [--report FILE] [-v]\n"
    ++ "       types -s SCHEMA -r REFERENCE [-c CONFIG]"

/-- The names in a directory; none when there is no directory. -/
def directoryNames? (path : String) : IO (Option (List String)) := do
  try
    let entries ← ((← IO.currentDir) / Text.plain path).readDir
    return some (entries.toList.map fun entry => Text.ofPlain entry.fileName)
  catch _ => return none

/-- The bytes of a file; none when there is no file. -/
def fileBytes? (path : String) : IO (Option ByteArray) := do
  try return some (← IO.FS.readBinFile (Text.plain path))
  catch _ => return none

/-- A workspace with a file of the given bytes, which may be an archive. -/
def Workspace.withBytes (workspace : Workspace) (place : Path) (bytes : ByteArray) : Workspace :=
  let archives :=
    match Zip.members? bytes with
    | some members => (place, members) :: workspace.archives
    | none => workspace.archives
  { workspace with
    tree := workspace.tree.put place (Text.ofPlain ((String.fromUTF8? bytes).getD ""))
    archives }

/-- A workspace with a directory, which may be empty. -/
def Workspace.withDirectory (workspace : Workspace) (place : Path) : Workspace :=
  { workspace with
    tree := { workspace.tree with directories := place :: workspace.tree.directories } }

/-- A workspace with what stands at a path: a file, or a directory down to a depth. -/
def Workspace.load (workspace : Workspace) (depth : Nat) (path : String) : IO Workspace := do
  let place := workspace.resolve path
  match ← fileBytes? place.text with
  | some bytes => return workspace.withBytes place bytes
  | none =>
      match ← directoryNames? place.text, depth with
      | some names, depth + 1 =>
          names.foldlM (fun current name => current.load depth (path ++ "/" ++ name))
            (workspace.withDirectory place)
      | some _, 0 => return workspace.withDirectory place
      | none, _ => return workspace

/-- The places on the way to a path, from the outermost to the path itself. -/
def placesTo (path : Path) : List Path :=
  (List.range path.length).map fun count => path.take (count + 1)

/-- A workspace with what stands at several paths and on the way there. -/
def Workspace.loadAll (workspace : Workspace) (depth : Nat) (paths : List String)
    : IO Workspace := do
  let ways := (paths.flatMap fun path => placesTo (Path.ofText path).dropLast).eraseDups
  let known ← ways.foldlM (fun current way => current.load 0 way.text) workspace
  paths.foldlM (fun current path => current.load depth path) known

/-- The parts of a checkout that matter. -/
def referencePaths (root : String) : List String :=
  [
    root ++ "/" ++ Path.text Reference.typesDirectory,
    root ++ "/" ++ Path.text Reference.directiveDirectory
  ]

/-- A workspace with what options of generation name. -/
def Workspace.loadGeneration (workspace : Workspace) (options : GenerateOptions)
    : IO Workspace := do
  let reportPlaces := options.report.toList.map fun path =>
    Path.text (Path.ofText path).dropLast
  let named ← workspace.loadAll 0
    (options.schema :: options.reference :: options.output
      :: (options.config.toList ++ options.report.toList ++ reportPlaces))
  let withReference ← named.loadAll 1 (referencePaths options.reference)
  let settings := Run.settingsFrom? withReference options.config (Run.changesOf options)
  withReference.loadAll 1
    (options.templateDir.toList ++ (settings.bind Settings.templateDir).toList)

/-- A workspace with what options of the listing of types name. -/
def Workspace.loadListing (workspace : Workspace) (options : TypesOptions) : IO Workspace := do
  let named ← workspace.loadAll 0 (options.schema :: options.reference :: options.config.toList)
  named.loadAll 1 (referencePaths options.reference)

/-- A workspace with everything that a request names. -/
def Workspace.loadRequest (workspace : Workspace) (request : Request) : IO Workspace :=
  match request with
  | .generate given =>
      match GenerateOptions.ofGiven? given with
      | some options => workspace.loadGeneration options
      | none => return workspace
  | .types given =>
      match TypesOptions.ofGiven? given with
      | some options => workspace.loadListing options
      | none => return workspace

/-- The files that a request changes. -/
def changesBy (workspace : Workspace) (outcome : Outcome) : List (Path × String) :=
  outcome.session.tree.files.filter fun file => workspace.tree.read? file.1 != some file.2

/-- The directories that a request makes. -/
def directoriesBy (workspace : Workspace) (outcome : Outcome) : List Path :=
  outcome.session.tree.directories.filter fun place => !workspace.tree.isDirectory place

/-- A workspace with whatever stands at the places of changes. -/
def Workspace.loadPlaces (workspace : Workspace) (changes : List Path) : IO Workspace :=
  let places := changes.filter fun place => !workspace.tree.isFile place
  workspace.loadAll 0 (places.map Path.text)

/-- Making a directory, with those on the way. -/
def makeDirectory (place : Path) : IO Unit :=
  IO.FS.createDirAll (Text.plain place.text)

/-- Writing a file, with the directories on the way. -/
def writeFile (file : Path × String) : IO Unit := do
  makeDirectory file.1.dropLast
  IO.FS.writeFile (Text.plain file.1.text) (Text.plain file.2)

/-- A request carried out on the files that are there. It is carried out once to learn which files
it changes, and again when what stands in their places is known.
-/
def serve (request : Request) : IO UInt32 := do
  let home := Path.ofText (Text.ofPlain (← IO.currentDir).toString)
  let start : Workspace := {
    home
    scratch := Path.ofText "/tmp/checkout"
    tree := { FileTree.empty with directories := [home] }
    archives := []
  }
  let loaded ← start.loadRequest request
  let trial := request.perform loaded
  let workspace ← loaded.loadPlaces
    ((changesBy loaded trial).map Prod.fst ++ directoriesBy loaded trial)
  let outcome := request.perform workspace
  (directoriesBy workspace outcome).forM makeDirectory
  (changesBy workspace outcome).forM writeFile
  outcome.outputLines.forM fun line => IO.println (Text.plain line)
  (outcome.errorLines request.isVerbose).forM fun line => IO.eprintln (Text.plain line)
  match outcome.stop with
  | some .usage => IO.eprintln usageText
  | some (.cause cause) =>
      if !cause.isReported then IO.eprintln "Error: the input does not have the form it needs"
  | _ => pure ()
  return outcome.exitCode.toUInt32

end RubySchema.Command

open RubySchema RubySchema.Command in
/-- The program: a request that is not understood is answered with the usage. -/
def main (arguments : List String) : IO UInt32 := do
  match Request.ofArguments? (arguments.map Text.ofPlain) with
  | some request => serve request
  | none => do
      IO.eprintln usageText
      return 2
