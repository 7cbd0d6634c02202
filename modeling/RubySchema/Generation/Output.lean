import RubySchema.Generation.Build
import RubySchema.Json.Writer

/-!
Writing the files of a run. A file that users may edit is kept when it is already there and is not
to be overwritten.
-/

namespace RubySchema

/-- What writing has come to: the tree, and the paths written and kept so far. -/
structure Output where
  tree : FileTree
  written : List String
  skipped : List String
  deriving Inhabited

namespace Output

/-- Nothing has been written. -/
def start (tree : FileTree) : Output :=
  { tree, written := [], skipped := [] }

/-- A file stays as it is. -/
def isKept (overwrite : Bool) (tree : FileTree) (path : Path) (file : GeneratedFile) : Bool :=
  file.isEditable && !overwrite && tree.reaches [] path

/-- One file of a run, written below a directory or kept: what has been reached, and the failure if
there was one. A file whose text cannot be written is left empty.
-/
def writeFile (output : Output) (directory : Path) (overwrite : Bool) (file : GeneratedFile)
    : Output × Option Error :=
  let path := Path.ofText file.path
  let path := if path.isAbsolute then path else directory ++ path
  if isKept overwrite output.tree path file then
    ({ output with skipped := output.skipped ++ [file.path] }, none)
  else
    let failure := Text.unencodable? Text.isHalf file.content
    match output.tree.write path (if failure.isSome then "" else file.content) with
    | (tree, some cause) => ({ output with tree }, some cause)
    | (tree, none) =>
        if failure.isSome then ({ output with tree }, failure)
        else ({ output with tree, written := output.written ++ [file.path] }, none)

/-- Files of a run in order: what has been reached, and the failure that stopped it if there was
one.
-/
def writeFiles (output : Output) (directory : Path) (overwrite : Bool)
    : List GeneratedFile → Output × Option Error
  | [] => (output, none)
  | file :: rest =>
      match output.writeFile directory overwrite file with
      | (next, none) => next.writeFiles directory overwrite rest
      | (next, some cause) => (next, some cause)

/-- The full path of a file of a run, as a text. -/
def placeText (directory path : String) : String :=
  if Text.startsWith path "/" then path else directory ++ "/" ++ path

/-- The notes on the files that were kept, and on how many were written to the named directory. -/
def notes (output : Output) (directory : String) (isComplete : Bool) : List Note :=
  (output.skipped.map fun path => ({
    level := .debug
    text := "Not overwriting " ++ placeText directory path : Note }))
    ++ (if isComplete then
        [{
          level := .info
          text := "Wrote " ++ toString output.written.length ++ " files to " ++ directory }]
      else [])

end Output

/-- The reason given for a directive that the reference library does not implement. -/
def notSupported : String := "not supported by graphql-ruby"

/-- The reasons why directives are not supported, under their names as keys. -/
def Generation.problems (generation : Generation) : Keyed Json :=
  Keyed.ofEntries (generation.unsupported.map fun name => (name, Json.string notSupported))

/-- Values under keys as an object. Different keys may have the same text. -/
def Keyed.object (table : Keyed Json) : Json :=
  .object (table.map fun entry => (entry.1.keyText, entry.2))

/-- A summary of a run. -/
def Generation.report (generation : Generation) (output : Output) : Json :=
  let texts (values : List String) : Json := .array (values.map .string)
  .object [
    ("total", .number (.integer generation.total)),
    ("problems", .object [("directives", generation.problems.object)]),
    ("dependencies",
      .object (generation.graph.sorted.map fun entry => (entry.1, texts entry.2))),
    ("mutual_dependencies",
      .array (generation.graph.mutualPairs.map fun pair => texts [pair.1, pair.2])),
    ("written", texts output.written),
    ("skipped", texts output.skipped)
  ]

end RubySchema
