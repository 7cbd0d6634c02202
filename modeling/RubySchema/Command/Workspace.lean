import RubySchema.Archive
import RubySchema.Command.Options

/-!
The files that a command works on, and what it says on its way.
-/

namespace RubySchema.Command

open Text

/-- Files under full paths, of which some are archives. Relative paths start at `home`, and archives
are extracted to `scratch`; earlier commands may have left directories of extraction behind.
-/
structure Workspace where
  home : Path
  scratch : Path
  tree : FileTree
  archives : List (Path × List (String × String))
  leftovers : Nat := 0
  deriving Inhabited

namespace Workspace

/-- The full path that a text leads to, wherever that is. -/
def resolve (workspace : Workspace) (text : String) : Path :=
  Path.resolveFrom workspace.home (Path.ofText text)

/-- The full path of something that is there. All directories on the way have to be there, and after
a slash at the end there has to be a directory.
-/
def find? (workspace : Workspace) (text : String) : Option Path :=
  let tree := workspace.tree
  if text.isEmpty then none
  else
    match tree.find workspace.home text with
    | .ok (some place) =>
        if tree.isDirectory place || !(endsWith text "/" || endsWith text "/.") then some place
        else none
    | _ => none

def isFile (workspace : Workspace) (text : String) : Bool :=
  (workspace.find? text).any workspace.tree.isFile

def isDirectory (workspace : Workspace) (text : String) : Bool :=
  (workspace.find? text).any workspace.tree.isDirectory

/-- The text of a file that is there. -/
def read? (workspace : Workspace) (text : String) : Option String :=
  (workspace.find? text).bind workspace.tree.read?

/-- What a file is that may be an archive. -/
def archiveFile (workspace : Workspace) (place : Path) : ArchiveFile :=
  match workspace.archives.find? fun archive => archive.1 == place with
  | some archive => .members archive.2
  | none => .text ((workspace.tree.read? place).getD "")

/-- A value is what is demanded of it. -/
def meets (workspace : Workspace) (value : String) : Demand → Bool
  | .text => true
  | .count => (readCount? value).isSome
  | .file => workspace.isFile value
  | .directory => workspace.isDirectory value
  | .fileOrDirectory => (workspace.find? value).isSome
  | .notFile => !workspace.isFile value
  | .notDirectory => !workspace.isDirectory value

end Workspace

end RubySchema.Command
