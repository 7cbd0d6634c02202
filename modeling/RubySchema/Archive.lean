import RubySchema.Files
import RubySchema.Reference
import RubySchema.Text.Affix
import RubySchema.Text.Case

/-!
Archives of a checkout. Members are put below the directory of extraction whatever their names say,
and the checkout is the directory itself or the first one in it that looks like one.
-/

namespace RubySchema

open Text

/-- What a file is that may be an archive: plain text, or members under their names. -/
inductive ArchiveFile where
  | text (text : String)
  | members (members : List (String × String))
  deriving Inhabited

/-- Why a file cannot be extracted. -/
inductive ArchiveFault where
  | notZip
  | notGzip
  | nothing
  | unsupported (suffix : String)
  | stopped (cause : Error)
  deriving DecidableEq, Repr, Inhabited

/-- The text of a fault. What stops a member from being put into its place has none. -/
def ArchiveFault.text : ArchiveFault → String
  | .notZip => "File is not a zip file"
  | .notGzip => "not a gzip file"
  | .nothing => "empty file"
  | .unsupported suffix => "Unsupported archive format: " ++ suffix
  | .stopped _ => ""

/-- What extraction has put into a directory. -/
structure Extracted where
  tree : FileTree
  deriving Inhabited

namespace Extracted

def empty : Extracted :=
  { tree := FileTree.empty }

/-- The place of a member; what leads up or starts anew is left out. -/
def memberPath (name : String) : Path :=
  ((splitOn '/' name.toList).map String.ofList).filter fun part =>
    part != "" && part != "." && part != ".."

/-- A directory made, with those on the way. -/
def makeDirectory (tree : FileTree) (path : Path) : FileTree × Option Error :=
  if Path.maxMissing < tree.missing [] path then (tree, some .tooDeep)
  else
    match tree.makeDirectories [] [] path with
    | (made, .ok _) => (made, none)
    | (made, .error cause) => (made, some cause)

/-- One more member. Its name ends before the first null character; a member whose name ends in a
slash is a directory.
-/
def addMember (extracted : Extracted) (member : String × String) : Except ArchiveFault Extracted :=
  let name := String.ofList (member.1.toList.takeWhile (· != '\x00'))
  let path := memberPath name
  let (tree, failure) :=
    if endsWith name "/" then makeDirectory extracted.tree path
    else extracted.tree.write path member.2
  match failure with
  | some cause => .error (.stopped cause)
  | none => .ok { tree }

/-- The checkout within the directory of extraction. -/
def referenceRoot (extracted : Extracted) : Path :=
  if extracted.tree.isDirectory Reference.typesDirectory then []
  else
    match (extracted.tree.children []).find? fun name =>
      extracted.tree.isDirectory (name :: Reference.typesDirectory) with
    | some name => [name]
    | none => []

end Extracted

namespace ArchiveFile

/-- The ends of names that archives have, in any case. -/
def suffixes : List String := [".zip", ".tar.gz", ".tgz"]

def isArchiveName (name : String) : Bool :=
  suffixes.any fun suffix => endsWith (lowerString name) suffix

/-- The end of a name from its last dot on, if there is something before and after it. -/
def suffixOf (name : String) : String :=
  let chars := name.toList
  let final := (chars.reverse.takeWhile (· != '.')).reverse
  if final.length + 1 < chars.length && !final.isEmpty then "." ++ String.ofList final else ""

/-- The members of a file, extracted. The name tells what kind of archive it should be. -/
def extract (file : ArchiveFile) (name : String) : Except ArchiveFault Extracted :=
  if endsWith (lowerString name) ".zip" then
    match file with
    | .members inside => inside.foldlM Extracted.addMember Extracted.empty
    | .text _ => .error .notZip
  else if isArchiveName name then
    match file with
    | .text "" => .error .nothing
    | _ => .error .notGzip
  else .error (.unsupported (suffixOf name))

end ArchiveFile

end RubySchema
