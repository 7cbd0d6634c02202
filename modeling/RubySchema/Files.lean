import RubySchema.Error
import RubySchema.Table
import RubySchema.Text.Lines

/-!
Files. A tree holds the texts of files under paths, and the directories that have been made. A path
is followed one component at a time. Writing makes the directories that are missing on the way, up
to where a file stands in place of one.
-/

namespace RubySchema

/-- What keeps a text from being encoded: the first of its code points that cannot be, with all that
follow it without a gap.
-/
def Text.unencodable? (isBad : Nat → Bool) (text : String) : Option Error :=
  let points := Text.points text
  let before := points.takeWhile fun point => !isBad point
  match (points.drop before.length).takeWhile isBad with
  | [] => none
  | first :: more =>
      some (.unencodable first before.length (before.length + more.length))

/-- A path as its components. An absolute path begins with its root. -/
abbrev Path :=
  List String

namespace Path

/-- The root of an absolute path: a slash, or two where the text has exactly two. -/
def root? (text : List Char) : Option String :=
  match text with
  | '/' :: '/' :: '/' :: _ => some "/"
  | '/' :: '/' :: _ => some "//"
  | '/' :: _ => some "/"
  | _ => none

/-- The path that a text spells; repeated slashes and single dots add nothing. -/
def ofText (text : String) : Path :=
  let parts := (Text.splitOn '/' text.toList).map String.ofList
  (root? text.toList).toList ++ parts.filter fun part => part != "" && part != "."

/-- A path is absolute when it begins with a root. -/
def isAbsolute (path : Path) : Bool :=
  path.head? == some "/" || path.head? == some "//"

/-- The text of a path; the empty path is a dot. -/
def text (path : Path) : String :=
  match path with
  | [] => "."
  | first :: rest =>
      if isAbsolute path then first ++ "/".intercalate rest else "/".intercalate path

/-- A step down a path, or up where the component says so. -/
def step (path : Path) (component : String) : Path :=
  if component == ".." then
    match path.getLast? with
    | none => [".."]
    | some ".." => path ++ [".."]
    | some last => if last == "/" || last == "//" then path else path.dropLast
  else path ++ [component]

def resolveFrom (base path : Path) : Path :=
  if isAbsolute path then path.foldl step [] else path.foldl step base

/-- The longest name that a file or directory can have, in bytes. -/
def maxNameBytes : Nat := 255

/-- The longest path, in bytes. -/
def maxBytes : Nat := 4095

/-- The most directories on one way that can be made at once. -/
def maxMissing : Nat := 985

/-- How many bytes a code point takes in a name. A half stands for a single byte. -/
def pointBytes (point : Nat) : Nat :=
  if point < 0x80 || Text.isHalf point then 1
  else if point < 0x800 then 2
  else if point < 0x10000 then 3
  else 4

/-- The size of a name or of the text of a path, in bytes. -/
def nameBytes (name : String) : Nat :=
  (Text.points name).foldr (fun point size => pointBytes point + size) 0

/-- The size of a path, in bytes. -/
def bytes (path : Path) : Nat :=
  nameBytes path.text

/-- Half of a surrogate pair that no name of a file can hold: all but those that stand for bytes. -/
def isForeignHalf (point : Nat) : Bool :=
  Text.isHalf point && !(0xdc80 ≤ point && point ≤ 0xdcff)

/-- What keeps a path from leading anywhere: half of a surrogate pair, or a null character. -/
def fault? (path : Path) : Option Error :=
  match Text.unencodable? isForeignHalf path.text with
  | some cause => some cause
  | none =>
      if path.any fun name => name.toList.contains '\x00' then some .pathWithNull else none

/-- Where a file system stops at a path: it leads nowhere, or it is too long in whole or at its end.
-/
def stop? (path : Path) : Option Error :=
  match fault? path with
  | some cause => some cause
  | none =>
      if maxBytes < path.bytes || maxNameBytes < nameBytes (path.getLastD "") then some .fileSystem
      else none

end Path

/-- Texts of files under their paths, and directories that are there even if nothing lies below. -/
structure FileTree where
  files : List (Path × String)
  directories : List Path := []
  deriving DecidableEq, Repr, Inhabited

namespace FileTree

/-- A tree without files. -/
def empty : FileTree :=
  { files := [] }

def read? (tree : FileTree) (path : Path) : Option String :=
  (tree.files.find? fun file => file.1 == path).map Prod.snd

def isFile (tree : FileTree) (path : Path) : Bool :=
  (tree.read? path).isSome

/-- There is a directory at a path: it was made, or something lies below. The top, what lies above
it and the root are always there.
-/
def isDirectory (tree : FileTree) (path : Path) : Bool :=
  path.all (· == "..") || path == ["/"]
    || tree.directories.any path.isPrefixOf
    || tree.files.any fun file => path.isPrefixOf file.1 && path != file.1

/-- Something stands at a path. -/
def has (tree : FileTree) (path : Path) : Bool :=
  tree.isFile path || tree.isDirectory path

/-- Files with the text at one path replaced, or with a new file at the end. -/
def putFile (path : Path) (text : String) : List (Path × String) → List (Path × String)
  | [] => [(path, text)]
  | file :: rest =>
      if file.1 = path then (path, text) :: rest else file :: putFile path text rest

/-- A tree with a file written over whatever file was there. -/
def put (tree : FileTree) (path : Path) (text : String) : FileTree :=
  { tree with files := putFile path text tree.files }

-----------------------------------------------------------------------------------------
-- Following a path
-----------------------------------------------------------------------------------------

/-- Where a path leads from a directory of the tree, one component at a time. Nothing is found where
a directory on the way is missing; a name that is too long cannot be looked up.
-/
def locate (tree : FileTree) (directory : Path) : Path → Except Error (Option Path)
  | [] => .ok (some directory)
  | name :: rest =>
      if !tree.isDirectory directory then .ok none
      else if Path.maxNameBytes < Path.nameBytes name then .error .fileSystem
      else tree.locate (Path.step directory name) rest

/-- The place of what stands at the end of a path from a directory. A path that leads nowhere finds
nothing, and one that is too long cannot be looked up.
-/
def lookUp (tree : FileTree) (directory path : Path) : Except Error (Option Path) :=
  if (Path.fault? path).isSome then .ok none
  else if Path.maxBytes < path.bytes then .error .fileSystem
  else do return (← tree.locate directory path).filter tree.has

/-- The place of what a text leads to; relative paths start at the given directory. -/
def find (tree : FileTree) (home : Path) (text : String) : Except Error (Option Path) :=
  let path := Path.ofText text
  tree.lookUp (if path.isAbsolute then [] else home) path

/-- Something stands at the end of a path from a directory. -/
def reaches (tree : FileTree) (directory path : Path) : Bool :=
  match tree.lookUp directory path with
  | .ok (some _) => true
  | _ => false

-----------------------------------------------------------------------------------------
-- Writing
-----------------------------------------------------------------------------------------

/-- How many components of a path lie beyond the last directory on it that is there. -/
def missing (tree : FileTree) (directory : Path) : Path → Nat
  | [] => 0
  | name :: rest =>
      let place := Path.step directory name
      if tree.isDirectory place then tree.missing place rest else rest.length + 1

/-- The directories on a path made, where they are missing; `walked` is the path so far, which leads
to the given directory. Those that were made stay even if the way ends early.
-/
def makeDirectories (tree : FileTree) (walked directory : Path)
    : Path → FileTree × Except Error Path
  | [] => (tree, .ok directory)
  | name :: rest =>
      let path := walked ++ [name]
      let place := Path.step directory name
      match Path.stop? path with
      | some cause => (tree, .error cause)
      | none =>
          if tree.isDirectory place then tree.makeDirectories path place rest
          else if tree.isFile place then (tree, .error .fileSystem)
          else
            { tree with directories := tree.directories ++ [place] }.makeDirectories path place rest

/-- A file written into a directory, at the end of a path that leads there. -/
def writeIn (tree : FileTree) (directory path : Path) (text : String)
    : FileTree × Option Error :=
  match Path.stop? path, path.getLast? with
  | some cause, _ => (tree, some cause)
  | none, none => (tree, some .fileSystem)
  | none, some name =>
      let place := Path.step directory name
      if tree.isDirectory place then (tree, some .fileSystem) else (tree.put place text, none)

/-- A file written, with the directories on the way: the tree as it then is, and what has stopped
it.
-/
def write (tree : FileTree) (path : Path) (text : String) : FileTree × Option Error :=
  if Path.maxMissing < tree.missing [] path.dropLast then (tree, some .tooDeep)
  else
    match tree.makeDirectories [] [] path.dropLast with
    | (made, .error cause) => (made, some cause)
    | (made, .ok directory) => made.writeIn directory path text

-----------------------------------------------------------------------------------------
-- Parts of a tree
-----------------------------------------------------------------------------------------

/-- The tree below a directory. -/
def below (tree : FileTree) (path : Path) : FileTree :=
  let isBelow (other : Path) : Bool := path.isPrefixOf other && path != other
  {
    files := (tree.files.filter fun file => isBelow file.1).map fun file =>
      (file.1.drop path.length, file.2)
    directories := (tree.directories.filter isBelow).map fun directory =>
      directory.drop path.length
  }

/-- The tree moved into a directory. -/
def under (tree : FileTree) (path : Path) : FileTree :=
  {
    files := tree.files.map fun file => (path ++ file.1, file.2)
    directories := tree.directories.map fun directory => path ++ directory
  }

/-- Paths in the order of their components, and these in the order of their code points. -/
def pathLe (a b : Path) : Bool :=
  !decide (b.map Text.points < a.map Text.points)

/-- The files in the order of their paths. -/
def sorted (tree : FileTree) : List (Path × String) :=
  tree.files.mergeSort fun a b => pathLe a.1 b.1

/-- The names of what a directory holds, in order. -/
def children (tree : FileTree) (path : Path) : List String :=
  let below := tree.below path
  (sortTexts (below.files.filterMap (fun file => file.1.head?)
    ++ below.directories.filterMap List.head?)).eraseDups

end FileTree

end RubySchema
