import RubySchema.Files
import RubySchema.Text.Affix
import RubySchema.Text.Lines

/-!
The reference library. A checkout of it shows which types are built in, each by a class declaration
in a file of its own, and which directives have an implementation.
-/

namespace RubySchema

open Text

/-- A checkout of the reference library: files, the place of the checkout among them, and the text
that its place is given by.
-/
structure Reference where
  root : String
  place : Path
  tree : FileTree
  deriving Inhabited

namespace Reference

def typesDirectory : Path := ["lib", "graphql", "types"]

def directiveDirectory : Path := ["lib", "graphql", "directive"]

/-- Blanks in front, of which there is at least one, taken away. -/
def dropBlanks? (text : List Char) : Option (List Char) :=
  match text with
  | [] => none
  | c :: rest => if isBlank c then some (rest.dropWhile isBlank) else none

/-- The name that a class declaration in front of a text declares. -/
def declaredHere? (text : List Char) : Option String := do
  let afterWord ← afterStart? "class".toList text
  let fromName ← dropBlanks? afterWord
  let name := fromName.takeWhile isWord
  let afterBlanks ← dropBlanks? (fromName.dropWhile isWord)
  match name, afterBlanks with
  | [], _ => none
  | _, '<' :: _ => some (String.ofList name)
  | _, _ => none

/-- The name in the first class declaration of a text. -/
def declaredClass? : List Char → Option String
  | [] => none
  | c :: rest =>
      match declaredHere? (c :: rest) with
      | some name => some name
      | none => declaredClass? rest

/-- The names that files of a directory declare. A directory among them cannot be read. -/
def declaredIn (tree : FileTree) (directory : Path) : List String → Except Error (List String)
  | [] => .ok []
  | file :: rest =>
      match tree.read? (directory ++ [file]) with
      | none => .error .fileSystem
      | some text => do
          let more ← declaredIn tree directory rest
          return (declaredClass? (readText text).toList).toList ++ more

/-- The names of the built-in types, in the order of their files. -/
def builtinNames (reference : Reference) : Except Error (List String) := do
  let directory := reference.place ++ typesDirectory
  let files := (reference.tree.children directory).filter fun name => endsWith name ".rb"
  let names ← declaredIn reference.tree directory files
  if names.isEmpty then
    throw (.noBuiltins (Path.text (Path.ofText reference.root ++ typesDirectory)))
  else return names

/-- A directive of a name has an implementation file. The name may lead out of the checkout. -/
def supportsDirective (reference : Reference) (name : Json) : Except Error Bool := do
  let path := Path.ofText (name.display ++ "_directive.rb")
  let whole :=
    if Path.isAbsolute path then path else reference.place ++ directiveDirectory ++ path
  return (← reference.tree.lookUp [] whole).any reference.tree.isFile

end Reference

end RubySchema
