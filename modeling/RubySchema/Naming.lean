import RubySchema.Text.Affix
import RubySchema.Text.Case

/-!
Names. A schema writes names in camel case; files and methods carry them in snake case, and a
constant path such as `Types::Widget` becomes the file path `types/widget`.
-/

namespace RubySchema.Naming

open RubySchema.Text

/-- A separator goes in front of each capital that starts a run of small letters, unless that
capital opens the text or its line. `inWord` says that the run of a separated capital goes on; its
letters separate nothing.
-/
def separateWords (inWord : Bool) : List Char → List Char
  | c :: u :: l :: rest =>
      if inWord && isSmall c then c :: separateWords true (u :: l :: rest)
      else if c != '\n' && isCapital u && isSmall l then
        c :: '_' :: u :: separateWords true (l :: rest)
      else c :: separateWords false (u :: l :: rest)
  | rest => rest

/-- A separator goes between a small letter or digit and the capital after it. -/
def separateHumps : List Char → List Char
  | a :: b :: rest =>
      if (isSmall a || isAsciiDigit a) && isCapital b then a :: '_' :: separateHumps (b :: rest)
      else a :: separateHumps (b :: rest)
  | rest => rest

def snakeChars (name : List Char) : List Char :=
  lower (separateHumps (separateWords false name))

/-- Snake case: the words of a name in lower case, joined by underscores. -/
def snakeCase (name : String) : String :=
  String.ofList (snakeChars name.toList)

/-- Parts of a constant path, split at each double colon from the left. -/
def constantParts : List Char → List (List Char)
  | [] => [[]]
  | ':' :: ':' :: rest => [] :: constantParts rest
  | c :: rest =>
      match constantParts rest with
      | [] => [[c]]
      | part :: more => (c :: part) :: more

/-- File path of a constant path: each part in snake case. -/
def filePath (constant : String) : String :=
  String.ofList (List.intercalate ['/'] ((constantParts constant.toList).map snakeChars))

/-- A name with its first character in lower case. -/
def camelLower (name : String) : String :=
  match name.toList with
  | [] => ""
  | c :: rest => String.ofList (lower [c] ++ rest)

/-- A name without a `Connection` at its end, and whether there was one. -/
def stripConnection (name : String) : String × Bool :=
  match beforeEnd? "Connection".toList name.toList with
  | some rest => (String.ofList rest, true)
  | none => (name, false)

end RubySchema.Naming
