import RubySchema.Text.Classes

/-!
Texts as lines. A line break closes a line, so a final break opens no further line; indentation
leaves blank lines empty and keeps no final break.
-/

namespace RubySchema.Text

/-- Lines of a text, without their breaks. A carriage return and a line feed are one break. -/
def lines : List Char → List (List Char)
  | [] => []
  | '\r' :: '\n' :: rest => [] :: lines rest
  | c :: rest =>
      if isLineBreak c then [] :: lines rest
      else
        match lines rest with
        | [] => [[c]]
        | line :: more => (c :: line) :: more

/-- Two spaces in front for each level; a blank line becomes empty instead. -/
def indentLine (level : Nat) (line : List Char) : List Char :=
  if line.all isBlank then [] else List.replicate (2 * level) ' ' ++ line

/-- Indentation of every line of a text. -/
def indentChars (level : Nat) (text : List Char) : List Char :=
  List.intercalate ['\n'] ((lines text).map (indentLine level))

/-- Indentation of a string, ready to be joined to further lines by a line feed. -/
def indent (level : Nat) (text : String) : String :=
  String.ofList (indentChars level text.toList)

/-- A text of two lines or more. -/
def isMultiline (text : String) : Bool :=
  (lines text.toList).length > 1

/-- A text without the characters of a class at its end. -/
def trimEnd (drop : Char → Bool) (text : List Char) : List Char :=
  (text.reverse.dropWhile drop).reverse

/-- A text without the characters of a class at either end. -/
def trim (drop : Char → Bool) (text : List Char) : List Char :=
  trimEnd drop (text.dropWhile drop)

/-- A description on one line: no line feed and no space at its end, none inside. -/
def oneline (text : String) : String :=
  let inner := (trim (· == '\n') text.toList).map fun c => if c == '\n' then ' ' else c
  String.ofList (trimEnd isBlank inner)

/-- The parts of a text between occurrences of a character. -/
def splitOn (separator : Char) : List Char → List (List Char)
  | [] => [[]]
  | c :: rest =>
      if c = separator then [] :: splitOn separator rest
      else
        match splitOn separator rest with
        | [] => [[c]]
        | part :: more => (c :: part) :: more

/-- Every line break of a file is read as a line feed, whichever of the three usual ones it is. -/
def readBreaks : List Char → List Char
  | [] => []
  | '\r' :: '\n' :: rest => '\n' :: readBreaks rest
  | '\r' :: rest => '\n' :: readBreaks rest
  | c :: rest => c :: readBreaks rest

/-- The text of a file as it is read. -/
def readText (text : String) : String :=
  String.ofList (readBreaks text.toList)

end RubySchema.Text
