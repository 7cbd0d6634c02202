import RubySchema.Json.Reader
import RubySchema.Table
import RubySchema.Text.Affix
import RubySchema.Text.Lines

/-!
Arguments of a command. Options are given by words or by letters; letters may be joined, and a value
may be attached or come as the next argument. Of several values for one option the last one counts.
-/

namespace RubySchema.Command

open Text

/-- What the value of an option has to be: any text, a count, or the path of something that is there
or may be put there.
-/
inductive Demand where
  | text
  | count
  | file
  | directory
  | fileOrDirectory
  | notFile
  | notDirectory
  deriving DecidableEq, Repr, Inhabited

/-- The value has to be a path. -/
def Demand.isPath : Demand → Bool
  | .text | .count => false
  | _ => true

/-- An option that a command knows: its word, its letter if it has one, and what its value has to be
if it takes one.
-/
structure OptionForm where
  word : String
  letter : Option Char
  demand : Option Demand
  deriving Inhabited

namespace OptionForm

def valued (word : String) (letter : Option Char) (demand : Demand) : OptionForm :=
  { word, letter, demand := some demand }

/-- An option without a value. -/
def flag (word : String) (letter : Option Char) : OptionForm :=
  { word, letter, demand := none }

def takesValue (form : OptionForm) : Bool :=
  form.demand.isSome

end OptionForm

/-- The values given to options, by their words, in the order in which the options first came. A
flag has an empty one.
-/
abbrev Given :=
  Table String

/-- What has been read of the arguments: the values so far, and the word of an option whose value is
still to come.
-/
structure ReadArguments where
  given : Given
  awaiting : Option String
  deriving Inhabited

namespace ReadArguments

/-- Nothing has been read. -/
def start : ReadArguments :=
  { given := [], awaiting := none }

def give (read : ReadArguments) (word value : String) : ReadArguments :=
  { given := Table.put read.given word value, awaiting := none }

/-- An option by its word, with the value attached to it if there is one. -/
def readWord (forms : List OptionForm) (read : ReadArguments) (word : String)
    (attached : Option String) : Option ReadArguments := do
  let form ← forms.find? fun form => form.word == word
  match form.takesValue, attached with
  | true, some value => return read.give form.word value
  | true, none => return { read with awaiting := some form.word }
  | false, some _ => none
  | false, none => return read.give form.word ""

/-- Options by their letters; the letters after one with a value are that value. -/
def readLetters (forms : List OptionForm) (read : ReadArguments)
    : List Char → Option ReadArguments
  | [] => some read
  | c :: rest =>
      match forms.find? fun form => form.letter == some c with
      | none => none
      | some form =>
          if !form.takesValue then readLetters forms (read.give form.word "") rest
          else if rest.isEmpty then some { read with awaiting := some form.word }
          else some (read.give form.word (String.ofList rest))

def readOption (forms : List OptionForm) (read : ReadArguments) (argument : String)
    : Option ReadArguments :=
  let chars := argument.toList
  if startsWith argument "--" then
    let word := String.ofList (chars.takeWhile (· != '='))
    let attached := (chars.dropWhile (· != '=')).tail
    readWord forms read word (if chars.contains '=' then some (String.ofList attached) else none)
  else readLetters forms read chars.tail

/-- All arguments. What is no option is refused, and so is anything after two dashes. -/
def readAll (forms : List OptionForm) (read : ReadArguments) : List String → Option Given
  | [] => if read.awaiting.isSome then none else some read.given
  | argument :: rest =>
      match read.awaiting with
      | some word => readAll forms (read.give word argument) rest
      | none =>
          if argument == "--" then (if rest.isEmpty then some read.given else none)
          else if startsWith argument "-" && argument != "-" then
            match readOption forms read argument with
            | some next => readAll forms next rest
            | none => none
          else none

end ReadArguments

/-- The values that arguments give to the options of a command; none when they are not understood.
-/
def readArguments (forms : List OptionForm) (arguments : List String) : Option Given :=
  ReadArguments.start.readAll forms arguments

/-- The value of a decimal digit of any script: digits of a script lie next to each other, from zero
on.
-/
def digitValue (c : Char) : Nat :=
  if c.toNat < 128 then c.toNat - 48
  else
    match decimalRanges.find? fun range => range.1 ≤ c.toNat && c.toNat ≤ range.2 with
    | some range => (c.toNat - range.1) % 10
    | none => 0

/-- Digits with single underscores between them. -/
def isDigitText : List Char → Bool
  | [] => false
  | [c] => isDecimal c
  | c :: '_' :: rest => isDecimal c && isDigitText rest
  | c :: rest => isDecimal c && isDigitText rest

/-- Blanks around a count. Next to characters of ASCII alone the information separators are none. -/
def isCountSpace (isAscii : Bool) (c : Char) : Bool :=
  isBlank c && !(isAscii && 28 ≤ c.toNat && c.toNat ≤ 31)

/-- The count that a text spells: blanks around it, a plus sign and underscores between digits count
for nothing. There is none below one, and none of too many digits.
-/
def readCount? (text : String) : Option Nat :=
  let isAscii := text.toList.all fun c => c.toNat < 128
  let body := trim (isCountSpace isAscii) text.toList
  let number := (afterStart? ['+'] body).getD body
  let digits := number.filter isDecimal
  if isDigitText number && digits.length ≤ Json.maxDigits then
    let value := digits.foldl (fun value c => 10 * value + digitValue c) 0
    if value = 0 then none else some value
  else none

end RubySchema.Command
