import RubySchema.Json.Basic
import RubySchema.Text.Classes
import RubySchema.Text.Halves

/-!
Values in messages. A text that stands alone is shown as it is; inside another value, or where its
kind is in doubt, it stands between quotes.
-/

namespace RubySchema

namespace Text

/-- One code point between quotes of a kind. -/
def quotePoint (quote : Char) (point : Nat) : List Char :=
  let c := Char.ofNat point
  if c == '\\' || c == quote then ['\\', c]
  else if c == '\n' then ['\\', 'n']
  else if c == '\r' then ['\\', 'r']
  else if c == '\t' then ['\\', 't']
  else if !isHalf point && isPrintable c then [c]
  else if point < 0x100 then '\\' :: 'x' :: hex 2 point
  else if point < 0x10000 then '\\' :: 'u' :: hex 4 point
  else '\\' :: 'U' :: hex 8 point

/-- A text between quotes: double ones when it holds single ones only, single ones otherwise. -/
def quoted (text : String) : String :=
  let chars := text.toList
  let quote := if chars.contains '\x27' && !chars.contains '"' then '"' else '\x27'
  String.ofList (quote :: (codePoints chars).flatMap (quotePoint quote) ++ [quote])

end Text

namespace Json

def numberText : Number → String
  | .integer value => toString value
  | .decimal value => value.text
  | .infinity false => "inf"
  | .infinity true => "-inf"
  | .undefined => "nan"

mutual

/-- A value where its kind is in doubt. -/
def inspect : Json → String
  | .null => "None"
  | .bool true => "True"
  | .bool false => "False"
  | .number value => numberText value
  | .string value => Text.quoted value
  | .array items => "[" ++ inspectItems items ++ "]"
  | .object entries => "\x7b" ++ inspectEntries entries ++ "\x7d"

/-- Items of a list, separated by commas. -/
def inspectItems : List Json → String
  | [] => ""
  | [item] => inspect item
  | item :: rest => inspect item ++ ", " ++ inspectItems rest

/-- Entries of an object, separated by commas. -/
def inspectEntries : List (String × Json) → String
  | [] => ""
  | [(key, value)] => Text.quoted key ++ ": " ++ inspect value
  | (key, value) :: rest =>
      Text.quoted key ++ ": " ++ inspect value ++ ", " ++ inspectEntries rest

end

/-- A value that stands alone in a message. -/
def display : Json → String
  | .string value => value
  | value => inspect value

end Json

end RubySchema
