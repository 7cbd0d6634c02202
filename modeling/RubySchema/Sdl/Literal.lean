import RubySchema.Json.Message
import RubySchema.Text.Affix
import RubySchema.Text.Lines

/-!
Literals of the schema definition language, and their standard form. Numbers are written as they
were read; lists and objects go on one line while they fit.
-/

namespace RubySchema.Sdl

open Text

/-- A literal. A variable is allowed in operations only. -/
inductive Literal where
  | variable (name : String)
  | int (text : String)
  | float (text : String)
  | string (text : String) (isBlock : Bool)
  | boolean (value : Bool)
  | null
  | enum (name : String)
  | list (items : List Literal)
  | object (fields : List (String × Literal))
  deriving Inhabited, Repr

namespace Literal

/-- The longest line of a list or an object. -/
def maxLine : Nat := 80

/-- One character of a text between double quotes. -/
def escapeChar (c : Char) : List Char :=
  let n := c.toNat
  if c == '"' || c == '\\' then ['\\', c]
  else if n == 8 then ['\\', 'b']
  else if c == '\t' then ['\\', 't']
  else if c == '\n' then ['\\', 'n']
  else if n == 12 then ['\\', 'f']
  else if c == '\r' then ['\\', 'r']
  else if n < 32 || (127 ≤ n && n < 160) then
    '\\' :: 'u' :: (hex 4 n).map Char.toUpper
  else [c]

/-- A text between double quotes. -/
def quoteText (text : String) : String :=
  String.ofList ('"' :: text.toList.flatMap escapeChar ++ ['"'])

/-- A text in which three double quotes in a row are escaped. -/
def escapeTriples : List Char → List Char
  | '"' :: '"' :: '"' :: rest => '\\' :: '"' :: '"' :: '"' :: escapeTriples rest
  | c :: rest => c :: escapeTriples rest
  | [] => []

/-- A line that begins with a blank. -/
def isIndented (line : List Char) : Bool :=
  match line with
  | c :: _ => c == ' ' || c == '\t'
  | [] => false

/-- A block text between triple quotes. It gets lines of its own when it has several, when it is
long, or when its end would run into the closing quotes.
-/
def quoteBlock (text : String) : String :=
  let chars := text.toList
  let escaped := escapeTriples chars
  let lines := splitOn '\n' escaped
  let isSingle := lines.length == 1
  let forcesLeading :=
    lines.length > 1 && (lines.drop 1).all fun line => line.isEmpty || isIndented line
  let endsInTriple := ['\\', '"', '"', '"'].isSuffixOf escaped
  let forcesTrailing :=
    (['"'].isSuffixOf chars && !endsInTriple) || ['\\'].isSuffixOf chars
  let isSpread :=
    !isSingle || (codePoints chars).length > 70 || forcesTrailing || forcesLeading || endsInTriple
  let skipsLeading := isSingle && isIndented chars
  let before := if (isSpread && !skipsLeading) || forcesLeading then "\n" else ""
  let after := if isSpread || forcesTrailing then "\n" else ""
  "\"\"\"" ++ before ++ String.ofList escaped ++ after ++ "\"\"\""

/-- Two blanks in front of every line. -/
def indentLines (text : String) : String :=
  if text.isEmpty then ""
  else
    String.ofList (' ' :: ' ' :: text.toList.flatMap fun c =>
      if c == '\n' then ['\n', ' ', ' '] else [c])

/-- Items between brackets, on one line if they fit, with a line each otherwise. -/
def enclose (opening closing : String) (items : List String) : String :=
  let line := opening ++ ", ".intercalate items ++ closing
  if (points line).length ≤ maxLine then line
  else
    String.ofList (trimEnd (· == ' ') opening.toList) ++ "\n"
      ++ indentLines ("\n".intercalate items) ++ "\n"
      ++ String.ofList (closing.toList.dropWhile (· == ' '))

mutual

/-- The standard form of a literal. -/
def text : Literal → String
  | .variable name => "$" ++ name
  | .int written => written
  | .float written => written
  | .string value false => quoteText value
  | .string value true => quoteBlock value
  | .boolean true => "true"
  | .boolean false => "false"
  | .null => "null"
  | .enum name => name
  | .list items => enclose "[" "]" (itemTexts items)
  | .object fields => enclose "\x7b " " \x7d" (fieldTexts fields)

/-- The standard forms of items. -/
def itemTexts : List Literal → List String
  | [] => []
  | item :: rest => text item :: itemTexts rest

/-- The standard forms of fields. -/
def fieldTexts : List (String × Literal) → List String
  | [] => []
  | (name, value) :: rest => (name ++ ": " ++ text value) :: fieldTexts rest

end

mutual

/-- No object inside the literal has two fields of one name. -/
def hasUniqueFields : Literal → Bool
  | .list items => itemsHaveUniqueFields items
  | .object fields => (fields.map Prod.fst).Nodup && fieldsHaveUniqueFields fields
  | _ => true

/-- Every item of a list has unique fields. -/
def itemsHaveUniqueFields : List Literal → Bool
  | [] => true
  | item :: rest => hasUniqueFields item && itemsHaveUniqueFields rest

/-- Every field of an object has a value with unique fields. -/
def fieldsHaveUniqueFields : List (String × Literal) → Bool
  | [] => true
  | (_, value) :: rest => hasUniqueFields value && fieldsHaveUniqueFields rest

end

end Literal

end RubySchema.Sdl
