import RubySchema.Json.Message

/-!
Writing a document in ASCII, on one line or with one item a line.
-/

namespace RubySchema.Json

/-- One code point between double quotes; outside ASCII it is written as its 16-bit units. -/
def writePoint (point : Nat) : List Char :=
  let c := Char.ofNat point
  if c == '"' || c == '\\' then ['\\', c]
  else if c == '\n' then ['\\', 'n']
  else if c == '\r' then ['\\', 'r']
  else if c == '\t' then ['\\', 't']
  else if c == '\x08' then ['\\', 'b']
  else if c == '\x0c' then ['\\', 'f']
  else if 32 ≤ point && point < 127 then [c]
  else if point < 0x10000 then '\\' :: 'u' :: Text.hex 4 point
  else
    let units := point - 0x10000
    '\\' :: 'u' :: Text.hex 4 (0xd800 + units / 0x400)
      ++ '\\' :: 'u' :: Text.hex 4 (0xdc00 + units % 0x400)

/-- A text between double quotes. -/
def writeText (text : String) : String :=
  String.ofList ('"' :: (Text.points text).flatMap writePoint ++ ['"'])

def writeNumber : Number → String
  | .infinity false => "Infinity"
  | .infinity true => "-Infinity"
  | .undefined => "NaN"
  | value => numberText value

/-- The text of a value that stands as a key. -/
def keyText : Json → String
  | .null => "null"
  | .bool true => "true"
  | .bool false => "false"
  | .number value => writeNumber value
  | value => value.display

/-- The break in front of an item: nothing on one line, else a line of its own at a depth. -/
def lineStart (isIndented : Bool) (depth : Nat) : String :=
  if isIndented then "\n" ++ String.ofList (List.replicate (2 * depth) ' ') else ""

mutual

/-- A value at a depth; the depth matters only where each item has its own line. -/
def write (isIndented : Bool) (depth : Nat) : Json → String
  | .null => "null"
  | .bool true => "true"
  | .bool false => "false"
  | .number value => writeNumber value
  | .string value => writeText value
  | .array [] => "[]"
  | .array items => "[" ++ writeItems isIndented depth items ++ lineStart isIndented depth ++ "]"
  | .object [] => "\x7b\x7d"
  | .object entries =>
      "\x7b" ++ writeEntries isIndented depth entries ++ lineStart isIndented depth ++ "\x7d"

/-- Items with commas between them. -/
def writeItems (isIndented : Bool) (depth : Nat) : List Json → String
  | [] => ""
  | item :: rest =>
      lineStart isIndented (depth + 1) ++ write isIndented (depth + 1) item
        ++ (if rest.isEmpty then "" else ",") ++ writeItems isIndented depth rest

/-- Entries with commas between them. -/
def writeEntries (isIndented : Bool) (depth : Nat) : List (String × Json) → String
  | [] => ""
  | (key, value) :: rest =>
      lineStart isIndented (depth + 1) ++ writeText key ++ ": "
        ++ write isIndented (depth + 1) value
        ++ (if rest.isEmpty then "" else ",") ++ writeEntries isIndented depth rest

end

/-- A document on one line. -/
def compact (value : Json) : String :=
  write false 0 value

/-- A document with one item a line, each two spaces further in than what holds it. -/
def indented (value : Json) : String :=
  write true 0 value

end RubySchema.Json
