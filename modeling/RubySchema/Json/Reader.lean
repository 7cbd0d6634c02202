import RubySchema.Json.Basic
import RubySchema.Table
import RubySchema.Text.Classes
import RubySchema.Text.Halves

/-!
Reading a document. The words `NaN` and `Infinity` are numbers; control characters inside a text are
refused. How deep values may nest, whether halves of surrogate pairs may stand alone, and what
becomes of a repeated key is up to the rules of the reader.
-/

namespace RubySchema.Json

open RubySchema.Text

/-- The value of a digit of base sixteen. -/
def hexDigit? (c : Char) : Option Nat :=
  if isAsciiDigit c then some (c.toNat - 48)
  else if 'a' ≤ c && c ≤ 'f' then some (c.toNat - 87)
  else if 'A' ≤ c && c ≤ 'F' then some (c.toNat - 55)
  else none

/-- The number that four digits of base sixteen stand for. -/
def hexFour? (a b c d : Char) : Option Nat := do
  let high := (← hexDigit? a) * 16 + (← hexDigit? b)
  let low := (← hexDigit? c) * 16 + (← hexDigit? d)
  return high * 256 + low

/-- The character that an escape of one letter stands for. -/
def escaped? : Char → Option Char
  | '"' => some '"'
  | '\\' => some '\\'
  | '/' => some '/'
  | 'b' => some '\x08'
  | 'f' => some '\x0c'
  | 'n' => some '\n'
  | 'r' => some '\r'
  | 't' => some '\t'
  | _ => none

/-- What a reader takes. -/
structure Reading where
  /-- How many lists and objects may stand inside each other. -/
  maxDepth : Nat
  /-- Empty lists and objects count among them. -/
  countsEmpty : Bool
  /-- Half of a surrogate pair may stand alone. -/
  takesHalves : Bool
  /-- An object keeps every entry of a repeated key. Otherwise the last value stands, in the place
  of the first.
  -/
  keepsRepeats : Bool
  /-- The limit on digits holds in front of a fraction or an exponent too. -/
  limitsWhole : Bool

/-- The rules for schema documents. -/
def Reading.document : Reading :=
  {
    maxDepth := 990
    countsEmpty := true
    takesHalves := true
    keepsRepeats := false
    limitsWhole := false
  }

def Reading.settings : Reading :=
  {
    maxDepth := 200
    countsEmpty := false
    takesHalves := false
    keepsRepeats := true
    limitsWhole := true
  }

/-- Why a text is not a document. -/
inductive Defect where
  | malformed
  | tooDeep
  | tooManyDigits (count : Nat)
  deriving DecidableEq, Repr, Inhabited

/-- An integer has at most this many digits. -/
def maxDigits : Nat := 4300

/-- Code points in which two halves of a surrogate pair make one. -/
def joinPairs : List Nat → List Nat
  | [] => []
  | high :: low :: rest =>
      if isHighHalf high && isLowHalf low then
        (0x10000 + (high - 0xd800) * 0x400 + (low - 0xdc00)) :: joinPairs rest
      else high :: joinPairs (low :: rest)
  | [single] => [single]

/-- The text after an opening quote, up to the closing one, and what follows. -/
def readText (reading : Reading) (done : List Nat)
    : List Char → Except Defect (String × List Char)
  | [] => .error .malformed
  | '"' :: rest =>
      let points := joinPairs done.reverse
      if !reading.takesHalves && points.any isHalf then .error .malformed
      else .ok (ofPoints points, rest)
  | '\\' :: 'u' :: a :: b :: c :: d :: rest =>
      match hexFour? a b c d with
      | some point => readText reading (point :: done) rest
      | none => .error .malformed
  | '\\' :: c :: rest =>
      match escaped? c with
      | some char => readText reading (char.toNat :: done) rest
      | none => .error .malformed
  | c :: d :: rest =>
      if c.toNat < 32 then .error .malformed
      else if c = mark then readText reading (d.toNat :: done) rest
      else readText reading (unmarkedPoint c :: done) (d :: rest)
  | _ => .error .malformed

/-- The number that a run of digits stands for. -/
def digitsValue (digits : List Char) : Nat :=
  digits.foldl (fun value c => value * 10 + (c.toNat - 48)) 0

/-- The digits in front, and the rest. -/
def readDigits (text : List Char) : List Char × List Char :=
  (text.takeWhile isAsciiDigit, text.dropWhile isAsciiDigit)

/-- The fraction after a point; none when no digit follows the point. -/
def readFraction : List Char → List Char × List Char
  | '.' :: rest =>
      match readDigits rest with
      | ([], _) => ([], '.' :: rest)
      | found => found
  | rest => ([], rest)

/-- The exponent in front, with its sign; none when it has no digit. -/
def readExponent (text : List Char) : Option Int × List Char :=
  match text with
  | c :: rest =>
      if c == 'e' || c == 'E' then
        let (sign, after) : Int × List Char :=
          match rest with
          | '+' :: more => (1, more)
          | '-' :: more => (-1, more)
          | more => (1, more)
        match readDigits after with
        | ([], _) => (none, text)
        | (digits, more) => (some (sign * digitsValue digits), more)
      else (none, text)
  | [] => (none, [])

/-- The number in front; a number of two digits or more does not begin with zero. -/
def readNumber (reading : Reading) (isNegative : Bool) (text : List Char)
    : Except Defect (Json × List Char) :=
  let (whole, afterWhole) : List Char × List Char :=
    match text with
    | '0' :: rest => (['0'], rest)
    | other => readDigits other
  if whole.isEmpty then .error .malformed
  else
    let (fraction, afterFraction) := readFraction afterWhole
    let (exponent, rest) := readExponent afterFraction
    let isInteger := fraction.isEmpty && exponent.isNone
    if (isInteger || reading.limitsWhole) && maxDigits < whole.length then
      .error (.tooManyDigits whole.length)
    else if isInteger then
      let size : Int := digitsValue whole
      .ok (.number (.integer (if isNegative then -size else size)), rest)
    else
      let digits := digitsValue (whole ++ fraction)
      let power := exponent.getD 0 - fraction.length
      .ok (.number (Number.ofDecimal isNegative digits power), rest)

/-- The text without the blanks in front. -/
def skipSpace (text : List Char) : List Char :=
  text.dropWhile fun c => c == ' ' || c == '\t' || c == '\n' || c == '\r'

def words : List (List Char × Json) :=
  [
    ("null".toList, .null), ("true".toList, .bool true), ("false".toList, .bool false),
    ("NaN".toList, .number .undefined), ("Infinity".toList, .number (.infinity false)),
    ("-Infinity".toList, .number (.infinity true))
  ]

def readWord (text : List Char) : Option (Json × List Char) :=
  (words.find? fun word => word.1.isPrefixOf text).map fun word =>
    (word.2, text.drop word.1.length)

/-- An object of entries that were read, the last one first. -/
def objectOf (reading : Reading) (done : List (String × Json)) : Json :=
  .object (if reading.keepsRepeats then done.reverse else Table.ofEntries done.reverse)

/-- An empty list or object; `room` is how many may still stand inside each other. -/
def readEmpty (reading : Reading) (room : Nat) (value : Json) (rest : List Char)
    : Except Defect (Json × List Char) :=
  if reading.countsEmpty && room == 0 then .error .tooDeep else .ok (value, rest)

mutual

/-- The value in front. A value takes a character at least, so fuel of the length of the text is
enough.
-/
def readValue (reading : Reading) (fuel room : Nat) (text : List Char)
    : Except Defect (Json × List Char) :=
  match fuel with
  | 0 => .error .malformed
  | fuel + 1 =>
      match skipSpace text with
      | '"' :: rest => do
          let (value, more) ← readText reading [] rest
          return (.string value, more)
      | '[' :: rest =>
          match skipSpace rest, room with
          | ']' :: more, _ => readEmpty reading room (.array []) more
          | _, 0 => .error .tooDeep
          | _, room + 1 => readItems reading fuel room [] rest
      | '\x7b' :: rest =>
          match skipSpace rest, room with
          | '\x7d' :: more, _ => readEmpty reading room (.object []) more
          | _, 0 => .error .tooDeep
          | _, room + 1 => readEntries reading fuel room [] rest
      | other =>
          match readWord other with
          | some found => .ok found
          | none =>
              match other with
              | '-' :: rest => readNumber reading true rest
              | _ => readNumber reading false other

/-- Items up to the closing bracket; `done` holds the earlier ones backwards. -/
def readItems (reading : Reading) (fuel room : Nat) (done : List Json) (text : List Char)
    : Except Defect (Json × List Char) :=
  match fuel with
  | 0 => .error .malformed
  | fuel + 1 => do
      let (item, rest) ← readValue reading fuel room text
      match skipSpace rest with
      | ',' :: more => readItems reading fuel room (item :: done) more
      | ']' :: more => return (.array (item :: done).reverse, more)
      | _ => throw .malformed

/-- Entries up to the closing brace; `done` holds the earlier ones backwards. -/
def readEntries (reading : Reading) (fuel room : Nat) (done : List (String × Json))
    (text : List Char) : Except Defect (Json × List Char) :=
  match fuel with
  | 0 => .error .malformed
  | fuel + 1 =>
      match skipSpace text with
      | '"' :: afterQuote => do
          let (key, afterKey) ← readText reading [] afterQuote
          match skipSpace afterKey with
          | ':' :: afterColon =>
              let (value, rest) ← readValue reading fuel room afterColon
              match skipSpace rest with
              | ',' :: more => readEntries reading fuel room ((key, value) :: done) more
              | '\x7d' :: more => return (objectOf reading ((key, value) :: done), more)
              | _ => throw .malformed
          | _ => throw .malformed
      | _ => .error .malformed

end

/-- The document that a text holds, which is one value with nothing but blanks after it. -/
def read (reading : Reading) (text : String) : Except Defect Json :=
  let chars := text.toList
  match readValue reading (2 * chars.length + 2) reading.maxDepth chars with
  | .ok (value, rest) => if (skipSpace rest).isEmpty then .ok value else .error .malformed
  | .error defect => .error defect

end RubySchema.Json
