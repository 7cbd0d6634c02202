import RubySchema.Json.Reader
import RubySchema.Text.Lines

/-!
Tokens of the schema definition language: punctuators, names, numbers and texts. Blanks, line
breaks, commas, byte order marks and comments stand between tokens and mean nothing.
-/

namespace RubySchema.Sdl

open Text

/-- A token. The text of a number is kept as it was written. -/
inductive Token where
  | mark (text : String)
  | name (text : String)
  | int (text : String)
  | float (text : String)
  | string (text : String) (isBlock : Bool)
  deriving DecidableEq, Repr, Inhabited

namespace Token

def isNameStart (c : Char) : Bool :=
  isCapital c || isSmall c || c == '_'

def isNamePart (c : Char) : Bool :=
  isNameStart c || isAsciiDigit c

/-- Characters that stand between tokens. -/
def isIgnored (c : Char) : Bool :=
  c == ' ' || c == '\t' || c == '\n' || c == '\r' || c == ',' || c == '\ufeff'

def marks : List Char :=
  ['!', '$', '&', '(', ')', ':', '=', '@', '[', ']', '\x7b', '|', '\x7d']

/-- The code point of an escape between braces. -/
def bracedEscape? (digits : List Char) : Option Nat := do
  let values ← digits.mapM Json.hexDigit?
  if values.isEmpty || values.length > 8 then none
  else
    let value := values.foldl (fun total digit => total * 16 + digit) 0
    if value < 0x110000 && !isHalf value then some value else none

/-- What is written for a code point, put in front of characters that are held backwards. -/
def pushPoint (point : Nat) (done : List Char) : List Char :=
  (ofCodePoint point).reverse ++ done

/-- The text after an opening quote, up to the closing one; `done` holds its characters backwards.
Halves of a character must come in pairs, and a line must not end inside the text.
-/
def scanText (done : List Char) : List Char → Option (String × List Char)
  | [] => none
  | '"' :: rest => some (String.ofList done.reverse, rest)
  | '\\' :: 'u' :: '\x7b' :: rest => scanBraced done [] rest
  | '\\' :: 'u' :: a :: b :: c :: d :: rest => do
      let point ← Json.hexFour? a b c d
      if !isHalf point then scanText (pushPoint point done) rest
      else
        match rest with
        | '\\' :: 'u' :: e :: f :: g :: h :: more =>
            let low ← Json.hexFour? e f g h
            if isHighHalf point && isLowHalf low then
              let whole := 0x10000 + (point - 0xd800) * 0x400 + (low - 0xdc00)
              scanText (pushPoint whole done) more
            else none
        | _ => none
  | '\\' :: c :: rest => do scanText ((← Json.escaped? c) :: done) rest
  | c :: rest => if c == '\n' || c == '\r' then none else scanText (c :: done) rest
where
  /-- Goes on inside the braces of an escape. -/
  scanBraced (done : List Char) (digits : List Char) : List Char → Option (String × List Char)
    | [] => none
    | '\x7d' :: rest => do scanText (pushPoint (← bracedEscape? digits.reverse) done) rest
    | c :: rest => scanBraced done (c :: digits) rest

/-- The characters of a block text after its opening quotes, backwards, up to the closing ones. -/
def scanBlock (done : List Char) : List Char → Option (List Char × List Char)
  | [] => none
  | '"' :: '"' :: '"' :: rest => some (done.reverse, rest)
  | '\\' :: '"' :: '"' :: '"' :: rest => scanBlock ('"' :: '"' :: '"' :: done) rest
  | c :: rest => scanBlock (c :: done) rest

/-- Lines of a block text; a text that ends in a break has an empty last line. -/
def blockLines (text : List Char) : List (List Char) :=
  splitOn '\n' (readBreaks text)

/-- Blanks that indent a line of a block text. -/
def isIndent (c : Char) : Bool :=
  c == ' ' || c == '\t'

/-- A line of blanks alone. -/
def isEmptyLine (line : List Char) : Bool :=
  line.all isIndent

/-- The indentation that all lines but the first have in common; empty lines do not count. -/
def commonIndent (lines : List (List Char)) : Nat :=
  let indents := ((lines.drop 1).filter fun line => !isEmptyLine line).map fun line =>
    (line.takeWhile isIndent).length
  indents.min?.getD 0

/-- Lines without common indentation, and without the empty ones at either end. -/
def dedent (lines : List (List Char)) : List (List Char) :=
  let indent := commonIndent lines
  let cut := lines.take 1 ++ (lines.drop 1).map fun line => line.drop indent
  ((cut.dropWhile isEmptyLine).reverse.dropWhile isEmptyLine).reverse

def blockValue (text : List Char) : String :=
  String.ofList (List.intercalate ['\n'] (dedent (blockLines text)))

/-- The digits of a whole number; one of two digits or more does not begin with zero. -/
def scanWhole (text : List Char) : Option (List Char × List Char) :=
  match text with
  | '0' :: rest =>
      if (rest.head?.map isAsciiDigit).getD false then none else some (['0'], rest)
  | _ =>
      match text.takeWhile isAsciiDigit with
      | [] => none
      | digits => some (digits, text.dropWhile isAsciiDigit)

/-- Digits, of which there is at least one. -/
def scanDigits (text : List Char) : Option (List Char × List Char) :=
  match text.takeWhile isAsciiDigit with
  | [] => none
  | digits => some (digits, text.dropWhile isAsciiDigit)

/-- The exponent of a number, with its letter and sign; none where there is no exponent. -/
def scanExponent (text : List Char) : Option (List Char × List Char) :=
  match text with
  | letter :: rest =>
      if letter != 'e' && letter != 'E' then some ([], text)
      else
        let (sign, after) : List Char × List Char :=
          match rest with
          | '+' :: more => (['+'], more)
          | '-' :: more => (['-'], more)
          | more => ([], more)
        (scanDigits after).map fun found => (letter :: sign ++ found.1, found.2)
  | [] => some ([], [])

/-- A number and what follows. Neither a point nor a name may follow it directly. -/
def scanNumber (text : List Char) : Option (Token × List Char) := do
  let (sign, unsigned) : List Char × List Char :=
    match text with
    | '-' :: rest => (['-'], rest)
    | rest => ([], rest)
  let (whole, afterWhole) ← scanWhole unsigned
  let (fraction, afterFraction) ←
    match afterWhole with
    | '.' :: rest => (scanDigits rest).map fun found => ('.' :: found.1, found.2)
    | rest => some ([], rest)
  let (exponent, rest) ← scanExponent afterFraction
  if (rest.head?.map fun c => c == '.' || isNameStart c).getD false then none
  else
    let written := String.ofList (sign ++ whole ++ fraction ++ exponent)
    if fraction.isEmpty && exponent.isEmpty then some (.int written, rest)
    else some (.float written, rest)

/-- The token in front, which begins with the given character, and what follows. -/
def scanOne (c : Char) (rest : List Char) : Option (Token × List Char) :=
  if marks.contains c then some (.mark c.toString, rest)
  else if isNameStart c then
    some (.name (String.ofList (c :: rest.takeWhile isNamePart)), rest.dropWhile isNamePart)
  else if isAsciiDigit c || c == '-' then scanNumber (c :: rest)
  else
    match c, rest with
    | '.', '.' :: '.' :: more => some (.mark "...", more)
    | '"', '"' :: '"' :: more =>
        (scanBlock [] more).map fun found => (.string (blockValue found.1) true, found.2)
    | '"', _ => (scanText [] rest).map fun found => (.string found.1 false, found.2)
    | _, _ => none

/-- The tokens of a text. Each takes a character at least, so fuel of its length is enough. -/
def scan (fuel : Nat) (text : List Char) : Option (List Token) :=
  match fuel, text with
  | _, [] => some []
  | 0, _ => none
  | fuel + 1, c :: rest =>
      if isIgnored c then scan fuel rest
      else if c == '#' then scan fuel (rest.dropWhile fun c => c != '\n' && c != '\r')
      else do
        let (token, more) ← scanOne c rest
        return token :: (← scan fuel more)

/-- The tokens of a text; none when some part of it is no token. -/
def ofText? (text : String) : Option (List Token) :=
  scan (text.length + 1) text.toList

end Token

end RubySchema.Sdl
