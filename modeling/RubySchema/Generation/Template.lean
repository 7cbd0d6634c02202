import RubySchema.Generation.Value
import RubySchema.Text.Affix
import RubySchema.Text.Lines

/-!
Templates: texts with values between double braces, and with comments. A value is a name, with steps
into it behind dots. A minus sign at the inner side of a mark takes away the blanks beyond it. Where
no sign stands, a comment takes away the line break right behind it, and the blanks in front when
nothing else begins its line.
-/

namespace RubySchema

open Text

/-- A piece of a template: text that stays as it is, or the name of a value and steps into it. -/
inductive Piece where
  | text (text : List Char)
  | value (name : String) (steps : List Step)
  deriving Inhabited

namespace Template

/-- What stands between marks in a template: a value, or a comment. -/
inductive Inset where
  | value
  | comment
  deriving DecidableEq, Repr, Inhabited

/-- What opens in a template: nothing more, an inset with the text in front of it and what follows
its mark, or what no template has.
-/
inductive Opening where
  | none
  | inset (before : List Char) (inset : Inset) (rest : List Char)
  | unknown
  deriving Inhabited

/-- The first opening of a template. A brace and a percent sign open what no template has. -/
def findOpening (done : List Char) : List Char → Opening
  | '\x7b' :: '\x7b' :: rest => .inset done.reverse .value rest
  | '\x7b' :: '#' :: rest => .inset done.reverse .comment rest
  | '\x7b' :: '%' :: _ => .unknown
  | c :: rest => findOpening (c :: done) rest
  | [] => .none

/-- The sign in front of a text. -/
def sign? : List Char → Option Char
  | '-' :: _ => some '-'
  | '+' :: _ => some '+'
  | _ => none

/-- The text in front of an inset, without the blanks that its sign takes away. -/
def textBefore (text : List Char) (inset : Inset) (sign : Option Char) (isLineStart : Bool)
    : List Char :=
  let line := (text.reverse.takeWhile (· != '\n')).reverse
  if sign == some '-' then trimEnd isBlank text
  else if inset == .comment && sign.isNone && (isLineStart || line.length < text.length)
      && line.all isBlank then
    text.take (text.length - line.length)
  else text

/-- A template after the end of an inset, and whether a line begins there. -/
structure After where
  rest : List Char
  isLineStart : Bool
  deriving Inhabited

/-- The blanks in front are taken away. -/
def After.ofBlanks (text : List Char) : After :=
  {
    rest := text.dropWhile isBlank
    isLineStart := (text.takeWhile isBlank).getLast? == some '\n'
  }

def afterComment? : List Char → Option After
  | '-' :: '#' :: '\x7d' :: rest => some (.ofBlanks rest)
  | '+' :: '#' :: '\x7d' :: rest => some { rest, isLineStart := false }
  | '#' :: '\x7d' :: '\n' :: rest => some { rest, isLineStart := true }
  | '#' :: '\x7d' :: rest => some { rest, isLineStart := false }
  | _ :: rest => afterComment? rest
  | [] => none

/-- A name, which does not begin with a digit, and what follows it. -/
def readName? (text : List Char) : Option (String × List Char) :=
  match text.takeWhile isWord with
  | [] => none
  | c :: more =>
      if isDecimal c then none
      else some (String.ofList (c :: more), text.dropWhile isWord)

/-- Digits of some sort in front, with single underscores between them, and what follows. -/
def readDigits (isTaken : Char → Bool) : List Char → List Char × List Char
  | '_' :: c :: rest =>
      if isTaken c then
        let (digits, after) := readDigits isTaken rest
        (c :: digits, after)
      else ([], '_' :: c :: rest)
  | c :: rest =>
      if isTaken c then
        let (digits, after) := readDigits isTaken rest
        (c :: digits, after)
      else ([], c :: rest)
  | [] => ([], [])

/-- A position, and what follows it. After a zero no other digit counts. -/
def readPosition? : List Char → Option (Nat × List Char)
  | '0' :: rest => some (0, (readDigits (· == '0') rest).2)
  | c :: rest =>
      if isAsciiDigit c then
        let (digits, after) := readDigits isAsciiDigit rest
        some ((c :: digits).foldl (fun value d => 10 * value + (d.toNat - 48)) 0, after)
      else none
  | [] => none

/-- A point and a digit stand in front. -/
def isFraction : List Char → Bool
  | '.' :: c :: _ => isDecimal c
  | _ => false

/-- A step behind its dot, and what follows it. Behind blanks, a position and a fraction would be
one number, which is no step.
-/
def readStep? (text : List Char) : Option (Step × List Char) :=
  let body := text.dropWhile isBlank
  match readPosition? body with
  | some (position, rest) =>
      if body.length < text.length && isFraction rest then none else some (.item position, rest)
  | none => (readName? body).map fun found => (.part found.1, found.2)

/-- Steps behind a name, up to the end of the inset, and what follows that. A step takes a character
at least, so fuel of the length of the text is enough.
-/
def readSteps? (fuel : Nat) (done : List Step) (text : List Char) : Option (List Step × After) :=
  match fuel with
  | 0 => none
  | fuel + 1 =>
      match text.dropWhile isBlank with
      | '-' :: '\x7d' :: '\x7d' :: rest => some (done.reverse, .ofBlanks rest)
      | '\x7d' :: '\x7d' :: rest => some (done.reverse, { rest, isLineStart := false })
      | '.' :: rest => do
          let (step, after) ← readStep? rest
          readSteps? fuel (step :: done) after
      | _ => none

/-- A value, and what follows its inset. -/
def readValue? (text : List Char) : Option (Piece × After) := do
  let (name, rest) ← readName? (text.dropWhile isBlank)
  if name == "not" then failure
  let (steps, after) ← readSteps? (rest.length + 1) [] rest
  return (.value name steps, after)

/-- The piece for an inset, and what follows it. A comment leaves no piece. -/
def readInset? (text : List Char) : Inset → Option (List Piece × After)
  | .comment => (afterComment? text).map fun after => ([], after)
  | .value => (readValue? text).map fun found => ([found.1], found.2)

/-- The pieces of a template. Each inset takes two characters at least, so fuel of the length of the
template is enough.
-/
def readPieces? (fuel : Nat) (isLineStart : Bool) (template : List Char) : Option (List Piece) :=
  match fuel with
  | 0 => some [.text template]
  | fuel + 1 =>
      match findOpening [] template with
      | .none => some [.text template]
      | .unknown => none
      | .inset before inset opened => do
          let sign := sign? opened
          let (pieces, after) ← readInset? (if sign.isSome then opened.drop 1 else opened) inset
          let rest ← readPieces? fuel after.isLineStart after.rest
          return .text (textBefore before inset sign isLineStart) :: pieces ++ rest

/-- The pieces of the text of a template. Each line break is read as a line feed, and one at the end
does not count.
-/
def read? (template : String) : Option (List Piece) :=
  let chars := readBreaks template.toList
  let body := (beforeEnd? ['\n'] chars).getD chars
  readPieces? (body.length + 1) true body

/-- Names that stand for the same value in every template. -/
def constants : Table Value :=
  [
    ("true", .ofBool true), ("True", .ofBool true), ("false", .ofBool false),
    ("False", .ofBool false), ("none", .data .null), ("None", .data .null)
  ]

def valueOf? (bindings : Table Value) (name : String) : Option Value :=
  (Table.get? constants name).or (Table.get? bindings name)

def pieceText (bindings : Table Value) : Piece → Except Error String
  | .text text => .ok (String.ofList text)
  | .value name steps => Value.textAlong (valueOf? bindings name) steps

/-- A template with its values filled in. Nothing is filled in before the whole template has been
read.
-/
def fill (bindings : Table Value) (template : String) : Except Error String := do
  match read? template with
  | none => throw .malformedTemplate
  | some pieces => return String.join (← pieces.mapM (pieceText bindings))

end Template

end RubySchema
