import RubySchema.Text.Alphabet

/-!
Classes of characters: what ends a line, what is blank, what may stand in a word, which digits are
decimal, and which characters can be shown as they are.
-/

namespace RubySchema.Text

/-- A table of ranges holds a code point when one of its ranges does. -/
def inRanges (ranges : List (Nat × Nat)) (point : Nat) : Bool :=
  ranges.any fun range => range.1 ≤ point && point ≤ range.2

/-- A line ends at a line feed, a carriage return, a vertical tab, a form feed, an information
separator other than the unit separator, a next-line mark, or a line or paragraph separator.
-/
def isLineBreak (c : Char) : Bool :=
  let n := c.toNat
  (10 ≤ n && n ≤ 13) || (28 ≤ n && n ≤ 30) || n == 0x85 || n == 0x2028 || n == 0x2029

/-- Blank characters are the line breaks, the tab, the unit separator and every kind of space. -/
def isBlank (c : Char) : Bool :=
  let n := c.toNat
  isLineBreak c || n == 9 || n == 31 || n == 32 || n == 0xa0 || n == 0x1680
    || (0x2000 ≤ n && n ≤ 0x200a) || n == 0x202f || n == 0x205f || n == 0x3000

/-- Capital letters of ASCII. -/
def isCapital (c : Char) : Bool :=
  'A' ≤ c && c ≤ 'Z'

/-- Small letters of ASCII. -/
def isSmall (c : Char) : Bool :=
  'a' ≤ c && c ≤ 'z'

def isAsciiDigit (c : Char) : Bool :=
  '0' ≤ c && c ≤ '9'

/-- Decimal digits of any script. -/
def isDecimal (c : Char) : Bool :=
  if c.toNat < 128 then isAsciiDigit c else inRanges decimalRanges c.toNat

/-- Characters of a word: letters, digits and numerals of any script, and the underscore. -/
def isWord (c : Char) : Bool :=
  if c.toNat < 128 then isCapital c || isSmall c || isAsciiDigit c || c == '_'
  else inRanges wordRanges c.toNat

/-- Characters that a message shows as they are. -/
def isPrintable (c : Char) : Bool :=
  if c.toNat < 128 then 32 ≤ c.toNat && c.toNat ≤ 126 else inRanges printableRanges c.toNat

end RubySchema.Text
