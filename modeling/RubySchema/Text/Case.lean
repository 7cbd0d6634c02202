import RubySchema.Text.CaseTable
import RubySchema.Text.Classes

/-!
Lower case. Outside ASCII a character may have a lower form of two characters, and a capital sigma
at the end of a word has its own.
-/

namespace RubySchema.Text

/-- The lower form of a code point outside ASCII; a code point without one stands for itself. -/
def lowerPoint (point : Nat) : Nat :=
  match lowerRuns.find? fun run => run.first ≤ point && point ≤ run.last with
  | none => point
  | some run => if (point - run.first) % run.stride == 0 then (point + run.shift).toNat else point

/-- The lower form of one character that stands alone. -/
def lowerChar (c : Char) : List Char :=
  if c.toNat < 128 then [c.toLower]
  else if c.toNat == 0x130 then ['i', '\u0307']
  else [Char.ofNat (lowerPoint c.toNat)]

/-- Cased characters that case rules do not skip over. -/
def isCased (c : Char) : Bool :=
  if c.toNat < 128 then isCapital c || isSmall c else inRanges casedRanges c.toNat

/-- Characters that case rules skip over. -/
def isCaseIgnorable (c : Char) : Bool :=
  if c.toNat < 128 then c.toNat ∈ [39, 46, 58, 94, 96] else inRanges caseIgnorableRanges c.toNat

/-- The next character that case rules look at is cased. -/
def facesCased (text : List Char) : Bool :=
  match text.dropWhile isCaseIgnorable with
  | [] => false
  | c :: _ => isCased c

/-- Lower case of a text that follows `before`, which is given backwards. -/
def lowerAfter (before : List Char) : List Char → List Char
  | [] => []
  | c :: rest =>
      let small :=
        if c == 'Σ' then [if facesCased before && !facesCased rest then 'ς' else 'σ']
        else lowerChar c
      small ++ lowerAfter (c :: before) rest

def lower (text : List Char) : List Char :=
  lowerAfter [] text

def lowerString (text : String) : String :=
  String.ofList (lower text.toList)

end RubySchema.Text
