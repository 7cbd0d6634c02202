/-!
Halves of surrogate pairs. A string holds whole characters only, so half of a pair that stands alone
is written as the character of plane five whose code point has the same last four digits. A mark
stands in front of a character that could be taken for a half, and in front of the mark itself. Main
statement: code points are read back from what is written for them.
-/

namespace RubySchema.Text

/-- The first half of a pair. -/
def isHighHalf (point : Nat) : Bool :=
  0xd800 ≤ point && point < 0xdc00

/-- The second half of a pair. -/
def isLowHalf (point : Nat) : Bool :=
  0xdc00 ≤ point && point < 0xe000

def isHalf (point : Nat) : Bool :=
  0xd800 ≤ point && point < 0xe000

/-- Distance of a half from the character that is written for it. -/
def halfOffset : Nat := 0x50000

/-- The mark. -/
def mark : Char :=
  Char.ofNat 0x5e000

/-- The mark stands in front of this code point: it could be taken for a half, or for the mark. -/
def isMarked (point : Nat) : Bool :=
  0x5d800 ≤ point && point ≤ 0x5e000

def ofCodePoint (point : Nat) : List Char :=
  if isHalf point then [Char.ofNat (point + halfOffset)]
  else if isMarked point then [mark, Char.ofNat point]
  else [Char.ofNat point]

def ofCodePoints (points : List Nat) : List Char :=
  points.flatMap ofCodePoint

/-- The code point that a character stands for when no mark is in front of it. -/
def unmarkedPoint (c : Char) : Nat :=
  if isMarked c.toNat then c.toNat - halfOffset else c.toNat

/-- The code points that characters are written for. -/
def codePoints : List Char → List Nat
  | [] => []
  | [c] => [unmarkedPoint c]
  | c :: d :: rest =>
      if c = mark then d.toNat :: codePoints rest else unmarkedPoint c :: codePoints (d :: rest)

def points (text : String) : List Nat :=
  codePoints text.toList

/-- The text of code points. -/
def ofPoints (points : List Nat) : String :=
  String.ofList (ofCodePoints points)

/-- A text from outside, in which every character stands for itself. -/
def ofPlain (text : String) : String :=
  ofPoints (text.toList.map Char.toNat)

/-- A text for the outside, in which every character stands for itself. Halves are lost. -/
def plain (text : String) : String :=
  String.ofList ((points text).map Char.ofNat)

/-- Some half stands alone in a text. -/
def hasHalf (text : String) : Bool :=
  (points text).any isHalf

/-- What is shown for a text where halves cannot be: the three bytes of a half are each replaced. -/
def shown (text : String) : String :=
  ofPoints ((points text).flatMap fun point =>
    if isHalf point then List.replicate 3 0xfffd else [point])

/-- A number in base sixteen, in small letters, filled with zeros to a width. -/
def hex (width value : Nat) : List Char :=
  let digits := Nat.toDigits 16 value
  List.replicate (width - digits.length) '0' ++ digits

/-- A text in which halves are spelled out by number. -/
def spelled (text : String) : String :=
  ofPoints ((points text).flatMap fun point =>
    if isHalf point then '\\'.toNat :: 'u'.toNat :: (hex 4 point).map Char.toNat else [point])

/-- A valid code point is that of its character. -/
theorem toNat_ofNat_of_isValidChar {point : Nat} (valid : point.isValidChar)
    : (Char.ofNat point).toNat = point := by
  rw [Char.ofNat, dif_pos valid]
  rfl

/-- A character other than the mark is read by itself. -/
theorem codePoints_cons {c : Char} (other : c ≠ mark) (rest : List Char)
    : codePoints (c :: rest) = unmarkedPoint c :: codePoints rest := by
  cases rest with
  | nil => rfl
  | cons d more => rw [codePoints, if_neg other]

/-- The character behind a mark stands for itself. -/
theorem codePoints_mark (c : Char) (rest : List Char)
    : codePoints (mark :: c :: rest) = c.toNat :: codePoints rest := by
  rw [codePoints, if_pos rfl]

/-- A code point is read back from what is written for it. -/
theorem codePoints_ofCodePoint_append {point : Nat} (valid : point < 0x110000) (rest : List Char)
    : codePoints (ofCodePoint point ++ rest) = point :: codePoints rest := by
  have markPoint : mark.toNat = 0x5e000 := by decide
  unfold ofCodePoint
  split
  case isTrue half =>
    simp only [isHalf, Bool.and_eq_true, decide_eq_true_eq] at half
    have toNat : (Char.ofNat (point + halfOffset)).toNat = point + halfOffset := by
      apply toNat_ofNat_of_isValidChar
      unfold Nat.isValidChar halfOffset
      omega
    have other : Char.ofNat (point + halfOffset) ≠ mark := by
      intro same
      rw [same, markPoint] at toNat
      unfold halfOffset at toNat
      omega
    have marked : isMarked (point + halfOffset) = true := by
      unfold isMarked halfOffset
      simp only [Bool.and_eq_true, decide_eq_true_eq]
      omega
    rw [List.singleton_append, codePoints_cons other, unmarkedPoint, toNat, if_pos marked,
      Nat.add_sub_cancel]
  case isFalse whole =>
    have toNat : (Char.ofNat point).toNat = point := by
      apply toNat_ofNat_of_isValidChar
      simp only [isHalf, Bool.and_eq_true, decide_eq_true_eq] at whole
      unfold Nat.isValidChar
      omega
    split
    case isTrue marked =>
      rw [List.cons_append, List.singleton_append, codePoints_mark, toNat]
    case isFalse unmarked =>
      have other : Char.ofNat point ≠ mark := by
        intro same
        rw [same, markPoint] at toNat
        subst toNat
        exact unmarked rfl
      rw [List.singleton_append, codePoints_cons other, unmarkedPoint, toNat, if_neg unmarked]

/-- Code points are read back from what is written for them. -/
theorem codePoints_ofCodePoints {points : List Nat} (valid : ∀ point ∈ points, point < 0x110000)
    : codePoints (ofCodePoints points) = points := by
  induction points with
  | nil => rfl
  | cons point rest ih =>
      rw [ofCodePoints, List.flatMap_cons, codePoints_ofCodePoint_append (valid point (by simp)),
        ← ofCodePoints, ih fun other member => valid other (by simp [member])]

end RubySchema.Text
