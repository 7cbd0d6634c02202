import RubySchema.Proofs.Runs
import RubySchema.Ruby.Literal
import RubySchema.Text.Affix

/-!
Reading literals. Between its delimiters a literal has escapes for the backslash and for the
delimiters only; a delimiter that opens may stand inside, with one that closes for it. Main
statement: descriptions and default values are read back from their literals, whatever stands behind
these.
-/

namespace RubySchema.Ruby

open Text

-----------------------------------------------------------------------------------------
-- Delimited texts
-----------------------------------------------------------------------------------------

/-- What a delimited literal begins with, if it may hold its own delimiters in pairs, and what it
ends with.
-/
structure Delimiters where
  opening : Option Char
  closing : Char

namespace Delimiters

def braces : Delimiters :=
  { opening := some '\x7b', closing := '\x7d' }

def quotes : Delimiters :=
  { opening := none, closing := '\x27' }

variable (delimiters : Delimiters)

/-- A backslash in front of the character belongs to the escape, not to the text. -/
def isEscaped (c : Char) : Bool :=
  c == '\\' || c == delimiters.closing || delimiters.opening == some c

/-- A text with a backslash in front of each character that needs one. -/
def escape (text : List Char) : List Char :=
  text.flatMap fun c => if delimiters.isEscaped c then ['\\', c] else [c]

/-- The text of a literal from behind its beginning, and what stands behind its end. Of the
delimiters inside it, `depth` are still open.
-/
def read (depth : Nat) : List Char → Option (List Char × List Char)
  | [] => none
  | '\\' :: c :: rest =>
      if delimiters.isEscaped c then (read depth rest).map fun found => (c :: found.1, found.2)
      else (read depth (c :: rest)).map fun found => ('\\' :: found.1, found.2)
  | c :: rest =>
      if c = delimiters.closing then
        if depth = 0 then some ([], rest)
        else (read (depth - 1) rest).map fun found => (c :: found.1, found.2)
      else if delimiters.opening = some c then
        (read (depth + 1) rest).map fun found => (c :: found.1, found.2)
      else (read depth rest).map fun found => (c :: found.1, found.2)

variable {delimiters} {depth : Nat} {c : Char} {rest : List Char}

theorem escape_cons
    : delimiters.escape (c :: rest)
      = (if delimiters.isEscaped c then ['\\', c] else [c]) ++ delimiters.escape rest :=
  List.flatMap_cons

theorem escape_append (first second : List Char)
    : delimiters.escape (first ++ second)
      = delimiters.escape first ++ delimiters.escape second :=
  List.flatMap_append

/-- A text without characters to escape is its own escaped text. -/
theorem escape_of_plain {text : List Char} (plain : ∀ c ∈ text, delimiters.isEscaped c = false)
    : delimiters.escape text = text := by
  induction text with
  | nil => rfl
  | cons c rest ih =>
      obtain ⟨here, later⟩ := List.forall_mem_cons.mp plain
      rw [escape_cons, ih later, here]
      rfl

theorem read_of_escaped (escaped : delimiters.isEscaped c = true)
    : delimiters.read depth ('\\' :: c :: rest)
      = (delimiters.read depth rest).map fun found => (c :: found.1, found.2) := by
  rw [read, if_pos escaped]

theorem read_of_plain (plain : delimiters.isEscaped c = false)
    : delimiters.read depth (c :: rest)
      = (delimiters.read depth rest).map fun found => (c :: found.1, found.2) := by
  simp only [isEscaped, Bool.or_eq_false_iff, beq_eq_false_iff_ne] at plain
  obtain ⟨⟨notBackslash, notClosing⟩, notOpening⟩ := plain
  rw [read, if_neg notClosing, if_neg notOpening]
  rintro d more rfl
  exact absurd rfl notBackslash

theorem read_closing (usual : delimiters.closing ≠ '\\')
    : delimiters.read 0 (delimiters.closing :: rest) = some ([], rest) := by
  rw [read]
  · simp
  · rintro d more backslash
    exact absurd backslash usual

/-- An escaped text is read back and ends where its literal does, by induction on the text. -/
theorem read_escape (usual : delimiters.closing ≠ '\\') (text rest : List Char)
    : delimiters.read 0 (delimiters.escape text ++ delimiters.closing :: rest)
      = some (text, rest) := by
  induction text with
  | nil => exact read_closing usual
  | cons c more ih =>
      rw [escape_cons, List.append_assoc]
      cases escaped : delimiters.isEscaped c with
      | true =>
          rw [if_pos rfl, List.cons_append, List.singleton_append, read_of_escaped escaped, ih]
          rfl
      | false =>
          rw [if_neg (by simp), List.singleton_append, read_of_plain escaped, ih]
          rfl

end Delimiters

open Delimiters

theorem escapePercent_eq (text : List Char) : escapePercent text = braces.escape text := by
  induction text with
  | nil => rfl
  | cons c rest ih =>
      rw [escapePercent, ih, escape_cons]
      by_cases backslash : c = '\\'
      · simp [isEscaped, backslash]
      by_cases opening : c = '\x7b'
      · simp [isEscaped, braces, opening]
      by_cases closing : c = '\x7d'
      · simp [isEscaped, braces, closing]
      · simp [isEscaped, braces, backslash, Ne.symm opening, opening, closing]

theorem escapeQuoted_eq (text : List Char) : escapeQuoted text = quotes.escape text := by
  induction text with
  | nil => rfl
  | cons c rest ih =>
      rw [escapeQuoted, ih, escape_cons]
      by_cases backslash : c = '\\'
      · simp [isEscaped, backslash]
      by_cases closing : c = '\x27'
      · simp [isEscaped, quotes, closing]
      · simp [isEscaped, quotes, backslash, closing]

-----------------------------------------------------------------------------------------
-- Descriptions
-----------------------------------------------------------------------------------------

/-- A description as it is read from a text that begins with its literal, and what stands behind the
literal.
-/
def readDescription (text : List Char) : Option (Option String × List Char) :=
  match afterStart? "%q\x7b".toList text with
  | some inner => (braces.read 0 inner).map fun found => (some (String.ofList found.1), found.2)
  | none => (afterStart? "nil".toList text).map fun rest => (none, rest)

/-- A description is read back and ends where its literal does. -/
theorem readDescription_append (text : Option String) (rest : List Char)
    : readDescription ((description text).toList ++ rest) = some (text, rest) := by
  cases text with
  | none => rfl
  | some text =>
      have spelled
          : (description (some text)).toList ++ rest
            = "%q\x7b".toList ++ (braces.escape text.toList ++ braces.closing :: rest) := by
        simp [description, escapePercent_eq, braces]
      have inner
          : afterStart? "%q\x7b".toList
              ("%q\x7b".toList ++ (braces.escape text.toList ++ braces.closing :: rest))
            = some (braces.escape text.toList ++ braces.closing :: rest) := by
        simp [afterStart?]
      rw [readDescription, spelled, inner]
      dsimp only
      rw [read_escape (by decide)]
      simp

-----------------------------------------------------------------------------------------
-- Default values
-----------------------------------------------------------------------------------------

section
variable {text : List Char}

/-- Digits of any script, perhaps with a point that has digits on both sides. -/
def IsPlainNumber (text : List Char) : Prop :=
  ∃ whole fraction,
    IsRun isDecimal whole ∧ IsFraction isDecimal fraction ∧ text = whole ++ fraction

theorem isPlainNumber_iff : isPlainNumber text = true ↔ IsPlainNumber text := by
  constructor
  · intro plain
    have spanned
        : text.takeWhile isDecimal = text.takeWhile isDecimal
          ∧ text.dropWhile isDecimal = text.dropWhile isDecimal :=
      ⟨rfl, rfl⟩
    obtain ⟨all, -, spelled⟩ := takeWhile_dropWhile_eq_iff.mp spanned
    simp only [isPlainNumber, Bool.and_eq_true, Bool.not_eq_true', List.isEmpty_eq_false_iff]
      at plain
    obtain ⟨notNil, fraction⟩ := plain
    refine ⟨_, _, ⟨notNil, all⟩, ?_, spelled⟩
    split at fraction
    case h_1 none => exact .inl none
    case h_2 c digits found =>
      simp only [Bool.and_eq_true, beq_iff_eq, Bool.not_eq_true', List.isEmpty_eq_false_iff,
        List.all_eq_true] at fraction
      obtain ⟨⟨rfl, notNil⟩, all⟩ := fraction
      exact .inr ⟨digits, ⟨notNil, all⟩, found⟩
  · rintro ⟨whole, fraction, ⟨notNil, all⟩, isFraction, rfl⟩
    have stops : StopsRun isDecimal fraction := by
      rcases isFraction with rfl | ⟨digits, -, rfl⟩
      · exact stopsRun_nil
      · exact stopsRun_cons.mpr (by decide)
    obtain ⟨taken, dropped⟩ := takeWhile_dropWhile_eq_iff.mpr ⟨all, stops, rfl⟩
    simp only [isPlainNumber, taken, dropped, Bool.and_eq_true, Bool.not_eq_true',
      List.isEmpty_eq_false_iff]
    refine ⟨notNil, ?_⟩
    rcases isFraction with rfl | ⟨digits, ⟨notNil, all⟩, rfl⟩
    · rfl
    · simp [notNil, List.all_eq_true.mpr all]

instance : DecidablePred IsPlainNumber :=
  fun _ => decidable_of_iff _ isPlainNumber_iff

theorem IsPlainNumber.mem (plain : IsPlainNumber text)
    : ∀ c ∈ text, isDecimal c = true ∨ c = '.' := by
  obtain ⟨whole, fraction, isRun, isFraction, rfl⟩ := plain
  exact digit_or_point isRun isFraction

end

theorem isBare_iff {text : String}
    : isBare text = true ↔ text = "true" ∨ text = "false" ∨ IsPlainNumber text.toList := by
  simp only [isBare, Bool.or_eq_true, beq_iff_eq, isPlainNumber_iff, or_assoc]

/-- A bare token goes on to a comma or a blank. -/
def isTokenChar (c : Char) : Bool :=
  c != ',' && !isBlank c

/-- A default value as it is read from a text that begins with its literal, and what stands behind
the literal.
-/
def readDefault (text : List Char) : Option (Option String × List Char) :=
  match text with
  | '\x27' :: inner => (quotes.read 0 inner).map fun found => (some (String.ofList found.1), found.2)
  | _ =>
      let token := String.ofList (text.takeWhile isTokenChar)
      let rest := text.dropWhile isTokenChar
      if token = "nil" then some (none, rest)
      else if isBare token then some (some token, rest)
      else none

/-- No digit of any script is blank. -/
theorem isBlank_of_isDecimal {c : Char} (digit : isDecimal c = true) : isBlank c = false := by
  -- every blank is at one of these points, and no digit is
  let points : List Nat :=
    [
      9, 10, 11, 12, 13, 28, 29, 30, 31, 32, 0x85, 0xa0, 0x1680, 0x2000, 0x2001, 0x2002, 0x2003,
      0x2004, 0x2005, 0x2006, 0x2007, 0x2008, 0x2009, 0x200a, 0x2028, 0x2029, 0x202f, 0x205f, 0x3000
    ]
  have apart : ∀ n ∈ points, n ∉ (List.range' 48 10) ∧ inRanges decimalRanges n = false := by
    decide +kernel
  rw [← Bool.not_eq_true]
  intro blank
  have among : c.toNat ∈ points := by
    simp only [isBlank, isLineBreak, Bool.or_eq_true, Bool.and_eq_true,
      beq_iff_eq, decide_eq_true_eq] at blank
    simp only [points, List.mem_cons, List.not_mem_nil, or_false]
    omega
  obtain ⟨notAscii, notOther⟩ := apart _ among
  unfold isDecimal at digit
  split at digit
  · apply notAscii
    simp only [isAsciiDigit, Bool.and_eq_true, decide_eq_true_eq] at digit
    have low : 48 ≤ c.toNat := digit.1
    have high : c.toNat ≤ 57 := digit.2
    rw [List.mem_range'_1]
    omega
  · rw [notOther] at digit
    cases digit

/-- A digit, or the point between digits, goes on in a bare token. -/
theorem isTokenChar_of_number {c : Char} (number : isDecimal c = true ∨ c = '.')
    : isTokenChar c = true := by
  rcases number with digit | rfl
  · have notComma : c ≠ ',' := by
      rintro rfl
      cases digit
    simp [isTokenChar, notComma, isBlank_of_isDecimal digit]
  · decide

theorem isTokenChar_of_isBare {text : String} (bare : isBare text = true)
    : ∀ c ∈ text.toList, isTokenChar c = true := by
  rcases isBare_iff.mp bare with rfl | rfl | plain
  · exact List.all_eq_true.mp (by decide)
  · exact List.all_eq_true.mp (by decide)
  · exact fun c member => isTokenChar_of_number (plain.mem c member)

/-- A text that stands bare begins with no quote. -/
theorem unquoted_of_isBare {text : String} (bare : isBare text = true)
    : text.toList.head? ≠ some '\x27' := by
  intro quoted
  obtain ⟨more, spelled⟩ := List.head?_eq_some_iff.mp quoted
  have number : isPlainNumber text.toList = false := by
    rw [spelled]
    rfl
  simp only [isBare, number, Bool.or_false, Bool.or_eq_true, beq_iff_eq] at bare
  rcases bare with rfl | rfl <;> cases spelled

/-- A token that begins with no quote is read up to the comma behind it. -/
theorem readDefault_of_token {token : String} (all : ∀ c ∈ token.toList, isTokenChar c = true)
    (unquoted : token.toList.head? ≠ some '\x27') (rest : List Char)
    : readDefault (token.toList ++ ',' :: rest)
      = if token = "nil" then some (none, ',' :: rest)
        else if isBare token then some (some token, ',' :: rest)
        else none := by
  have ends : StopsRun isTokenChar (',' :: rest) := stopsRun_cons.mpr rfl
  obtain ⟨taken, dropped⟩ := takeWhile_dropWhile_eq_iff.mpr ⟨all, ends, rfl⟩
  unfold readDefault
  split
  case h_1 inner quoted =>
    cases spelled : token.toList with
    | nil => simp [spelled] at quoted
    | cons c more =>
        rw [spelled] at quoted unquoted
        cases quoted
        exact absurd rfl unquoted
  case h_2 => simp only [taken, dropped, String.ofList_toList]

/-- A default value between quotes is read back and ends where its literal does. -/
theorem readDefault_of_quoted {text : String} (quoted : isBare text = false) (rest : List Char)
    : readDefault ((defaultValue (some text)).toList ++ rest) = some (some text, rest) := by
  have spelled
      : (defaultValue (some text)).toList ++ rest
        = '\x27' :: (quotes.escape text.toList ++ quotes.closing :: rest) := by
    simp [defaultValue, quoted, escapeQuoted_eq, quotes]
  rw [spelled, readDefault, read_escape (by decide)]
  simp

/-- A default value is read back in front of a comma, and ends where its literal does. -/
theorem readDefault_append (text : Option String) (rest : List Char)
    : readDefault ((defaultValue text).toList ++ ',' :: rest) = some (text, ',' :: rest) := by
  cases text with
  | none =>
      have plain : ∀ c ∈ "nil".toList, isTokenChar c = true :=
        List.all_eq_true.mp (by decide)
      exact readDefault_of_token plain (by decide) rest
  | some text =>
      cases bare : isBare text with
      | false => exact readDefault_of_quoted bare _
      | true =>
          have other : text ≠ "nil" := by
            rintro rfl
            exact absurd bare (by decide)
          have literal : defaultValue (some text) = text := by
            simp [defaultValue, bare]
          rw [literal, readDefault_of_token (isTokenChar_of_isBare bare) (unquoted_of_isBare bare),
            if_neg other, if_pos bare]

end RubySchema.Ruby
