import RubySchema.Proofs.Literal
import RubySchema.Proofs.Schema.Numerals

/-!
Default values stand bare where they are numbers or truth values, but for numbers with a sign or an
exponent, which are quoted, and for digits of any script with a point among them perhaps, which
stand bare. A quoted one is read back, and no two default values have one literal.
-/

namespace RubySchema

namespace Text

theorem isDecimal_of_isAsciiDigit {c : Char} (digit : isAsciiDigit c = true)
    : isDecimal c = true := by
  have ascii : c.toNat < 128 := by
    simp only [isAsciiDigit, Bool.and_eq_true, decide_eq_true_eq] at digit
    have high : c.toNat ≤ 57 := digit.2
    omega
  rw [isDecimal, if_pos ascii, digit]

end Text

namespace Ruby

open Delimiters Sdl Text

variable {text : List Char}

/-- A number that has more than digits and a point. -/
def HasSignOrExponent (text : List Char) : Prop :=
  ∃ numeral : Numeral, numeral.text = text ∧ (numeral.sign ≠ [] ∨ numeral.exponent ≠ [])

/-- Digits that are no number: there is a zero too many in front, or a digit of another script. -/
structure IsForeign (text : List Char) : Prop where
  isPlain : IsPlainNumber text
  isOdd
    : (∃ c rest, text = '0' :: c :: rest ∧ isDecimal c = true)
      ∨ ∃ c ∈ text, isDecimal c = true ∧ isAsciiDigit c = false

theorem isPlainNumber_numeral_iff (numeral : Numeral)
    : IsPlainNumber numeral.text ↔ numeral.sign = [] ∧ numeral.exponent = [] := by
  constructor
  · intro plain
    constructor
    · rcases numeral.isSign with none | ⟨c, isSign, spelled⟩
      · exact none
      · obtain rfl := List.mem_singleton.mp isSign
        have member : '-' ∈ numeral.text := by simp [Numeral.text, spelled]
        exact absurd (plain.mem '-' member) (by decide)
    · rcases numeral.isExponent with none | ⟨letter, sign, digits, isLetter, -, -, spelled⟩
      · exact none
      · have member : letter ∈ numeral.text := by simp [Numeral.text, spelled]
        have other := plain.mem letter member
        rcases isExponentLetter_iff.mp isLetter with rfl | rfl <;> exact absurd other (by decide)
  · rintro ⟨noSign, noExponent⟩
    refine ⟨numeral.whole, numeral.fraction, ?_, ?_, ?_⟩
    · exact numeral.isWhole.isRun.mono fun _ _ => isDecimal_of_isAsciiDigit
    · exact numeral.isFraction.mono fun _ _ => isDecimal_of_isAsciiDigit
    · simp [Numeral.text, noSign, noExponent]

/-- Behind a zero that a number begins with stands its point, or nothing. -/
theorem isDecimal_behind_zero {whole fraction rest : List Char} {c : Char} (isWhole : IsWhole whole)
    (isFraction : IsFraction isAsciiDigit fraction)
    (begins : whole ++ fraction = '0' :: c :: rest) : isDecimal c = false := by
  rcases isWhole with rfl | ⟨isRun, notZero⟩
  · rcases isFraction with rfl | ⟨digits, -, rfl⟩
    · cases begins
    · cases begins
      decide
  · obtain ⟨first, digits, rfl⟩ := List.exists_cons_of_ne_nil isRun.1
    obtain ⟨rfl, -⟩ := List.cons.inj begins
    exact absurd rfl notZero

/-- Digits are a whole number when nothing stands behind a zero in front. -/
theorem isWhole_of_isRun {digits : List Char} (isRun : IsRun isAsciiDigit digits)
    (noZeros : ∀ c rest, digits ≠ '0' :: c :: rest) : IsWhole digits := by
  by_cases zero : digits.head? = some '0'
  · obtain ⟨more, rfl⟩ := List.head?_eq_some_iff.mp zero
    cases more with
    | nil => exact .inl rfl
    | cons c rest => exact absurd rfl (noZeros c rest)
  · exact .inr ⟨isRun, zero⟩

theorem not_isForeign_of_isNumber (number : IsNumber text) : ¬IsForeign text := by
  rintro ⟨plain, odd⟩
  obtain ⟨numeral, rfl⟩ := number
  obtain ⟨noSign, noExponent⟩ := (isPlainNumber_numeral_iff numeral).mp plain
  have spelled : numeral.text = numeral.whole ++ numeral.fraction := by
    simp [Numeral.text, noSign, noExponent]
  rw [spelled] at odd
  rcases odd with ⟨c, rest, begins, decimal⟩ | ⟨c, member, decimal, notAscii⟩
  · rw [isDecimal_behind_zero numeral.isWhole numeral.isFraction begins] at decimal
    cases decimal
  · rcases digit_or_point numeral.isWhole.isRun numeral.isFraction c member with digit | rfl
    · rw [digit] at notAscii
      cases notAscii
    · cases decimal

/-- Digits, with a point among them perhaps, are a number unless they are odd ones. -/
theorem IsPlainNumber.isNumber_iff (plain : IsPlainNumber text)
    : IsNumber text ↔ ¬IsForeign text := by
  refine ⟨not_isForeign_of_isNumber, fun notForeign => ?_⟩
  obtain ⟨noZeros, noOther⟩ := not_or.mp fun odd => notForeign ⟨plain, odd⟩
  obtain ⟨whole, fraction, isRun, isFraction, rfl⟩ := plain
  have ascii : ∀ c ∈ whole ++ fraction, isDecimal c = true → isAsciiDigit c = true := by
    intro c member decimal
    by_contra notAscii
    exact noOther ⟨c, member, decimal, eq_false_of_ne_true notAscii⟩
  have isAsciiRun : IsRun isAsciiDigit whole :=
    isRun.mono fun c member => ascii c (List.mem_append_left _ member)
  have isWhole : IsWhole whole := by
    refine isWhole_of_isRun isAsciiRun ?_
    rintro c rest rfl
    exact noZeros ⟨c, rest ++ fraction, rfl, isRun.2 c (by simp)⟩
  have isAsciiFraction : IsFraction isAsciiDigit fraction :=
    isFraction.mono fun c member => ascii c (List.mem_append_right _ member)
  exact ⟨
    {
      sign := []
      whole := whole
      fraction := fraction
      exponent := []
      isSign := .inl rfl
      isWhole := isWhole
      isFraction := isAsciiFraction
      isExponent := .inl rfl
    },
    by simp [Numeral.text]⟩

/-- A number with a sign or an exponent is not made of digits and a point alone. -/
theorem hasSignOrExponent_iff : HasSignOrExponent text ↔ IsNumber text ∧ ¬IsPlainNumber text := by
  constructor
  · rintro ⟨numeral, rfl, signOrExponent⟩
    refine ⟨⟨numeral, rfl⟩, fun plain => ?_⟩
    obtain ⟨noSign, noExponent⟩ := (isPlainNumber_numeral_iff numeral).mp plain
    exact signOrExponent.elim (· noSign) (· noExponent)
  · rintro ⟨⟨numeral, rfl⟩, notPlain⟩
    rw [isPlainNumber_numeral_iff] at notPlain
    exact ⟨numeral, rfl, Decidable.not_and_iff_not_or_not.mp notPlain⟩

theorem isForeign_iff : IsForeign text ↔ IsPlainNumber text ∧ ¬IsNumber text := by
  constructor
  · exact fun foreign =>
      ⟨foreign.isPlain, fun number => not_isForeign_of_isNumber number foreign⟩
  · rintro ⟨plain, notNumber⟩
    exact not_not.mp fun notForeign => notNumber (plain.isNumber_iff.mpr notForeign)

theorem length_le_escape (delimiters : Delimiters) (text : List Char)
    : text.length ≤ (delimiters.escape text).length := by
  induction text with
  | nil => exact Nat.le_refl 0
  | cons c rest ih =>
      rw [escape_cons, List.length_append, List.length_cons]
      split_ifs <;> simp only [List.length_cons, List.length_nil] <;> omega

/-- A text between quotes is longer than the text, so it is no bare one. -/
theorem defaultValue_eq_self_iff {text : String}
    : defaultValue (some text) = text ↔ isBare text = true := by
  cases bare : isBare text with
  | true => simp [defaultValue, bare]
  | false =>
      have quoted
          : (defaultValue (some text)).toList
            = '\x27' :: (quotes.escape text.toList ++ ['\x27']) := by
        simp [defaultValue, bare, escapeQuoted_eq]
      simp only [Bool.false_eq_true, iff_false]
      intro same
      have longer := length_le_escape quotes text.toList
      rw [same] at quoted
      have lengths := congrArg List.length quoted
      rw [List.length_cons, List.length_append] at lengths
      omega

/-- A literal between quotes that is read back as the text. -/
def IsQuoted (text literal : String) : Prop :=
  ∃ inner,
    literal = "'" ++ inner ++ "'"
    ∧ quotes.read 0 (inner ++ "'").toList = some (text.toList, [])

theorem isQuoted_of_not_isBare {text : String} (notBare : isBare text = false)
    : IsQuoted text (defaultValue (some text)) := by
  refine ⟨String.ofList (escapeQuoted text.toList), by simp [defaultValue, notBare], ?_⟩
  rw [escapeQuoted_eq, String.toList_append, String.toList_ofList]
  exact read_escape (by decide) text.toList []

/-- Truth values and digits with a point among them perhaps stand bare; everything else is quoted,
and read back. So numbers and truth values, and these alone, stand bare, but for numbers with a sign
or an exponent and for digits that are no number.
-/
theorem defaultValue_of_text (text : String)
    : (defaultValue (some text) = text
          ↔ text = "true" ∨ text = "false" ∨ IsPlainNumber text.toList)
      ∧ (defaultValue (some text) ≠ text → IsQuoted text (defaultValue (some text)))
      ∧ ((defaultValue (some text) = text
            ↔ text = "true" ∨ text = "false" ∨ IsNumber text.toList)
          ↔ ¬HasSignOrExponent text.toList ∧ ¬IsForeign text.toList) := by
  have isQuoted (other : defaultValue (some text) ≠ text)
      : IsQuoted text (defaultValue (some text)) := by
    rw [Ne, defaultValue_eq_self_iff, Bool.not_eq_true] at other
    exact isQuoted_of_not_isBare other
  have noDigits (word : text = "true" ∨ text = "false")
      : ¬IsNumber text.toList ∧ ¬IsPlainNumber text.toList := by
    rcases word with rfl | rfl <;> decide
  have bare
      : defaultValue (some text) = text
        ↔ text = "true" ∨ text = "false" ∨ IsPlainNumber text.toList :=
    defaultValue_eq_self_iff.trans isBare_iff
  refine ⟨bare, isQuoted, ?_⟩
  rw [bare, hasSignOrExponent_iff, isForeign_iff]
  grind

/-- Numbers with a sign or an exponent are quoted; needless zeros and digits of another script are
not.
-/
theorem misplaces_quotes
    : (∀ text ∈ ["-1", "1e5", "-2.5E-3"],
        IsNumber text.toList ∧ defaultValue (some text) = "'" ++ text ++ "'")
      ∧ ∀ text ∈ ["007", "\u0663"],
          (text ≠ "true" ∧ text ≠ "false" ∧ ¬IsNumber text.toList)
          ∧ defaultValue (some text) = text := by
  decide +kernel

/-- What stands behind the quote that opens a default value is read as its text, up to the end of
the literal and no further. Two default values never have one literal, and none has that of a
missing one.
-/
theorem defaultValue_read_back
    : (∀ text inner rest,
        defaultValue (some text) = "'" ++ inner →
          quotes.read 0 (inner ++ rest).toList = some (text.toList, rest.toList))
      ∧ Function.Injective defaultValue := by
  constructor
  · intro text inner rest literal
    have quoted : isBare text = false := by
      cases bare : isBare text with
      | false => rfl
      | true =>
          rw [defaultValue_eq_self_iff.mpr bare] at literal
          have opened : text.toList.head? = some '\x27' := by simp [literal]
          exact absurd opened (unquoted_of_isBare bare)
    have spelled : inner.toList = quotes.escape text.toList ++ [quotes.closing] := by
      have whole := congrArg String.toList literal
      simpa [defaultValue, quoted, escapeQuoted_eq, quotes] using whole.symm
    rw [String.toList_append, spelled, List.append_assoc, List.singleton_append]
    exact read_escape (by decide) text.toList rest.toList
  · intro first second same
    have read := readDefault_append first []
    rw [same, readDefault_append second []] at read
    exact (Prod.mk.inj (Option.some.inj read)).1.symm

theorem defaultValue_read_back_backslash
    : defaultValue (some "it's\\") = "'" ++ "it\\'s\\\\'"
      ∧ quotes.read 0 ("it\\'s\\\\'" ++ ", 'a'").toList
        = some ("it's\\".toList, ", 'a'".toList) := by
  have literal : defaultValue (some "it's\\") = "'" ++ "it\\'s\\\\'" := by decide +kernel
  exact ⟨literal, defaultValue_read_back.1 _ _ _ literal⟩

end Ruby

end RubySchema
