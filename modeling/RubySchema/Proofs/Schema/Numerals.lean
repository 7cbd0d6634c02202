import RubySchema.Proofs.Runs
import RubySchema.Sdl.Token

/-!
Numbers of the schema language are read exactly where they stand in front of something that does not
go on with them. A number is written with a whole part without needless zeros, and perhaps with a
sign, a fraction and an exponent.
-/

namespace RubySchema

open Text

-----------------------------------------------------------------------------------------
-- The grammar of numbers
-----------------------------------------------------------------------------------------

namespace Sdl

open Token

/-- Zero, or digits that do not begin with zero. -/
def IsWhole (text : List Char) : Prop :=
  text = ['0'] ∨ IsRun isAsciiDigit text ∧ text.head? ≠ some '0'

def IsSign (signs : List Char) (text : List Char) : Prop :=
  text = [] ∨ ∃ c ∈ signs, text = [c]

def isExponentLetter (c : Char) : Bool :=
  c == 'e' || c == 'E'

theorem isExponentLetter_iff {c : Char} : isExponentLetter c = true ↔ c = 'e' ∨ c = 'E' := by
  simp only [isExponentLetter, Bool.or_eq_true, beq_iff_eq]

/-- Nothing, or a letter with digits behind it, and with a sign between these perhaps. -/
def IsExponent (text : List Char) : Prop :=
  text = []
  ∨ ∃ letter sign digits,
      isExponentLetter letter = true
      ∧ IsSign ['+', '-'] sign
      ∧ IsRun isAsciiDigit digits
      ∧ text = letter :: (sign ++ digits)

/-- A whole number or a fraction, by the parts that it is written in. -/
structure Numeral where
  sign : List Char
  whole : List Char
  fraction : List Char
  exponent : List Char
  isSign : IsSign ['-'] sign
  isWhole : IsWhole whole
  isFraction : IsFraction isAsciiDigit fraction
  isExponent : IsExponent exponent

def Numeral.text (numeral : Numeral) : List Char :=
  numeral.sign ++ numeral.whole ++ numeral.fraction ++ numeral.exponent

def Numeral.token (numeral : Numeral) : Token :=
  if numeral.fraction.isEmpty && numeral.exponent.isEmpty then .int (String.ofList numeral.text)
  else .float (String.ofList numeral.text)

def IsNumber (text : List Char) : Prop :=
  ∃ numeral : Numeral, numeral.text = text

theorem IsWhole.isRun {text : List Char} (isWhole : IsWhole text) : IsRun isAsciiDigit text := by
  rcases isWhole with rfl | ⟨isRun, -⟩
  · exact ⟨by decide, List.all_eq_true.mp (by decide)⟩
  · exact isRun

/-- What does not follow a number directly. -/
def isNumberPart (c : Char) : Bool :=
  isAsciiDigit c || c == '.' || isNameStart c

namespace Numeral

variable {rest : List Char} (numeral : Numeral)

/-- Where a number ends, no more exponent comes. -/
theorem stopsRun_exponent (stops : StopsRun isNumberPart rest)
    : StopsRun (if numeral.exponent = [] then isExponentLetter else isAsciiDigit) rest := by
  apply stops.mono
  intro c isPart
  split at isPart
  case isTrue none =>
    rcases isExponentLetter_iff.mp isPart with rfl | rfl <;> decide
  case isFalse some => simp [isNumberPart, isPart]

/-- The whole part and the fraction of a number end where its exponent begins. -/
theorem stopsRun_fraction (stops : StopsRun isNumberPart rest)
    : StopsRun (fun c => isAsciiDigit c || c == '.') (numeral.exponent ++ rest) := by
  rcases numeral.isExponent with none | ⟨letter, sign, digits, isLetter, -, -, spelled⟩
  · rw [none]
    exact stops.mono fun c isPart => by rw [isNumberPart, isPart, Bool.true_or]
  · rw [spelled, List.cons_append, stopsRun_cons]
    rcases isExponentLetter_iff.mp isLetter with rfl | rfl <;> decide

/-- The whole part of a number ends where its fraction begins. -/
theorem stopsRun_whole (stops : StopsRun isNumberPart rest)
    : StopsRun isAsciiDigit (numeral.fraction ++ (numeral.exponent ++ rest)) := by
  rcases numeral.isFraction with none | ⟨digits, -, spelled⟩
  · rw [none]
    exact (numeral.stopsRun_fraction stops).mono fun c digit => by rw [digit, Bool.true_or]
  · rw [spelled, List.cons_append, stopsRun_cons]
    decide

end Numeral

-----------------------------------------------------------------------------------------
-- Reading numbers
-----------------------------------------------------------------------------------------

namespace Token

variable {token : Token} {text sign after digits whole fraction exponent rest : List Char}

theorem scanDigits_eq_some_iff
    : scanDigits text = some (digits, rest)
      ↔ IsRun isAsciiDigit digits ∧ StopsRun isAsciiDigit rest ∧ text = digits ++ rest := by
  rw [IsRun, and_assoc, ← takeWhile_dropWhile_eq_iff]
  unfold scanDigits
  cases taken : text.takeWhile isAsciiDigit with
  | nil =>
      simp only [reduceCtorEq, false_iff, not_and]
      exact fun some none _ => some none.symm
  | cons c more =>
      simp only [Option.some.injEq, Prod.mk.injEq]
      constructor
      · rintro ⟨rfl, rfl⟩
        exact ⟨List.cons_ne_nil c more, rfl, rfl⟩
      · exact fun ⟨_, both⟩ => both

theorem scanWhole_eq_some_iff
    : scanWhole text = some (whole, rest)
      ↔ IsWhole whole ∧ StopsRun isAsciiDigit rest ∧ text = whole ++ rest := by
  unfold scanWhole
  split
  case h_1 more =>
    simp only [head?_map_getD_iff, ite_not]
    constructor
    · intro scanned
      split at scanned
      case isTrue stops =>
        cases scanned
        exact ⟨.inl rfl, stops, rfl⟩
      case isFalse goesOn => cases scanned
    · rintro ⟨rfl | ⟨⟨notNil, -⟩, notZero⟩, stops, spelled⟩
      · cases spelled
        exact if_pos stops
      · obtain ⟨c, digits, rfl⟩ := List.exists_cons_of_ne_nil notNil
        cases spelled
        exact absurd rfl notZero
  case h_2 other =>
    change scanDigits text = some (whole, rest) ↔ _
    rw [scanDigits_eq_some_iff]
    constructor
    · rintro ⟨run, stops, rfl⟩
      refine ⟨.inr ⟨run, fun zero => ?_⟩, stops, rfl⟩
      obtain ⟨more, rfl⟩ := List.head?_eq_some_iff.mp zero
      exact other (more ++ rest) rfl
    · rintro ⟨rfl | ⟨run, -⟩, stops, rfl⟩
      · exact absurd rfl (other rest)
      · exact ⟨run, stops, rfl⟩

/-- The sign in front of a text, if it has one of the given signs, and what follows. -/
def splitSign (signs : List Char) : List Char → List Char × List Char
  | [] => ([], [])
  | c :: rest => if c ∈ signs then ([c], rest) else ([], c :: rest)

theorem isSign_splitSign (signs text : List Char) : IsSign signs (splitSign signs text).1 := by
  cases text with
  | nil => exact .inl rfl
  | cons c rest =>
      rw [splitSign]
      split_ifs with isSign
      · exact .inr ⟨c, isSign, rfl⟩
      · exact .inl rfl

theorem splitSign_fst_append_snd (signs text : List Char)
    : (splitSign signs text).1 ++ (splitSign signs text).2 = text := by
  cases text with
  | nil => rfl
  | cons c rest =>
      rw [splitSign]
      split_ifs <;> rfl

theorem splitSign_of_unsigned {signs : List Char}
    (unsigned : ∀ c ∈ signs, ∀ more, text ≠ c :: more) : splitSign signs text = ([], text) := by
  cases text with
  | nil => rfl
  | cons c rest => exact if_neg fun member => unsigned c member rest rfl

/-- Digits behind a sign are told from it. -/
theorem splitSign_append {signs : List Char} (isSign : IsSign signs sign)
    (isRun : IsRun isAsciiDigit digits) (apart : signs.any isAsciiDigit = false)
    : splitSign signs (sign ++ (digits ++ rest)) = (sign, digits ++ rest) := by
  obtain rfl | ⟨c, member, rfl⟩ := isSign
  · apply splitSign_of_unsigned
    rintro c member more spelled
    obtain ⟨d, digits, rfl⟩ := List.exists_cons_of_ne_nil isRun.1
    cases spelled
    exact List.any_eq_false.mp apart c member (isRun.2 c List.mem_cons_self)
  · exact if_pos member

theorem scanExponent_of_letter {letter : Char} (isLetter : isExponentLetter letter = true)
    : scanExponent (letter :: rest)
      = (scanDigits (splitSign ['+', '-'] rest).2).map fun found =>
          (letter :: (splitSign ['+', '-'] rest).1 ++ found.1, found.2) := by
  have letters : ¬(letter != 'e' && letter != 'E') = true := by
    simpa [isExponentLetter, ← Decidable.or_iff_not_imp_left] using isLetter
  unfold scanExponent
  dsimp only
  rw [if_neg letters]
  split
  case h_1 => rfl
  case h_2 => rfl
  case h_3 noPlus noMinus =>
    have unsigned : ∀ c ∈ ['+', '-'], ∀ more, rest ≠ c :: more := by
      simpa using And.intro noPlus noMinus
    rw [splitSign_of_unsigned unsigned]

theorem scanExponent_of_other (stops : StopsRun isExponentLetter text)
    : scanExponent text = some ([], text) := by
  cases text with
  | nil => rfl
  | cons c rest =>
      have other : (c != 'e' && c != 'E') = true := by
        simpa [isExponentLetter] using stopsRun_cons.mp stops
      exact if_pos other

theorem scanExponent_eq_some_iff
    : scanExponent text = some (exponent, rest)
      ↔ IsExponent exponent
        ∧ StopsRun (if exponent = [] then isExponentLetter else isAsciiDigit) rest
        ∧ text = exponent ++ rest := by
  constructor
  · intro scanned
    by_cases stops : StopsRun isExponentLetter text
    · rw [scanExponent_of_other stops] at scanned
      cases scanned
      exact ⟨.inl rfl, stops, rfl⟩
    · obtain ⟨letter, more, rfl⟩ : ∃ letter more, text = letter :: more :=
        List.exists_cons_of_ne_nil (by rintro rfl; exact stops nofun)
      rw [stopsRun_cons, Bool.not_eq_false] at stops
      rw [scanExponent_of_letter stops, Option.map_eq_some_iff] at scanned
      obtain ⟨⟨digits, after⟩, scanned, whole⟩ := scanned
      cases whole
      obtain ⟨isRun, stopsDigits, spelled⟩ := scanDigits_eq_some_iff.mp scanned
      refine ⟨.inr ⟨letter, _, digits, stops, isSign_splitSign _ more, isRun, rfl⟩, stopsDigits, ?_⟩
      simp only [List.cons_append, List.append_assoc, ← spelled, splitSign_fst_append_snd]
  · rintro ⟨rfl | ⟨letter, sign, digits, isLetter, isSign, isRun, rfl⟩, stops, rfl⟩
    · exact scanExponent_of_other stops
    · rw [if_neg (List.cons_ne_nil _ _)] at stops
      rw [List.cons_append, scanExponent_of_letter isLetter, List.append_assoc,
        splitSign_append isSign isRun rfl, scanDigits_eq_some_iff.mpr ⟨isRun, stops, rfl⟩]
      rfl

/-- The point of a number with the digits behind it, and what follows; none where there is no point.
-/
def scanFraction (text : List Char) : Option (List Char × List Char) :=
  match text with
  | '.' :: rest => (scanDigits rest).map fun found => ('.' :: found.1, found.2)
  | rest => some ([], rest)

theorem scanFraction_of_other (noPoint : ∀ more, text ≠ '.' :: more)
    : scanFraction text = some ([], text) := by
  unfold scanFraction
  split
  case h_1 more => exact absurd rfl (noPoint more)
  case h_2 => rfl

theorem scanFraction_eq_some_iff
    : scanFraction text = some (fraction, rest)
      ↔ IsFraction isAsciiDigit fraction
        ∧ StopsRun (if fraction = [] then (· == '.') else isAsciiDigit) rest
        ∧ text = fraction ++ rest := by
  unfold scanFraction
  split
  case h_1 more =>
    rw [Option.map_eq_some_iff]
    constructor
    · rintro ⟨⟨digits, after⟩, scanned, whole⟩
      cases whole
      obtain ⟨isRun, stops, rfl⟩ := scanDigits_eq_some_iff.mp scanned
      exact ⟨.inr ⟨digits, isRun, rfl⟩, stops, rfl⟩
    · rintro ⟨rfl | ⟨digits, isRun, rfl⟩, stops, spelled⟩
      · cases spelled
        cases stopsRun_cons.mp stops
      · cases spelled
        exact ⟨_, scanDigits_eq_some_iff.mpr ⟨isRun, stops, rfl⟩, rfl⟩
  case h_2 noPoint =>
    constructor
    · intro scanned
      cases scanned
      refine ⟨.inl rfl, fun c first => ?_, rfl⟩
      obtain ⟨more, rfl⟩ := List.head?_eq_some_iff.mp first
      simpa using fun point : c = '.' => noPoint more (by rw [point])
    · rintro ⟨rfl | ⟨digits, -, rfl⟩, -, rfl⟩
      · rfl
      · exact absurd rfl (noPoint _)

def ofParts (sign whole fraction exponent rest : List Char) : Option (Token × List Char) :=
  if (rest.head?.map fun c => c == '.' || isNameStart c).getD false then none
  else
    let written := String.ofList (sign ++ whole ++ fraction ++ exponent)
    if fraction.isEmpty && exponent.isEmpty then some (.int written, rest)
    else some (.float written, rest)

/-- A number is read part by part. -/
theorem scanNumber_eq (text : List Char)
    : scanNumber text
      = (scanWhole (splitSign ['-'] text).2).bind fun whole =>
          (scanFraction whole.2).bind fun fraction =>
            (scanExponent fraction.2).bind fun exponent =>
              ofParts (splitSign ['-'] text).1 whole.1 fraction.1 exponent.1 exponent.2 := by
  unfold scanNumber
  split
  rename_i sign after signed
  have same : splitSign ['-'] text = (sign, after) := by
    split at signed
    case h_1 => exact signed
    case h_2 noMinus =>
      rw [← signed]
      exact splitSign_of_unsigned (by simpa using noMinus)
  rw [same]
  cases scanWhole after with
  | none => rfl
  | some whole =>
      obtain ⟨whole, afterWhole⟩ := whole
      dsimp only [Option.bind_some, Option.bind_eq_bind]
      split
      case h_1 => rfl
      case h_2 noPoint =>
        rw [scanFraction_of_other noPoint]
        rfl

theorem ofParts_eq_some_iff (numeral : Numeral)
    : ofParts numeral.sign numeral.whole numeral.fraction numeral.exponent after
        = some (token, rest)
      ↔ StopsRun (fun c => c == '.' || isNameStart c) after
        ∧ numeral.token = token
        ∧ after = rest := by
  have tokens
      : (if numeral.fraction.isEmpty && numeral.exponent.isEmpty then
            some (.int (String.ofList numeral.text), after)
          else some (.float (String.ofList numeral.text), after))
        = some (numeral.token, after) := by
    rw [Numeral.token]
    split <;> rfl
  unfold ofParts
  simp only [head?_map_getD_iff, ite_not]
  rw [← Numeral.text, tokens]
  simp

/-- A number is read in front of whatever does not go on with it. -/
theorem scanNumber_append (numeral : Numeral) (stops : StopsRun isNumberPart rest)
    : scanNumber (numeral.text ++ rest) = some (numeral.token, rest) := by
  have sign
      : splitSign ['-'] (numeral.text ++ rest)
        = (numeral.sign, numeral.whole ++ (numeral.fraction ++ (numeral.exponent ++ rest))) := by
    rw [← splitSign_append numeral.isSign numeral.isWhole.isRun rfl]
    simp [Numeral.text]
  have stopsFraction
      : StopsRun (if numeral.fraction = [] then (· == '.') else isAsciiDigit)
          (numeral.exponent ++ rest) := by
    apply (numeral.stopsRun_fraction stops).mono
    intro c isPart
    split at isPart
    case isTrue none => exact Bool.or_eq_true_iff.mpr (.inr isPart)
    case isFalse some => exact Bool.or_eq_true_iff.mpr (.inl isPart)
  have stopsNumber : StopsRun (fun c => c == '.' || isNameStart c) rest :=
    stops.mono fun c isPart => by rw [isNumberPart, Bool.or_assoc, isPart, Bool.or_true]
  have whole := scanWhole_eq_some_iff.mpr ⟨numeral.isWhole, numeral.stopsRun_whole stops, rfl⟩
  have fraction := scanFraction_eq_some_iff.mpr ⟨numeral.isFraction, stopsFraction, rfl⟩
  have exponent :=
    scanExponent_eq_some_iff.mpr ⟨numeral.isExponent, numeral.stopsRun_exponent stops, rfl⟩
  have number := (ofParts_eq_some_iff numeral).mpr ⟨stopsNumber, rfl, rfl⟩
  rw [scanNumber_eq, sign]
  dsimp only
  rw [whole, Option.bind_some, fraction, Option.bind_some, exponent, Option.bind_some, number]

/-- A number is read exactly where one stands in front of something that does not go on with it. -/
theorem scanNumber_eq_some_iff
    : scanNumber text = some (token, rest)
      ↔ ∃ numeral : Numeral,
          numeral.token = token ∧ StopsRun isNumberPart rest ∧ text = numeral.text ++ rest := by
  constructor
  · intro scanned
    rw [scanNumber_eq] at scanned
    obtain ⟨⟨whole, afterWhole⟩, scannedWhole, scanned⟩ := Option.bind_eq_some_iff.mp scanned
    obtain ⟨⟨fraction, afterFraction⟩, scannedFraction, scanned⟩ :=
      Option.bind_eq_some_iff.mp scanned
    obtain ⟨⟨exponent, after⟩, scannedExponent, scanned⟩ := Option.bind_eq_some_iff.mp scanned
    obtain ⟨isWhole, stopsWhole, spelled⟩ := scanWhole_eq_some_iff.mp scannedWhole
    obtain ⟨isFraction, stopsFraction, rfl⟩ := scanFraction_eq_some_iff.mp scannedFraction
    obtain ⟨isExponent, stopsExponent, rfl⟩ := scanExponent_eq_some_iff.mp scannedExponent
    let numeral : Numeral :=
      {
        sign := (splitSign ['-'] text).1
        whole := whole
        fraction := fraction
        exponent := exponent
        isSign := isSign_splitSign _ text
        isWhole := isWhole
        isFraction := isFraction
        isExponent := isExponent
      }
    obtain ⟨stops, rfl, rfl⟩ := (ofParts_eq_some_iff numeral).mp scanned
    -- the last part that is not empty has been read up to something that is no digit
    have noDigit : StopsRun isAsciiDigit after := by
      by_cases noExponent : exponent = []
      · rw [noExponent] at stopsFraction stopsWhole
        by_cases noFraction : fraction = []
        · rwa [noFraction] at stopsWhole
        · rwa [if_neg noFraction] at stopsFraction
      · rwa [if_neg noExponent] at stopsExponent
    refine ⟨numeral, rfl, fun c first => ?_, ?_⟩
    · rw [isNumberPart, Bool.or_assoc, noDigit c first, Bool.false_or]
      exact stops c first
    · rw [← splitSign_fst_append_snd ['-'] text, spelled]
      simp [Numeral.text, numeral]
  · rintro ⟨numeral, rfl, stops, rfl⟩
    exact scanNumber_append numeral stops

end Token

/-- A text is a number when it is read as one to its end. -/
theorem isNumber_iff {text : List Char}
    : IsNumber text ↔ (scanNumber text).map Prod.snd = some [] := by
  rw [Option.map_eq_some_iff]
  constructor
  · rintro ⟨numeral, rfl⟩
    have scanned := scanNumber_append numeral stopsRun_nil
    rw [List.append_nil] at scanned
    exact ⟨_, scanned, rfl⟩
  · rintro ⟨⟨token, rest⟩, scanned, rfl⟩
    obtain ⟨numeral, -, -, spelled⟩ := scanNumber_eq_some_iff.mp scanned
    exact ⟨numeral, by rw [spelled, List.append_nil]⟩

instance : DecidablePred IsNumber :=
  fun _ => decidable_of_iff _ isNumber_iff.symm

end Sdl

end RubySchema
