import Mathlib.Data.List.TakeWhile

/-!
The characters of a kind in front of a text are taken, and the others left, in one way only: what
begins a text and is all of one kind ends where a character of another kind stands, so it can be
told from what follows.
-/

namespace RubySchema

namespace Text

variable {kind other : Char → Bool} {text run rest : List Char}

def IsRun (kind : Char → Bool) (text : List Char) : Prop :=
  text ≠ [] ∧ ∀ c ∈ text, kind c = true

/-- Behind a run that is not cut short stands nothing, or a character that is not of its kind. -/
def StopsRun (kind : Char → Bool) (rest : List Char) : Prop :=
  ∀ c ∈ rest.head?, kind c = false

instance : Decidable (StopsRun kind rest) :=
  inferInstanceAs (Decidable (∀ c ∈ rest.head?, kind c = false))

theorem stopsRun_nil : StopsRun kind [] :=
  nofun

theorem stopsRun_cons {c : Char} : StopsRun kind (c :: rest) ↔ kind c = false := by
  simp [StopsRun]

theorem head?_map_getD_iff : (rest.head?.map kind).getD false = true ↔ ¬StopsRun kind rest := by
  cases rest <;> simp [StopsRun]

theorem IsRun.mono (isRun : IsRun kind run) (among : ∀ c ∈ run, kind c = true → other c = true)
    : IsRun other run :=
  ⟨isRun.1, fun c member => among c member (isRun.2 c member)⟩

theorem StopsRun.mono (stops : StopsRun other rest) (among : ∀ c, kind c = true → other c = true)
    : StopsRun kind rest := by
  intro c first
  rw [← Bool.not_eq_true]
  intro isKind
  simpa [among c isKind] using stops c first

/-- What is taken while characters are of a kind, and what is left, are all of that kind in front
and the others behind.
-/
theorem takeWhile_dropWhile_eq_iff
    : text.takeWhile kind = run ∧ text.dropWhile kind = rest
      ↔ (∀ c ∈ run, kind c = true) ∧ StopsRun kind rest ∧ text = run ++ rest := by
  constructor
  · rintro ⟨rfl, rfl⟩
    refine ⟨fun c member => List.mem_takeWhile_imp member, fun c first => ?_,
      List.takeWhile_append_dropWhile.symm⟩
    have stops := List.head?_dropWhile_not kind text
    rw [Option.mem_def.mp first] at stops
    simpa using stops
  · rintro ⟨all, stops, rfl⟩
    rw [List.takeWhile_append_of_pos all, List.dropWhile_append_of_pos all]
    cases rest with
    | nil => simp
    | cons c more =>
        have differs := stopsRun_cons.mp stops
        simp [differs]

/-- Nothing, or a point with digits of a kind behind it. -/
def IsFraction (isDigit : Char → Bool) (text : List Char) : Prop :=
  text = [] ∨ ∃ digits, IsRun isDigit digits ∧ text = '.' :: digits

theorem IsFraction.mono (isFraction : IsFraction kind text)
    (among : ∀ c ∈ text, kind c = true → other c = true) : IsFraction other text := by
  rcases isFraction with rfl | ⟨digits, isRun, rfl⟩
  · exact .inl rfl
  · exact .inr ⟨digits, isRun.mono fun c member => among c (List.mem_cons_of_mem _ member), rfl⟩

/-- Digits with a fraction behind them are digits and points alone. -/
theorem digit_or_point {isDigit : Char → Bool} {whole fraction : List Char}
    (isRun : IsRun isDigit whole) (isFraction : IsFraction isDigit fraction)
    : ∀ c ∈ whole ++ fraction, isDigit c = true ∨ c = '.' := by
  intro c member
  rcases List.mem_append.mp member with inWhole | inFraction
  · exact .inl (isRun.2 c inWhole)
  · rcases isFraction with rfl | ⟨digits, isRun, rfl⟩
    · cases inFraction
    · rcases List.mem_cons.mp inFraction with rfl | inDigits
      · exact .inr rfl
      · exact .inl (isRun.2 c inDigits)

end Text

open Text

/-- Texts that end where a character of another kind stands are told by what such a character ends.
-/
theorem eq_of_append_of_all {among : Char → Bool} {first second after more : List Char}
    (firstAll : ∀ c ∈ first, among c = true) (secondAll : ∀ c ∈ second, among c = true)
    (afterEnds : StopsRun among after) (moreEnds : StopsRun among more)
    (same : first ++ after = second ++ more) : first = second ∧ after = more := by
  obtain ⟨taken, left⟩ := takeWhile_dropWhile_eq_iff.mpr ⟨firstAll, afterEnds, rfl⟩
  obtain ⟨otherTaken, otherLeft⟩ := takeWhile_dropWhile_eq_iff.mpr ⟨secondAll, moreEnds, same⟩
  exact ⟨taken.symm.trans otherTaken, left.symm.trans otherLeft⟩

/-- Texts without a character are told by what begins with them and the character. -/
theorem eq_of_append_cons {c : Char} {first second after more : List Char} (firstFree : c ∉ first)
    (secondFree : c ∉ second) (same : first ++ c :: after = second ++ c :: more)
    : first = second := by
  have free {text : List Char} (absent : c ∉ text) : ∀ d ∈ text, (d != c) = true := by
    intro d member
    rw [bne_iff_ne]
    rintro rfl
    exact absent member
  have ends (rest : List Char) : StopsRun (· != c) (c :: rest) :=
    stopsRun_cons.mpr (by simp)
  exact (eq_of_append_of_all (free firstFree) (free secondFree) (ends after) (ends more) same).1

end RubySchema
