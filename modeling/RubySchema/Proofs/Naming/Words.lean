import Mathlib.Data.List.Chain
import RubySchema.Proofs.Naming.Separators
import RubySchema.Proofs.Registry.FilePaths
import RubySchema.Proofs.Splitting

/-!
Snake case is the words of a camel-case name in lower case with one separator between them, so that
names that begin alike are told by their snake case and by their file paths. In camel case a capital
begins each word but the first, which may begin with a small letter.
-/

namespace RubySchema

open Text

/-- Texts without separators are the parts of what is put together from them. -/
theorem Text.splitOn_intercalate {separator : Char} {parts : List (List Char)}
    (filled : parts ≠ []) (free : ∀ part ∈ parts, separator ∉ part)
    : splitOn separator (List.intercalate [separator] parts) = parts := by
  induction parts with
  | nil => exact absurd rfl filled
  | cons part rest ih =>
      obtain ⟨here, later⟩ := List.forall_mem_cons.mp free
      cases rest with
      | nil => rw [List.intercalate_singleton, splitOn_of_not_mem here]
      | cons next more =>
          have spelled
              : List.intercalate [separator] (part :: next :: more)
                = part ++ separator :: List.intercalate [separator] (next :: more) := by
            rw [List.intercalate_cons_cons, List.append_assoc, List.singleton_append]
          rw [spelled, splitOn_append_of_not_mem here, ih (List.cons_ne_nil _ _) later]

namespace Naming

-----------------------------------------------------------------------------------------
-- Words
-----------------------------------------------------------------------------------------

/-- A capital with small letters and digits behind it, one at least. -/
inductive IsCapitalWord : List Char → Prop where
  | intro {c d : Char} {rest : List Char} (capital : isCapital c = true)
      (low : ∀ e ∈ d :: rest, isLow e = true)
    : IsCapitalWord (c :: d :: rest)

/-- The first word of a name may begin with a small letter, and may be that letter alone. -/
inductive IsFirstWord : List Char → Prop where
  | capital {word : List Char} (isCapital : IsCapitalWord word) : IsFirstWord word
  | small {c : Char} {rest : List Char} (small : isSmall c = true)
      (low : ∀ d ∈ rest, isLow d = true)
    : IsFirstWord (c :: rest)

structure CamelWords where
  first : List Char
  later : List (List Char)
  isFirst : IsFirstWord first
  areCapital : ∀ word ∈ later, IsCapitalWord word

namespace CamelWords

def all (words : CamelWords) : List (List Char) :=
  words.first :: words.later

def name (words : CamelWords) : String :=
  String.ofList words.all.flatten

def snake (words : CamelWords) : String :=
  String.ofList (List.intercalate ['_'] (words.all.map lower))

def isCapitalised (words : CamelWords) : Bool :=
  words.first.head?.any isCapital

end CamelWords

variable {c d : Char} {rest word name : List Char}

theorem usual_of_letter (letter : isCapital c = true ∨ isLow c = true)
    : (isCapital c || isSmall c || isAsciiDigit c || c == '_') = true := by
  simp only [isLow, Bool.or_eq_true] at letter ⊢
  tauto

theorem isCapital_of_isLow (low : isLow c = true) : isCapital c = false :=
  forall_ascii (fun c => isLow c = true → isCapital c = false) (by decide)
    (toNat_lt_of_usual (usual_of_letter (.inr low))) low

theorem isHump_of_isLow (low : isLow d = true) : isHump c d = false := by
  rw [isHump, isCapital_of_isLow low, Bool.and_false]

/-- A word goes on with small letters and digits, and ends in one. -/
structure IsWord (c : Char) (rest : List Char) : Prop where
  low : ∀ d ∈ rest, isLow d = true
  ends : rest = [] → isLow c = true
  letter : isCapital c = true ∨ isLow c = true

theorem IsFirstWord.exists_cons (isFirst : IsFirstWord word)
    : ∃ c rest, word = c :: rest ∧ IsWord c rest := by
  cases isFirst with
  | capital isCapital =>
      obtain ⟨capital, low⟩ := isCapital
      exact ⟨_, _, rfl, low, fun none => absurd none (List.cons_ne_nil _ _), .inl capital⟩
  | small small low =>
      have isLow : isLow _ = true := Bool.or_eq_true_iff.mpr (.inl small)
      exact ⟨_, _, rfl, low, fun _ => isLow, .inr isLow⟩

theorem IsWord.isLow_getLast? (isWord : IsWord c rest)
    : ∀ d ∈ (c :: rest).getLast?, isLow d = true := by
  intro d last
  rcases List.mem_cons.mp (List.mem_of_getLast? last) with rfl | member
  · cases rest with
    | nil => exact isWord.ends rfl
    | cons e more =>
        rw [List.getLast?_cons_cons] at last
        exact isWord.low _ (List.mem_of_getLast? last)
  · exact isWord.low d member

-----------------------------------------------------------------------------------------
-- Capitals
-----------------------------------------------------------------------------------------

/-- Each capital but the first character stands behind a small letter or a digit. -/
def IsHumped (name : List Char) : Prop :=
  name.IsChain fun a b => isCapital b = true → isLow a = true

/-- What the second pass puts behind a character depends on the next one only. -/
theorem separateHumps_congr {first second : List Char}
    (same : separateHumps (d :: first) = separateHumps (d :: second))
    : separateHumps (c :: d :: first) = separateHumps (c :: d :: second) := by
  cases hump : isHump c d with
  | true => rw [separateHumps_of_isHump hump, separateHumps_of_isHump hump, same]
  | false => rw [separateHumps_of_not_isHump hump, separateHumps_of_not_isHump hump, same]

/-- Where each capital is behind a small letter or a digit, the second pass alone does what both do,
by the recursion of the first: it would put the same separators.
-/
theorem separateHumps_separateWords (humped : IsHumped name) (inWord : Bool)
    : separateHumps (separateWords inWord name) = separateHumps name := by
  fun_induction separateWords inWord name with
  | case1 inWord c u l rest small ih =>
      obtain ⟨more, begins⟩ := (separated_separateWords true (u :: l :: rest)).exists_cons
      have behind := ih humped.tail
      rw [begins] at behind ⊢
      exact separateHumps_congr behind
  | case2 inWord c u l rest other opens ih =>
      simp only [Bool.and_eq_true] at opens
      obtain ⟨⟨-, capital⟩, small⟩ := opens
      have low : isLow c = true := humped.rel capital
      have hump : isHump c u = true := by rw [isHump, low, capital]; rfl
      have noCapital : isHump c '_' = false := Bool.and_false _
      have noSmall : isHump '_' u = false := Bool.false_and _
      obtain ⟨more, begins⟩ := (separated_separateWords true (l :: rest)).exists_cons
      have behind := ih humped.tail.tail
      rw [begins] at behind ⊢
      rw [separateHumps_of_not_isHump noCapital, separateHumps_of_not_isHump noSmall,
        separateHumps_of_isHump hump, separateHumps_congr behind]
  | case3 inWord c u l rest other plain ih =>
      obtain ⟨more, begins⟩ := (separated_separateWords false (u :: l :: rest)).exists_cons
      have behind := ih humped.tail
      rw [begins] at behind ⊢
      exact separateHumps_congr behind
  | case4 => rfl

/-- Within a word the second pass puts no separator, by induction on what the word goes on with. -/
theorem IsWord.separateHumps_append (isWord : IsWord c rest) (capital : isCapital d = true)
    (more : List Char)
    : separateHumps (c :: rest ++ d :: more) = c :: rest ++ '_' :: separateHumps (d :: more) := by
  obtain ⟨low, ends, -⟩ := isWord
  induction rest generalizing c with
  | nil =>
      have hump : isHump c d = true := by rw [isHump, ends rfl, capital]; rfl
      exact separateHumps_of_isHump hump
  | cons e rest ih =>
      obtain ⟨here, later⟩ := List.forall_mem_cons.mp low
      have inner := ih later fun _ => here
      rw [List.cons_append, List.cons_append, separateHumps_of_not_isHump (isHump_of_isLow here),
        ← List.cons_append, inner]
      rfl

theorem separateHumps_of_low (low : ∀ e ∈ rest, isLow e = true)
    : separateHumps (c :: rest) = c :: rest := by
  induction rest generalizing c with
  | nil => rfl
  | cons e rest ih =>
      obtain ⟨here, later⟩ := List.forall_mem_cons.mp low
      rw [separateHumps_of_not_isHump (isHump_of_isLow here), ih later]

theorem isHumped_of_low (low : ∀ e ∈ rest, isLow e = true) : IsHumped (c :: rest) := by
  induction rest generalizing c with
  | nil => exact .singleton c
  | cons e rest ih =>
      obtain ⟨here, later⟩ := List.forall_mem_cons.mp low
      refine .cons_cons (fun capital => ?_) (ih later)
      rw [isCapital_of_isLow here] at capital
      cases capital

namespace CamelWords

/-- No capital stands inside a word, and the one that begins the next word is behind the end of this
one. By induction on the words behind the first.
-/
theorem isHumped (words : CamelWords) : IsHumped words.all.flatten := by
  obtain ⟨first, later, isFirst, areCapital⟩ := words
  show IsHumped (first :: later).flatten
  induction later generalizing first with
  | nil =>
      obtain ⟨c, rest, rfl, isWord⟩ := isFirst.exists_cons
      rw [List.flatten_singleton]
      exact isHumped_of_low isWord.low
  | cons next more ih =>
      obtain ⟨here, later⟩ := List.forall_mem_cons.mp areCapital
      obtain ⟨c, rest, rfl, isWord⟩ := isFirst.exists_cons
      rw [List.flatten_cons]
      refine (isHumped_of_low isWord.low).append (ih next (.capital here) later) ?_
      exact fun last isLast _ _ _ => isWord.isLow_getLast? last isLast

/-- The second pass puts a separator in front of each word but the first, by induction on the words
behind it.
-/
theorem separateHumps_all (words : CamelWords)
    : separateHumps words.all.flatten = List.intercalate ['_'] words.all := by
  obtain ⟨first, later, isFirst, areCapital⟩ := words
  show separateHumps (first :: later).flatten = List.intercalate ['_'] (first :: later)
  induction later generalizing first with
  | nil =>
      obtain ⟨c, rest, rfl, isWord⟩ := isFirst.exists_cons
      rw [List.flatten_singleton, List.intercalate_singleton, separateHumps_of_low isWord.low]
  | cons next more ih =>
      obtain ⟨here, later⟩ := List.forall_mem_cons.mp areCapital
      have behind := ih next (.capital here) later
      obtain ⟨c, rest, rfl, isWord⟩ := isFirst.exists_cons
      obtain @⟨d, e, others, capital, -⟩ := here
      have front := isWord.separateHumps_append capital (e :: others ++ more.flatten)
      calc
        separateHumps ((c :: rest) :: (d :: e :: others) :: more).flatten
          = c :: rest ++ '_' :: separateHumps ((d :: e :: others) :: more).flatten := front
        _ = List.intercalate ['_'] ((c :: rest) :: (d :: e :: others) :: more) := by
          rw [behind, List.intercalate_cons_cons, List.append_assoc, List.singleton_append]

theorem separate_all (words : CamelWords)
    : separateHumps (separateWords false words.all.flatten) = List.intercalate ['_'] words.all := by
  rw [separateHumps_separateWords words.isHumped, separateHumps_all]

theorem isFirstWord_of_mem (words : CamelWords) : ∀ word ∈ words.all, IsFirstWord word :=
  List.forall_mem_cons.mpr
    ⟨words.isFirst, fun word later => .capital (words.areCapital word later)⟩

/-- The words consist of capitals, small letters and digits. -/
theorem letters (words : CamelWords)
    : ∀ word ∈ words.all, ∀ c ∈ word, Text.isCapital c = true ∨ isLow c = true := by
  intro word member c among
  obtain ⟨d, rest, rfl, isWord⟩ := (words.isFirstWord_of_mem word member).exists_cons
  rcases List.mem_cons.mp among with rfl | inner
  · exact isWord.letter
  · exact .inr (isWord.low c inner)

theorem isGraphQL_name (words : CamelWords) : TypeName.IsGraphQL words.name := by
  unfold TypeName.IsGraphQL
  rw [name, String.toList_ofList]
  intro c member
  obtain ⟨word, among, inner⟩ := List.mem_flatten.mp member
  exact usual_of_letter (words.letters word among c inner)

end CamelWords

-----------------------------------------------------------------------------------------
-- Words in lower case
-----------------------------------------------------------------------------------------

/-- A letter or a digit is a small letter or a digit in lower case. -/
theorem isLow_toLower (letter : isCapital c = true ∨ isLow c = true) : isLow c.toLower = true :=
  forall_ascii (fun c => isCapital c = true ∨ isLow c = true → isLow c.toLower = true)
    (by decide) (toNat_lt_of_usual (usual_of_letter letter)) letter

/-- Letters and digits of one case are told by their lower case. -/
theorem eq_of_toLower (letter : isCapital c = true ∨ isLow c = true)
    (otherLetter : isCapital d = true ∨ isLow d = true) (alike : isCapital c = isCapital d)
    (same : c.toLower = d.toLower) : c = d := by
  have ascii := toNat_lt_of_usual (usual_of_letter letter)
  have otherAscii := toNat_lt_of_usual (usual_of_letter otherLetter)
  cases capital : isCapital d with
  | false => rwa [toLower_of_small ascii (alike.trans capital), toLower_of_small otherAscii capital]
      at same
  | true =>
      have raised {e : Char} (ascii : e.toNat < 0x80)
          : isCapital e = true → e.toLower.toUpper = e :=
        forall_ascii (fun e => isCapital e = true → e.toLower.toUpper = e) (by decide) ascii
      rw [← raised ascii (alike.trans capital), same, raised otherAscii capital]

theorem IsWord.ascii (isWord : IsWord c rest) : ∀ d ∈ c :: rest, d.toNat < 0x80 :=
  List.forall_mem_cons.mpr ⟨toNat_lt_of_usual (usual_of_letter isWord.letter), fun d member =>
    toNat_lt_of_usual (usual_of_letter (.inr (isWord.low d member)))⟩

/-- In lower case only the beginning of a word is another. -/
theorem IsWord.lower_eq (isWord : IsWord c rest) : lower (c :: rest) = c.toLower :: rest := by
  obtain ⟨-, ascii⟩ := List.forall_mem_cons.mp isWord.ascii
  have small : ∀ d ∈ rest, isCapital d = false := fun d member =>
    isCapital_of_isLow (isWord.low d member)
  rw [lower_of_ascii isWord.ascii, List.map_cons, ← lower_of_ascii ascii,
    lower_of_small ascii small]

/-- Words that begin in one case are told by their lower case. -/
theorem IsWord.eq_of_lower {more : List Char} (isWord : IsWord c rest) (other : IsWord d more)
    (alike : isCapital c = isCapital d) (same : lower (c :: rest) = lower (d :: more))
    : c :: rest = d :: more := by
  rw [isWord.lower_eq, other.lower_eq] at same
  obtain ⟨begins, rfl⟩ := List.cons.inj same
  rw [eq_of_toLower isWord.letter other.letter alike begins]

theorem IsCapitalWord.eq_of_lower {other : List Char} (isCapitalWord : IsCapitalWord word)
    (otherCapital : IsCapitalWord other) (same : lower word = lower other) : word = other := by
  obtain ⟨c, rest, rfl, isWord⟩ := IsFirstWord.exists_cons (.capital isCapitalWord)
  obtain ⟨d, more, rfl, otherWord⟩ := IsFirstWord.exists_cons (.capital otherCapital)
  obtain ⟨capital, -⟩ := isCapitalWord
  obtain ⟨alsoCapital, -⟩ := otherCapital
  exact isWord.eq_of_lower otherWord (capital.trans alsoCapital.symm) same

/-- Words with capitals are told by their lower case, by induction on the words. -/
theorem eq_of_map_lower {words others : List (List Char)}
    (areCapital : ∀ word ∈ words, IsCapitalWord word)
    (othersCapital : ∀ word ∈ others, IsCapitalWord word)
    (same : words.map lower = others.map lower) : words = others := by
  induction words generalizing others with
  | nil => exact (List.map_eq_nil_iff.mp same.symm).symm
  | cons word rest ih =>
      cases others with
      | nil => cases same
      | cons other more =>
          obtain ⟨here, later⟩ := List.forall_mem_cons.mp areCapital
          obtain ⟨otherHere, otherLater⟩ := List.forall_mem_cons.mp othersCapital
          obtain ⟨first, behind⟩ := List.cons.inj same
          rw [here.eq_of_lower otherHere first, ih later otherLater behind]

theorem map_intercalate {change : Char → Char} (keeps : change '_' = '_')
    (parts : List (List Char))
    : (List.intercalate ['_'] parts).map change
      = List.intercalate ['_'] (parts.map (List.map change)) := by
  induction parts with
  | nil => rfl
  | cons part rest ih =>
      cases rest with
      | nil => simp only [List.map_singleton, List.intercalate_singleton]
      | cons next more =>
          simp only [List.map_cons] at ih ⊢
          rw [List.intercalate_cons_cons, List.intercalate_cons_cons, List.map_append,
            List.map_append, ih, List.map_singleton, keeps]

namespace CamelWords

variable (words other : CamelWords)

theorem ascii : ∀ word ∈ words.all, ∀ c ∈ word, c.toNat < 0x80 := fun word member c among =>
  toNat_lt_of_usual (usual_of_letter (words.letters word member c among))

/-- The snake case of a name in camel case is its words in lower case, joined by underscores. -/
theorem snakeCase_name : snakeCase words.name = words.snake := by
  have ascii : ∀ c ∈ List.intercalate ['_'] words.all, c.toNat < 0x80 := by
    intro c member
    rcases List.mem_cons.mp ((separated_separate _).subset (words.separate_all ▸ member))
      with rfl | among
    · decide
    · obtain ⟨word, isWord, inner⟩ := List.mem_flatten.mp among
      exact words.ascii word isWord c inner
  have each : words.all.map lower = words.all.map (List.map Char.toLower) :=
    List.map_congr_left fun word member => lower_of_ascii (words.ascii word member)
  rw [snakeCase, name, String.toList_ofList, snakeChars, words.separate_all, lower_of_ascii ascii,
    map_intercalate (by decide), snake, each]

/-- No underscore is in a word in lower case, so that the joined words are told apart. -/
theorem splitOn_snake : splitOn '_' words.snake.toList = words.all.map lower := by
  rw [snake, String.toList_ofList]
  apply Text.splitOn_intercalate (by simp [all])
  intro part member among
  obtain ⟨word, isWord, rfl⟩ := List.mem_map.mp member
  rw [lower_of_ascii (words.ascii word isWord)] at among
  obtain ⟨c, inner, same⟩ := List.mem_map.mp among
  have low := isLow_toLower (words.letters word isWord c inner)
  rw [same] at low
  exact absurd low (by decide)

/-- Names in camel case that begin in one case are told by their snake case. -/
theorem name_eq_of_snake (alike : words.isCapitalised = other.isCapitalised)
    (same : words.snake = other.snake) : words.name = other.name := by
  have parts : words.all.map lower = other.all.map lower := by
    rw [← words.splitOn_snake, ← other.splitOn_snake, same]
  obtain ⟨begins, behind⟩ := List.cons.inj parts
  have later := eq_of_map_lower words.areCapital other.areCapital behind
  have first : words.first = other.first := by
    obtain ⟨c, rest, spelled, isWord⟩ := words.isFirst.exists_cons
    obtain ⟨d, more, otherSpelled, otherWord⟩ := other.isFirst.exists_cons
    rw [isCapitalised, isCapitalised, spelled, otherSpelled] at alike
    rw [spelled, otherSpelled] at begins ⊢
    exact isWord.eq_of_lower otherWord alike begins
  rw [name, name, all, all, first, later]

/-- Snake case splits a name in camel case at its words: it is the words in lower case, joined by
single underscores. Two such names that begin in one case have one snake case, or one file path
within a category, only when they are equal.
-/
theorem snakeCase_tells_words
    : snakeCase words.name = words.snake
      ∧ ∀ other : CamelWords, words.isCapitalised = other.isCapitalised →
          (snakeCase words.name = snakeCase other.name → words.name = other.name)
          ∧ ∀ category : Category,
              filePath (category.word ++ "::" ++ words.name)
                  = filePath (category.word ++ "::" ++ other.name)
              → words.name = other.name := by
  have tells {other : CamelWords} (alike : words.isCapitalised = other.isCapitalised)
      (same : snakeCase words.name = snakeCase other.name) : words.name = other.name := by
    rw [words.snakeCase_name, other.snakeCase_name] at same
    exact words.name_eq_of_snake other alike same
  refine ⟨words.snakeCase_name, fun other alike => ⟨tells alike, fun category same => ?_⟩⟩
  rw [filePath_category category words.isGraphQL_name,
    filePath_category category other.isGraphQL_name, String.append_right_inj] at same
  exact tells alike same

def widgetV2 : CamelWords where
  first := "Widget".toList
  later := ["V2".toList]
  isFirst := .capital (.intro (by decide) (List.all_eq_true.mp (by decide)))
  areCapital := List.forall_mem_singleton.mpr (.intro (by decide) (List.all_eq_true.mp (by decide)))

def widgetv2 : CamelWords where
  first := "Widgetv2".toList
  later := []
  isFirst := .capital (.intro (by decide) (List.all_eq_true.mp (by decide)))
  areCapital := List.forall_mem_nil _

/-- A version is a word of its own when it begins with a capital, and then its digits stay with it;
the path tells it from the end of a word.
-/
theorem snakeCase_tells_version
    : snakeCase "WidgetV2" = "widget_v2"
      ∧ filePath ("Types" ++ "::" ++ "WidgetV2") ≠ filePath ("Types" ++ "::" ++ "Widgetv2") := by
  obtain ⟨splits, tells⟩ := widgetV2.snakeCase_tells_words
  refine ⟨splits, fun same => ?_⟩
  have equal : "WidgetV2" = "Widgetv2" := (tells widgetv2 rfl).2 .types same
  exact absurd equal (by decide)

end CamelWords

end Naming

end RubySchema
