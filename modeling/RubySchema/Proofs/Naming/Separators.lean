import RubySchema.Naming
import RubySchema.Proofs.Halves

/-!
The snake case of an ASCII text is its lower case with at most one separator between neighbours, and
is in snake case. Snake case takes two passes, and each puts separators between characters of the
text; the second finds none to put where the first has put one.
-/

namespace RubySchema

open Text

-----------------------------------------------------------------------------------------
-- Lower case of ASCII
-----------------------------------------------------------------------------------------

namespace Text

variable {c : Char} {text : List Char}

/-- What each of the first 128 characters has, every character of ASCII has. -/
theorem forall_ascii (property : Char → Prop) (each : ∀ n < 0x80, property (Char.ofNat n))
    (ascii : c.toNat < 0x80) : property c := by
  have here := each c.toNat ascii
  rwa [Char.ofNat_toNat] at here

theorem isCapital_toLower (ascii : c.toNat < 0x80) : isCapital c.toLower = false :=
  forall_ascii (fun c => isCapital c.toLower = false) (by decide) ascii

theorem toLower_of_small (ascii : c.toNat < 0x80) (small : isCapital c = false) : c.toLower = c :=
  forall_ascii (fun c => isCapital c = false → c.toLower = c) (by decide) ascii small

theorem toLower_ascii (ascii : c.toNat < 0x80) : c.toLower.toNat < 0x80 :=
  forall_ascii (fun c => c.toLower.toNat < 0x80) (by decide) ascii

/-- In ASCII each character is lowered by itself, by induction on the text. -/
theorem lowerAfter_of_ascii (ascii : ∀ c ∈ text, c.toNat < 0x80) (before : List Char)
    : lowerAfter before text = text.map Char.toLower := by
  induction text generalizing before with
  | nil => rfl
  | cons c rest ih =>
      obtain ⟨here, later⟩ := List.forall_mem_cons.mp ascii
      have notSigma : (c == 'Σ') = false := by
        rw [beq_eq_false_iff_ne]
        rintro rfl
        exact absurd here (by decide)
      have small : lowerChar c = [c.toLower] := if_pos here
      simp only [lowerAfter, notSigma, Bool.false_eq_true, if_false, small, ih later,
        List.singleton_append, List.map_cons]

theorem lower_of_ascii (ascii : ∀ c ∈ text, c.toNat < 0x80)
    : lower text = text.map Char.toLower :=
  lowerAfter_of_ascii ascii []

theorem isCapital_of_mem_lower (ascii : ∀ c ∈ text, c.toNat < 0x80) (member : c ∈ lower text)
    : isCapital c = false := by
  rw [lower_of_ascii ascii] at member
  obtain ⟨d, among, rfl⟩ := List.mem_map.mp member
  exact isCapital_toLower (ascii d among)

/-- A text of ASCII without capitals is its own lower case. -/
theorem lower_of_small (ascii : ∀ c ∈ text, c.toNat < 0x80)
    (small : ∀ c ∈ text, isCapital c = false) : lower text = text := by
  have same : ∀ c ∈ text, c.toLower = id c := fun c member =>
    toLower_of_small (ascii c member) (small c member)
  rw [lower_of_ascii ascii, List.map_congr_left same, List.map_id]

end Text

namespace Naming

-----------------------------------------------------------------------------------------
-- Separated texts
-----------------------------------------------------------------------------------------

/-- A text with at most one more separator between neighbours, and none at either end. -/
inductive Separated : List Char → List Char → Prop where
  | empty : Separated [] []
  | single (c : Char) : Separated [c] [c]
  | joined {c d : Char} {rest spaced : List Char} (behind : Separated (d :: rest) spaced)
    : Separated (c :: d :: rest) (c :: spaced)
  | parted {c d : Char} {rest spaced : List Char} (behind : Separated (d :: rest) spaced)
    : Separated (c :: d :: rest) (c :: '_' :: spaced)

variable {c d : Char} {name rest spaced : List Char}

theorem Separated.refl (name : List Char) : Separated name name := by
  induction name with
  | nil => exact .empty
  | cons c rest ih =>
      cases rest with
      | nil => exact .single c
      | cons d more => exact .joined ih

/-- A separated text begins like the text. -/
theorem Separated.exists_cons (separated : Separated (c :: rest) spaced)
    : ∃ more, spaced = c :: more := by
  cases separated with
  | single => exact ⟨[], rfl⟩
  | joined => exact ⟨_, rfl⟩
  | parted => exact ⟨_, rfl⟩

/-- Separators stay where they are when each character is replaced by another. -/
theorem Separated.map (separated : Separated name spaced) {change : Char → Char}
    (keeps : change '_' = '_') : Separated (name.map change) (spaced.map change) := by
  induction separated with
  | empty => exact .empty
  | single c => exact .single (change c)
  | joined behind ih => exact .joined ih
  | parted behind ih =>
      simp only [List.map_cons, keeps]
      exact .parted ih

/-- A separated text differs from the text in its separators only. -/
theorem Separated.filter_eq (separated : Separated name spaced)
    : spaced.filter (· != '_') = name.filter (· != '_') := by
  induction separated with
  | empty => rfl
  | single => rfl
  | joined behind ih => rw [List.filter_cons, List.filter_cons, ih]
  | parted behind ih =>
      rw [List.filter_cons, List.filter_cons_of_neg (by decide), ih, eq_comm, List.filter_cons]

/-- A separated text consists of separators and characters of the text. -/
theorem Separated.subset (separated : Separated name spaced) : spaced ⊆ '_' :: name := by
  induction separated with
  | empty => exact List.nil_subset _
  | single => exact List.subset_cons_self '_' _
  | joined behind ih => grind
  | parted behind ih => grind

-----------------------------------------------------------------------------------------
-- The two passes
-----------------------------------------------------------------------------------------

/-- A small letter or a digit. -/
def isLow (c : Char) : Bool :=
  isSmall c || isAsciiDigit c

/-- A capital behind a small letter or a digit. -/
def isHump (a b : Char) : Bool :=
  isLow a && isCapital b

theorem separateHumps_of_isHump (hump : isHump c d = true)
    : separateHumps (c :: d :: rest) = c :: '_' :: separateHumps (d :: rest) :=
  if_pos hump

theorem separateHumps_of_not_isHump (plain : isHump c d = false)
    : separateHumps (c :: d :: rest) = c :: separateHumps (d :: rest) :=
  if_neg (Bool.not_eq_true _ ▸ plain)

/-- The first pass puts separators between characters, by its recursion. -/
theorem separated_separateWords (inWord : Bool) (name : List Char)
    : Separated name (separateWords inWord name) := by
  fun_induction separateWords inWord name with
  | case1 inWord c u l rest small ih => exact .joined ih
  | case2 inWord c u l rest other opens ih => exact .parted (.joined ih)
  | case3 inWord c u l rest other plain ih => exact .joined ih
  | case4 => exact .refl _

/-- The second pass puts separators between characters of the text as well: beside a separator that
is there already it puts none. By induction on the separators of the first pass.
-/
theorem Separated.separateHumps (separated : Separated name spaced)
    : Separated name (separateHumps spaced) := by
  induction separated with
  | empty => exact .empty
  | single c => exact .single c
  | @joined c d rest spaced behind ih =>
      obtain ⟨more, rfl⟩ := behind.exists_cons
      cases hump : isHump c d with
      | true =>
          rw [separateHumps_of_isHump hump]
          exact .parted ih
      | false =>
          rw [separateHumps_of_not_isHump hump]
          exact .joined ih
  | @parted c d rest spaced behind ih =>
      obtain ⟨more, rfl⟩ := behind.exists_cons
      have noCapital : isHump c '_' = false := Bool.and_false _
      have noSmall : isHump '_' d = false := Bool.false_and _
      rw [separateHumps_of_not_isHump noCapital, separateHumps_of_not_isHump noSmall]
      exact .parted ih

theorem separated_separate (name : List Char)
    : Separated name (separateHumps (separateWords false name)) :=
  (separated_separateWords false name).separateHumps

/-- Without capitals there is nothing for the first pass to separate. -/
theorem separateWords_of_small (small : ∀ c ∈ name, isCapital c = false) (inWord : Bool)
    : separateWords inWord name = name := by
  fun_induction separateWords inWord name with
  | case1 inWord c u l rest here ih =>
      rw [ih fun d member => small d (List.mem_cons_of_mem c member)]
  | case2 inWord c u l rest other opens ih =>
      simp [small u (by simp)] at opens
  | case3 inWord c u l rest other plain ih =>
      rw [ih fun d member => small d (List.mem_cons_of_mem c member)]
  | case4 => rfl

theorem separateHumps_of_small (small : ∀ c ∈ name, isCapital c = false)
    : separateHumps name = name := by
  fun_induction separateHumps name with
  | case1 a b rest hump ih => simp [small b (by simp)] at hump
  | case2 a b rest plain ih => rw [ih fun d member => small d (List.mem_cons_of_mem a member)]
  | case3 => rfl

-----------------------------------------------------------------------------------------
-- Snake case
-----------------------------------------------------------------------------------------

section
variable (ascii : ∀ c ∈ name, c.toNat < 0x80)
include ascii

theorem ascii_separate : ∀ c ∈ separateHumps (separateWords false name), c.toNat < 0x80 := by
  intro c member
  rcases List.mem_cons.mp ((separated_separate name).subset member) with rfl | among
  · decide
  · exact ascii c among

/-- Snake case separates the lower case. -/
theorem separated_snakeChars : Separated (lower name) (snakeChars name) := by
  rw [snakeChars, lower_of_ascii (ascii_separate ascii), lower_of_ascii ascii]
  exact (separated_separate name).map (by decide)

theorem isCapital_of_mem_snakeChars : ∀ c ∈ snakeChars name, isCapital c = false :=
  fun _ member => isCapital_of_mem_lower (ascii_separate ascii) member

/-- Snake case is kept: without capitals neither pass separates anything. -/
theorem snakeChars_snakeChars : snakeChars (snakeChars name) = snakeChars name := by
  have small := isCapital_of_mem_snakeChars ascii
  have still : ∀ c ∈ snakeChars name, c.toNat < 0x80 := by
    intro c member
    rw [snakeChars, lower_of_ascii (ascii_separate ascii)] at member
    obtain ⟨d, among, rfl⟩ := List.mem_map.mp member
    exact toLower_ascii (ascii_separate ascii d among)
  conv =>
    lhs
    rw [snakeChars, separateWords_of_small small, separateHumps_of_small small,
      lower_of_small still small]

end

/-- Snake case only lowers letters and puts separators in: in the snake case of an ASCII text there
is no capital, and it is its own snake case; it is the lower case of the text with at most one
separator between neighbours, and without separators both are the same.
-/
theorem snakeCase_of_ascii {text : String} (ascii : IsAscii text)
    : (∀ c ∈ (snakeCase text).toList, isCapital c = false)
      ∧ snakeCase (snakeCase text) = snakeCase text
      ∧ Separated (lowerString text).toList (snakeCase text).toList
      ∧ (snakeCase text).toList.filter (· != '_')
        = (lowerString text).toList.filter (· != '_') := by
  have snake : (snakeCase text).toList = snakeChars text.toList := String.toList_ofList
  have small : (lowerString text).toList = lower text.toList := String.toList_ofList
  have separated := separated_snakeChars ascii
  rw [snake, small]
  refine ⟨isCapital_of_mem_snakeChars ascii, ?_, separated, separated.filter_eq⟩
  rw [← String.toList_inj, snakeCase, String.toList_ofList, snake, snakeChars_snakeChars ascii]

/-- Capitals in a row, digits, separators and a line feed. -/
theorem snakeCase_of_httpServer
    : IsAscii "HTTPServer_V2x\nfooB"
      ∧ snakeCase (snakeCase "HTTPServer_V2x\nfooB") = "http_server_v2x\nfoo_b"
      ∧ Separated "httpserver_v2x\nfoob".toList "http_server_v2x\nfoo_b".toList := by
  have ascii : IsAscii "HTTPServer_V2x\nfooB" := by decide
  have snake : snakeCase "HTTPServer_V2x\nfooB" = "http_server_v2x\nfoo_b" := by decide +kernel
  have small : lowerString "HTTPServer_V2x\nfooB" = "httpserver_v2x\nfoob" := by decide +kernel
  obtain ⟨-, kept, separated, -⟩ := snakeCase_of_ascii ascii
  rw [snake, small] at separated
  exact ⟨ascii, kept.trans snake, separated⟩

end Naming

end RubySchema
