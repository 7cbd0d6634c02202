import RubySchema.Files
import RubySchema.Text.Control

/-!
Halves in texts that are joined or cut. Parts of a text with characters of ASCII between them have
the halves of the text between them, wherever marks stand: a mark at the end of a part takes no more
than the character behind it. Where no mark stands, what is left of a text without its control
sequences has no halves of its own.
-/

namespace RubySchema.Text

def IsAscii (text : String) : Prop :=
  ∀ c ∈ text.toList, c.toNat < 0x80

instance : DecidablePred IsAscii := fun text =>
  decidable_of_iff (text.toList.all fun c => c.toNat < 0x80) <| by
    simp [IsAscii, List.all_eq_true]

/-- A character of ASCII is not written for a half, nor is it the mark. -/
theorem unmarkedPoint_of_ascii {c : Char} (ascii : c.toNat < 0x80)
    : c ≠ mark ∧ unmarkedPoint c = c.toNat ∧ isHalf c.toNat = false := by
  have markPoint : mark.toNat = 0x5e000 := by decide
  refine ⟨?_, ?_, ?_⟩
  · rintro rfl
    omega
  · rw [unmarkedPoint, if_neg]
    simp only [isMarked, Bool.and_eq_true, decide_eq_true_eq]
    omega
  · simp only [isHalf, Bool.and_eq_false_iff, decide_eq_false_iff_not]
    omega

/-- In front of a character of ASCII, and behind it, a text has its own halves. By induction on what
stands in front, read like code points: the character stands for itself, or a mark takes it.
-/
theorem any_isHalf_append_cons {c : Char} (ascii : c.toNat < 0x80) (first rest : List Char)
    : (codePoints (first ++ c :: rest)).any isHalf
      = ((codePoints first).any isHalf || (codePoints rest).any isHalf) := by
  obtain ⟨other, unmarked, whole⟩ := unmarkedPoint_of_ascii ascii
  have behind : (codePoints (c :: rest)).any isHalf = (codePoints rest).any isHalf := by
    rw [codePoints_cons other, unmarked, List.any_cons, whole, Bool.false_or]
  fun_induction codePoints first with
  | case1 => exact behind
  | case2 d =>
      rw [List.singleton_append, List.any_cons, List.any_nil, Bool.or_false]
      by_cases isMark : d = mark
      · subst isMark
        rw [codePoints_mark, List.any_cons, whole]
        rfl
      · rw [codePoints_cons isMark, List.any_cons, behind]
  | case3 d more ih =>
      rw [List.cons_append, List.cons_append, codePoints_mark, List.any_cons, ih, List.any_cons,
        Bool.or_assoc]
  | case4 c' d more isMark ih =>
      rw [List.cons_append, codePoints_cons isMark, List.any_cons, ih, List.any_cons,
        Bool.or_assoc]

/-- Characters of ASCII in front of a text leave it its halves, by induction on the characters. -/
theorem any_isHalf_append_of_ascii {chars : List Char} (ascii : ∀ c ∈ chars, c.toNat < 0x80)
    (rest : List Char)
    : (codePoints (chars ++ rest)).any isHalf = (codePoints rest).any isHalf := by
  induction chars with
  | nil => rfl
  | cons c more ih =>
      obtain ⟨here, later⟩ := List.forall_mem_cons.mp ascii
      obtain ⟨other, unmarked, whole⟩ := unmarkedPoint_of_ascii here
      rw [List.cons_append, codePoints_cons other, unmarked, List.any_cons, whole, ih later,
        Bool.false_or]

section
variable {between : String}

/-- Two texts with ASCII between them have the halves of either. -/
theorem hasHalf_append_append (ascii : IsAscii between) (filled : between ≠ "")
    (first rest : String)
    : hasHalf (first ++ between ++ rest) = (hasHalf first || hasHalf rest) := by
  unfold hasHalf points
  rw [String.toList_append, String.toList_append, List.append_assoc]
  cases chars : between.toList with
  | nil => exact absurd (String.toList_eq_nil_iff.mp chars) filled
  | cons c more =>
      rw [IsAscii, chars] at ascii
      obtain ⟨here, later⟩ := List.forall_mem_cons.mp ascii
      rw [List.cons_append, any_isHalf_append_cons here, any_isHalf_append_of_ascii later]

/-- ASCII behind a text leaves it its halves. -/
theorem hasHalf_append_of_ascii (ascii : IsAscii between) (first : String)
    : hasHalf (first ++ between) = hasHalf first := by
  by_cases filled : between = ""
  · rw [filled, String.append_empty]
  · have parted := hasHalf_append_append ascii filled first ""
    rwa [String.append_empty, show hasHalf "" = false by decide, Bool.or_false] at parted

theorem hasHalf_ascii_append (ascii : IsAscii between) (rest : String)
    : hasHalf (between ++ rest) = hasHalf rest := by
  unfold hasHalf points
  rw [String.toList_append, any_isHalf_append_of_ascii ascii]

end

-----------------------------------------------------------------------------------------
-- Control sequences
-----------------------------------------------------------------------------------------

/-- What is left without control sequences stands in the text in this order, by induction on the
text.
-/
theorem withoutControlsFrom_sublist (skipped : Nat) (chars : List Char)
    : (withoutControlsFrom skipped chars).Sublist chars := by
  induction chars generalizing skipped with
  | nil => exact .slnil
  | cons c rest ih =>
      unfold withoutControlsFrom
      split
      · exact (ih _).cons c
      · exact (ih _).cons c
      · exact (ih _).cons_cons c

/-- Without an escape character there is nothing to leave out, by induction on the text. -/
theorem withoutControls_of_not_mem {text : String} (free : '\x1b' ∉ text.toList)
    : withoutControls text = text := by
  have kept (chars : List Char) (free : '\x1b' ∉ chars) : withoutControlsFrom 0 chars = chars := by
    induction chars with
    | nil => rfl
    | cons c rest ih =>
        obtain ⟨other, later⟩ := not_or.mp (mt List.mem_cons.mpr free)
        have noSequence : controlLength (c :: rest) = 0 := by
          unfold controlLength
          split
          case h_1 same => exact absurd (List.cons.inj same).1.symm other
          case h_2 => rfl
        unfold withoutControlsFrom
        rw [noSequence]
        exact congrArg (c :: ·) (ih later)
  rw [withoutControls, kept text.toList free, String.ofList_toList]

/-- Without a mark every character is read by itself, by induction on the characters. -/
theorem codePoints_of_not_mem {chars : List Char} (unmarked : mark ∉ chars)
    : codePoints chars = chars.map unmarkedPoint := by
  induction chars with
  | nil => rfl
  | cons c rest ih =>
      obtain ⟨other, later⟩ := not_or.mp (mt List.mem_cons.mpr unmarked)
      rw [codePoints_cons (Ne.symm other), ih later, List.map_cons]

/-- A text without halves has none without its control sequences, if it has nothing to mark or
nothing to leave out.
-/
theorem hasHalf_withoutControls {text : String} (whole : hasHalf text = false)
    (plain : '\x1b' ∉ text.toList ∨ mark ∉ text.toList)
    : hasHalf (withoutControls text) = false := by
  rcases plain with free | unmarked
  · rwa [withoutControls_of_not_mem free]
  · have sub := withoutControlsFrom_sublist 0 text.toList
    unfold hasHalf points withoutControls at *
    rw [codePoints_of_not_mem unmarked, List.any_eq_false] at whole
    rw [String.toList_ofList, codePoints_of_not_mem fun member => unmarked (sub.mem member),
      List.any_eq_false]
    exact fun point member => whole point ((sub.map unmarkedPoint).mem member)

-----------------------------------------------------------------------------------------
-- Texts that can be encoded
-----------------------------------------------------------------------------------------

/-- Behind everything in front of the first bad item stands a bad item, or nothing. By induction on
the items.
-/
theorem takeWhile_drop_takeWhile_eq_nil_iff {isBad : Nat → Bool} (items : List Nat)
    : (items.drop (items.takeWhile fun item => !isBad item).length).takeWhile isBad = []
      ↔ items.any isBad = false := by
  induction items with
  | nil => simp
  | cons item rest ih => cases bad : isBad item <;> simp [bad, ih]

/-- A text can be encoded when it has no half. -/
theorem unencodable?_eq_none_iff {text : String}
    : unencodable? isHalf text = none ↔ hasHalf text = false := by
  rw [hasHalf, ← takeWhile_drop_takeWhile_eq_nil_iff]
  unfold unencodable?
  dsimp only
  split
  case h_1 nothing => exact ⟨fun _ => nothing, fun _ => rfl⟩
  case h_2 first more some =>
    rw [some]
    exact ⟨fun same => (nomatch same), fun same => (nomatch same)⟩

end RubySchema.Text
