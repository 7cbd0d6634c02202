import RubySchema.Text.Lines

/-!
Parts of a text between occurrences of a character. The parts of texts with the character between
them are those of either text, and no part has the character. Texts with others between them: each
stands behind the start or behind a separator, and so does what follows it.
-/

namespace RubySchema.Text

-----------------------------------------------------------------------------------------
-- Parts
-----------------------------------------------------------------------------------------

section
variable {separator : Char} {text part : List Char}

theorem splitOn_ne_nil (separator : Char) (text : List Char) : splitOn separator text ≠ [] := by
  unfold splitOn
  split
  · exact List.cons_ne_nil _ _
  · split
    · exact List.cons_ne_nil _ _
    · split <;> exact List.cons_ne_nil _ _

/-- A text without separators is all of one part, by induction on the text. -/
theorem splitOn_of_not_mem (absent : separator ∉ text) : splitOn separator text = [text] := by
  induction text with
  | nil => rfl
  | cons c rest ih =>
      have other : c ≠ separator := fun same => absent (same ▸ List.mem_cons_self)
      rw [splitOn, if_neg other, ih fun member => absent (List.mem_cons_of_mem c member)]

/-- A separator parts what is in front of it from what follows, by induction on the front. -/
theorem splitOn_append (separator : Char) (first second : List Char)
    : splitOn separator (first ++ separator :: second)
      = splitOn separator first ++ splitOn separator second := by
  induction first with
  | nil => simp [splitOn]
  | cons c rest ih =>
      rw [List.cons_append, splitOn, splitOn, ih]
      split
      · rfl
      · cases found : splitOn separator rest with
        | nil => exact absurd found (splitOn_ne_nil separator rest)
        | cons part more => rfl

theorem splitOn_append_of_not_mem (absent : separator ∉ part) (rest : List Char)
    : splitOn separator (part ++ separator :: rest) = part :: splitOn separator rest := by
  rw [splitOn_append, splitOn_of_not_mem absent, List.singleton_append]

/-- No part has the separator, by induction on the text. -/
theorem not_mem_of_mem_splitOn (member : part ∈ splitOn separator text) : separator ∉ part := by
  induction text generalizing part with
  | nil =>
      obtain rfl := List.mem_singleton.mp member
      exact List.not_mem_nil
  | cons c rest ih =>
      unfold splitOn at member
      split at member
      · rcases List.mem_cons.mp member with rfl | later
        · exact List.not_mem_nil
        · exact ih later
      · rename_i other
        cases found : splitOn separator rest with
        | nil => exact absurd found (splitOn_ne_nil separator rest)
        | cons first more =>
            rw [found] at member ih
            rcases List.mem_cons.mp member with rfl | later
            · rw [List.mem_cons, not_or]
              exact ⟨Ne.symm other, ih List.mem_cons_self⟩
            · exact ih (List.mem_cons_of_mem first later)

end

-----------------------------------------------------------------------------------------
-- Texts with others between them
-----------------------------------------------------------------------------------------

/-- Each of some texts with separators between them stands behind the start or a separator, and
before the end or a separator, by induction on the texts.
-/
theorem exists_intercalate_eq (separator : String) {text : String} {texts : List String}
    (member : text ∈ texts)
    : ∃ front back,
        separator.intercalate texts = front ++ text ++ back
        ∧ (front = "" ∨ ∃ above, front = above ++ separator)
        ∧ (back = "" ∨ ∃ below, back = separator ++ below) := by
  induction texts with
  | nil => cases member
  | cons first rest ih =>
      cases rest with
      | nil =>
          obtain rfl := List.mem_singleton.mp member
          exact ⟨"", "", by simp, .inl rfl, .inl rfl⟩
      | cons second more =>
          rw [String.intercalate_cons_cons]
          rcases List.mem_cons.mp member with rfl | later
          · exact ⟨"", _, by rw [String.empty_append, String.append_assoc], .inl rfl,
              .inr ⟨_, rfl⟩⟩
          · obtain ⟨front, back, same, opens, closes⟩ := ih later
            refine ⟨first ++ separator ++ front, back, by simp [same, String.append_assoc],
              .inr ?_, closes⟩
            rcases opens with rfl | ⟨above, rfl⟩
            · exact ⟨first, String.append_empty⟩
            · exact ⟨first ++ separator ++ above, (String.append_assoc ..).symm⟩

end RubySchema.Text
