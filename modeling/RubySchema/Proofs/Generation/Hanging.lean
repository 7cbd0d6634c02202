import RubySchema.Proofs.Generation.Statements
import RubySchema.Proofs.Literal

/-!
A text in the middle of another that is indented stands there as it is if and only if it has no line
break. Its first line goes on and its further lines are indented: every line break becomes a line
feed with spaces behind it.
-/

namespace RubySchema

open Text

namespace Text

-----------------------------------------------------------------------------------------
-- Parts
-----------------------------------------------------------------------------------------

/-- The parts of a text between its line breaks: the first, and the others. A carriage return and a
line feed are one break.
-/
def parts : List Char → List Char × List (List Char)
  | [] => ([], [])
  | '\r' :: '\n' :: rest => ([], (parts rest).1 :: (parts rest).2)
  | c :: rest =>
      if isLineBreak c then ([], (parts rest).1 :: (parts rest).2)
      else (c :: (parts rest).1, (parts rest).2)

/-- Parts of two texts one behind the other: the last part goes on. -/
def attach (first : List Char) : List (List Char) → List Char × List (List Char)
    → List Char × List (List Char)
  | [], more => (first ++ more.1, more.2)
  | next :: rest, more => (first, (attach next rest more).1 :: (attach next rest more).2)

/-- Parts behind the first, each on a line of its own. The last line goes on, so it is indented in
any case.
-/
def hangRest (level : Nat) : List (List Char) → List Char
  | [] => []
  | [last] => '\n' :: (List.replicate (2 * level) ' ' ++ last)
  | part :: rest => '\n' :: (indentLine level part ++ hangRest level rest)

def hangChars (level : Nat) (text : List Char) : List Char :=
  (parts text).1 ++ hangRest level (parts text).2

def hang (level : Nat) (text : String) : String :=
  String.ofList (hangChars level text.toList)

variable {level : Nat} {first last : List Char} {rest : List (List Char)}
  {more : List Char × List (List Char)} {text second : List Char} {c : Char}

theorem attach_cons
    : attach (c :: first) rest more
      = (c :: (attach first rest more).1, (attach first rest more).2) := by
  cases rest <;> rfl

theorem parts_of_break (breaks : isLineBreak c = true) (alone : c = '\r' → text.head? ≠ some '\n')
    : parts (c :: text) = ([], (parts text).1 :: (parts text).2) := by
  rw [parts, if_pos breaks]
  rintro rest rfl rfl
  exact alone rfl rfl

theorem parts_of_unbroken (plain : isLineBreak c = false)
    : parts (c :: text) = (c :: (parts text).1, (parts text).2) := by
  rw [parts, if_neg (by simp [plain])]
  rintro rest rfl rfl
  cases plain

/-- The parts of two texts one behind the other, unless a break of two characters is between them.
By induction on the first text.
-/
theorem parts_append (apart : text.getLast? = some '\r' → second.head? ≠ some '\n')
    : parts (text ++ second) = attach (parts text).1 (parts text).2 (parts second) := by
  fun_induction parts text with
  | case1 => rfl
  | case2 rest ih =>
      have later := ih fun ends => apart (by simp [List.getLast?_cons, ends])
      rw [List.cons_append, List.cons_append, parts, later]
      rfl
  | case3 c rest notPair breaks ih =>
      have later := ih fun ends => apart (by simp [List.getLast?_cons, ends])
      rw [List.cons_append, parts_of_break breaks, later]
      · rfl
      · rintro rfl begins
        cases rest with
        | nil => exact apart rfl begins
        | cons d more => exact notPair more rfl (by simpa using begins)
  | case4 c rest notPair plain ih =>
      have later := ih fun ends => apart (by simp [List.getLast?_cons, ends])
      rw [List.cons_append, parts_of_unbroken (Bool.eq_false_iff.mpr plain), later, attach_cons]

theorem parts_of_isUnbroken (unbroken : Statement.IsUnbroken text) : parts text = (text, []) := by
  induction text with
  | nil => rfl
  | cons c rest ih =>
      obtain ⟨here, later⟩ := List.forall_mem_cons.mp unbroken
      rw [parts_of_unbroken here, ih later]

/-- The first line of a text goes on. -/
theorem parts_append_left (unbroken : Statement.IsUnbroken text)
    : parts (text ++ second) = (text ++ (parts second).1, (parts second).2) := by
  rw [parts_append, parts_of_isUnbroken unbroken]
  · rfl
  · intro ends
    cases unbroken '\r' (List.mem_of_getLast? ends)

/-- The last line of a text goes on. -/
theorem parts_append_right (unbroken : Statement.IsUnbroken second)
    : parts (text ++ second) = attach (parts text).1 (parts text).2 (second, []) := by
  rw [parts_append, parts_of_isUnbroken unbroken]
  intro _ begins
  cases unbroken '\n' (List.mem_of_head? begins)

/-- The lines of a text that ends in no break are its parts, by induction on the text. -/
theorem lines_eq_parts (plain : isLineBreak c = false) (ends : text.getLast? = some c)
    : lines text = (parts text).1 :: (parts text).2 := by
  fun_induction parts text with
  | case1 => cases ends
  | case2 rest ih =>
      cases rest with
      | nil =>
          obtain rfl := Option.some.inj ends
          cases plain
      | cons d more => rw [lines, ih (by simpa using ends)]
  | case3 d rest notPair breaks ih =>
      cases rest with
      | nil =>
          obtain rfl := Option.some.inj ends
          exact absurd breaks (by simpa using plain)
      | cons e more =>
          rw [lines, if_pos breaks, ih (by simpa using ends)]
          rintro other rfl same
          exact notPair other rfl same
  | case4 d rest notPair free ih =>
      rw [lines, if_neg free]
      · cases rest with
        | nil => rfl
        | cons e more => rw [ih (by simpa using ends)]
      · rintro other rfl
        exact absurd (by decide) free

-----------------------------------------------------------------------------------------
-- Texts that go on
-----------------------------------------------------------------------------------------

theorem hangRest_cons_cons (part next : List Char)
    : hangRest level (part :: next :: rest)
      = '\n' :: (indentLine level part ++ hangRest level (next :: rest)) :=
  rfl

theorem mem_hangRest (member : c ∈ hangRest level rest)
    : c ∈ rest.flatMap ('\n' :: ·) ∨ c = ' ' := by
  induction rest with
  | nil => cases member
  | cons part more ih =>
      rw [List.flatMap_cons, List.mem_append, List.mem_cons]
      cases more with
      | nil =>
          rw [hangRest, List.mem_cons, List.mem_append] at member
          rcases member with feed | space | within
          · exact .inl (.inl (.inl feed))
          · exact .inr (List.eq_of_mem_replicate space)
          · exact .inl (.inl (.inr within))
      | cons next others =>
          rw [hangRest_cons_cons, List.mem_cons, List.mem_append] at member
          rcases member with feed | within | later
          · exact .inl (.inl (.inl feed))
          · unfold indentLine at within
            split at within
            · cases within
            · rcases List.mem_append.mp within with space | within
              · exact .inr (List.eq_of_mem_replicate space)
              · exact .inl (.inl (.inr within))
          · exact (ih later).imp_left .inr

/-- The last line goes on, by induction on the parts. -/
theorem hangRest_attach (next : List Char)
    : hangRest level ((attach next rest (second, [])).1 :: (attach next rest (second, [])).2)
      = hangRest level (next :: rest) ++ second := by
  induction rest generalizing next with
  | nil => simp [attach, hangRest]
  | cons other more ih =>
      rw [attach, hangRest_cons_cons, ih, hangRest_cons_cons]
      simp

theorem hangChars_append_left (unbroken : Statement.IsUnbroken text)
    : hangChars level (text ++ second) = text ++ hangChars level second := by
  rw [hangChars, parts_append_left unbroken, hangChars, List.append_assoc]

theorem hangChars_append_right (unbroken : Statement.IsUnbroken second)
    : hangChars level (text ++ second) = hangChars level text ++ second := by
  rw [hangChars, parts_append_right unbroken, hangChars]
  cases (parts text).2 with
  | nil => simp [attach, hangRest]
  | cons next rest =>
      rw [attach, hangRest_attach, List.append_assoc]

theorem hangChars_of_isUnbroken (unbroken : Statement.IsUnbroken text)
    : hangChars level text = text := by
  rw [hangChars, parts_of_isUnbroken unbroken]
  exact List.append_nil text

/-- A text of one part is not broken, by induction on the text. -/
theorem isUnbroken_of_parts (single : (parts text).2 = [])
    : Statement.IsUnbroken text ∧ (parts text).1 = text := by
  fun_induction parts text with
  | case1 => exact ⟨fun _ member => (nomatch member), rfl⟩
  | case2 | case3 => cases single
  | case4 c rest _ free ih =>
      obtain ⟨unbroken, same⟩ := ih single
      exact ⟨List.forall_mem_cons.mpr ⟨Bool.eq_false_iff.mpr free, unbroken⟩, congrArg (c :: ·) same⟩

/-- A text without line breaks where it stands within an indented one has none. -/
theorem isUnbroken_of_hangChars (unbroken : Statement.IsUnbroken (hangChars level text))
    : Statement.IsUnbroken text := by
  cases others : (parts text).2 with
  | nil => exact (isUnbroken_of_parts others).1
  | cons next rest =>
      have feed : '\n' ∈ hangChars level text := by
        rw [hangChars, others]
        refine List.mem_append_right _ ?_
        cases rest <;> exact List.mem_cons_self
      cases unbroken '\n' feed

/-- The last of several parts stands behind a line break, by induction on the text. -/
theorem exists_break_of_parts (ends : (parts text).2.getLast? = some last)
    : ∃ front c, isLineBreak c = true ∧ text = front ++ c :: last := by
  -- behind a break there is the last part itself, or a text that ends in it
  have behind {rest : List Char} {c : Char} (breaks : isLineBreak c = true)
      (ih : (parts rest).2.getLast? = some last
        → ∃ front d, isLineBreak d = true ∧ rest = front ++ d :: last)
      (ends : ((parts rest).1 :: (parts rest).2).getLast? = some last)
      : ∃ front d, isLineBreak d = true ∧ c :: rest = front ++ d :: last := by
    cases others : (parts rest).2 with
    | nil =>
        rw [others] at ends
        obtain ⟨-, whole⟩ := isUnbroken_of_parts others
        obtain rfl := Option.some.inj ends
        exact ⟨[], c, breaks, by rw [whole]; rfl⟩
    | cons next more =>
        obtain ⟨front, d, here, same⟩ := ih (by simpa [others] using ends)
        exact ⟨c :: front, d, here, by rw [same]; rfl⟩
  fun_induction parts text with
  | case1 => cases ends
  | case2 rest ih =>
      obtain ⟨front, d, here, same⟩ := behind (c := '\n') rfl ih ends
      exact ⟨'\r' :: front, d, here, by rw [same]; rfl⟩
  | case3 c rest _ breaks ih => exact behind breaks ih ends
  | case4 c rest _ _ ih =>
      obtain ⟨front, d, here, same⟩ := ih ends
      exact ⟨c :: front, d, here, by rw [same]; rfl⟩

/-- The last line is indented, by induction on the parts. -/
theorem exists_of_hangRest (indented : 0 < level) (ends : rest.getLast? = some last)
    : ∃ front, hangRest level rest = front ++ ' ' :: last := by
  induction rest with
  | nil => cases ends
  | cons part more ih =>
      cases more with
      | nil =>
          obtain rfl := Option.some.inj ends
          obtain ⟨count, same⟩ := Nat.exists_eq_add_of_lt (Nat.mul_pos Nat.two_pos indented)
          refine ⟨'\n' :: List.replicate count ' ', ?_⟩
          rw [hangRest, same, Nat.zero_add, List.replicate_succ']
          simp
      | cons next others =>
          obtain ⟨front, same⟩ := ih (by simpa using ends)
          refine ⟨'\n' :: (indentLine level part ++ front), ?_⟩
          rw [hangRest_cons_cons, same]
          simp

/-- A text stands within an indented one as it is if and only if it has no line break. -/
theorem hangChars_eq_self_iff (indented : 0 < level)
    : hangChars level text = text ↔ Statement.IsUnbroken text := by
  refine ⟨fun same => ?_, hangChars_of_isUnbroken⟩
  cases ends : (parts text).2.getLast? with
  | none => exact (isUnbroken_of_parts (List.getLast?_eq_none_iff.mp ends)).1
  | some last =>
      -- in front of its last line the text has a break, but within the indented one a space
      obtain ⟨front, c, breaks, whole⟩ := exists_break_of_parts ends
      obtain ⟨start, below⟩ := exists_of_hangRest indented ends
      rw [hangChars, below, ← List.append_assoc] at same
      obtain ⟨-, tails⟩ := List.append_inj' (same.trans whole) (by simp)
      obtain rfl := (List.cons.inj tails).1
      cases breaks

-----------------------------------------------------------------------------------------
-- Escaped texts
-----------------------------------------------------------------------------------------

section
variable {delimiters : Ruby.Delimiters}
variable (dark : ∀ c, isBlank c = true → delimiters.isEscaped c = false)
include dark

theorem all_isBlank_escape : (delimiters.escape text).all isBlank = text.all isBlank := by
  induction text with
  | nil => rfl
  | cons c rest ih =>
      rw [Ruby.Delimiters.escape_cons, List.all_append, ih, List.all_cons]
      cases escaped : delimiters.isEscaped c with
      | true =>
          have shown : isBlank c = false := by
            cases blank : isBlank c with
            | true =>
                rw [dark c blank] at escaped
                cases escaped
            | false => rfl
          simp [shown]
      | false => simp

theorem indentLine_escape
    : indentLine level (delimiters.escape text) = delimiters.escape (indentLine level text) := by
  have spaces : ∀ c ∈ List.replicate (2 * level) ' ', delimiters.isEscaped c = false :=
    fun c member => List.eq_of_mem_replicate member ▸ dark ' ' (by decide)
  unfold indentLine
  rw [all_isBlank_escape dark]
  split
  · rfl
  · rw [Ruby.Delimiters.escape_append, Ruby.Delimiters.escape_of_plain spaces]

/-- The parts of an escaped text are those of the text, escaped, by induction on the text. -/
theorem parts_escape
    : parts (delimiters.escape text)
      = (delimiters.escape (parts text).1, (parts text).2.map delimiters.escape) := by
  have blank {c : Char} (breaks : isLineBreak c = true) : isBlank c = true := by
    simp [isBlank, breaks]
  fun_induction parts text with
  | case1 => rfl
  | case2 rest ih =>
      rw [Ruby.Delimiters.escape_cons, Ruby.Delimiters.escape_cons, dark _ (blank rfl),
        dark _ (blank rfl)]
      show parts ('\r' :: '\n' :: delimiters.escape rest) = _
      rw [parts, ih]
      rfl
  | case3 c rest notPair breaks ih =>
      rw [Ruby.Delimiters.escape_cons, dark _ (blank breaks)]
      show parts (c :: delimiters.escape rest) = _
      rw [parts_of_break breaks, ih]
      · rfl
      · rintro rfl begins
        cases rest with
        | nil => cases begins
        | cons d more =>
            rw [Ruby.Delimiters.escape_cons] at begins
            split at begins
            · cases begins
            · obtain rfl := Option.some.inj begins
              exact notPair more rfl rfl
  | case4 c rest _ free ih =>
      have unbroken
          : Statement.IsUnbroken (if delimiters.isEscaped c then ['\\', c] else [c]) := by
        have here : isLineBreak c = false := Bool.eq_false_iff.mpr free
        split <;> simp [Statement.IsUnbroken, here]
        decide
      rw [Ruby.Delimiters.escape_cons, parts_append_left unbroken, ih,
        Ruby.Delimiters.escape_cons]

theorem hangRest_escape
    : hangRest level (rest.map delimiters.escape) = delimiters.escape (hangRest level rest) := by
  have spaces : ∀ c ∈ List.replicate (2 * level) ' ', delimiters.isEscaped c = false :=
    fun c member => List.eq_of_mem_replicate member ▸ dark ' ' (by decide)
  have feed (text : List Char)
      : delimiters.escape ('\n' :: text) = '\n' :: delimiters.escape text := by
    rw [Ruby.Delimiters.escape_cons, dark '\n' (by decide)]
    rfl
  induction rest with
  | nil => rfl
  | cons part more ih =>
      cases more with
      | nil =>
          show '\n' :: (List.replicate (2 * level) ' ' ++ delimiters.escape part) = _
          rw [hangRest, feed, Ruby.Delimiters.escape_append,
            Ruby.Delimiters.escape_of_plain spaces]
      | cons next others =>
          rw [List.map_cons, List.map_cons, hangRest_cons_cons, ← List.map_cons, ih,
            hangRest_cons_cons, feed, Ruby.Delimiters.escape_append, indentLine_escape dark]

/-- An escaped text stands within an indented one as the text does, escaped. -/
theorem hangChars_escape
    : hangChars level (delimiters.escape text) = delimiters.escape (hangChars level text) := by
  rw [hangChars, parts_escape dark, hangRest_escape dark, ← Ruby.Delimiters.escape_append]
  rfl

end

-----------------------------------------------------------------------------------------
-- Indented texts
-----------------------------------------------------------------------------------------

def EndsShown (first : List Char) (rest : List (List Char)) : Prop :=
  ∃ last, (first :: rest).getLast? = some last ∧ last.all isBlank = false

/-- The last part is not blank when what goes on in it is not, by induction on the parts. -/
theorem endsShown_attach (shown : second.all isBlank = false)
    : EndsShown (attach first rest (second, [])).1 (attach first rest (second, [])).2 := by
  induction rest generalizing first with
  | nil => exact ⟨first ++ second, rfl, by rw [List.all_append, shown, Bool.and_false]⟩
  | cons next more ih =>
      obtain ⟨last, ends, filled⟩ : EndsShown (attach next more (second, [])).1 _ := ih
      exact ⟨last, by simpa [attach] using ends, filled⟩

theorem indentLine_of_shown (shown : text.all isBlank = false)
    : indentLine level text = List.replicate (2 * level) ' ' ++ text := by
  rw [indentLine, if_neg (by simp [shown])]

/-- Parts behind the first, each on an indented line of its own. -/
def indentRest (level : Nat) (rest : List (List Char)) : List Char :=
  rest.flatMap fun part => '\n' :: indentLine level part

theorem hangRest_eq_indentRest (shown : EndsShown first rest)
    : hangRest level rest = indentRest level rest := by
  induction rest generalizing first with
  | nil => rfl
  | cons part more ih =>
      obtain ⟨last, ends, filled⟩ := shown
      rw [indentRest, List.flatMap_cons]
      cases more with
      | nil =>
          obtain rfl : part = last := Option.some.inj ends
          rw [indentLine_of_shown filled]
          simp [hangRest]
      | cons next others =>
          have below : EndsShown part (next :: others) := ⟨last, by simpa using ends, filled⟩
          rw [hangRest_cons_cons, ih below]
          rfl

/-- Lines one below the other are the first of them with the others behind line feeds. -/
theorem intercalate_feed (row : List Char) (rows : List (List Char))
    : List.intercalate ['\n'] (row :: rows) = row ++ rows.flatMap ('\n' :: ·) := by
  induction rows generalizing row with
  | nil => simp
  | cons next more ih => rw [List.intercalate_cons_cons, ih, List.flatMap_cons]; simp

/-- An indented text is told by its parts when something is behind its last break. -/
theorem indentChars_eq_parts (unbroken : Statement.IsUnbroken second) (filled : second ≠ [])
    : indentChars level (text ++ second)
      = indentLine level (parts (text ++ second)).1
        ++ indentRest level (parts (text ++ second)).2 := by
  have ends : (text ++ second).getLast? = some (second.getLast filled) := by
    rw [List.getLast?_append, List.getLast?_eq_some_getLast filled]
    rfl
  rw [indentChars, lines_eq_parts (unbroken _ (List.getLast_mem filled)) ends, List.map_cons,
    intercalate_feed, List.flatMap_map]
  rfl

/-- The last of some indented lines goes on when it is not blank, by induction on the lines. -/
theorem indentRest_attach (shown : EndsShown first rest)
    : indentLine level (attach first rest more).1 ++ indentRest level (attach first rest more).2
      = indentLine level first ++ indentRest level rest ++ more.1 ++ indentRest level more.2 := by
  induction rest generalizing first with
  | nil =>
      obtain ⟨last, ends, filled⟩ := shown
      obtain rfl : first = last := Option.some.inj ends
      have longer : (first ++ more.1).all isBlank = false := by
        rw [List.all_append, filled, Bool.false_and]
      rw [attach, indentLine_of_shown longer, indentLine_of_shown filled]
      simp [indentRest]
  | cons next others ih =>
      obtain ⟨last, ends, filled⟩ := shown
      have below := ih ⟨last, by simpa using ends, filled⟩
      rw [attach]
      simp only [indentRest, List.flatMap_cons, List.cons_append, List.append_assoc] at below ⊢
      rw [below]

/-- Behind a mark an indented text goes on as one that stands within it, up to another mark. -/
theorem indentChars_append_hangChars {mark tail : List Char} (markUnbroken : Statement.IsUnbroken mark)
    (markShown : mark.all isBlank = false) (tailUnbroken : Statement.IsUnbroken tail)
    (tailShown : tail.all isBlank = false)
    : indentChars level (text ++ mark ++ (second ++ tail))
      = indentChars level (text ++ mark) ++ hangChars level second ++ tail := by
  have filled {mark : List Char} (shown : mark.all isBlank = false) : mark ≠ [] := by
    rintro rfl
    cases shown
  have apart : (text ++ mark).getLast? = some '\r' → (second ++ tail).head? ≠ some '\n' := by
    intro carriage
    rw [List.getLast?_append, List.getLast?_eq_some_getLast (filled markShown)] at carriage
    have same := Option.some.inj carriage
    cases same ▸ markUnbroken _ (List.getLast_mem (filled markShown))
  have opened : EndsShown (parts (text ++ mark)).1 (parts (text ++ mark)).2 := by
    rw [parts_append_right markUnbroken]
    exact endsShown_attach markShown
  have ended : EndsShown (parts (second ++ tail)).1 (parts (second ++ tail)).2 := by
    rw [parts_append_right tailUnbroken]
    exact endsShown_attach tailShown
  rw [List.append_assoc _ (hangChars level second), ← hangChars_append_right tailUnbroken,
    ← List.append_assoc, indentChars_eq_parts tailUnbroken (filled tailShown), List.append_assoc,
    parts_append apart, indentRest_attach opened,
    indentChars_eq_parts markUnbroken (filled markShown), hangChars, hangRest_eq_indentRest ended]
  simp only [List.append_assoc]

-----------------------------------------------------------------------------------------
-- Texts on both sides of a mark
-----------------------------------------------------------------------------------------

variable {mark : List Char}

/-- The last line of a text goes on with a mark, and with a text behind that. By induction on the
parts.
-/
theorem hangRest_attach_mark (shown : mark.all isBlank = false)
    (part : List Char) (others : List (List Char)) (first : List Char) (more : List (List Char))
    : hangRest level
        ((attach part others (mark ++ first, more)).1
          :: (attach part others (mark ++ first, more)).2)
      = hangRest level (part :: others) ++ mark ++ (first ++ hangRest level more) := by
  induction others generalizing part with
  | nil =>
      have filled : (part ++ (mark ++ first)).all isBlank = false := by simp [shown]
      rw [attach]
      cases more with
      | nil => simp [hangRest]
      | cons next later =>
          rw [hangRest_cons_cons, indentLine_of_shown filled]
          simp [hangRest]
  | cons next later ih =>
      rw [attach, hangRest_cons_cons, ih, hangRest_cons_cons]
      simp

/-- Texts on both sides of a mark stand apart within an indented text. -/
theorem hangChars_append_mark (unbroken : Statement.IsUnbroken mark)
    (shown : mark.all isBlank = false)
    : hangChars level (text ++ mark ++ second)
      = hangChars level text ++ mark ++ hangChars level second := by
  have apart : text.getLast? = some '\r' → (mark ++ second).head? ≠ some '\n' := by
    intro _ begins
    cases mark with
    | nil => cases shown
    | cons c rest =>
        obtain rfl := Option.some.inj begins
        cases unbroken '\n' List.mem_cons_self
  rw [List.append_assoc, hangChars, parts_append apart, parts_append_left unbroken, hangChars,
    hangChars]
  cases (parts text).2 with
  | nil => simp [attach, hangRest]
  | cons part others =>
      rw [attach, hangRest_attach_mark shown]
      simp

/-- A text is indented as one that stands within an indented text, if its first line is empty and
its last is not blank.
-/
theorem indentChars_eq_hangChars {tail : List Char} (unbroken : Statement.IsUnbroken tail)
    (shown : tail.all isBlank = false)
    : indentChars level ('\n' :: text ++ tail) = hangChars level ('\n' :: text ++ tail) := by
  have filled : tail ≠ [] := by
    rintro rfl
    cases shown
  have ended : EndsShown (parts ('\n' :: text ++ tail)).1 (parts ('\n' :: text ++ tail)).2 := by
    rw [parts_append_right unbroken]
    exact endsShown_attach shown
  have first : (parts ('\n' :: text ++ tail)).1 = [] := by
    rw [List.cons_append, parts_of_break (by decide) fun same => absurd same (by decide)]
  rw [indentChars_eq_parts unbroken filled, hangChars, hangRest_eq_indentRest ended, first]
  rfl

/-- Strings on both sides of a mark stand apart within an indented one. -/
theorem hang_append_mark {mark : String} (unbroken : Statement.IsUnbroken mark.toList)
    (shown : mark.toList.all isBlank = false) (level : Nat) (text second : String)
    : hang level (text ++ mark ++ second) = hang level text ++ mark ++ hang level second := by
  rw [← String.toList_inj]
  simp only [hang, String.toList_ofList, String.toList_append]
  exact hangChars_append_mark unbroken shown

end Text

end RubySchema
