import RubySchema.Example.Query
import RubySchema.Proofs.Splitting

/-!
Reading texts of examples. A line shows a field by its name or a place that is cut off; how deep it
lies is told by the braces that are open in front of it. Indentation does not change what is read,
and neither does what stands in parentheses.
-/

namespace RubySchema

open Text

/-- What a line shows: a field, or a place that is cut off. -/
inductive Mark where
  | field (name : List Char)
  | cut
  deriving DecidableEq, Repr

namespace Reading

-----------------------------------------------------------------------------------------
-- What is read
-----------------------------------------------------------------------------------------

/-- Brackets, and the signs that may stand right behind a name or in front of a comment. -/
def signs : List Char := "()[]\x7b\x7d#:,".toList

def isNameChar (c : Char) : Bool :=
  !isBlank c && !signs.contains c

/-- What a line shows: it is the mark of a place that is cut off, or it begins with a name. -/
def mark? (line : List Char) : Option Mark :=
  let shown := line.dropWhile isBlank
  if shown = ellipsis.toList then some .cut
  else
    match shown.takeWhile isNameChar with
    | [] => none
    | name => some (.field name)

def depthAfter (braces : Nat) (line : List Char) : Nat :=
  braces + line.count '\x7b' - line.count '\x7d'

/-- What lines show, each with how many braces are open in front of it. -/
def marksOfLines (braces : Nat) : List (List Char) → List (Nat × Mark)
  | [] => []
  | line :: rest =>
      ((mark? line).map fun mark => (braces, mark)).toList
        ++ marksOfLines (depthAfter braces line) rest

def marks (text : List Char) : List (Nat × Mark) :=
  marksOfLines 0 (splitOn '\n' text)

/-- A text without what stands in parentheses, of which some are open in front of it. -/
def withoutParentheses (parens : Nat) : List Char → List Char
  | [] => []
  | c :: rest =>
      if c = '(' then withoutParentheses (parens + 1) rest
      else if c = ')' then withoutParentheses (parens - 1) rest
      else if 0 < parens then withoutParentheses parens rest
      else c :: withoutParentheses 0 rest

-----------------------------------------------------------------------------------------
-- Reading in one pass
-----------------------------------------------------------------------------------------

/-- What the rest of a text shows, when some parentheses and braces are open and the line so far has
shown some characters outside of parentheses.
-/
def read (parens braces : Nat) (line : List Char) : List Char → List (Nat × Mark)
  | [] => marksOfLines braces [line]
  | c :: rest =>
      if c = '(' then read (parens + 1) braces line rest
      else if c = ')' then read (parens - 1) braces line rest
      else if 0 < parens then read parens braces line rest
      else if c = '\n' then marksOfLines braces [line] ++ read 0 (depthAfter braces line) [] rest
      else read 0 braces (line ++ [c]) rest

theorem marksOfLines_cons (braces : Nat) (line : List Char) (rest : List (List Char))
    : marksOfLines braces (line :: rest)
      = marksOfLines braces [line] ++ marksOfLines (depthAfter braces line) rest := by
  simp [marksOfLines]

/-- One pass reads what the lines show outside of parentheses, by induction on the text. -/
theorem read_eq (parens braces : Nat) {line : List Char} (free : '\n' ∉ line) (text : List Char)
    : read parens braces line text
      = marksOfLines braces (splitOn '\n' (line ++ withoutParentheses parens text)) := by
  induction text generalizing parens braces line with
  | nil => rw [withoutParentheses, List.append_nil, splitOn_of_not_mem free, read]
  | cons c rest ih =>
      rw [read, withoutParentheses]
      split
      · exact ih _ _ free
      split
      · exact ih _ _ free
      split
      · exact ih _ _ free
      split
      case isTrue feed =>
        rw [feed, splitOn_append_of_not_mem free, ih _ _ List.not_mem_nil, List.nil_append]
        exact (marksOfLines_cons braces line _).symm
      case isFalse other =>
        have stillFree : '\n' ∉ line ++ [c] := by
          simp only [List.mem_append, List.mem_singleton, not_or]
          exact ⟨free, Ne.symm other⟩
        rw [ih _ _ stillFree, List.append_assoc, List.singleton_append]

theorem marks_withoutParentheses (text : List Char)
    : marks (withoutParentheses 0 text) = read 0 0 [] text :=
  (read_eq 0 0 List.not_mem_nil text).symm

-----------------------------------------------------------------------------------------
-- What does not matter to a reader
-----------------------------------------------------------------------------------------

variable {parens braces level : Nat} {line text first second : List Char}

/-- Neither is a parenthesis opened or closed, nor is the line ended. -/
def IsInLine (text : List Char) : Prop :=
  ∀ c ∈ text, c ≠ '(' ∧ c ≠ ')' ∧ c ≠ '\n'

instance : DecidablePred IsInLine :=
  fun text => List.decidableBAll _ text

/-- Characters of a line are added to the line outside of parentheses, and passed over inside. -/
theorem read_append (inLine : IsInLine text) (rest : List Char)
    : read parens braces line (text ++ rest)
      = read parens braces (if 0 < parens then line else line ++ text) rest := by
  induction text generalizing line with
  | nil => simp
  | cons c more ih =>
      obtain ⟨notOpen, notClose, notFeed⟩ := inLine c List.mem_cons_self
      have later := fun line => @ih line fun other member =>
        inLine other (List.mem_cons_of_mem c member)
      rw [List.cons_append, read, if_neg notOpen, if_neg notClose]
      by_cases inside : 0 < parens
      · rw [if_pos inside, later, if_pos inside, if_pos inside]
      · have none : parens = 0 := by omega
        subst none
        simp [notFeed, later]

theorem mark?_append_blank {blanks : List Char} (blank : ∀ c ∈ blanks, isBlank c = true)
    : mark? (blanks ++ line) = mark? line := by
  unfold mark?
  rw [List.dropWhile_append_of_pos blank]

theorem depthAfter_append_blank {blanks : List Char} (blank : ∀ c ∈ blanks, isBlank c = true)
    : depthAfter braces (blanks ++ line) = depthAfter braces line := by
  have none (brace : Char) (notBlank : isBlank brace = false) : blanks.count brace = 0 := by
    rw [List.count_eq_zero]
    intro member
    rw [blank brace member] at notBlank
    cases notBlank
  unfold depthAfter
  rw [List.count_append, List.count_append, none _ (by decide), none _ (by decide)]
  omega

/-- Blanks at the beginning of a line do not matter, by induction on what follows. -/
theorem read_append_blank {blanks : List Char} (blank : ∀ c ∈ blanks, isBlank c = true)
    : read parens braces (blanks ++ line) text = read parens braces line text := by
  have marks (line : List Char)
      : marksOfLines braces [blanks ++ line] = marksOfLines braces [line] := by
    simp [marksOfLines, mark?_append_blank blank]
  induction text generalizing parens line with
  | nil => exact marks line
  | cons c rest ih =>
      unfold read
      rw [marks, depthAfter_append_blank blank, List.append_assoc, ih, ih, ih, ih]

/-- A line feed at the very end does not matter, by induction on what stands in front of it. -/
theorem read_append_feed
    : read parens braces line (text ++ ['\n']) = read parens braces line text := by
  induction text generalizing parens braces line with
  | nil =>
      by_cases inside : 0 < parens
      · simp [read, inside]
      · simp [read, inside, marksOfLines, mark?, ellipsis]
  | cons c rest ih =>
      rw [List.cons_append]
      unfold read
      rw [ih, ih, ih, ih, ih]

/-- Texts that read alike at the beginning of a line, and inside parentheses. -/
def AlikeAtStart (first second : List Char) : Prop :=
  ∀ parens braces line,
    0 < parens ∨ line = [] → read parens braces line first = read parens braces line second

/-- Behind a line feed texts read alike when they do at the beginning of a line, by induction on
what stands in front of the line feed.
-/
theorem AlikeAtStart.append_feed (alike : AlikeAtStart first second) (text : List Char)
    : read parens braces line (text ++ '\n' :: first)
      = read parens braces line (text ++ '\n' :: second) := by
  induction text generalizing parens braces line with
  | nil =>
      by_cases inside : 0 < parens
      · simp [read, inside, alike parens braces line (.inl inside)]
      · simp [read, inside, alike 0 (depthAfter braces line) [] (.inr rfl)]
  | cons c rest ih =>
      rw [List.cons_append, List.cons_append]
      unfold read
      rw [ih, ih, ih, ih, ih]

/-- An empty line does not matter. -/
theorem alikeAtStart_feed (text : List Char) : AlikeAtStart ('\n' :: text) text := by
  intro parens braces line start
  by_cases inside : 0 < parens
  · simp [read, inside]
  · obtain rfl := start.resolve_left inside
    have none : parens = 0 := by omega
    subst none
    simp [read, marksOfLines, mark?, ellipsis, depthAfter]

/-- A line may be indented, and emptied if it is blank. -/
theorem alikeAtStart_indentLine (free : '\n' ∉ line) (rest : List Char)
    : AlikeAtStart (indentLine level line ++ '\n' :: rest) (line ++ '\n' :: rest) := by
  have spaces
      : ∀ c ∈ List.replicate (2 * level) ' ',
          isBlank c = true ∧ c ≠ '(' ∧ c ≠ ')' ∧ c ≠ '\n' := by
    intro c member
    rw [List.eq_of_mem_replicate member]
    decide
  intro parens braces shown start
  unfold indentLine
  split
  case isTrue blank =>
    have inLine : IsInLine line := by
      intro c member
      have isBlank := List.all_eq_true.mp blank c member
      refine ⟨?_, ?_, fun feed => free (feed ▸ member)⟩
      · rintro rfl
        cases isBlank
      · rintro rfl
        cases isBlank
    rw [read_append inLine, List.nil_append]
    split
    · rfl
    case isFalse outside =>
      obtain rfl := start.resolve_left outside
      have unblanked := @read_append_blank parens braces [] ('\n' :: rest) line
        (List.all_eq_true.mp blank)
      rw [List.append_nil] at unblanked
      rw [List.nil_append, unblanked]
  case isFalse =>
    rw [List.append_assoc, read_append fun c member => (spaces c member).2]
    split
    · rfl
    case isFalse outside =>
      obtain rfl := start.resolve_left outside
      have unblanked := @read_append_blank parens braces [] (line ++ '\n' :: rest)
        (List.replicate (2 * level) ' ') fun c member => (spaces c member).1
      rw [List.append_nil] at unblanked
      rw [List.nil_append, unblanked]

-----------------------------------------------------------------------------------------
-- Indentation
-----------------------------------------------------------------------------------------

/-- No line is broken but by a line feed. -/
def BreaksByFeeds (text : List Char) : Prop :=
  ∀ c ∈ text, isLineBreak c = true → c = '\n'

instance : DecidablePred BreaksByFeeds :=
  fun text => List.decidableBAll (fun c => isLineBreak c = true → c = '\n') text

theorem BreaksByFeeds.append {first second : List Char} (here : BreaksByFeeds first)
    (there : BreaksByFeeds second) : BreaksByFeeds (first ++ second) :=
  List.forall_mem_append.mpr ⟨here, there⟩

def ended (lines : List (List Char)) : List Char :=
  lines.flatMap fun line => line ++ ['\n']

/-- A line consists of characters of the text that do not break it, by induction on the text. -/
theorem mem_of_mem_lines {c : Char} (member : line ∈ lines text) (within : c ∈ line)
    : c ∈ text ∧ isLineBreak c = false := by
  fun_induction lines text generalizing line with
  | case1 => cases member
  | case2 rest ih =>
      rcases List.mem_cons.mp member with rfl | member
      · cases within
      · obtain ⟨among, unbroken⟩ := ih member within
        exact ⟨List.mem_cons_of_mem _ (List.mem_cons_of_mem _ among), unbroken⟩
  | case3 d rest _ _ ih =>
      rcases List.mem_cons.mp member with rfl | member
      · cases within
      · obtain ⟨among, unbroken⟩ := ih member within
        exact ⟨List.mem_cons_of_mem d among, unbroken⟩
  | case4 d rest _ unbroken _ _ =>
      obtain rfl := List.mem_singleton.mp member
      obtain rfl := List.mem_singleton.mp within
      exact ⟨List.mem_cons_self, Bool.eq_false_iff.mpr unbroken⟩
  | case5 d rest _ unbroken first more found ih =>
      rw [found] at ih
      rcases List.mem_cons.mp member with rfl | member
      · rcases List.mem_cons.mp within with rfl | within
        · exact ⟨List.mem_cons_self, Bool.eq_false_iff.mpr unbroken⟩
        · obtain ⟨among, unbroken⟩ := ih List.mem_cons_self within
          exact ⟨List.mem_cons_of_mem d among, unbroken⟩
      · obtain ⟨among, unbroken⟩ := ih (List.mem_cons_of_mem first member) within
        exact ⟨List.mem_cons_of_mem d among, unbroken⟩

/-- A text without lines is empty. -/
theorem eq_nil_of_lines (none : lines text = []) : text = [] := by
  fun_induction lines text with
  | case1 => rfl
  | case2 | case3 | case4 | case5 => cases none

/-- A text with a line feed behind it is its lines, each with its line feed, and an empty line if it
ended in a line feed itself. By induction on the text.
-/
theorem exists_ended (feeds : BreaksByFeeds text)
    : ∃ extra,
        text ++ ['\n'] = ended (lines text) ++ extra ∧ (extra = [] ∨ extra = ['\n']) := by
  fun_induction lines text with
  | case1 => exact ⟨['\n'], rfl, .inr rfl⟩
  | case2 rest ih => cases feeds '\r' List.mem_cons_self (by decide)
  | case3 c rest _ breaks ih =>
      obtain rfl := feeds c List.mem_cons_self breaks
      obtain ⟨extra, same, form⟩ := ih fun c member => feeds c (List.mem_cons_of_mem _ member)
      exact ⟨extra, congrArg ('\n' :: ·) same, form⟩
  | case4 c rest _ _ none ih =>
      obtain ⟨extra, same, form⟩ := ih fun d member => feeds d (List.mem_cons_of_mem c member)
      exact ⟨[], by simp [eq_nil_of_lines none, ended], .inl rfl⟩
  | case5 c rest _ _ line more found ih =>
      obtain ⟨extra, same, form⟩ := ih fun d member => feeds d (List.mem_cons_of_mem c member)
      rw [found] at same
      exact ⟨extra, congrArg (c :: ·) same, form⟩

theorem intercalate_append_feed {lines : List (List Char)} (filled : lines ≠ [])
    : List.intercalate ['\n'] lines ++ ['\n'] = ended lines := by
  induction lines with
  | nil => exact absurd rfl filled
  | cons line rest ih =>
      cases rest with
      | nil => simp [ended]
      | cons next more =>
          have later := ih (List.cons_ne_nil next more)
          rw [List.intercalate_cons_cons, List.append_assoc, later]
          simp [ended]

/-- An indented text consists of characters of the text, spaces and line feeds. -/
theorem mem_indentChars {c : Char} (member : c ∈ indentChars level text)
    : c ∈ text ∨ c = ' ' ∨ c = '\n' := by
  unfold indentChars at member
  by_cases filled : (lines text).map (indentLine level) = []
  · rw [filled] at member
    cases member
  have among : c ∈ ended ((lines text).map (indentLine level)) := by
    rw [← intercalate_append_feed filled]
    exact List.mem_append_left _ member
  obtain ⟨indented, inLines, within⟩ := List.mem_flatMap.mp among
  obtain ⟨line, isLine, rfl⟩ := List.mem_map.mp inLines
  rcases List.mem_append.mp within with within | feed
  · unfold indentLine at within
    split at within
    · cases within
    · rcases List.mem_append.mp within with space | within
      · exact .inr (.inl (List.eq_of_mem_replicate space))
      · exact .inl (mem_of_mem_lines isLine within).1
  · exact .inr (.inr (List.mem_singleton.mp feed))

/-- Texts that read alike at the beginning of a line do so behind lines. -/
theorem AlikeAtStart.append_ended (alike : AlikeAtStart first second) (lines : List (List Char))
    : AlikeAtStart (ended lines ++ first) (ended lines ++ second) := by
  induction lines with
  | nil => exact alike
  | cons line rest ih =>
      intro parens braces shown _
      have behind := @append_feed parens braces shown _ _ ih line
      simpa [ended] using behind

/-- Lines may be indented, by induction on the lines. -/
theorem alikeAtStart_ended {lines : List (List Char)} (free : ∀ line ∈ lines, '\n' ∉ line)
    (rest : List Char)
    : AlikeAtStart (ended (lines.map (indentLine level)) ++ rest) (ended lines ++ rest) := by
  induction lines with
  | nil => exact fun _ _ _ _ => rfl
  | cons line more ih =>
      have later := ih fun other member => free other (List.mem_cons_of_mem line member)
      have here := @alikeAtStart_indentLine level line (free line List.mem_cons_self)
        (ended (more.map (indentLine level)) ++ rest)
      intro parens braces shown start
      have behind := @AlikeAtStart.append_feed parens braces shown _ _ later line
      have moved := here parens braces shown start
      simpa [ended] using moved.trans behind

/-- A text may be indented at the beginning of a line. -/
theorem alikeAtStart_indentChars (feeds : BreaksByFeeds text) (rest : List Char)
    : AlikeAtStart (indentChars level text ++ '\n' :: rest) (text ++ '\n' :: rest) := by
  obtain ⟨extra, same, form⟩ := exists_ended feeds
  have textSame : text ++ '\n' :: rest = ended (lines text) ++ (extra ++ rest) := by
    rw [← List.append_assoc, ← same]
    simp
  by_cases none : lines text = []
  · rw [eq_nil_of_lines none]
    exact fun _ _ _ _ => rfl
  have filled : (lines text).map (indentLine level) ≠ [] := by simpa using none
  have indentedSame
      : indentChars level text ++ '\n' :: rest
        = ended ((lines text).map (indentLine level)) ++ rest := by
    rw [← intercalate_append_feed filled]
    simp [indentChars]
  have free : ∀ line ∈ lines text, '\n' ∉ line := by
    intro line member feed
    cases (mem_of_mem_lines member feed).2
  have extraSame : AlikeAtStart rest (extra ++ rest) := by
    rcases form with rfl | rfl
    · exact fun _ _ _ _ => rfl
    · exact fun parens braces line start => (alikeAtStart_feed rest parens braces line start).symm
  rw [indentedSame, textSame]
  intro parens braces line start
  exact (alikeAtStart_ended free rest parens braces line start).trans
    (extraSame.append_ended (lines text) parens braces line start)

/-- A text that is empty or begins with an empty line may be indented anywhere. -/
theorem read_indentChars (feeds : BreaksByFeeds text)
    (opens : text = [] ∨ ∃ more, text = '\n' :: more ∧ more ≠ []) (rest : List Char)
    : read parens braces line (indentChars level text ++ '\n' :: rest)
      = read parens braces line (text ++ '\n' :: rest) := by
  rcases opens with rfl | ⟨more, rfl, filled⟩
  · rfl
  have later := @alikeAtStart_indentChars level more
    (fun c member => feeds c (List.mem_cons_of_mem _ member)) rest
  have opened : indentChars level ('\n' :: more) = '\n' :: indentChars level more := by
    have lined : lines ('\n' :: more) = [] :: lines more := by
      simp [lines, isLineBreak]
    cases below : lines more with
    | nil => exact absurd (eq_nil_of_lines below) filled
    | cons first rest => simp [indentChars, lined, below, indentLine]
  rw [opened]
  exact later.append_feed []

end Reading

end RubySchema
