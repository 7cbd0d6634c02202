import RubySchema.Document
import RubySchema.Proofs.Example.Reading
import RubySchema.Text.Affix

/-!
Reading documents. A line of a document may declare a field or an argument, describe a parameter,
define a method, or begin the examples of a field; its indentation and its first word tell. Main
statement: an indented text states what its lines state, and a line that goes on behind a line feed
states nothing there.
-/

namespace RubySchema

open Text

inductive Statement where
  | field (name : String)
  | argument (name : String)
  | parameter (name : String)
  | method (name : String) (keywords : List String)
  | examples (name : String)
  deriving DecidableEq, Repr

namespace Statement

-----------------------------------------------------------------------------------------
-- What is read
-----------------------------------------------------------------------------------------

def nameBefore (stop : Char) (text : List Char) : String :=
  String.ofList (text.takeWhile fun c => c != stop)

/-- The keywords in the first parentheses of a text, each with a colon behind it. -/
def keywords (text : List Char) : List String :=
  let inner := ((text.dropWhile fun c => c != '(').drop 1).takeWhile fun c => c != ')'
  (splitOn ':' inner).dropLast.map fun part =>
    String.ofList (part.dropWhile fun c => c == ',' || c == ' ')

/-- How lines of a kind begin, and what they state by the text behind their beginning. -/
structure Form where
  indentation : Nat
  opening : List Char
  read : List Char → Statement

def forms : List Form :=
  [
    ⟨2, "field :".toList, fun rest => .field (nameBefore ',' rest)⟩,
    ⟨4, "argument :".toList, fun rest => .argument (nameBefore ',' rest)⟩,
    ⟨2, "# @param ".toList, fun rest => .parameter (nameBefore ' ' rest)⟩,
    ⟨4, "# @param ".toList, fun rest => .parameter (nameBefore ' ' rest)⟩,
    ⟨2, "def ".toList, fun rest => .method (nameBefore '(' rest) (keywords rest)⟩,
    ⟨4, "describe '".toList, fun rest => .examples (nameBefore '\x27' rest)⟩
  ]

def ofContent? (indentation : Nat) (content : List Char) : Option Statement :=
  forms.findSome? fun form =>
    if form.indentation = indentation then (afterStart? form.opening content).map form.read
    else none

def ofLine? (line : List Char) : Option Statement :=
  ofContent? (line.takeWhile (· == ' ')).length (line.dropWhile (· == ' '))

def ofText (text : List Char) : List Statement :=
  (splitOn '\n' text).filterMap ofLine?

def within (level : Nat) (text : List Char) : List Statement :=
  (lines text).filterMap fun line => ofLine? (indentLine level line)

-----------------------------------------------------------------------------------------
-- Lines
-----------------------------------------------------------------------------------------

variable {level count indentation : Nat} {line text rest content : List Char}

theorem ofLine?_replicate (starts : content.head? ≠ some ' ')
    : ofLine? (List.replicate count ' ' ++ content) = ofContent? count content := by
  have spaces : ∀ c ∈ List.replicate count ' ', (c == ' ') = true := by
    intro c member
    rw [List.eq_of_mem_replicate member]
    rfl
  unfold ofLine?
  rw [List.takeWhile_append_of_pos spaces, List.dropWhile_append_of_pos spaces]
  cases content with
  | nil => simp
  | cons c more =>
      have other : (c == ' ') = false := by simpa using starts
      simp [other]

/-- A content that begins like no statement states nothing. -/
theorem ofContent?_eq_none {c : Char} (other : c ∉ ['f', 'a', '#', 'd'])
    : ofContent? indentation (c :: rest) = none := by
  simp only [List.mem_cons, List.not_mem_nil, or_false, not_or] at other
  obtain ⟨notF, notA, notSign, notD⟩ := other
  simp [ofContent?, forms, afterStart?, Ne.symm notF, Ne.symm notA, Ne.symm notSign,
    Ne.symm notD]

/-- A line that is indented further than any statement states nothing. -/
theorem ofContent?_of_deep (deep : 4 < indentation) : ofContent? indentation content = none := by
  have notTwo : 2 ≠ indentation := by omega
  have notFour : 4 ≠ indentation := by omega
  simp [ofContent?, forms, notTwo, notFour]

theorem ofLine?_of_blank (blank : line.all isBlank = true) : ofLine? line = none := by
  unfold ofLine?
  cases shown : line.dropWhile (· == ' ') with
  | nil => simp [ofContent?, forms, afterStart?]
  | cons c more =>
      have member : c ∈ line := by
        apply List.dropWhile_subset (· == ' ')
        rw [shown]
        exact List.mem_cons_self
      have isBlank := List.all_eq_true.mp blank c member
      apply ofContent?_eq_none
      intro among
      have none : ['f', 'a', '#', 'd'].all (!Text.isBlank ·) = true := by decide
      have other := List.all_eq_true.mp none c among
      simp [isBlank] at other

@[simp]
theorem ofLine?_nil : ofLine? [] = none :=
  ofLine?_of_blank rfl

/-- Whether a blank line is emptied does not matter. -/
theorem ofLine?_indentLine
    : ofLine? (indentLine level line) = ofLine? (List.replicate (2 * level) ' ' ++ line) := by
  unfold indentLine
  split
  case isTrue blank =>
    rw [ofLine?_of_blank rfl, ofLine?_of_blank]
    rw [List.all_append, blank, Bool.and_true, List.all_replicate]
    simp [isBlank]
  case isFalse => rfl

/-- Texts on lines of their own state what each of them states. -/
theorem ofText_append_feed (first second : List Char)
    : ofText (first ++ '\n' :: second) = ofText first ++ ofText second := by
  unfold ofText
  rw [splitOn_append, List.filterMap_append]

/-- Texts one below the other state what each of them states, by induction on the texts. -/
theorem ofText_intercalate (texts : List (List Char))
    : ofText (List.intercalate ['\n'] texts) = texts.flatMap ofText := by
  induction texts with
  | nil => simp [ofText, splitOn]
  | cons text rest ih =>
      cases rest with
      | nil => simp
      | cons next more =>
          rw [List.intercalate_cons_cons, List.append_assoc, List.singleton_append,
            ofText_append_feed, ih]
          rfl

/-- An indented text states what its lines state. -/
theorem ofText_indentChars (level : Nat) (text : List Char)
    : ofText (indentChars level text) = within level text := by
  have each
      : ∀ line ∈ lines text,
          ofText (indentLine level line) = (ofLine? (indentLine level line)).toList := by
    intro line member
    have free : '\n' ∉ indentLine level line := by
      unfold indentLine
      split
      · exact List.not_mem_nil
      · intro feed
        rcases List.mem_append.mp feed with feed | feed
        · cases List.eq_of_mem_replicate feed
        · cases (Reading.mem_of_mem_lines member feed).2
    unfold ofText
    rw [splitOn_of_not_mem free]
    cases found : ofLine? (indentLine level line) <;> simp [found]
  unfold indentChars within
  rw [ofText_intercalate, List.flatMap_map]
  generalize lines text = lines at each
  induction lines with
  | nil => rfl
  | cons line more ih =>
      rw [List.flatMap_cons, each line List.mem_cons_self,
        ih fun other member => each other (List.mem_cons_of_mem line member), List.filterMap_cons]
      cases ofLine? (indentLine level line) <;> rfl

-----------------------------------------------------------------------------------------
-- Texts joined to others
-----------------------------------------------------------------------------------------

/-- The lines of a text behind a line feed come behind those of the text in front of it, and behind
an empty line if that text is empty or ends in a line break. By induction on the text in front.
-/
theorem lines_append_feed (first : List Char)
    : ∃ extra,
        (extra = [] ∨ extra = [[]] ∧ ∀ c ∈ first.getLast?, isLineBreak c = true)
        ∧ ∀ second, lines (first ++ '\n' :: second) = lines first ++ extra ++ lines second := by
  have empty : ∀ c ∈ ([] : List Char).getLast?, isLineBreak c = true := by
    intro c member
    cases member
  have longer {c : Char} {rest : List Char} (breaks : isLineBreak c = true)
      (ends : ∀ d ∈ rest.getLast?, isLineBreak d = true)
      : ∀ d ∈ (c :: rest).getLast?, isLineBreak d = true := by
    intro d member
    rw [List.getLast?_cons] at member
    obtain rfl := Option.some.inj member
    cases last : rest.getLast? with
    | none => exact breaks
    | some d => exact ends d last
  fun_induction lines first with
  | case1 => exact ⟨[[]], .inr ⟨rfl, empty⟩, fun second => by simp [lines, isLineBreak]⟩
  | case2 rest ih =>
      obtain ⟨extra, form, same⟩ := ih
      have ended (ends : ∀ c ∈ rest.getLast?, isLineBreak c = true)
          : ∀ c ∈ ('\r' :: '\n' :: rest).getLast?, isLineBreak c = true :=
        longer (by decide) (longer (by decide) ends)
      exact ⟨extra, form.imp_right (And.imp_right ended), fun second =>
        congrArg ([] :: ·) (same second)⟩
  | case3 c rest notPair breaks ih =>
      cases rest with
      | nil =>
          by_cases isReturn : c = '\r'
          · subst isReturn
            exact ⟨[], .inl rfl, fun second => rfl⟩
          · have whole (second : List Char)
                : lines (c :: '\n' :: second) = [] :: lines ('\n' :: second) := by
              rw [lines, if_pos breaks]
              exact fun _ same => absurd same isReturn
            refine ⟨[[]], .inr ⟨rfl, longer breaks empty⟩, fun second => ?_⟩
            simp [whole, lines, isLineBreak]
      | cons d more =>
          obtain ⟨extra, form, same⟩ := ih
          refine ⟨extra, form.imp_right (And.imp_right (longer breaks)), ?_⟩
          intro second
          rw [List.cons_append, lines, if_pos breaks, same]
          · rfl
          · intro other isReturn begins
            cases begins
            exact notPair more isReturn rfl
  | case4 c rest notPair unbroken none ih =>
      obtain rfl := Reading.eq_nil_of_lines none
      refine ⟨[], .inl rfl, fun second => ?_⟩
      rw [List.cons_append, lines, if_neg unbroken]
      · simp [lines, isLineBreak]
      · rintro other rfl
        exact absurd (by decide) unbroken
  | case5 c rest notPair unbroken line more found ih =>
      obtain ⟨extra, form, same⟩ := ih
      -- A text with lines is not empty, so another character in front of it does not end it.
      have last : (c :: rest).getLast? = rest.getLast? := by
        cases rest with
        | nil => cases found
        | cons d others => rfl
      refine ⟨extra, last ▸ form, fun second => ?_⟩
      rw [List.cons_append, lines, if_neg unbroken, same, found]
      · rfl
      · rintro other rfl
        exact absurd (by decide) unbroken

theorem within_append_feed (first second : List Char)
    : within level (first ++ '\n' :: second) = within level first ++ within level second := by
  obtain ⟨extra, form, same⟩ := lines_append_feed first
  unfold within
  rw [same]
  rcases form with rfl | ⟨rfl, -⟩ <;> simp [indentLine]

theorem within_feed (text : List Char) : within level ('\n' :: text) = within level text :=
  within_append_feed [] text

/-- Texts that each end in a line feed state what each of them states, by induction on the texts. -/
theorem within_flatMap_feed (texts : List String) (rest : List Char)
    : within level ((texts.flatMap fun text => text.toList ++ ['\n']) ++ rest)
      = (texts.flatMap fun text => within level text.toList) ++ within level rest := by
  induction texts with
  | nil => rfl
  | cons text more ih =>
      rw [List.flatMap_cons, List.append_assoc, List.append_assoc, List.singleton_append,
        within_append_feed, ih, List.flatMap_cons, List.append_assoc]

/-- No line is broken. -/
def IsUnbroken (text : List Char) : Prop :=
  ∀ c ∈ text, isLineBreak c = false

instance : DecidablePred IsUnbroken :=
  fun text => List.decidableBAll (fun c => isLineBreak c = false) text

theorem IsUnbroken.append {first second : List Char} (here : IsUnbroken first)
    (there : IsUnbroken second) : IsUnbroken (first ++ second) :=
  List.forall_mem_append.mpr ⟨here, there⟩

/-- No line of a text is broken, and none is when it is indented. -/
theorem isUnbroken_indentLine (isLine : line ∈ lines text)
    : IsUnbroken (indentLine level line) := by
  intro c within
  unfold indentLine at within
  split at within
  · cases within
  · rcases List.mem_append.mp within with space | within
    · rw [List.eq_of_mem_replicate space]
      rfl
    · exact (Reading.mem_of_mem_lines isLine within).2

theorem lines_of_unbroken (unbroken : IsUnbroken line)
    : lines line = if line = [] then [] else [line] := by
  induction line with
  | nil => rfl
  | cons c more ih =>
      obtain ⟨here, later⟩ := List.forall_mem_cons.mp unbroken
      rw [lines, ih later, here]
      · cases more <;> rfl
      · rintro other rfl
        cases here

theorem within_of_unbroken (unbroken : IsUnbroken line)
    : within level line = (ofLine? (indentLine level line)).toList := by
  unfold within
  rw [lines_of_unbroken unbroken]
  split
  case isTrue empty =>
    subst empty
    simp [indentLine]
  case isFalse =>
    cases found : ofLine? (indentLine level line) <;> simp [found]

/-- Characters that do not break a line make its last line longer, by induction on the text. -/
theorem exists_lines_append (text : List Char)
    : ∃ before last,
        ∀ tail, tail ≠ [] → IsUnbroken tail → lines (text ++ tail) = before ++ [last ++ tail] := by
  fun_induction lines text with
  | case1 =>
      refine ⟨[], [], fun tail filled unbroken => ?_⟩
      rw [List.nil_append, lines_of_unbroken unbroken, if_neg filled]
      rfl
  | case2 rest ih =>
      obtain ⟨before, last, same⟩ := ih
      exact ⟨[] :: before, last, fun tail filled unbroken =>
        congrArg ([] :: ·) (same tail filled unbroken)⟩
  | case3 c rest notPair breaks ih =>
      obtain ⟨before, last, same⟩ := ih
      refine ⟨[] :: before, last, fun tail filled unbroken => ?_⟩
      rw [List.cons_append, lines, if_pos breaks, same tail filled unbroken]
      · rfl
      · intro other isReturn begins
        cases rest with
        | nil =>
            rw [List.nil_append] at begins
            cases unbroken '\n' (begins ▸ List.mem_cons_self)
        | cons d more =>
            cases begins
            exact notPair more isReturn rfl
  | case4 c rest notPair unbroken none ih =>
      obtain rfl := Reading.eq_nil_of_lines none
      refine ⟨[], [c], fun tail filled unbrokenTail => ?_⟩
      rw [List.cons_append, List.nil_append, lines_of_unbroken, if_neg (List.cons_ne_nil _ _)]
      · rfl
      · exact List.forall_mem_cons.mpr ⟨Bool.eq_false_iff.mpr unbroken, unbrokenTail⟩
  | case5 c rest notPair unbroken line more found ih =>
      obtain ⟨before, last, same⟩ := ih
      cases before with
      | nil =>
          refine ⟨[], c :: last, fun tail filled unbrokenTail => ?_⟩
          rw [List.cons_append, lines, if_neg unbroken, same tail filled unbrokenTail]
          · rfl
          · rintro other rfl
            exact absurd (by decide) unbroken
      | cons above before =>
          refine ⟨(c :: above) :: before, last, fun tail filled unbrokenTail => ?_⟩
          rw [List.cons_append, lines, if_neg unbroken, same tail filled unbrokenTail]
          · rfl
          · rintro other rfl
            exact absurd (by decide) unbroken

/-- What goes on in the last line of a text may be indented with it. -/
theorem indentChars_append {mark tail : List Char} (markUnbroken : IsUnbroken mark)
    (shown : mark.all isBlank = false) (unbroken : IsUnbroken tail)
    : indentChars level (text ++ mark) ++ tail = indentChars level (text ++ mark ++ tail) := by
  have filled : mark ≠ [] := by
    rintro rfl
    cases shown
  obtain ⟨before, last, same⟩ := exists_lines_append text
  have longer : mark ++ tail ≠ [] := by simp [filled]
  have indented (tail : List Char)
      : indentLine level (last ++ mark ++ tail)
        = List.replicate (2 * level) ' ' ++ (last ++ mark ++ tail) := by
    unfold indentLine
    rw [if_neg]
    simp [List.all_append, shown]
  have joined (above : List (List Char)) (line : List Char)
      : List.intercalate ['\n'] (above ++ [line]) ++ tail
        = List.intercalate ['\n'] (above ++ [line ++ tail]) := by
    induction above with
    | nil => simp
    | cons first rest ih =>
        cases rest with
        | nil => simp
        | cons next more =>
            simp only [List.cons_append, List.intercalate_cons_cons, List.append_assoc] at ih ⊢
            rw [ih]
  unfold indentChars
  have short := indented []
  rw [List.append_nil] at short
  rw [List.append_assoc, same _ longer (markUnbroken.append unbroken),
    same mark filled markUnbroken, List.map_append, List.map_append, List.map_singleton,
    List.map_singleton, joined, ← List.append_assoc, indented, short]
  simp only [List.append_assoc]

-----------------------------------------------------------------------------------------
-- Lines that go on
-----------------------------------------------------------------------------------------

/-- Every line break in a text is a line feed, and the line behind it begins with a colon. -/
def isContinued : List Char → Bool
  | [] => true
  | c :: rest =>
      (!isLineBreak c || (c == '\n' && (rest.dropWhile (· == ' ')).head? == some ':'))
        && isContinued rest

theorem isContinued_of_unbroken (unbroken : IsUnbroken text) : isContinued text = true := by
  induction text with
  | nil => rfl
  | cons c rest ih =>
      obtain ⟨here, later⟩ := List.forall_mem_cons.mp unbroken
      rw [isContinued, here, ih later]
      rfl

theorem isContinued_append {first second : List Char} (here : isContinued first = true)
    (there : isContinued second = true) : isContinued (first ++ second) = true := by
  induction first with
  | nil => exact there
  | cons c rest ih =>
      simp only [isContinued, Bool.and_eq_true, Bool.or_eq_true, beq_iff_eq] at here
      obtain ⟨breaks, later⟩ := here
      simp only [List.cons_append, isContinued, Bool.and_eq_true, Bool.or_eq_true, beq_iff_eq]
      refine ⟨breaks.imp_right fun ⟨feed, colon⟩ => ⟨feed, ?_⟩, ih later⟩
      rw [List.dropWhile_append]
      cases behind : rest.dropWhile (· == ' ') with
      | nil =>
          rw [behind] at colon
          cases colon
      | cons d more =>
          rw [behind] at colon
          exact colon

theorem isContinued_drop (count : Nat) (continued : isContinued text = true)
    : isContinued (text.drop count) = true := by
  induction count generalizing text with
  | zero => exact continued
  | succ count ih =>
      cases text with
      | nil => rfl
      | cons c rest => exact ih (Bool.and_eq_true_iff.mp continued).2

def ofFirstLine? (level : Nat) (text : List Char) : Option Statement :=
  ofLine? (indentLine level (text.takeWhile (· != '\n')))

theorem ofFirstLine?_of_colon (colon : (text.dropWhile (· == ' ')).head? = some ':')
    : ofFirstLine? level text = none := by
  have content
      : ∃ count more,
          text.takeWhile (· != '\n') = List.replicate count ' ' ++ ':' :: more := by
    induction text with
    | nil => cases colon
    | cons c rest ih =>
        by_cases space : c = ' '
        · subst space
          obtain ⟨count, more, same⟩ := ih colon
          exact ⟨count + 1, more, by simp [same, List.replicate_succ]⟩
        · have isColon : c = ':' := by simpa [List.dropWhile_cons, space] using colon
          subst isColon
          exact ⟨0, rest.takeWhile (· != '\n'), by simp⟩
  obtain ⟨count, more, same⟩ := content
  unfold ofFirstLine?
  rw [ofLine?_indentLine, same, ← List.append_assoc, List.replicate_append_replicate,
    ofLine?_replicate (by simp)]
  exact ofContent?_eq_none (by decide)

/-- Of a text that goes on behind its line feeds only the first line states something. By induction
on the text; what is left of the first line is moved to a line in front of it.
-/
theorem within_of_continued (continued : isContinued text = true)
    : within level text = (ofFirstLine? level text).toList := by
  have general (line : List Char) (unbroken : IsUnbroken line)
      : within level (line ++ text)
        = (ofLine? (indentLine level (line ++ text.takeWhile (· != '\n')))).toList := by
    induction text generalizing line with
    | nil => simpa using within_of_unbroken unbroken
    | cons c rest ih =>
        simp only [isContinued, Bool.and_eq_true, Bool.or_eq_true, Bool.not_eq_true',
          beq_iff_eq] at continued
        obtain ⟨breaks, later⟩ := continued
        rcases breaks with free | ⟨rfl, colon⟩
        · have notFeed : (c != '\n') = true := by
            rw [bne_iff_ne]
            rintro rfl
            cases free
          have longer : IsUnbroken (line ++ [c]) :=
            unbroken.append fun d member => List.mem_singleton.mp member ▸ free
          have first
              : (c :: rest).takeWhile (· != '\n') = c :: rest.takeWhile (· != '\n') :=
            List.takeWhile_cons_of_pos notFeed
          have moved := ih later (line ++ [c]) longer
          simp only [List.append_assoc, List.singleton_append] at moved
          rw [first]
          exact moved
        · have below := ih later [] fun _ member => nomatch member
          have quiet : ofFirstLine? level rest = none := ofFirstLine?_of_colon colon
          unfold ofFirstLine? at quiet
          rw [List.nil_append, List.nil_append, quiet, Option.toList_none] at below
          rw [within_append_feed, within_of_unbroken unbroken, below]
          simp
  exact general [] fun _ member => nomatch member

/-- A text whose lines are broken by line feeds only states the same when it is not indented. By
induction on the text; what is left of a line is moved to the line in front of it.
-/
theorem ofText_eq_within (feeds : ∀ c ∈ text, isLineBreak c = true → c = '\n')
    : ofText text = within 0 text := by
  have single {line : List Char} (unbroken : IsUnbroken line)
      : ofText line = within 0 line := by
    have free : '\n' ∉ line := by
      intro member
      cases unbroken '\n' member
    rw [within_of_unbroken unbroken, ofLine?_indentLine, ofText, splitOn_of_not_mem free]
    show [line].filterMap ofLine? = (ofLine? line).toList
    cases found : ofLine? line <;> simp [found]
  have general (line : List Char) (unbroken : IsUnbroken line)
      : ofText (line ++ text) = within 0 (line ++ text) := by
    induction text generalizing line with
    | nil => exact single ((List.append_nil line).symm ▸ unbroken)
    | cons c rest ih =>
        obtain ⟨here, later⟩ := List.forall_mem_cons.mp feeds
        cases breaks : isLineBreak c with
        | false =>
            have moved := ih later (line ++ [c])
              (unbroken.append fun d member => List.mem_singleton.mp member ▸ breaks)
            simpa only [List.append_assoc, List.singleton_append] using moved
        | true =>
            obtain rfl := here breaks
            rw [ofText_append_feed, within_append_feed, single unbroken]
            exact congrArg _ (ih later [] fun _ member => nomatch member)
  exact general [] fun _ member => nomatch member

theorem eq_feed_of_isContinued (continued : isContinued text = true)
    : ∀ c ∈ text, isLineBreak c = true → c = '\n' := by
  induction text with
  | nil => exact fun _ member => nomatch member
  | cons c rest ih =>
      simp only [isContinued, Bool.and_eq_true, Bool.or_eq_true, Bool.not_eq_true',
        beq_iff_eq] at continued
      obtain ⟨breaks, later⟩ := continued
      refine List.forall_mem_cons.mpr ⟨fun broken => ?_, ih later⟩
      rcases breaks with free | ⟨feed, -⟩
      · rw [broken] at free
        cases free
      · exact feed

/-- Behind the beginning of a form stands what lines of the form state. -/
theorem ofContent?_of_mem {form : Form} (member : form ∈ forms) (rest : List Char)
    : ofContent? form.indentation (form.opening ++ rest) = some (form.read rest) := by
  simp only [forms, List.mem_cons, List.not_mem_nil, or_false] at member
  rcases member with rfl | rfl | rfl | rfl | rfl | rfl <;> rfl

theorem ofFirstLine?_eq {c : Char} (notSpace : c ≠ ' ') (rest : List Char)
    : ofFirstLine? level (c :: rest)
      = ofContent? (2 * level) ((c :: rest).takeWhile (· != '\n')) := by
  unfold ofFirstLine?
  rw [ofLine?_indentLine, ofLine?_replicate]
  rw [List.takeWhile_cons]
  split <;> simp [notSpace]

theorem ofFirstLine?_of_mem {form : Form} (member : form ∈ forms)
    (level_eq : 2 * level = form.indentation) (rest : List Char)
    : ofFirstLine? level (form.opening ++ rest)
      = some (form.read (rest.takeWhile (· != '\n'))) := by
  have openings
      : ∀ form ∈ forms,
          form.opening.head? ≠ some ' ' ∧ form.opening.all (· != '\n') = true := by
    simp only [forms, List.forall_mem_cons]
    decide
  obtain ⟨notSpace, noFeed⟩ := openings form member
  have filled : form.opening ≠ [] := by
    simp only [forms, List.mem_cons, List.not_mem_nil, or_false] at member
    rcases member with rfl | rfl | rfl | rfl | rfl | rfl <;> decide
  obtain ⟨c, more, opens⟩ := List.exists_cons_of_ne_nil filled
  have here : c ≠ ' ' := by simpa [opens] using notSpace
  have first := @ofFirstLine?_eq level _ here (more ++ rest)
  rw [← List.cons_append, ← opens] at first
  rw [first, level_eq, List.takeWhile_append_of_pos (List.all_eq_true.mp noFeed),
    ofContent?_of_mem member]

-----------------------------------------------------------------------------------------
-- Lines further in
-----------------------------------------------------------------------------------------

/-- Every line of a text is blank or begins with two spaces. -/
def IsDeep (text : List Char) : Prop :=
  ∀ line ∈ lines text, line.all isBlank = true ∨ [' ', ' '] <+: line

instance : DecidablePred IsDeep :=
  fun text =>
    inferInstanceAs
      (Decidable (∀ line ∈ lines text, line.all isBlank = true ∨ [' ', ' '] <+: line))

/-- At the second level a line that begins with two spaces stands too far in to state anything. -/
theorem within_of_deep (deep : IsDeep text) : within 2 text = [] := by
  unfold within
  rw [List.filterMap_eq_nil_iff]
  intro line member
  rw [ofLine?_indentLine]
  rcases deep line member with blank | ⟨content, rfl⟩
  · apply ofLine?_of_blank
    rw [List.all_append, blank, Bool.and_true, List.all_replicate]
    simp [isBlank]
  · apply ofContent?_of_deep
    have spaces : ∀ c ∈ List.replicate 6 ' ', (c == ' ') = true :=
      List.all_eq_true.mp (by decide)
    have further : (List.replicate (2 * 2) ' ' ++ ([' ', ' '] ++ content))
        = List.replicate 6 ' ' ++ content := rfl
    rw [further, List.takeWhile_append_of_pos spaces, List.length_append, List.length_replicate]
    omega

theorem IsDeep.append_feed {first second : List Char} (here : IsDeep first)
    (there : IsDeep second) : IsDeep (first ++ '\n' :: second) := by
  obtain ⟨extra, form, same⟩ := lines_append_feed first
  unfold IsDeep
  rw [same]
  intro line member
  rcases List.mem_append.mp member with member | member
  · rcases List.mem_append.mp member with member | member
    · exact here line member
    · rcases form with rfl | ⟨rfl, -⟩
      · cases member
      · cases List.mem_singleton.mp member
        exact .inl rfl
  · exact there line member

theorem IsDeep.intercalate {texts : List (List Char)} (each : ∀ text ∈ texts, IsDeep text)
    : IsDeep (List.intercalate ['\n'] texts) := by
  induction texts with
  | nil => exact fun _ member => nomatch member
  | cons text rest ih =>
      obtain ⟨here, later⟩ := List.forall_mem_cons.mp each
      cases rest with
      | nil => simpa using here
      | cons next more =>
          rw [List.intercalate_cons_cons, List.append_assoc]
          exact here.append_feed (ih later)

/-- Indentation brings every line at least two spaces in. -/
theorem isDeep_indentChars (positive : 0 < level) (text : List Char)
    : IsDeep (indentChars level text) := by
  apply IsDeep.intercalate
  intro indented member
  obtain ⟨line, isLine, rfl⟩ := List.mem_map.mp member
  have unbroken : IsUnbroken (indentLine level line) := isUnbroken_indentLine isLine
  unfold IsDeep
  rw [lines_of_unbroken unbroken]
  split
  · exact fun _ member => nomatch member
  · intro shown member
    rw [List.mem_singleton.mp member]
    unfold indentLine
    split
    · exact .inl rfl
    · obtain ⟨more, rfl⟩ : ∃ more, level = more + 1 := ⟨level - 1, by omega⟩
      right
      exact List.prefix_append _ _

/-- Characters in front of a text that do not break a line come to stand in its first line. -/
theorem lines_append_of_unbroken {first : List Char} (unbroken : IsUnbroken first)
    (filled : first ≠ []) (text : List Char)
    : ∃ line more,
        lines (first ++ text) = (first ++ line) :: more
        ∧ (lines text = line :: more ∨ lines text = [] ∧ line = [] ∧ more = []) := by
  induction first with
  | nil => exact absurd rfl filled
  | cons c rest ih =>
      obtain ⟨here, later⟩ := List.forall_mem_cons.mp unbroken
      rw [List.cons_append, lines, here]
      case x_1 =>
        rintro other rfl
        cases here
      cases rest with
      | nil =>
          rw [List.nil_append]
          cases below : lines text with
          | nil => exact ⟨[], [], rfl, .inr ⟨rfl, rfl, rfl⟩⟩
          | cons line more => exact ⟨line, more, rfl, .inl rfl⟩
      | cons d others =>
          obtain ⟨line, more, same, form⟩ := ih later (List.cons_ne_nil _ _)
          rw [same]
          exact ⟨line, more, rfl, form⟩

theorem lines_feed (rest : List Char) : lines ('\n' :: rest) = [] :: lines rest := by
  simp [lines, isLineBreak]

/-- A line in front of a line feed is the first line. -/
theorem lines_line (unbroken : IsUnbroken line)
    : lines (line ++ '\n' :: rest) = line :: lines rest := by
  by_cases empty : line = []
  · rw [empty]
    exact lines_feed rest
  obtain ⟨start, more, same, form⟩ := lines_append_of_unbroken unbroken empty ('\n' :: rest)
  rcases form with opened | ⟨none, -⟩
  · rw [lines_feed] at opened
    obtain ⟨rfl, rfl⟩ := List.cons.inj opened
    rw [same, List.append_nil]
  · cases (lines_feed rest).symm.trans none

theorem IsDeep.append {first : List Char} (unbroken : IsUnbroken first)
    (spaces : [' ', ' '] <+: first) (deep : IsDeep text) : IsDeep (first ++ text) := by
  have filled : first ≠ [] := by
    rintro rfl
    cases List.prefix_nil.mp spaces
  obtain ⟨line, more, same, form⟩ := lines_append_of_unbroken unbroken filled text
  unfold IsDeep
  rw [same, List.forall_mem_cons]
  refine ⟨.inr (spaces.trans (List.prefix_append _ _)), ?_⟩
  rcases form with below | ⟨-, -, rfl⟩
  · exact fun other member => deep other (below ▸ List.mem_cons_of_mem _ member)
  · exact fun _ member => nomatch member

section
variable {change : Char → Char} (keeps : ∀ c, isBlank c = true → change c = c)
variable (others : ∀ c, isBlank c = false → isBlank (change c) = false)
include keeps others

/-- Characters that are not blank may be changed for others in each line, by induction on the text.
-/
theorem lines_map (text : List Char)
    : lines (text.map change) = (lines text).map (List.map change) := by
  have breaksKept {c : Char} (breaks : isLineBreak c = true) : change c = c :=
    keeps c (by simp [isBlank, breaks])
  have breaksOnly {c : Char} (unbroken : ¬isLineBreak c = true)
      : ¬isLineBreak (change c) = true := by
    intro breaks
    have blank : isBlank (change c) = true := by simp [isBlank, breaks]
    cases here : isBlank c with
    | true => exact unbroken (keeps c here ▸ breaks)
    | false => rw [others c here] at blank; cases blank
  fun_induction lines text with
  | case1 => rfl
  | case2 rest ih =>
      rw [List.map_cons, List.map_cons, breaksKept (by decide), breaksKept (by decide), lines, ih]
      rfl
  | case3 c rest notPair breaks ih =>
      rw [List.map_cons, breaksKept breaks, lines, if_pos breaks, ih]
      · rfl
      · intro other isReturn begins
        cases rest with
        | nil => cases begins
        | cons d more =>
            obtain ⟨feed, -⟩ := List.cons.inj begins
            by_cases breaks : isLineBreak d = true
            · rw [breaksKept breaks] at feed
              exact notPair more isReturn (feed ▸ rfl)
            · exact breaksOnly breaks (feed ▸ rfl)
  | case4 c rest notPair unbroken none ih =>
      rw [List.map_cons, lines, if_neg (breaksOnly unbroken), ih, none]
      · rfl
      · intro other isReturn
        exact absurd (by rw [isReturn]; rfl) (breaksOnly unbroken)
  | case5 c rest notPair unbroken line more found ih =>
      rw [List.map_cons, lines, if_neg (breaksOnly unbroken), ih, found]
      · rfl
      · intro other isReturn
        exact absurd (by rw [isReturn]; rfl) (breaksOnly unbroken)

theorem all_isBlank_map (line : List Char)
    : (line.map change).all isBlank = line.all isBlank := by
  induction line with
  | nil => rfl
  | cons c rest ih =>
      rw [List.map_cons, List.all_cons, List.all_cons, ih]
      cases blank : isBlank c with
      | true => rw [keeps c blank, blank]
      | false => rw [others c blank]

/-- Characters that are not blank may be changed for others. -/
theorem IsDeep.map (deep : IsDeep text) : IsDeep (text.map change) := by
  unfold IsDeep
  rw [lines_map keeps others]
  intro line member
  obtain ⟨shown, isLine, rfl⟩ := List.mem_map.mp member
  rcases deep shown isLine with blank | ⟨more, rfl⟩
  · exact .inl ((all_isBlank_map keeps others shown).trans blank)
  · right
    rw [List.map_append]
    exact ⟨more.map change, by rw [List.map_cons, List.map_cons, keeps ' ' (by decide)]; rfl⟩

end

end Statement

end RubySchema
