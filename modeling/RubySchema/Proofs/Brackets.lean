import RubySchema.Proofs.Example.Reading
import RubySchema.Proofs.Literal

/-!
A text with balanced brackets and without backslashes may stand in a literal in braces as it is. A
reader keeps the brackets that are still to come; blanks at the beginning of a line make no
difference to it, so neither does indentation, and a comment makes none if no bracket stands in it.
-/

namespace RubySchema

open Text Reading

-----------------------------------------------------------------------------------------
-- Readers and indentation
-----------------------------------------------------------------------------------------

section
variable {σ : Type} {step : σ → Char → σ} {state : σ} {level : Nat} {text : List Char}

/-- Blanks behind a line feed make no difference to a reader. -/
def PassesBlanks (step : σ → Char → σ) : Prop :=
  ∀ state c, isBlank c = true → step (step state '\n') c = step state '\n'

namespace PassesBlanks

variable (passes : PassesBlanks step)
include passes

theorem foldl_blanks (start : step state '\n' = state) {blanks : List Char}
    (blank : ∀ c ∈ blanks, isBlank c = true) : blanks.foldl step state = state := by
  induction blanks with
  | nil => rfl
  | cons c rest ih =>
      obtain ⟨here, later⟩ := List.forall_mem_cons.mp blank
      have passed := passes state c here
      rw [start] at passed
      rw [List.foldl_cons, passed]
      exact ih later

theorem foldl_spaces (start : step state '\n' = state) (count : Nat)
    : (List.replicate count ' ').foldl step state = state := by
  apply passes.foldl_blanks start
  intro c member
  rw [List.eq_of_mem_replicate member]
  decide

theorem foldl_indentLine (start : step state '\n' = state) (line : List Char)
    : (indentLine level line).foldl step state = line.foldl step state := by
  unfold indentLine
  split
  case isTrue blank =>
    rw [passes.foldl_blanks start (List.all_eq_true.mp blank)]
    rfl
  case isFalse => rw [List.foldl_append, passes.foldl_spaces start]

/-- Behind lines a reader is at the beginning of a line. -/
theorem step_ended (start : step state '\n' = state) (lines : List (List Char))
    : step ((ended lines).foldl step state) '\n' = (ended lines).foldl step state := by
  induction lines generalizing state with
  | nil => exact start
  | cons line rest ih =>
      have later := ih (passes (line.foldl step state) '\n' (by decide))
      simpa [ended] using later

/-- Lines may be indented, by induction on the lines. -/
theorem foldl_ended (start : step state '\n' = state) (lines : List (List Char))
    : (ended (lines.map (indentLine level))).foldl step state
      = (ended lines).foldl step state := by
  induction lines generalizing state with
  | nil => rfl
  | cons line rest ih =>
      have later := ih (passes (line.foldl step state) '\n' (by decide))
      simpa [ended, passes.foldl_indentLine start] using later

/-- A text that is followed by a line feed may be indented. -/
theorem foldl_indentChars (start : step state '\n' = state) (feeds : BreaksByFeeds text)
    : (indentChars level text ++ ['\n']).foldl step state
      = (text ++ ['\n']).foldl step state := by
  obtain ⟨extra, same, form⟩ := exists_ended feeds
  by_cases none : lines text = []
  · rw [eq_nil_of_lines none]
    rfl
  have filled : (lines text).map (indentLine level) ≠ [] := by simpa using none
  rw [indentChars, intercalate_append_feed filled, passes.foldl_ended start, same,
    List.foldl_append]
  rcases form with rfl | rfl
  · rfl
  · exact (passes.step_ended start (lines text)).symm

end PassesBlanks

end

-----------------------------------------------------------------------------------------
-- Reading brackets
-----------------------------------------------------------------------------------------

/-- What has been read of the brackets of a text. -/
structure Brackets where
  /-- The brackets that are still to come, the innermost first. -/
  pending : List Char
  /-- The most braces that have been open at once. -/
  deepest : Nat
  deriving DecidableEq, Repr

namespace Brackets

def partner? : Char → Option Char
  | '(' => some ')'
  | '[' => some ']'
  | '\x7b' => some '\x7d'
  | _ => none

def isClosing (c : Char) : Bool :=
  c == ')' || c == ']' || c == '\x7d'

def braces (brackets : Brackets) : Nat :=
  brackets.pending.count '\x7d'

def opened (brackets : Brackets) (closing : Char) : Brackets :=
  let pending := closing :: brackets.pending
  { pending, deepest := max brackets.deepest (pending.count '\x7d') }

/-- What has been read with one more character. Nothing is read on when a bracket closes another one
than the last that was opened.
-/
def step (state : Option Brackets) (c : Char) : Option Brackets := do
  let brackets ← state
  match partner? c with
  | some closing => return brackets.opened closing
  | none =>
      if isClosing c then
        match brackets.pending with
        | [] => none
        | expected :: outer =>
            if c = expected then return { brackets with pending := outer } else none
      else return brackets

def read (text : List Char) : Option Brackets :=
  text.foldl step (some { pending := [], deepest := 0 })

/-- Every bracket of a text is closed in its turn, and no more braces are open at once than there is
room for.
-/
def NestsWithin (room : Nat) (text : List Char) : Prop :=
  ∃ brackets, read text = some brackets ∧ brackets.pending = [] ∧ brackets.deepest ≤ room

/-- Every bracket of a text is closed in its turn. -/
def IsWellNested (text : List Char) : Prop :=
  ∃ room, NestsWithin room text

/-- A text without its comments, one of which may have been begun in front of it. A comment goes
from a hash sign to the end of its line.
-/
def withoutComments (inComment : Bool) : List Char → List Char
  | [] => []
  | c :: rest =>
      if c = '\n' then c :: withoutComments false rest
      else if inComment || c == '#' then withoutComments true rest
      else c :: withoutComments false rest

/-- What has been read with one more character, inside of a comment or not. Comments may count as
text.
-/
def stepShown (comments : Bool) (state : Option Brackets × Bool) (c : Char)
    : Option Brackets × Bool :=
  if c = '\n' then (step state.1 c, false)
  else if state.2 then state
  else if comments && c == '#' then (state.1, true)
  else (step state.1 c, false)

theorem step_of_none {c : Char} (opens : partner? c = none) (closes : isClosing c = false)
    (state : Option Brackets) : step state c = state := by
  cases state with
  | none => rfl
  | some brackets => simp [step, opens, closes]

/-- Reading all that is shown is reading the text. -/
theorem foldl_stepShown_false (state : Option Brackets) (text : List Char)
    : text.foldl (stepShown false) (state, false) = (text.foldl step state, false) := by
  induction text generalizing state with
  | nil => rfl
  | cons c rest ih =>
      have one : stepShown false (state, false) c = (step state c, false) := by
        simp [stepShown]
      rw [List.foldl_cons, one, ih, List.foldl_cons]

/-- Reading with comments passed over is reading the text without them. -/
theorem foldl_stepShown_true (state : Option Brackets) (inComment : Bool) (text : List Char)
    : (text.foldl (stepShown true) (state, inComment)).1
      = (withoutComments inComment text).foldl step state := by
  induction text generalizing state inComment with
  | nil => rfl
  | cons c rest ih =>
      rw [List.foldl_cons, withoutComments, stepShown]
      by_cases feed : c = '\n'
      · rw [if_pos feed, if_pos feed, List.foldl_cons, ih]
      rw [if_neg feed, if_neg feed]
      cases inComment with
      | true => simpa using ih state true
      | false =>
          by_cases hash : c = '#'
          · simpa [hash] using ih state true
          · simpa [hash] using ih (step state c) false

theorem isBlank_ne {c : Char} (blank : isBlank c = true)
    : partner? c = none ∧ isClosing c = false ∧ c ≠ '#' := by
  have apart (other : Char) (notBlank : isBlank other = false) : c ≠ other := by
    rintro rfl
    rw [blank] at notBlank
    cases notBlank
  refine ⟨?_, ?_, apart '#' (by decide)⟩
  · unfold partner?
    split
    · exact absurd rfl (apart '(' (by decide))
    · exact absurd rfl (apart '[' (by decide))
    · exact absurd rfl (apart '\x7b' (by decide))
    · rfl
  · simp only [isClosing, Bool.or_eq_false_iff, beq_eq_false_iff_ne]
    exact ⟨⟨apart ')' (by decide), apart ']' (by decide)⟩, apart '\x7d' (by decide)⟩

theorem passesBlanks_stepShown (comments : Bool) : PassesBlanks (stepShown comments) := by
  intro state c blank
  obtain ⟨opens, closes, notHash⟩ := isBlank_ne blank
  have fed : stepShown comments state '\n' = (step state.1 '\n', false) := if_pos rfl
  rw [fed, stepShown]
  simp [step_of_none opens closes, notHash]

-----------------------------------------------------------------------------------------
-- Balanced texts
-----------------------------------------------------------------------------------------

/-- A text that may stand anywhere but in a comment: whatever is open in front of it is open behind
it, whether its comments count as text or not, and in between there is room for some more braces.
-/
structure IsBalanced (room : Nat) (text : String) : Prop where
  feeds : BreaksByFeeds text.toList
  unescaped : '\\' ∉ text.toList
  balanced
    : ∀ comments brackets,
        ∃ deepest,
          deepest ≤ max brackets.deepest (brackets.braces + room)
          ∧ text.toList.foldl (stepShown comments) (some brackets, false)
            = (some { brackets with deepest }, false)

/-- Characters that begin or end something: the brackets, the hash sign and the backslash. -/
def signs : List Char :=
  ['(', ')', '[', ']', '\x7b', '\x7d', '#', '\\']

/-- A character that is no sign, and ends a line only as a line feed. -/
def IsQuietChar (c : Char) : Prop :=
  c ∉ signs ∧ (isLineBreak c = true → c = '\n')

instance : DecidablePred IsQuietChar :=
  fun _ => inferInstanceAs (Decidable (_ ∧ _))

def IsQuiet (text : String) : Prop :=
  ∀ c ∈ text.toList, IsQuietChar c

instance : DecidablePred IsQuiet :=
  fun text => List.decidableBAll IsQuietChar text.toList

variable {room more level : Nat} {text first second inner : String}

theorem IsQuietChar.stepShown {c : Char} (quiet : IsQuietChar c) (comments : Bool)
    (state : Option Brackets) : stepShown comments (state, false) c = (state, false) := by
  have absent := quiet.1
  simp only [signs, List.mem_cons, List.not_mem_nil, or_false, not_or] at absent
  obtain ⟨paren, closeParen, bracket, closeBracket, brace, closeBrace, hash, -⟩ := absent
  have opens : partner? c = none := by
    unfold partner?
    split <;> first | contradiction | rfl
  have closes : isClosing c = false := by
    simp [isClosing, closeParen, closeBracket, closeBrace]
  simp [Brackets.stepShown, step_of_none opens closes, hash]

namespace IsBalanced

/-- A quiet text is passed over, by induction on the text. -/
theorem of_isQuiet (quiet : IsQuiet text) : IsBalanced room text := by
  refine ⟨fun c member => (quiet c member).2, fun member => (quiet _ member).1 (by decide), ?_⟩
  intro comments brackets
  refine ⟨brackets.deepest, Nat.le_max_left _ _, ?_⟩
  unfold IsQuiet at quiet
  generalize text.toList = characters at quiet
  induction characters with
  | nil => rfl
  | cons c rest ih =>
      obtain ⟨here, later⟩ := List.forall_mem_cons.mp quiet
      rw [List.foldl_cons, here.stepShown]
      exact ih later

theorem mono (balanced : IsBalanced room text) (le : room ≤ more) : IsBalanced more text where
  feeds := balanced.feeds
  unescaped := balanced.unescaped
  balanced comments brackets := by
    obtain ⟨deepest, bound, run⟩ := balanced.balanced comments brackets
    exact ⟨deepest, by omega, run⟩

theorem append (here : IsBalanced room first) (there : IsBalanced room second)
    : IsBalanced room (first ++ second) where
  feeds := by
    rw [String.toList_append]
    exact here.feeds.append there.feeds
  unescaped := by
    rw [String.toList_append, List.mem_append]
    exact not_or.mpr ⟨here.unescaped, there.unescaped⟩
  balanced comments brackets := by
    obtain ⟨between, firstBound, firstRun⟩ := here.balanced comments brackets
    obtain ⟨deepest, secondBound, secondRun⟩ :=
      there.balanced comments { brackets with deepest := between }
    have same : braces { brackets with deepest := between } = brackets.braces := rfl
    refine ⟨deepest, ?_, ?_⟩
    · rw [same] at secondBound
      dsimp only at secondBound
      omega
    · rw [String.toList_append, List.foldl_append, firstRun, secondRun]

/-- Texts with a balanced text between them, by induction on the texts. -/
theorem intercalate {separator : String} {texts : List String}
    (between : IsBalanced room separator) (each : ∀ text ∈ texts, IsBalanced room text)
    : IsBalanced room (separator.intercalate texts) := by
  induction texts with
  | nil => exact of_isQuiet (by decide : IsQuiet "")
  | cons text rest ih =>
      obtain ⟨here, later⟩ := List.forall_mem_cons.mp each
      cases rest with
      | nil => rwa [String.intercalate_singleton]
      | cons next others =>
          rw [String.intercalate_cons_cons]
          exact (here.append between).append (ih later)

/-- A text stays balanced when only spaces and line feeds are put into it that make no difference to
a reader.
-/
theorem respaced {spaced : String} (balanced : IsBalanced room text)
    (within : ∀ c ∈ spaced.toList, c ∈ text.toList ∨ c = ' ' ∨ c = '\n')
    (same
      : ∀ comments brackets,
          spaced.toList.foldl (stepShown comments) (some brackets, false)
            = text.toList.foldl (stepShown comments) (some brackets, false))
    : IsBalanced room spaced where
  feeds := by
    intro c member breaks
    rcases within c member with inText | rfl | rfl
    · exact balanced.feeds c inText breaks
    · cases breaks
    · rfl
  unescaped := by
    intro member
    rcases within _ member with inText | space | feed
    · exact balanced.unescaped inText
    · cases space
    · cases feed
  balanced comments brackets := by
    rw [same]
    exact balanced.balanced comments brackets

/-- A text on lines of its own may be indented. -/
theorem indent (balanced : IsBalanced room (text ++ "\n")) (level : Nat)
    : IsBalanced room (indent level text ++ "\n") := by
  have spelled : (text ++ "\n").toList = text.toList ++ ['\n'] := by simp
  have indented
      : (Text.indent level text ++ "\n").toList = indentChars level text.toList ++ ['\n'] := by
    simp [Text.indent]
  have feeds : BreaksByFeeds text.toList := fun c member =>
    balanced.feeds c (by simp [member])
  refine balanced.respaced (fun c member => ?_) fun comments brackets => ?_
  · rw [indented] at member
    rw [spelled]
    rcases List.mem_append.mp member with member | last
    · exact (mem_indentChars member).imp_left (List.mem_append_left _)
    · exact .inl (List.mem_append_right _ last)
  · rw [spelled, indented]
    exact (passesBlanks_stepShown comments).foldl_indentChars rfl feeds

/-- A text in brackets of one kind; braces take room for one more of them. -/
theorem enclosed {opening closing : Char} (pair : partner? opening = some closing)
    (spelled : text.toList = opening :: (inner.toList ++ [closing]))
    (balanced : IsBalanced room inner)
    (fits : room + (if closing = '\x7d' then 1 else 0) ≤ more) : IsBalanced more text := by
  have kinds
      : (opening, closing) = ('(', ')')
        ∨ (opening, closing) = ('[', ']') ∨ (opening, closing) = ('\x7b', '\x7d') := by
    unfold partner? at pair
    split at pair <;> cases pair <;> simp
  have quiet {c : Char} (end_ : c = opening ∨ c = closing)
      : c ≠ '\\' ∧ (isLineBreak c = true → c = '\n') := by
    rcases kinds with same | same | same <;> cases same <;> rcases end_ with rfl | rfl <;> decide
  have within {c : Char} (member : c ∈ text.toList)
      : c ∈ inner.toList ∨ c = opening ∨ c = closing := by
    rw [spelled, List.mem_cons, List.mem_append, List.mem_singleton] at member
    exact or_left_comm.mp member
  constructor
  case feeds =>
    intro c member
    rcases within member with inInner | atEnd
    · exact balanced.feeds c inInner
    · exact (quiet atEnd).2
  case unescaped =>
    intro member
    rcases within member with inInner | atEnd
    · exact balanced.unescaped inInner
    · exact (quiet atEnd).1 rfl
  case balanced =>
    intro comments brackets
    obtain ⟨deepest, bound, run⟩ := balanced.balanced comments (brackets.opened closing)
    have opens
        : stepShown comments (some brackets, false) opening
          = (some (brackets.opened closing), false) := by
      rcases kinds with same | same | same <;> cases same <;> simp [stepShown, step, partner?]
    have closes
        : stepShown comments (some { brackets.opened closing with deepest }, false) closing
          = (some { brackets with deepest }, false) := by
      rcases kinds with same | same | same <;> cases same <;>
        simp [stepShown, step, partner?, isClosing, opened]
    have count : (brackets.opened closing).braces
        = brackets.braces + (if closing = '\x7d' then 1 else 0) := by
      simp [braces, opened, List.count_cons]
    have started : (brackets.opened closing).deepest
        = max brackets.deepest (brackets.opened closing).braces := rfl
    refine ⟨deepest, by omega, ?_⟩
    rw [spelled, List.foldl_cons, opens, List.foldl_append, run, List.foldl_cons, closes,
      List.foldl_nil]

theorem parenthesized (balanced : IsBalanced room inner)
    : IsBalanced room ("(" ++ inner ++ ")") := by
  have pair : partner? '(' = some ')' := rfl
  exact balanced.enclosed pair (by simp) (by simp)

theorem bracketed (balanced : IsBalanced room inner) : IsBalanced room ("[" ++ inner ++ "]") := by
  have pair : partner? '[' = some ']' := rfl
  exact balanced.enclosed pair (by simp) (by simp)

theorem braced (balanced : IsBalanced room inner)
    : IsBalanced (room + 1) ("\x7b" ++ inner ++ "\x7d") := by
  have pair : partner? '\x7b' = some '\x7d' := rfl
  exact balanced.enclosed pair (by simp) (by simp)

/-- The mark of a place that is cut off is a comment, and a line of its own. -/
theorem ellipsis : IsBalanced room (ellipsis ++ "\n") where
  feeds := by decide
  unescaped := by decide
  balanced comments brackets := by
    refine ⟨brackets.deepest, Nat.le_max_left _ _, ?_⟩
    cases comments <;> rfl

/-- A balanced text is well nested, with its comments and without them. -/
theorem nestsWithin (balanced : IsBalanced room text)
    : NestsWithin room text.toList ∧ NestsWithin room (withoutComments false text.toList) := by
  have run (comments : Bool) := balanced.balanced comments { pending := [], deepest := 0 }
  refine ⟨?_, ?_⟩
  · obtain ⟨deepest, bound, shown⟩ := run false
    rw [foldl_stepShown_false] at shown
    exact ⟨_, congrArg Prod.fst shown, rfl, by simpa [braces] using bound⟩
  · obtain ⟨deepest, bound, shown⟩ := run true
    have without := foldl_stepShown_true (some { pending := [], deepest := 0 }) false text.toList
    rw [shown] at without
    exact ⟨_, without.symm, rfl, by simpa [braces] using bound⟩

end IsBalanced

-----------------------------------------------------------------------------------------
-- Literals
-----------------------------------------------------------------------------------------

theorem foldl_step_none (text : List Char) : text.foldl step none = none := by
  induction text with
  | nil => rfl
  | cons c rest ih => exact ih

/-- What one more character comes to: a bracket that opens, one that closes the last one, or another
character.
-/
theorem cases_of_step {before next : Brackets} {c : Char} (run : step (some before) c = some next)
    : (∃ closing, partner? c = some closing ∧ next = before.opened closing)
      ∨ (isClosing c = true ∧ before.pending = c :: next.pending)
      ∨ (partner? c = none ∧ isClosing c = false ∧ next = before) := by
  simp only [step, Option.bind_eq_bind, Option.bind_some, Option.pure_def] at run
  split at run
  case h_1 closing opens => exact .inl ⟨closing, opens, (Option.some.inj run).symm⟩
  case h_2 opens =>
    split at run
    case isTrue closes =>
      split at run
      case h_1 => cases run
      case h_2 expected outer pending =>
        split at run
        case isTrue same =>
          cases run
          exact .inr (.inl ⟨closes, same ▸ pending⟩)
        case isFalse => cases run
    case isFalse other =>
      exact .inr (.inr ⟨opens, Bool.eq_false_iff.mpr other, (Option.some.inj run).symm⟩)

/-- A reader of a literal in braces counts the braces that a reader of brackets keeps. -/
theorem read_braces_cons {before next : Brackets} {c : Char} (notBackslash : c ≠ '\\')
    (run : step (some before) c = some next) (rest : List Char)
    : Ruby.Delimiters.braces.read before.braces (c :: rest)
      = (Ruby.Delimiters.braces.read next.braces rest).map fun found =>
        (c :: found.1, found.2) := by
  have plain (other : c ≠ '\x7b' ∧ c ≠ '\x7d')
      : Ruby.Delimiters.braces.isEscaped c = false := by
    simp [Ruby.Delimiters.isEscaped, Ruby.Delimiters.braces, notBackslash, other.1.symm, other.2]
  rcases cases_of_step run with ⟨closing, opens, rfl⟩ | ⟨closes, pending⟩ | ⟨opens, closes, rfl⟩
  · unfold partner? at opens
    split at opens
    · cases opens
      exact Ruby.Delimiters.read_of_plain (plain (by decide))
    · cases opens
      exact Ruby.Delimiters.read_of_plain (plain (by decide))
    · cases opens
      have count : (before.opened '\x7d').braces = before.braces + 1 := by
        simp [braces, opened]
      rw [count, Ruby.Delimiters.read]
      · simp [Ruby.Delimiters.braces]
      · rintro d more same
        cases same
    · cases opens
  · simp only [isClosing, Bool.or_eq_true, beq_iff_eq] at closes
    rcases closes with (rfl | rfl) | rfl
    · have count : before.braces = next.braces := by simp [braces, pending]
      rw [count]
      exact Ruby.Delimiters.read_of_plain (plain (by decide))
    · have count : before.braces = next.braces := by simp [braces, pending]
      rw [count]
      exact Ruby.Delimiters.read_of_plain (plain (by decide))
    · have count : before.braces = next.braces + 1 := by simp [braces, pending]
      rw [count, Ruby.Delimiters.read]
      · simp [Ruby.Delimiters.braces]
      · rintro d more same
        cases same
  · refine Ruby.Delimiters.read_of_plain (plain ⟨?_, ?_⟩)
    · rintro rfl
      cases opens
    · rintro rfl
      cases closes

/-- Such a reader passes over a text that a reader of brackets passes over, by induction on the
text.
-/
theorem read_braces_append {text : List Char} (unescaped : '\\' ∉ text) {before after : Brackets}
    (run : text.foldl step (some before) = some after) (rest : List Char)
    : Ruby.Delimiters.braces.read before.braces (text ++ rest)
      = (Ruby.Delimiters.braces.read after.braces rest).map fun found =>
        (text ++ found.1, found.2) := by
  induction text generalizing before with
  | nil =>
      cases run
      simp
  | cons c more ih =>
      obtain ⟨notBackslash, later⟩ := not_or.mp fun member => unescaped (List.mem_cons.mpr member)
      rw [List.foldl_cons] at run
      cases one : step (some before) c with
      | none =>
          rw [one, foldl_step_none] at run
          cases run
      | some next =>
          rw [one] at run
          rw [List.cons_append, read_braces_cons (Ne.symm notBackslash) one, ih later run,
            Option.map_map]
          rfl

/-- A balanced text in braces is read as one literal, which ends with the brace behind the text. -/
theorem IsBalanced.readDescription (balanced : IsBalanced room text) (rest : List Char)
    : Ruby.readDescription ("%q\x7b".toList ++ (text.toList ++ '\x7d' :: rest))
      = some (some text, rest) := by
  obtain ⟨deepest, -, run⟩ := balanced.balanced false { pending := [], deepest := 0 }
  rw [foldl_stepShown_false] at run
  have inner := read_braces_append balanced.unescaped (congrArg Prod.fst run) ('\x7d' :: rest)
  have outside (depth : Nat)
      : braces { pending := [], deepest := depth } = 0 := rfl
  have ends : Ruby.Delimiters.braces.read 0 ('\x7d' :: rest) = some ([], rest) :=
    Ruby.Delimiters.read_closing (by decide)
  rw [outside, outside, ends] at inner
  have begun
      : afterStart? "%q\x7b".toList ("%q\x7b".toList ++ (text.toList ++ '\x7d' :: rest))
        = some (text.toList ++ '\x7d' :: rest) := by
    simp [afterStart?]
  rw [Ruby.readDescription, begun]
  dsimp only
  rw [inner]
  simp

end Brackets

end RubySchema
