import RubySchema.Command.Run
import RubySchema.Proofs.Halves

/-!
Steps of commands: when a step comes to its end, what it leaves behind, and what a command that
consists of several steps has come to.
-/

namespace RubySchema.Command

open Text

namespace Run

variable {α β : Type}

/-- What a command comes to from a session. -/
def ending (run : Run Unit) (session : Session) : Outcome :=
  match run session with
  | .ok _ session => { session, stop := none }
  | .error stop session => { session, stop := some stop }

section
variable {first : Run α} {next : α → Run β} {session between after : Session} {middle : α}
  {value : β}

theorem bind_of_ok (done : first session = .ok middle between)
    : (first >>= next) session = next middle between := by
  show EStateM.bind first next session = _
  rw [EStateM.bind, done]

theorem bind_of_error {stop : Stop} (stopped : first session = .error stop between)
    : (first >>= next) session = .error stop between := by
  show EStateM.bind first next session = _
  rw [EStateM.bind, stopped]

/-- Two steps come to their end when the first does, and the second from there. -/
theorem bind_eq_ok
    : (first >>= next) session = .ok value after
      ↔ ∃ middle between,
          first session = .ok middle between ∧ next middle between = .ok value after := by
  cases made : first session with
  | ok middle between =>
      rw [bind_of_ok made]
      constructor
      · exact fun done => ⟨middle, between, rfl, done⟩
      · rintro ⟨_, _, same, done⟩
        cases same
        exact done
  | error stop between =>
      rw [bind_of_error made]
      exact ⟨fun same => (nomatch same), fun ⟨_, _, same, _⟩ => (nomatch same)⟩

/-- When the first step has come to its end, what follows has to from there. -/
theorem exists_bind_of_ok (done : first session = .ok middle between)
    (rest : ∃ after, next middle between = .ok value after)
    : ∃ after, (first >>= next) session = .ok value after := by
  rw [bind_of_ok done]
  exact rest

/-- A step that may come in between leaves what follows it to be reached. -/
theorem exists_of_ite {condition : Prop} [Decidable condition] {aside rest : Run β}
    (passes
      : ∀ {session}, aside session = .ok value after →
          ∃ between, rest between = .ok value after)
    (done : (if condition then aside else rest) session = .ok value after)
    : ∃ between, rest between = .ok value after := by
  split at done
  · exact passes done
  · exact ⟨session, done⟩

end

section
variable {session after : Session} {workspace : Workspace}

theorem stop_ending_eq_none_iff {run : Run Unit}
    : (run.ending session).stop = none ↔ ∃ after, run session = .ok () after := by
  unfold ending
  cases run session with
  | ok value after => exact ⟨fun _ => ⟨after, rfl⟩, fun _ => rfl⟩
  | error stop after => exact ⟨fun same => (nomatch same), fun ⟨_, same⟩ => (nomatch same)⟩

theorem ending_bind_of_ok {first : Run α} {next : α → Run Unit} {middle : α}
    (done : first session = .ok middle after)
    : (first >>= next).ending session = (next middle).ending after := by
  rw [ending, bind_of_ok done, ending]

theorem ending_bind_of_error {first : Run α} {next : α → Run Unit} {stop : Stop}
    (stopped : first session = .error stop after)
    : (first >>= next).ending session = { session := after, stop := some stop } := by
  rw [ending, bind_of_error stopped]

-----------------------------------------------------------------------------------------
-- Single steps
-----------------------------------------------------------------------------------------

theorem note_eq (notes : List Note)
    : note notes session = .ok () { session with notes := session.notes ++ notes } :=
  rfl

theorem modify_eq (change : Session → Session)
    : (modify change : Run Unit) session = .ok () (change session) :=
  rfl

theorem carry_of_ok {step : Noted α} {value : α} (made : step.outcome = .ok value)
    : carry step session = .ok value { session with notes := session.notes ++ step.notes } := by
  unfold carry
  rw [made]
  rfl

theorem carry_of_error {step : Noted α} {cause : Error} (stopped : step.outcome = .error cause)
    : carry step session
      = .error (.cause cause) { session with notes := session.notes ++ step.notes } := by
  unfold carry
  rw [stopped]
  rfl

theorem outcome_of_carry {step : Noted α} {value : α} (done : carry step session = .ok value after)
    : step.outcome = .ok value := by
  cases made : step.outcome with
  | ok other =>
      rw [carry_of_ok made] at done
      cases done
      rfl
  | error cause =>
      rw [carry_of_error made] at done
      cases done

theorem settings_of_some {config : Option String} {changes : Table Json} {found : Settings}
    (given : settingsFrom? workspace config changes = some found)
    : settings workspace config changes session = .ok found session := by
  unfold settings
  rw [given]
  rfl

theorem settingsFrom?_of_settings {config : Option String} {changes : Table Json}
    {found : Settings} (done : settings workspace config changes session = .ok found after)
    : settingsFrom? workspace config changes = some found := by
  unfold settings at done
  cases given : settingsFrom? workspace config changes with
  | some settings =>
      rw [given] at done
      cases done
      rfl
  | none =>
      rw [given] at done
      cases done

def HoldsSchema (workspace : Workspace) (path : String) (schema : Schema) : Prop :=
  ∃ text, workspace.read? path = some text ∧ (Schema.ofFile path text).outcome = .ok schema

theorem holdsSchema_of_document {path text : String} {document : Json} {found : Schema}
    (read : workspace.read? path = some text)
    (documented : Schema.documentOfFile path text = .ok document)
    (made : (Schema.ofDocument document).outcome = .ok found)
    : HoldsSchema workspace path found := by
  refine ⟨text, read, ?_⟩
  rw [Schema.ofFile, Noted.outcome_bind, Noted.ofExcept, documented]
  exact made

theorem exists_schema_of_holds {path : String} {found : Schema} (session : Session)
    (holds : HoldsSchema workspace path found)
    : ∃ after,
        schema workspace path session = .ok found after ∧ after.lines = session.lines := by
  obtain ⟨text, read, made⟩ := holds
  unfold schema
  rw [read]
  exact ⟨_, carry_of_ok made, rfl⟩

theorem holds_of_schema {path : String} {found : Schema}
    (done : schema workspace path session = .ok found after)
    : HoldsSchema workspace path found := by
  unfold schema at done
  cases read : workspace.read? path with
  | some text =>
      rw [read] at done
      exact ⟨text, read, outcome_of_carry done⟩
  | none =>
      rw [read] at done
      cases done

-----------------------------------------------------------------------------------------
-- Lines that are printed
-----------------------------------------------------------------------------------------

/-- A line can be printed: without its control sequences it has no half of a surrogate pair. -/
def isPrintable (line : String) : Bool :=
  !hasHalf (withoutControls line)

/-- What is printed of lines in order: all of them up to the first that cannot be printed, without
their control sequences.
-/
def printed (lines : List String) : List String :=
  (lines.takeWhile isPrintable).map withoutControls

theorem say_of_printable {line : String} (printable : isPrintable line = true)
    : say line session
      = .ok () { session with lines := session.lines ++ [withoutControls line] } := by
  have whole : unencodable? isHalf (withoutControls line) = none := by
    rw [unencodable?_eq_none_iff]
    simpa [isPrintable] using printable
  unfold say
  rw [whole]
  rfl

theorem exists_say_of_not_printable {line : String} (session : Session)
    (broken : isPrintable line = false)
    : ∃ cause, say line session = .error (.cause cause) session := by
  have some : unencodable? isHalf (withoutControls line) ≠ none := by
    rw [Ne, unencodable?_eq_none_iff]
    simpa [isPrintable] using broken
  obtain ⟨cause, found⟩ := Option.ne_none_iff_exists'.mp some
  refine ⟨cause, ?_⟩
  unfold say
  rw [found]
  rfl

/-- Lines said in order come to what is printed of them, and to their end when all of them can be
printed. By induction on the lines.
-/
theorem ending_forM_say (lines : List String) (session : Session)
    : ((lines.forM say).ending session).session.lines = session.lines ++ printed lines
      ∧ (((lines.forM say).ending session).stop = none
        ↔ ∀ line ∈ lines, isPrintable line = true)
      ∧ ∀ stop, ((lines.forM say).ending session).stop = some stop →
          ∃ cause, stop = .cause cause := by
  induction lines generalizing session with
  | nil =>
      refine ⟨(List.append_nil _).symm, ⟨fun _ line member => ?_, fun _ => rfl⟩, ?_⟩
      · cases member
      · intro stop same
        cases same
  | cons line rest ih =>
      rw [List.forM]
      cases printable : isPrintable line with
      | true =>
          obtain ⟨lines, stops, causes⟩ :=
            ih { session with lines := session.lines ++ [withoutControls line] }
          rw [ending_bind_of_ok (say_of_printable printable)]
          refine ⟨?_, ?_, causes⟩
          · rw [lines, printed, printed, List.takeWhile_cons_of_pos printable, List.map_cons,
              List.append_assoc, List.singleton_append]
          · rw [stops, List.forall_mem_cons, and_iff_right printable]
      | false =>
          obtain ⟨cause, stopped⟩ := exists_say_of_not_printable session printable
          rw [ending_bind_of_error stopped]
          refine ⟨?_, ?_, ?_⟩
          · rw [printed, List.takeWhile_cons_of_neg (by simp [printable]), List.map_nil,
              List.append_nil]
          · refine ⟨fun same => ?_, fun all => ?_⟩
            · cases same
            · rw [all line List.mem_cons_self] at printable
              cases printable
          · exact fun stop same => ⟨cause, (Option.some.inj same).symm⟩

end

end Run

end RubySchema.Command
