import RubySchema.Proofs.Command.Changes
import RubySchema.Proofs.Command.Requests

/-!
Generation by command. A generation that comes to its end has been run on the schema, the settings,
the templates and the checkout that its options name, and the files of its result have been written.
-/

namespace RubySchema.Command

open Text

/-- A text leads to a checkout: to a directory, where no file is. -/
structure Workspace.HoldsCheckout (workspace : Workspace) (text : String) (place : Path)
    : Prop where
  found : workspace.find? text = some place
  isDirectory : workspace.tree.isDirectory place = true
  isFile : workspace.tree.isFile place = false

namespace Run

variable {workspace : Workspace} {options : GenerateOptions} {job : Job} {generation : Generation}
  {session after : Session}

/-- What a generation has come to: the run that its options ask for, and a result whose files have
been written.
-/
structure Generated (workspace : Workspace) (options : GenerateOptions) (job : Job)
    (generation : Generation) : Prop where
  settings : settingsFrom? workspace options.config (changesOf options) = some job.settings
  reference
    : ∃ place,
        workspace.HoldsCheckout options.reference place
        ∧ job.reference = Run.reference workspace place place
  schema : HoldsSchema workspace options.schema job.schema
  templates : (job.settings.templates workspace.tree workspace.home).outcome = .ok job.templates
  hooks : job.hooks = hooksOf options
  first : job.isRepeated = false
  built : job.build.outcome = .ok generation
  written
    : ((Output.start workspace.tree).writeFiles (workspace.resolve options.output)
        job.settings.overwrite generation.files).2 = none

/-- A generation with a checkout that comes to its end has come to a result. -/
theorem exists_generated {place : Path}
    (checkout : workspace.HoldsCheckout options.reference place)
    (done : generate workspace options session = .ok () after)
    : ∃ job generation, Generated workspace options job generation := by
  unfold generate at done
  obtain ⟨found, _, given, done⟩ := bind_eq_ok.mp done
  have placed : (workspace.find? options.reference).getD [] = place := by
    rw [checkout.found]
    rfl
  simp only [placed, checkout.isFile, Bool.false_eq_true, if_false] at done
  obtain ⟨_, _, -, done⟩ := bind_eq_ok.mp done
  rw [pure_bind] at done
  obtain ⟨_, done⟩ := exists_of_ite (fun aside => by
    obtain ⟨_, _, -, aside⟩ := bind_eq_ok.mp aside
    obtain ⟨_, _, -, aside⟩ := bind_eq_ok.mp aside
    obtain ⟨_, _, -, aside⟩ := bind_eq_ok.mp aside
    exact ⟨_, aside⟩) done
  obtain ⟨_, _, -, done⟩ := bind_eq_ok.mp done
  obtain ⟨schema, _, holds, done⟩ := bind_eq_ok.mp done
  obtain ⟨_, _, -, done⟩ := bind_eq_ok.mp done
  obtain ⟨templates, _, carried, done⟩ := bind_eq_ok.mp done
  obtain ⟨generation, _, built, done⟩ := bind_eq_ok.mp done
  refine ⟨_, generation, settingsFrom?_of_settings given, ⟨place, checkout, rfl⟩,
    holds_of_schema holds, outcome_of_carry carried, rfl, rfl, outcome_of_carry built, ?_⟩
  obtain ⟨_, _, -, done⟩ := bind_eq_ok.mp done
  obtain ⟨_, _, -, done⟩ := bind_eq_ok.mp done
  cases failed
      : ((Output.start workspace.tree).writeFiles (workspace.resolve options.output)
          found.overwrite generation.files).2 with
  | none => rfl
  | some cause =>
      simp only [failed] at done
      obtain ⟨_, _, thrown, -⟩ := bind_eq_ok.mp done
      cases thrown

/-- A generation without further messages comes to its end when all that it has come to is there and
its last line can be printed.
-/
theorem Generated.exists_after (generated : Generated workspace options job generation)
    (quiet : options.isVerbose = false) (unreported : options.report = none)
    (supported : generation.unsupported = [])
    (printable
      : isPrintable ("Done. Methods: " ++ toString generation.total ++ ". Generated code in "
          ++ (workspace.resolve options.output).text)
        = true)
    : ∃ after, generate workspace options session = .ok () after := by
  obtain ⟨place, checkout, reference⟩ := generated.reference
  have placed : (workspace.find? options.reference).getD [] = place := by
    rw [checkout.found]
    rfl
  have parsing : isPrintable "Parsing schema..." = true := by decide
  have generating : isPrintable "Generating code..." = true := by decide
  have asked
      : ({
          schema := job.schema
          reference := Run.reference workspace place place
          settings := job.settings
          hooks := hooksOf options
          templates := job.templates } : Job)
        = job := by
    rw [← reference, ← generated.hooks, ← generated.first]
  have passes : require (!false || ArchiveFile.isArchiveName (place.getLastD "")) session
      = .ok () session := rfl
  obtain ⟨_, read, -⟩ := exists_schema_of_holds
    { session with lines := session.lines ++ [withoutControls "Parsing schema..."] }
    generated.schema
  unfold generate
  simp only [placed, checkout.isFile, quiet, unreported, Bool.false_eq_true, if_false, pure_bind,
    Bool.false_and]
  refine exists_bind_of_ok (settings_of_some generated.settings) ?_
  refine exists_bind_of_ok passes ?_
  refine exists_bind_of_ok (say_of_printable parsing) ?_
  refine exists_bind_of_ok read ?_
  refine exists_bind_of_ok (say_of_printable generating) ?_
  refine exists_bind_of_ok (carry_of_ok generated.templates) ?_
  rw [asked]
  refine exists_bind_of_ok (carry_of_ok generated.built) ?_
  refine exists_bind_of_ok (note_eq _) ?_
  refine exists_bind_of_ok (modify_eq _) ?_
  simp only [generated.written, supported, List.isEmpty_nil, Bool.not_true, Bool.false_eq_true,
    if_false]
  exact ⟨_, say_of_printable printable⟩

end Run

end RubySchema.Command
