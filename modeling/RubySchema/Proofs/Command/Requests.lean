import RubySchema.Proofs.Command.Steps
import RubySchema.Proofs.Table

/-!
Requests. Arguments give each option one value, and a request is carried out when all demands on
these values are met.
-/

namespace RubySchema.Command

open Text

namespace ReadArguments

variable {forms : List OptionForm} {read next : ReadArguments}

/-- No option has been given two values. -/
def IsUnique (read : ReadArguments) : Prop :=
  read.given.names.Nodup

theorem IsUnique.give (unique : read.IsUnique) (word value : String)
    : (read.give word value).IsUnique :=
  Table.nodup_names_put unique word value

theorem IsUnique.readWord (unique : read.IsUnique) {word : String} {attached : Option String}
    (done : ReadArguments.readWord forms read word attached = some next) : next.IsUnique := by
  unfold ReadArguments.readWord at done
  obtain ⟨form, -, done⟩ := Option.bind_eq_some_iff.mp done
  split at done
  · cases done
    exact unique.give _ _
  · cases done
    exact unique
  · cases done
  · cases done
    exact unique.give _ _

/-- Letters give each option one value, by induction on the letters. -/
theorem IsUnique.readLetters (unique : read.IsUnique) {letters : List Char}
    (done : ReadArguments.readLetters forms read letters = some next) : next.IsUnique := by
  induction letters generalizing read with
  | nil =>
      cases done
      exact unique
  | cons c rest ih =>
      unfold ReadArguments.readLetters at done
      split at done
      · cases done
      split at done
      · exact ih (unique.give _ _) done
      split at done
      · cases done
        exact unique
      · cases done
        exact unique.give _ _

theorem IsUnique.readOption (unique : read.IsUnique) {argument : String}
    (done : ReadArguments.readOption forms read argument = some next) : next.IsUnique := by
  unfold ReadArguments.readOption at done
  dsimp only at done
  split at done
  · exact unique.readWord done
  · exact unique.readLetters done

/-- Arguments give each option one value, by induction on the arguments. -/
theorem IsUnique.readAll (unique : read.IsUnique) {arguments : List String} {given : Given}
    (done : ReadArguments.readAll forms read arguments = some given) : given.names.Nodup := by
  induction arguments generalizing read with
  | nil =>
      unfold ReadArguments.readAll at done
      split at done
      · cases done
      · cases done
        exact unique
  | cons argument rest ih =>
      unfold ReadArguments.readAll at done
      split at done
      · exact ih (unique.give _ _) done
      split at done
      · split at done
        · cases done
          exact unique
        · cases done
      split at done
      · split at done
        case h_1 next found => exact ih (unique.readOption found) done
        case h_2 => cases done
      · cases done

end ReadArguments

theorem nodup_readArguments {forms : List OptionForm} {arguments : List String} {given : Given}
    (read : readArguments forms arguments = some given) : given.names.Nodup := by
  have start : ReadArguments.start.IsUnique := List.nodup_nil
  exact start.readAll read

namespace Request

variable {workspace : Workspace} {words : List String} {given wanted : Given}

theorem nodup_of_types (asked : ofArguments? words = some (.types wanted))
    : wanted.names.Nodup := by
  unfold ofArguments? at asked
  split at asked
  case h_1 | h_2 =>
    obtain ⟨_, -, same⟩ := Option.map_eq_some_iff.mp asked
    cases same
  case h_3 | h_4 =>
    obtain ⟨read, found, same⟩ := Option.map_eq_some_iff.mp asked
    cases same
    exact nodup_readArguments found
  case h_5 => cases asked

/-- What is demanded of a value is met: it can be a path, if it has to be one, and is of the kind.
-/
structure IsMet (workspace : Workspace) (demand : Demand × String) : Prop where
  isPath : demand.1.isPath = true → Path.fault? [demand.2] = none
  meets : workspace.meets demand.2 demand.1 = true

instance (workspace : Workspace) : DecidablePred (IsMet workspace) := fun demand =>
  decidable_of_iff
    ((demand.1.isPath = true → Path.fault? [demand.2] = none)
      ∧ workspace.meets demand.2 demand.1 = true)
    ⟨fun ⟨isPath, meets⟩ => ⟨isPath, meets⟩, fun ⟨isPath, meets⟩ => ⟨isPath, meets⟩⟩

def AreMet (workspace : Workspace) (request : Request) : Prop :=
  ∀ demand ∈ request.demands, IsMet workspace demand

end Request

namespace Run

variable {workspace : Workspace} {session after : Session}

/-- A value that has to be a path and cannot be one stops the check; else its kind is looked at, and
then the other values.
-/
theorem checkDemands_cons (demand : Demand) (value : String) (rest : List (Demand × String))
    : checkDemands workspace ((demand, value) :: rest) session
      = match if demand.isPath then Path.fault? [value] else none with
        | some cause => .error (.cause cause) session
        | none =>
            if workspace.meets value demand then checkDemands workspace rest session
            else .error .usage session := by
  rw [checkDemands]
  unfold require
  cases demand.isPath with
  | false => cases workspace.meets value demand <;> rfl
  | true =>
      cases Path.fault? [value] with
      | some cause => rfl
      | none => cases workspace.meets value demand <;> rfl

/-- Values are checked one by one, and nothing else happens. By induction on the values. -/
theorem checkDemands_eq_ok {demands : List (Demand × String)}
    : checkDemands workspace demands session = .ok () after
      ↔ (∀ demand ∈ demands, Request.IsMet workspace demand) ∧ after = session := by
  induction demands with
  | nil =>
      constructor
      · intro done
        cases done
        exact ⟨fun _ member => (nomatch member), rfl⟩
      · rintro ⟨-, rfl⟩
        rfl
  | cons first rest ih =>
      obtain ⟨demand, value⟩ := first
      rw [checkDemands_cons, List.forall_mem_cons, and_assoc, ← ih]
      constructor
      · intro done
        split at done
        case h_1 => cases done
        case h_2 passed =>
          split at done
          case isFalse => cases done
          case isTrue meets =>
            refine ⟨⟨fun isPath => ?_, meets⟩, done⟩
            rwa [if_pos isPath] at passed
      · rintro ⟨⟨isPath, meets⟩, done⟩
        have passed : (if demand.isPath then Path.fault? [value] else none) = none := by
          split
          case isTrue path => exact isPath path
          case isFalse => rfl
        rw [passed]
        exact (if_pos meets).trans done

end Run

def Workspace.session (workspace : Workspace) : Session :=
  { tree := workspace.tree, lines := [], notes := [], leftovers := workspace.leftovers }

namespace Request

variable {workspace : Workspace} {given wanted : Given}

def run (workspace : Workspace) : Request → Run Unit
  | .generate given => do
      Run.generate workspace (← Run.present (GenerateOptions.ofGiven? given))
  | .types given => do
      Run.types workspace (← Run.present (TypesOptions.ofGiven? given))

theorem perform_eq (request : Request) (workspace : Workspace)
    : request.perform workspace
      = (Run.checkDemands workspace request.demands >>= fun _ =>
          request.run workspace).ending workspace.session := by
  cases request <;> rfl

/-- A request whose demands are met is carried out. -/
theorem perform_of_areMet {request : Request} (met : AreMet workspace request)
    : request.perform workspace = (request.run workspace).ending workspace.session := by
  have checked : Run.checkDemands workspace request.demands workspace.session
      = .ok () workspace.session :=
    Run.checkDemands_eq_ok.mpr ⟨met, rfl⟩
  rw [perform_eq, Run.ending_bind_of_ok checked]

theorem perform_types {options : TypesOptions} (met : AreMet workspace (.types wanted))
    (optioned : TypesOptions.ofGiven? wanted = some options)
    : (Request.types wanted).perform workspace
      = (Run.types workspace options).ending workspace.session := by
  rw [perform_of_areMet met, run, optioned]
  rfl

theorem perform_generate {options : GenerateOptions} (met : AreMet workspace (.generate given))
    (optioned : GenerateOptions.ofGiven? given = some options)
    : (Request.generate given).perform workspace
      = (Run.generate workspace options).ending workspace.session := by
  rw [perform_of_areMet met, run, optioned]
  rfl

/-- A generation that comes to its end has been carried out, and its demands were met. -/
theorem exists_generate_of_perform
    (done : ((Request.generate given).perform workspace).stop = none)
    : AreMet workspace (.generate given)
      ∧ ∃ options after,
          GenerateOptions.ofGiven? given = some options
          ∧ Run.generate workspace options workspace.session = .ok () after := by
  rw [perform_eq, Run.stop_ending_eq_none_iff] at done
  obtain ⟨after, done⟩ := done
  obtain ⟨_, between, checked, done⟩ := Run.bind_eq_ok.mp done
  obtain ⟨met, rfl⟩ := Run.checkDemands_eq_ok.mp checked
  obtain ⟨options, between, found, done⟩ := Run.bind_eq_ok.mp done
  refine ⟨met, options, after, ?_⟩
  cases optioned : GenerateOptions.ofGiven? given with
  | none =>
      rw [optioned] at found
      cases found
  | some other =>
      rw [optioned] at found
      cases found
      exact ⟨rfl, done⟩

def sharedWords : List String :=
  ["--schema", "--reference", "--config"]

def HaveSameFiles (given wanted : Given) : Prop :=
  ∀ word ∈ sharedWords, Table.get? wanted word = Table.get? given word

theorem demanded_of_types {demand : Demand × String}
    (demanded : demand ∈ (Request.types wanted).demands)
    : ∃ word,
        (word, demand.2) ∈ wanted
        ∧ ((word = "--schema" ∨ word = "--config") ∧ demand.1 = .file
          ∨ word = "--reference" ∧ demand.1 = .directory) := by
  obtain ⟨⟨word, value⟩, member, found⟩ := List.mem_filterMap.mp demanded
  refine ⟨word, ?_⟩
  simp only [Option.map_eq_some_iff] at found
  obtain ⟨kind, found, rfl⟩ := found
  refine ⟨member, ?_⟩
  by_cases schema : "--schema" = word
  · subst schema
    exact .inl ⟨.inl rfl, (Option.some.inj found).symm⟩
  by_cases reference : "--reference" = word
  · subst reference
    exact .inr ⟨rfl, (Option.some.inj found).symm⟩
  by_cases config : "--config" = word
  · subst config
    exact .inl ⟨.inr rfl, (Option.some.inj found).symm⟩
  · simp [sharedForms, OptionForm.valued, schema, reference, config] at found

/-- A listing on the files of a generation, with a checkout and not an archive, has its demands met
when those of the generation are met.
-/
theorem areMet_types (met : AreMet workspace (.generate given)) (unique : wanted.names.Nodup)
    (same : HaveSameFiles given wanted)
    (checkout
      : ∀ path, Table.get? given "--reference" = some path → workspace.isDirectory path = true)
    : AreMet workspace (.types wanted) := by
  have fromGiven {word value : String} {kind : Demand}
      (form
        : ((generateForms.find? fun form => form.word == word).bind OptionForm.demand) = some kind)
      (found : Table.get? given word = some value) : IsMet workspace (kind, value) := by
    apply met
    refine List.mem_filterMap.mpr ⟨(word, value), Table.mem_of_get? found, ?_⟩
    exact congrArg (Option.map fun kind => (kind, value)) form
  intro demand demanded
  obtain ⟨word, member, kinds⟩ := demanded_of_types demanded
  have found := (Table.get?_eq_some_iff unique).mpr member
  obtain ⟨kind, value⟩ := demand
  rcases kinds with ⟨rfl | rfl, rfl⟩ | ⟨rfl, rfl⟩
  · rw [same _ (by decide)] at found
    exact fromGiven rfl found
  · rw [same _ (by decide)] at found
    exact fromGiven rfl found
  · rw [same _ (by decide)] at found
    have either : IsMet workspace (.fileOrDirectory, value) := fromGiven rfl found
    exact ⟨fun _ => either.isPath rfl, checkout value found⟩

end Request

end RubySchema.Command
