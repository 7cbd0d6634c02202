import RubySchema.Proofs.Command.Steps
import RubySchema.Proofs.Settings.Stability

/-!
The settings of a file come to themselves when they are checked again, and values that are given for
some of them replace these and no others. Options of generation replace entries of their own, and so
settings that are in order with the options are in order without them, and then say the same on
everything else.
-/

namespace RubySchema

namespace Settings

variable {settings base : Settings} {changes : Table Json}

def replaceable : List String :=
  ["namespace", "max_depth", "overwrite", "template_dir"]

-----------------------------------------------------------------------------------------
-- Values in place of others
-----------------------------------------------------------------------------------------

/-- Values for the settings that can be replaced; one that is missing replaces nothing. -/
structure Overrides where
  namespaceName : Option String
  maxDepth : Option Int
  overwrite : Option Bool
  templateDir : Option String
  deriving DecidableEq, Repr

def Overrides.replace (overrides : Overrides) (settings : Settings) : Settings :=
  { settings with
    namespaceName := overrides.namespaceName.getD settings.namespaceName
    maxDepth := overrides.maxDepth.getD settings.maxDepth
    overwrite := overrides.overwrite.getD settings.overwrite
    templateDir := overrides.templateDir.or settings.templateDir }

/-- The value that entries give under a key, if they have one there; the last of several counts. -/
def checkGiven {α : Type} (changes : Table Json) (key : String)
    (check : List String → Json → Checked α) : Checked (Option α) :=
  checkEntry (Table.ofEntries changes) key none fun place value => some <$> check place value

/-- Entries give values for settings that can be replaced, and each passes the check of its setting.
Null is no value for a directory of templates.
-/
structure Overrides.AreGivenBy (changes : Table Json) (overrides : Overrides) : Prop where
  only : ∀ name ∈ changes.names, name ∈ replaceable
  namespaceName : checkGiven changes "namespace" checkConstantPath = .ok overrides.namespaceName
  maxDepth : checkGiven changes "max_depth" checkPositive = .ok overrides.maxDepth
  overwrite : checkGiven changes "overwrite" checkTruth = .ok overrides.overwrite
  templateDir : checkGiven changes "template_dir" checkText = .ok overrides.templateDir

section
variable {α : Type} {key : String} {check : List String → Json → Checked α}
variable {write : α → Json} {usual current : α} {given : Option α}

theorem checkGiven_of_not_mem (absent : key ∉ changes.names)
    : checkGiven changes key check = .ok none := by
  unfold checkGiven checkEntry
  rw [Table.get?_ofEntries_eq_none absent]

/-- Values that pass a check as they are written are given by entries that write them. -/
theorem checkGiven_of_get? (written : Table.get? (Table.ofEntries changes) key = given.map write)
    (passes : ∀ value ∈ given, check [key] (write value) = .ok value)
    : checkGiven changes key check = .ok given := by
  unfold checkGiven checkEntry
  rw [written]
  cases given with
  | none => rfl
  | some value =>
      simp only [Option.map_some, passes value rfl]
      rfl

/-- Entries give no value, or one that has passed the check. -/
theorem cases_of_checkGiven (passed : checkGiven changes key check = .ok given)
    : (Table.get? (Table.ofEntries changes) key = none ∧ given = none)
      ∨ ∃ value result,
          Table.get? (Table.ofEntries changes) key = some value
          ∧ check [key] value = .ok result
          ∧ given = some result := by
  unfold checkGiven checkEntry at passed
  split at passed
  case h_1 absent =>
    cases passed
    exact .inl ⟨absent, rfl⟩
  case h_2 value found =>
    cases checked : check [key] value with
    | error issues =>
        simp only [checked] at passed
        cases passed
    | ok result =>
        simp only [checked] at passed
        cases passed
        exact .inr ⟨value, result, found, checked, rfl⟩

/-- Where entries stand over those of settings, a given value counts in place of one that passes its
check unchanged.
-/
theorem checkEntry_of_given (own : Table.get? base.entries key = some (write current))
    (settled : IsSettled check write current) (passed : checkGiven changes key check = .ok given)
    : checkEntry
          (changes.foldl (fun entries change => Table.put entries change.1 change.2) base.entries)
          key usual check
        = .ok (given.getD current) := by
  unfold checkEntry
  rw [Table.get?_foldl_put, own]
  rcases cases_of_checkGiven passed with ⟨absent, rfl⟩ | ⟨value, result, found, checked, rfl⟩
  · rw [absent]
    exact settled [key]
  · rw [found]
    exact checked

/-- Where entries replace nothing but what they may, others count as they stood. -/
theorem checkEntry_of_fixed (own : Table.get? base.entries key = some (write current))
    (settled : IsSettled check write current) (only : ∀ name ∈ changes.names, name ∈ replaceable)
    (fixed : key ∉ replaceable)
    : checkEntry
          (changes.foldl (fun entries change => Table.put entries change.1 change.2) base.entries)
          key usual check
        = .ok current :=
  checkEntry_of_given own settled (checkGiven_of_not_mem fun member => fixed (only key member))

theorem checkGiven_textIfAny {given : Option String}
    (passed : checkGiven changes key checkText = .ok given)
    : checkGiven changes key checkTextIfAny = .ok (given.map some) := by
  unfold checkGiven checkEntry
  rcases cases_of_checkGiven passed with ⟨absent, rfl⟩ | ⟨value, result, found, checked, rfl⟩
  · rw [absent]
    rfl
  · rw [found]
    cases value <;> cases checked
    rfl

end

/-- Entries over those of accepted settings are accepted, and their values replace others. -/
theorem IsAccepted.withEntries_eq {overrides : Overrides} (accepted : base.IsAccepted)
    (given : overrides.AreGivenBy changes)
    : base.withEntries changes = .ok (overrides.replace base) := by
  have stable := accepted.isStable
  have template
      : (overrides.templateDir.map some).getD base.templateDir
        = overrides.templateDir.or base.templateDir := by
    cases overrides.templateDir <;> rfl
  exact ofEntries_eq_ok_iff.mpr {
    namespaceName := checkEntry_of_given rfl stable.namespaceName given.namespaceName
    builtinNamespace := checkEntry_of_fixed rfl stable.builtinNamespace given.only (by decide)
    maxDepth := checkEntry_of_given rfl stable.maxDepth given.maxDepth
    overwrite := checkEntry_of_given rfl stable.overwrite given.overwrite
    libDir := checkEntry_of_fixed rfl stable.libDir given.only (by decide)
    specDir := checkEntry_of_fixed rfl stable.specDir given.only (by decide)
    factories := checkEntry_of_fixed rfl stable.factories given.only (by decide)
    baseTypeOverrides := checkEntry_of_fixed rfl stable.baseTypeOverrides given.only (by decide)
    templateDir :=
      (checkEntry_of_given rfl stable.templateDir (checkGiven_textIfAny given.templateDir)).trans
        (congrArg Except.ok template)
  }

/-- Where no entries are, no values are given. -/
theorem Overrides.areGivenBy_nil : (⟨none, none, none, none⟩ : Overrides).AreGivenBy [] :=
  ⟨fun _ member => (nomatch member), rfl, rfl, rfl, rfl⟩

/-- Settings that were accepted are accepted again from their own entries, and nothing changes. -/
theorem IsAccepted.withEntries_nil (accepted : base.IsAccepted) : base.withEntries [] = .ok base :=
  accepted.withEntries_eq Overrides.areGivenBy_nil

theorem IsAccepted.ofDocument_entries (accepted : base.IsAccepted)
    : ofDocument (.object base.entries) = .ok base := by
  have names
      : base.entries.names
        = [
            "namespace", "builtin_namespace", "max_depth", "overwrite", "lib_dir", "spec_dir",
            "factories", "base_type_overrides", "template_dir"
          ] :=
    rfl
  have unique : base.entries.names.Nodup := by
    rw [names]
    decide
  rw [ofDocument, Table.ofEntries_of_nodup unique]
  exact accepted.withEntries_nil

/-- Settings in which given values stand are accepted too. -/
theorem IsAccepted.replace {overrides : Overrides} (accepted : base.IsAccepted)
    (given : overrides.AreGivenBy changes) : (overrides.replace base).IsAccepted :=
  ⟨_, accepted.withEntries_eq given⟩

/-- Entries for settings that can be replaced leave the others as they are. -/
theorem IsAccepted.kept_of_withEntries (accepted : base.IsAccepted)
    (only : ∀ name ∈ changes.names, name ∈ replaceable)
    (changed : base.withEntries changes = .ok settings)
    : base.builtinNamespace = settings.builtinNamespace
      ∧ base.baseTypeOverrides = settings.baseTypeOverrides := by
  have stable := accepted.isStable
  have passed := ofEntries_eq_ok_iff.mp changed
  have builtin :=
    passed.builtinNamespace.symm.trans
      (checkEntry_of_fixed rfl stable.builtinNamespace only (by decide))
  have bases :=
    passed.baseTypeOverrides.symm.trans
      (checkEntry_of_fixed rfl stable.baseTypeOverrides only (by decide))
  exact ⟨(Except.ok.inj builtin).symm, (Except.ok.inj bases).symm⟩

theorem isAccepted_standard : standard.IsAccepted :=
  ⟨[], rfl⟩

theorem isAccepted_of_ofText {text : String} (given : ofText text = .ok settings)
    : settings.IsAccepted := by
  unfold ofText at given
  split at given
  case h_1 => cases given
  case h_2 document read =>
    unfold ofDocument at given
    split at given
    case h_1 entries => exact ⟨_, given⟩
    case h_2 => cases given

end Settings

namespace Command.Run

open Settings Text

variable {workspace : Workspace} {config : Option String} {changes : Table Json}
  {found : Settings}

/-- Settings come from settings that were accepted, with their changes. -/
theorem exists_base_of_settingsFrom? (given : settingsFrom? workspace config changes = some found)
    : ∃ base : RubySchema.Settings,
        base.IsAccepted
        ∧ base.withEntries changes = .ok found
        ∧ ∀ others,
            settingsFrom? workspace config others = (base.withEntries others).toOption := by
  unfold settingsFrom? at given ⊢
  cases config with
  | none => exact ⟨.standard, isAccepted_standard, toOption_eq_some_iff.mp given, fun _ => rfl⟩
  | some path =>
      obtain ⟨text, read, given⟩ := Option.bind_eq_some_iff.mp given
      obtain ⟨base, accepted, given⟩ := Option.bind_eq_some_iff.mp given
      refine ⟨base, isAccepted_of_ofText (toOption_eq_some_iff.mp accepted),
        toOption_eq_some_iff.mp given, fun others => ?_⟩
      simp only [read, accepted, Option.bind_eq_bind, Option.bind_some]

theorem replaceable_of_changesOf (options : GenerateOptions)
    : ∀ name ∈ (changesOf options).names, name ∈ replaceable := by
  unfold changesOf Table.names
  cases options.namespaceName <;> cases options.maxDepth <;> cases options.keepsFiles
    <;> cases options.templateDir <;> simp [replaceable]

/-- Settings with options of generation are in order without them too, and then say the same of
built-in types and base classes.
-/
theorem exists_settingsFrom?_nil {options : GenerateOptions}
    (given : settingsFrom? workspace config (changesOf options) = some found)
    : ∃ plain,
        settingsFrom? workspace config [] = some plain
        ∧ plain.builtinNamespace = found.builtinNamespace
        ∧ plain.baseTypeOverrides = found.baseTypeOverrides := by
  obtain ⟨base, accepted, changed, fromBase⟩ := exists_base_of_settingsFrom? given
  have plain := toOption_eq_some_iff.mpr accepted.withEntries_nil
  exact ⟨base, (fromBase []).trans plain,
    accepted.kept_of_withEntries (replaceable_of_changesOf options) changed⟩

-----------------------------------------------------------------------------------------
-- Settings of a file
-----------------------------------------------------------------------------------------

/-- The values that options of generation put in place of others. An option never asks for files to
be overwritten.
-/
def overridesOf (options : GenerateOptions) : Overrides :=
  {
    namespaceName := options.namespaceName
    maxDepth := options.maxDepth.map fun depth : Nat => (depth : Int)
    overwrite := if options.keepsFiles then some false else none
    templateDir := options.templateDir
  }

/-- The entries for options of generation write their values. -/
theorem get?_changesOf (options : GenerateOptions)
    : let written := Table.ofEntries (changesOf options)
      let values := overridesOf options
      Table.get? written "namespace" = values.namespaceName.map .string
      ∧ Table.get? written "max_depth" = values.maxDepth.map (.number <| .integer ·)
      ∧ Table.get? written "overwrite" = values.overwrite.map .bool
      ∧ Table.get? written "template_dir" = values.templateDir.map .string := by
  unfold changesOf overridesOf
  cases options.namespaceName <;> cases options.maxDepth <;> cases options.keepsFiles
    <;> cases options.templateDir <;> exact ⟨rfl, rfl, rfl, rfl⟩

/-- Options of generation give their values when these are in order. -/
theorem areGivenBy_changesOf {options : GenerateOptions}
    (named : ∀ name ∈ options.namespaceName, Settings.isConstantPath name.toList = true)
    (positive : ∀ depth ∈ options.maxDepth, 0 < depth)
    : (overridesOf options).AreGivenBy (changesOf options) := by
  obtain ⟨name, depth, truth, directory⟩ := get?_changesOf options
  refine ⟨replaceable_of_changesOf options, checkGiven_of_get? name ?_, checkGiven_of_get? depth ?_,
    checkGiven_of_get? truth fun _ _ => rfl, checkGiven_of_get? directory fun _ _ => rfl⟩
  · exact fun name given => if_pos (named name given)
  · intro number given
    simp only [overridesOf, Option.mem_def, Option.map_eq_some_iff] at given
    obtain ⟨count, counted, rfl⟩ := given
    have := positive count counted
    exact if_neg (by omega)

/-- The settings of a file come to themselves by command, and their own entries are accepted without
a change. Values that are given for some of them replace these and no others.
-/
theorem stable_settings_of_file {path text : String} {base : RubySchema.Settings}
    (held : workspace.read? path = some text)
    (accepted : Settings.ofText (readText text) = .ok base)
    : settingsFrom? workspace (some path) [] = some base
      ∧ Settings.ofDocument (.object base.entries) = .ok base
      ∧ ∀ changes overrides,
          Overrides.AreGivenBy changes overrides →
            settingsFrom? workspace (some path) changes = some (overrides.replace base)
            ∧ Settings.ofDocument (.object (overrides.replace base).entries)
              = .ok (overrides.replace base) := by
  have isAccepted := isAccepted_of_ofText accepted
  have fromBase (changes : Table Json)
      : settingsFrom? workspace (some path) changes = (base.withEntries changes).toOption := by
    simp only [settingsFrom?, held, accepted, Option.bind_eq_bind, Option.bind_some,
      Except.toOption]
  refine ⟨?_, isAccepted.ofDocument_entries, fun changes overrides given => ⟨?_, ?_⟩⟩
  · rw [fromBase, isAccepted.withEntries_nil]
    rfl
  · rw [fromBase, isAccepted.withEntries_eq given]
    rfl
  · exact (isAccepted.replace given).ofDocument_entries

def laxText : String :=
  "\x7b\"max_depth\":\" 7.0\",\"overwrite\":\"YES\",\"lib_dir\":\"lib//\","
    ++ "\"factories\":\x7b\"s\":\"x\",\"s\":null\x7d\x7d"

def laxFile : Workspace :=
  {
    home := ["/"]
    scratch := ["/", "x"]
    tree := { files := [(["/", "c"], laxText)] }
    archives := []
  }

def laxBase : RubySchema.Settings :=
  { Settings.standard with maxDepth := 7, libDir := "lib", factories := [("s", none)] }

def keepingOptions : GenerateOptions :=
  {
    schema := "s"
    reference := "r"
    output := "."
    config := some "c"
    namespaceName := none
    maxDepth := some 2
    keepsFiles := true
    templateDir := none
    header := none
    excludePrefix := none
    report := none
    isVerbose := false
  }

theorem stable_settings_of_laxFile
    : (laxFile.read? "c" = some laxText ∧ Settings.ofText (readText laxText) = .ok laxBase)
      ∧ settingsFrom? laxFile (some "c") [] = some laxBase
      ∧ Settings.ofDocument (.object laxBase.entries) = .ok laxBase
      ∧ settingsFrom? laxFile (some "c") (changesOf keepingOptions)
        = some { laxBase with maxDepth := 2, overwrite := false } := by
  have held : laxFile.read? "c" = some laxText := rfl
  have accepted : Settings.ofText (readText laxText) = .ok laxBase := by decide +kernel
  have given : (overridesOf keepingOptions).AreGivenBy (changesOf keepingOptions) :=
    areGivenBy_changesOf (fun _ none => nomatch none) (by decide)
  obtain ⟨plain, again, replaced⟩ := stable_settings_of_file held accepted
  exact ⟨⟨held, accepted⟩, plain, again, (replaced _ _ given).1⟩

end Command.Run

end RubySchema
