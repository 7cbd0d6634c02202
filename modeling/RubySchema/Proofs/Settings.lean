import RubySchema.Proofs.Constants
import RubySchema.Proofs.Files

/-!
Settings that were accepted. They name modules by constant paths, which consist of words and colons
but for a line feed at their end, and directories by texts that do not begin with a slash.
-/

namespace RubySchema

open Text

/-- Settings that a document can give. -/
def Settings.IsAccepted (settings : Settings) : Prop :=
  ∃ entries, ofEntries entries = .ok settings

/-- A constant path consists of words and colons, but for a line feed at its end. -/
theorem Settings.exists_body_of_isConstantPath {text : List Char}
    (path : isConstantPath text = true)
    : ∃ body,
        (text = body ∨ text = body ++ ['\n']) ∧ ∀ c ∈ body, c = ':' ∨ isWord c = true := by
  rw [← String.toList_ofList (l := text)] at path
  obtain ⟨lead, constant, final, isConstant, leads, ends, whole⟩ :=
    Ruby.exists_constant_of_isConstantPath path
  have inLead : ∀ c ∈ lead.toList, c = ':' ∨ isWord c = true := by
    rcases leads with rfl | rfl <;> simp
  refine ⟨lead.toList ++ constant.toList, ?_, List.forall_mem_append.mpr ⟨inLead, isConstant.chars⟩⟩
  have spelled := congrArg String.toList whole
  rw [String.toList_ofList] at spelled
  rcases ends with rfl | rfl
  · exact .inl (by simpa using spelled)
  · exact .inr (by simpa using spelled)

theorem Settings.isConstantPath_free {text : List Char} (path : isConstantPath text = true)
    : ' ' ∉ text := by
  obtain ⟨body, form, words⟩ := exists_body_of_isConstantPath path
  have free : ' ' ∉ body := by
    intro member
    rcases words ' ' member with colon | word
    · cases colon
    · rw [Text.isWord_blank] at word
      cases word
  rcases form with rfl | rfl
  · exact free
  · simpa using free

/-- What a check ensures holds of an entry that has passed it, when it holds of the standard value.
-/
theorem Settings.of_checkEntry {α : Type} {entries : Table Json} {key : String} {usual found : α}
    {check : List String → Json → Checked α} (Holds : α → Prop) (standard : Holds usual)
    (ensures : ∀ place value result, check place value = .ok result → Holds result)
    (passed : checkEntry entries key usual check = .ok found) : Holds found := by
  unfold checkEntry at passed
  split at passed
  · cases passed
    exact standard
  · exact ensures _ _ _ passed

structure Settings.IsFrom (entries : Table Json) (settings : Settings) : Prop where
  namespaceName
    : checkEntry entries "namespace" standard.namespaceName checkConstantPath
      = .ok settings.namespaceName
  builtinNamespace
    : checkEntry entries "builtin_namespace" standard.builtinNamespace checkConstantPath
      = .ok settings.builtinNamespace
  maxDepth
    : checkEntry entries "max_depth" standard.maxDepth checkPositive = .ok settings.maxDepth
  overwrite
    : checkEntry entries "overwrite" standard.overwrite checkTruth = .ok settings.overwrite
  libDir : checkEntry entries "lib_dir" standard.libDir checkDirectory = .ok settings.libDir
  specDir : checkEntry entries "spec_dir" standard.specDir checkDirectory = .ok settings.specDir
  factories
    : checkEntry entries "factories" standard.factories (fun place => checkMap place checkTextIfAny)
      = .ok settings.factories
  baseTypeOverrides
    : checkEntry entries "base_type_overrides" standard.baseTypeOverrides
        (fun place => checkMap place checkText)
      = .ok settings.baseTypeOverrides
  templateDir
    : checkEntry entries "template_dir" standard.templateDir checkTextIfAny
      = .ok settings.templateDir

/-- Entries give settings exactly when all checks are passed. -/
theorem Settings.ofEntries_eq_ok_iff {entries : Table Json} {settings : Settings}
    : ofEntries entries = .ok settings ↔ settings.IsFrom entries := by
  unfold ofEntries
  dsimp only
  constructor
  · intro checked
    split at checked
    case isFalse => cases checked
    case isTrue =>
      simp only [bind_eq_ok] at checked
      obtain ⟨_, own, _, builtin, _, depth, _, overwrite, _, lib, _, spec, _, factories, _, bases,
        _, template, same⟩ := checked
      cases same
      exact ⟨own, builtin, depth, overwrite, lib, spec, factories, bases, template⟩
  · rintro ⟨own, builtin, depth, overwrite, lib, spec, factories, bases, template⟩
    rw [own, builtin, depth, overwrite, lib, spec, factories, bases, template]
    rfl

theorem Settings.isConstantPath_of_checkConstantPath {place : List String} {value : Json}
    {text : String} (passed : checkConstantPath place value = .ok text)
    : isConstantPath text.toList = true := by
  unfold checkConstantPath at passed
  obtain ⟨read, -, passed⟩ := bind_eq_ok.mp passed
  split at passed
  case isTrue valid =>
    cases passed
    exact valid
  case isFalse => cases passed

/-- Settings that were accepted name modules by constant paths. -/
theorem Settings.IsAccepted.isConstantPath {settings : Settings} (accepted : settings.IsAccepted)
    : isConstantPath settings.namespaceName.toList = true
      ∧ isConstantPath settings.builtinNamespace.toList = true := by
  obtain ⟨entries, checked⟩ := accepted
  have passed := ofEntries_eq_ok_iff.mp checked
  have passes {key usual text : String} (standard : Settings.isConstantPath usual.toList = true)
      (passed : checkEntry entries key usual checkConstantPath = .ok text)
      : Settings.isConstantPath text.toList = true :=
    of_checkEntry (fun text : String => Settings.isConstantPath text.toList = true) standard
      (fun _ _ _ => isConstantPath_of_checkConstantPath) passed
  exact ⟨passes (by decide) passed.namespaceName, passes (by decide) passed.builtinNamespace⟩

/-- The module of the built-in types has no blank under settings that were accepted. -/
theorem Settings.IsAccepted.builtinNamespace_free {settings : Settings}
    (accepted : settings.IsAccepted) : ' ' ∉ settings.builtinNamespace.toList :=
  isConstantPath_free accepted.isConstantPath.2

/-- A text that was trimmed at both ends does not begin with a character that was dropped. -/
theorem Text.head?_trim_ne {drop : Char → Bool} {c : Char} (dropped : drop c = true)
    (text : List Char) : (trim drop text).head? ≠ some c := by
  intro first
  obtain ⟨rest, whole⟩ : trim drop text <+: text.dropWhile drop := by
    rw [trim, trimEnd, ← List.reverse_suffix, List.reverse_reverse]
    exact List.dropWhile_suffix drop
  have kept := List.head?_dropWhile_not drop text
  rw [← whole, List.head?_append, first] at kept
  simp [dropped] at kept

/-- A directory that has passed its check does not begin with a slash. -/
theorem Settings.relative_of_checkDirectory {place : List String} {value : Json} {text : String}
    (passed : checkDirectory place value = .ok text) : startsWith text "/" = false := by
  unfold checkDirectory at passed
  obtain ⟨read, -, passed⟩ := bind_eq_ok.mp passed
  split at passed
  case isTrue => cases passed
  case isFalse =>
    cases passed
    rw [Path.startsWith_slash_eq_false, String.toList_ofList]
    exact head?_trim_ne (c := '/') rfl read.toList

/-- The directories of settings that were accepted do not begin with slashes. -/
theorem Settings.IsAccepted.relative {settings : Settings} (accepted : settings.IsAccepted)
    : startsWith settings.libDir "/" = false ∧ startsWith settings.specDir "/" = false := by
  obtain ⟨entries, checked⟩ := accepted
  have passed := ofEntries_eq_ok_iff.mp checked
  have passes {key usual text : String} (standard : startsWith usual "/" = false)
      (passed : checkEntry entries key usual checkDirectory = .ok text)
      : startsWith text "/" = false :=
    of_checkEntry (fun text : String => startsWith text "/" = false) standard
      (fun _ _ _ => relative_of_checkDirectory) passed
  exact ⟨passes (by decide) passed.libDir, passes (by decide) passed.specDir⟩

end RubySchema
