import Mathlib.Data.List.DropRight
import RubySchema.Proofs.Settings
import RubySchema.Proofs.Table

/-!
Each of the settings that were accepted passes its check again as it stands. A check reads a value
that is written in one of several ways, and may change it, but what it has come to passes it
unchanged.
-/

namespace RubySchema

namespace Text

/-- A text that was trimmed stays as it is when it is trimmed again. -/
theorem trim_trim (drop : Char → Bool) (text : List Char)
    : trim drop (trim drop text) = trim drop text := by
  have kept : (trim drop text).dropWhile drop = trim drop text := by
    rw [List.dropWhile_eq_self_iff]
    intro filled dropped
    exact head?_trim_ne dropped text (by rw [List.head?_eq_getElem?, List.getElem?_eq_getElem])
  rw [trim, kept]
  exact List.rdropWhile_idempotent drop _

end Text

namespace Table

variable {α : Type}

/-- An entry of a table that others were written over is its own, or one of those. -/
theorem mem_foldl_put {entries table : Table α} {entry : String × α}
    (member : entry ∈ entries.foldl (fun table entry => table.put entry.1 entry.2) table)
    : entry ∈ table ∨ entry ∈ entries := by
  induction entries generalizing table with
  | nil => exact .inl member
  | cons first rest ih =>
      rcases ih member with written | later
      · rcases mem_put written with rfl | earlier
        · exact .inr List.mem_cons_self
        · exact .inl earlier
      · exact .inr (List.mem_cons_of_mem first later)

theorem nodup_names_ofEntries (entries : List (String × α)) : (ofEntries entries).names.Nodup := by
  have general (table : Table α) (unique : table.names.Nodup)
      : (entries.foldl (fun table entry => table.put entry.1 entry.2) table).names.Nodup := by
    induction entries generalizing table with
    | nil => exact unique
    | cons first rest ih => exact ih _ (nodup_names_put unique _ _)
  exact general [] List.nodup_nil

/-- A table without repeated names is made of its own entries. -/
theorem ofEntries_of_nodup {table : Table α} (unique : table.names.Nodup)
    : ofEntries table = table := by
  rw [← List.nil_append table] at unique
  exact foldl_put_of_nodup unique

end Table

namespace Settings

open Text

-----------------------------------------------------------------------------------------
-- Checks
-----------------------------------------------------------------------------------------

section
variable {α : Type} {check : List String → Json → Checked α} {write : α → Json}
variable {place : List String} {value : Json}

/-- A value passes a check unchanged as it is written, wherever it stands. -/
def IsSettled (check : List String → Json → Checked α) (write : α → Json) (value : α) : Prop :=
  ∀ place, check place (write value) = .ok value

theorem isSettled_of_checkConstantPath {text : String}
    (passed : checkConstantPath place value = .ok text)
    : IsSettled checkConstantPath .string text :=
  fun _ => if_pos (isConstantPath_of_checkConstantPath passed)

/-- A positive integer is settled as a number. -/
theorem isSettled_of_checkPositive {number : Int} (passed : checkPositive place value = .ok number)
    : IsSettled checkPositive (.number <| .integer ·) number := by
  obtain ⟨read, -, passed⟩ := bind_eq_ok.mp passed
  split at passed
  case isTrue => cases passed
  case isFalse positive =>
    cases passed
    exact fun _ => if_neg positive

theorem isSettled_truth (truth : Bool) : IsSettled checkTruth .bool truth :=
  fun _ => rfl

theorem isSettled_text (text : String) : IsSettled checkText .string text :=
  fun _ => rfl

theorem isSettled_textIfAny (text : Option String)
    : IsSettled checkTextIfAny Json.ofText? text := by
  cases text <;> exact fun _ => rfl

theorem checkDirectory_string (place : List String) (text : String)
    : checkDirectory place (.string text)
      = if startsWith text "/" then fault place .absoluteDirectory
        else .ok (String.ofList (trim (· == '/') text.toList)) :=
  rfl

/-- A directory is settled: its slashes were dropped from both ends. -/
theorem isSettled_of_checkDirectory {text : String}
    (passed : checkDirectory place value = .ok text) : IsSettled checkDirectory .string text := by
  have relative := relative_of_checkDirectory passed
  obtain ⟨read, -, passed⟩ := bind_eq_ok.mp passed
  split at passed
  case isTrue => cases passed
  case isFalse =>
    cases passed
    intro place
    rw [checkDirectory_string, relative, if_neg Bool.false_ne_true, String.toList_ofList, trim_trim]

def writeMap (write : α → Json) (table : Table α) : Json :=
  .object (table.map fun entry => (entry.1, write entry.2))

/-- A map has one value for each key, and each of them has passed its check. -/
theorem of_checkMap {table : Table α} (passed : checkMap place check value = .ok table)
    : table.names.Nodup ∧ ∀ entry ∈ table, ∃ place value, check place value = .ok entry.2 := by
  unfold checkMap at passed
  split at passed
  case h_2 => cases passed
  case h_1 entries =>
    dsimp only at passed
    split at passed
    case isFalse => cases passed
    case isTrue =>
      cases passed
      refine ⟨Table.nodup_names_ofEntries _, fun entry member => ?_⟩
      have among := (Table.mem_foldl_put member).resolve_left List.not_mem_nil
      obtain ⟨outcome, made, kept⟩ := List.mem_filterMap.mp among
      obtain ⟨written, -, rfl⟩ := List.mem_map.mp made
      obtain ⟨found, isValue, rfl⟩ := Option.map_eq_some_iff.mp kept
      exact ⟨_, written.2, toOption_eq_some_iff.mp isValue⟩

/-- A map is settled when the values of its check are. -/
theorem isSettled_of_checkMap {table : Table α}
    (settled : ∀ place value result, check place value = .ok result → IsSettled check write result)
    (passed : checkMap place check value = .ok table)
    : IsSettled (fun place => checkMap place check) (writeMap write) table := by
  obtain ⟨unique, each⟩ := of_checkMap passed
  intro place
  have outcomes
      : (table.map fun entry => (entry.1, write entry.2)).map
          (fun entry => (entry.1, check (place ++ [shown entry.1]) entry.2))
        = table.map fun entry => (entry.1, .ok entry.2) := by
    rw [List.map_map]
    apply List.map_congr_left
    intro entry member
    obtain ⟨place, value, passed⟩ := each entry member
    exact congrArg (entry.1, ·) (settled _ _ _ passed _)
  have noIssues
      : (table.map fun entry => (entry.1, (.ok entry.2 : Checked α))).flatMap
          (fun outcome => issuesOf outcome.2)
        = [] := by
    simp [List.flatMap_map, issuesOf]
  have values
      : (table.map fun entry => (entry.1, (.ok entry.2 : Checked α))).filterMap
          (fun outcome => outcome.2.toOption.map fun value => (outcome.1, value))
        = table := by
    simp [List.filterMap_map, Except.toOption]
  simp only [writeMap, checkMap]
  rw [outcomes, noIssues, values, Table.ofEntries_of_nodup unique]
  rfl

end

-----------------------------------------------------------------------------------------
-- Settings
-----------------------------------------------------------------------------------------

structure IsStable (settings : Settings) : Prop where
  namespaceName : IsSettled checkConstantPath .string settings.namespaceName
  builtinNamespace : IsSettled checkConstantPath .string settings.builtinNamespace
  maxDepth : IsSettled checkPositive (.number <| .integer ·) settings.maxDepth
  overwrite : IsSettled checkTruth .bool settings.overwrite
  libDir : IsSettled checkDirectory .string settings.libDir
  specDir : IsSettled checkDirectory .string settings.specDir
  factories
    : IsSettled (fun place => checkMap place checkTextIfAny) (writeMap Json.ofText?)
        settings.factories
  baseTypeOverrides
    : IsSettled (fun place => checkMap place checkText) (writeMap .string)
        settings.baseTypeOverrides
  templateDir : IsSettled checkTextIfAny Json.ofText? settings.templateDir

variable {settings : Settings}

/-- Settings that were accepted are stable: each was settled by its check, or is standard. -/
theorem IsAccepted.isStable (accepted : settings.IsAccepted) : settings.IsStable := by
  obtain ⟨entries, checked⟩ := accepted
  have passed := ofEntries_eq_ok_iff.mp checked
  have path {key usual text : String} (standard : Settings.isConstantPath usual.toList = true)
      (passed : checkEntry entries key usual checkConstantPath = .ok text)
      : IsSettled checkConstantPath .string text :=
    of_checkEntry (IsSettled checkConstantPath .string) (fun _ => if_pos standard)
      (fun _ _ _ => isSettled_of_checkConstantPath) passed
  have directory {key usual text : String}
      (standard : ∀ place, checkDirectory place (.string usual) = .ok usual)
      (passed : checkEntry entries key usual checkDirectory = .ok text)
      : IsSettled checkDirectory .string text :=
    of_checkEntry (IsSettled checkDirectory .string) standard
      (fun _ _ _ => isSettled_of_checkDirectory) passed
  constructor
  case namespaceName => exact path (by decide) passed.namespaceName
  case builtinNamespace => exact path (by decide) passed.builtinNamespace
  case maxDepth =>
    exact of_checkEntry (IsSettled checkPositive (.number <| .integer ·)) (fun _ => rfl)
      (fun _ _ _ => isSettled_of_checkPositive) passed.maxDepth
  case overwrite => exact isSettled_truth settings.overwrite
  case libDir => exact directory (fun _ => rfl) passed.libDir
  case specDir => exact directory (fun _ => rfl) passed.specDir
  case factories =>
    exact of_checkEntry
      (IsSettled (fun place => checkMap place checkTextIfAny) (writeMap Json.ofText?))
      (fun _ => rfl)
      (fun _ _ _ => isSettled_of_checkMap fun _ _ result _ => isSettled_textIfAny result)
      passed.factories
  case baseTypeOverrides =>
    exact of_checkEntry
      (IsSettled (fun place => checkMap place checkText) (writeMap .string)) (fun _ => rfl)
      (fun _ _ _ => isSettled_of_checkMap fun _ _ result _ => isSettled_text result)
      passed.baseTypeOverrides
  case templateDir => exact isSettled_textIfAny settings.templateDir

end Settings

end RubySchema
