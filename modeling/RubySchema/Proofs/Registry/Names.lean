import Mathlib.Data.List.TakeWhile
import RubySchema.Proofs.Outcome
import RubySchema.Proofs.Registry.Places
import RubySchema.Reference

/-!
Characters of generated names. The place of a type within its category consists of characters of the
type's name, so it has no blank unless that name has one. The name of a built-in type is a word.
-/

namespace RubySchema

open Text

/-- A name of letters, digits and underscores. -/
def TypeName.IsGraphQL (name : String) : Prop :=
  ∀ c ∈ name.toList, (isCapital c || isSmall c || isAsciiDigit c || c == '_') = true

instance : DecidablePred TypeName.IsGraphQL := fun name =>
  decidable_of_iff (name.toList.all fun c => isCapital c || isSmall c || isAsciiDigit c || c == '_')
    List.all_eq_true

/-- Characters of usual names are ASCII. -/
theorem Text.toNat_lt_of_usual {c : Char}
    (usual : (isCapital c || isSmall c || isAsciiDigit c || c == '_') = true) : c.toNat < 128 := by
  simp only [isCapital, isSmall, isAsciiDigit, Bool.or_eq_true, Bool.and_eq_true,
    decide_eq_true_eq, beq_iff_eq] at usual
  rcases usual with ((⟨-, bound⟩ | ⟨-, bound⟩) | ⟨-, bound⟩) | rfl
  · exact Nat.lt_of_le_of_lt (UInt32.le_iff_toNat_le.mp bound) (by decide)
  · exact Nat.lt_of_le_of_lt (UInt32.le_iff_toNat_le.mp bound) (by decide)
  · exact Nat.lt_of_le_of_lt (UInt32.le_iff_toNat_le.mp bound) (by decide)
  · decide

theorem Text.isWord_of_usual {c : Char}
    (usual : (isCapital c || isSmall c || isAsciiDigit c || c == '_') = true)
    : isWord c = true := by
  rwa [isWord, if_pos (toNat_lt_of_usual usual)]

/-- No character of a word ends a line. -/
theorem Text.isLineBreak_of_isWord {c : Char} (word : isWord c = true)
    : isLineBreak c = false := by
  by_contra breaks
  have points
      : c.toNat ∈ [10, 11, 12, 13, 28, 29, 30, 0x85, 0x2028, 0x2029] := by
    simp only [isLineBreak, Bool.not_eq_false, Bool.or_eq_true, Bool.and_eq_true,
      decide_eq_true_eq, beq_iff_eq] at breaks
    simp only [List.mem_cons, List.not_mem_nil, or_false]
    omega
  have none : ∀ n ∈ [10, 11, 12, 13, 28, 29, 30, 0x85, 0x2028, 0x2029],
      isWord (Char.ofNat n) = false := by
    decide +kernel
  have here := none c.toNat points
  rw [Char.ofNat_toNat, word] at here
  cases here

/-- A text is cut in front of its end exactly when it has that end. -/
theorem Text.beforeEnd?_eq_some_iff {final text rest : List Char}
    : beforeEnd? final text = some rest ↔ text = rest ++ final := by
  unfold beforeEnd?
  constructor
  · intro found
    split at found
    case isTrue ends =>
      obtain ⟨front, rfl⟩ := List.isSuffixOf_iff_suffix.mp ends
      simp only [List.length_append, Nat.add_sub_cancel, List.take_left', Option.some.injEq]
        at found
      rw [found]
    case isFalse => cases found
  · rintro rfl
    rw [if_pos (List.isSuffixOf_iff_suffix.mpr (List.suffix_append rest final))]
    simp

theorem Text.beforeEnd?_subset {final text rest : List Char}
    (found : beforeEnd? final text = some rest) : rest ⊆ text :=
  beforeEnd?_eq_some_iff.mp found ▸ List.subset_append_left rest final

theorem Text.subset_of_beforeEnd? {final text rest : List Char}
    (found : beforeEnd? final text = some rest) : final ⊆ text :=
  beforeEnd?_eq_some_iff.mp found ▸ List.subset_append_right rest final

namespace TypeName

/-- Types have usual names when all their names together are usual. -/
theorem isGraphQL_of_names {types : List TypeDef} {names : List String}
    (named : types.map TypeDef.name = names.map .string) (usual : ∀ name ∈ names, IsGraphQL name)
    : ∀ type ∈ types, ∃ name, type.name = .string name ∧ IsGraphQL name := by
  intro type member
  have among := List.mem_map_of_mem (f := TypeDef.name) member
  rw [named] at among
  obtain ⟨name, isName, same⟩ := List.mem_map.mp among
  exact ⟨name, same.symm, usual name isName⟩

/-- A name is split into parts of it. -/
theorem splitFinalBreak_subset (name : List Char)
    : (splitFinalBreak name).1 ⊆ name ∧ (splitFinalBreak name).2 ⊆ name := by
  unfold splitFinalBreak
  split
  case h_1 rest found =>
    exact ⟨Text.beforeEnd?_subset found, Text.subset_of_beforeEnd? found⟩
  case h_2 => exact ⟨List.Subset.refl name, List.nil_subset name⟩

theorem splitVersion_subset (name : List Char)
    : (splitVersion name).1 ⊆ name ∧ (splitVersion name).2 ⊆ name := by
  have digits : (name.reverse.takeWhile isDecimal).reverse ⊆ name := by
    intro c member
    have among := List.takeWhile_subset _ (List.mem_reverse.mp member)
    exact List.mem_reverse.mp among
  have trimmed : trimEnd isDecimal name ⊆ name := by
    intro c member
    have among := (List.dropWhile_suffix isDecimal).subset (List.mem_reverse.mp member)
    exact List.mem_reverse.mp among
  unfold splitVersion
  dsimp only
  split
  · exact ⟨List.Subset.refl name, List.nil_subset name⟩
  case h_2 stem found _ =>
    have mark : 'V' ∈ name := trimmed (Text.subset_of_beforeEnd? found List.mem_cons_self)
    exact ⟨List.Subset.trans (Text.beforeEnd?_subset found) trimmed,
      List.cons_subset.mpr ⟨mark, digits⟩⟩
  · exact ⟨List.Subset.refl name, List.nil_subset name⟩

theorem withoutWord?_subset {word name stem : List Char}
    (found : withoutWord? word name = some stem) : stem ⊆ name := by
  obtain ⟨body, final⟩ := splitFinalBreak_subset name
  obtain ⟨front, version⟩ := splitVersion_subset (splitFinalBreak name).1
  unfold withoutWord? at found
  dsimp only at found
  split at found
  case h_1 rest before =>
    cases found
    have start := List.Subset.trans (Text.beforeEnd?_subset before) body
    exact List.append_subset.mpr ⟨start, final⟩
  case h_2 =>
    obtain ⟨rest, before, rfl⟩ := Option.map_eq_some_iff.mp found
    have start := List.Subset.trans (Text.beforeEnd?_subset before) (List.Subset.trans front body)
    have last := List.Subset.trans version body
    exact List.append_subset.mpr ⟨List.append_subset.mpr ⟨start, last⟩, final⟩

theorem withoutInterface_subset (name : List Char) : withoutInterface name ⊆ name := by
  obtain ⟨body, final⟩ := splitFinalBreak_subset name
  unfold withoutInterface
  dsimp only
  split
  case h_1 stem before =>
    have start := List.Subset.trans (Text.beforeEnd?_subset before) body
    exact List.append_subset.mpr ⟨start, final⟩
  case h_2 => exact List.Subset.refl name

/-- The name of a type within its category consists of characters of its name. -/
theorem categorize_subset (kind : TypeKind) (name : String)
    : (categorize kind name).2.toList ⊆ name.toList := by
  unfold categorize
  dsimp only
  split
  · rw [String.toList_ofList]
    exact withoutInterface_subset _
  split
  case h_1 stem found =>
    rw [String.toList_ofList]
    exact withoutWord?_subset found
  case h_2 =>
    split
    · exact List.Subset.refl _
    split
    case h_1 stem found =>
      rw [String.toList_ofList]
      exact withoutWord?_subset found
    case h_2 =>
      unfold Naming.stripConnection
      split
      case h_1 rest before =>
        rw [String.toList_ofList]
        exact Text.beforeEnd?_subset before
      case h_2 => exact List.Subset.refl _

end TypeName

/-- The generated name of a placed type has no blank unless the type's name has one. -/
theorem Registry.place_free (registry : Registry) {entry : String × TypeDef}
    (free : ' ' ∉ entry.1.toList) : ' ' ∉ (registry.place entry).targetName.toList := by
  have word (category : Category) : ' ' ∉ (category.word ++ "::").toList := by
    cases category <;> decide
  show ' ' ∉ ((TypeName.categorize entry.2.kind entry.1).1.word ++ "::"
    ++ (TypeName.categorize entry.2.kind entry.1).2).toList
  rw [String.toList_append, List.mem_append]
  rintro (member | member)
  · exact word _ member
  · exact free (TypeName.categorize_subset _ _ member)

theorem Text.isWord_blank : isWord ' ' = false := by
  decide

/-- A declared name consists of characters of a word. -/
theorem Reference.isWord_of_declaredHere? {text : List Char} {name : String}
    (found : declaredHere? text = some name) : ∀ c ∈ name.toList, isWord c = true := by
  unfold declaredHere? at found
  obtain ⟨afterWord, -, found⟩ := Option.bind_eq_some_iff.mp found
  obtain ⟨fromName, -, found⟩ := Option.bind_eq_some_iff.mp found
  obtain ⟨afterBlanks, -, found⟩ := Option.bind_eq_some_iff.mp found
  split at found
  · cases found
  · cases found
    rw [String.toList_ofList]
    exact fun c member => List.mem_takeWhile_imp member
  · cases found

/-- The name in a class declaration is a word, by induction on the text. -/
theorem Reference.isWord_of_declaredClass? {text : List Char} {name : String}
    (found : declaredClass? text = some name) : ∀ c ∈ name.toList, isWord c = true := by
  induction text with
  | nil => cases found
  | cons c rest ih =>
      unfold declaredClass? at found
      split at found
      case h_1 here =>
        cases found
        exact isWord_of_declaredHere? here
      case h_2 => exact ih found

/-- Names declared in files are words, by induction on the files. -/
theorem Reference.isWord_of_declaredIn {tree : FileTree} {directory : Path}
    {files names : List String} (found : declaredIn tree directory files = .ok names)
    : ∀ name ∈ names, ∀ c ∈ name.toList, isWord c = true := by
  induction files generalizing names with
  | nil =>
      cases found
      simp
  | cons file rest ih =>
      unfold declaredIn at found
      split at found
      · cases found
      case h_2 text _ =>
        obtain ⟨more, later, same⟩ := bind_eq_ok.mp found
        cases same
        intro name member
        rcases List.mem_append.mp member with member | member
        · exact isWord_of_declaredClass? (Option.mem_toList.mp member)
        · exact ih later name member

/-- The names of built-in types are words. -/
theorem Reference.isWord_of_builtinNames {reference : Reference} {names : List String}
    (found : reference.builtinNames = .ok names)
    : ∀ name ∈ names, ∀ c ∈ name.toList, isWord c = true := by
  unfold builtinNames at found
  obtain ⟨declared, here, found⟩ := bind_eq_ok.mp found
  split at found
  · cases found
  · cases found
    exact isWord_of_declaredIn here

theorem Reference.builtinNames_free {reference : Reference} {names : List String}
    (found : reference.builtinNames = .ok names) : ∀ name ∈ names, ' ' ∉ name.toList := by
  intro name member blank
  have word := isWord_of_builtinNames found name member ' ' blank
  rw [Text.isWord_blank] at word
  cases word

end RubySchema
