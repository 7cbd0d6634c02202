import RubySchema.Proofs.Registry.Names
import RubySchema.Settings.Validation

/-!
Constants. A constant is a chain of capitalised names with double colons between them, in full with
two more in front. A text that the settings accept as the path of a constant is one unless two
colons stand in front or a line feed behind, and then a longer path made from it is none either.
-/

namespace RubySchema

open Text

theorem Text.startsWith_append {text start : String} (begins : startsWith text start = true)
    (more : String) : startsWith (text ++ more) start = true := by
  unfold startsWith at begins ⊢
  rw [List.isPrefixOf_iff_prefix] at begins ⊢
  rw [String.toList_append]
  exact begins.trans (List.prefix_append _ _)

namespace Naming

-----------------------------------------------------------------------------------------
-- Parts of a path
-----------------------------------------------------------------------------------------

variable {name word text : List Char} {names : List (List Char)}

theorem constantParts_of_free (free : ':' ∉ name) : constantParts name = [name] := by
  induction name with
  | nil => rfl
  | cons c rest ih =>
      obtain ⟨different, free⟩ := not_or.mp fun h => free (List.mem_cons.mpr h)
      rw [constantParts, ih free]
      rintro more rfl
      exact absurd rfl different

/-- A constant path is split at its first double colon. -/
theorem constantParts_append (free : ':' ∉ word) (rest : List Char)
    : constantParts (word ++ ':' :: ':' :: rest) = word :: constantParts rest := by
  induction word with
  | nil => rw [List.nil_append, constantParts]
  | cons c more ih =>
      obtain ⟨different, free⟩ := not_or.mp fun h => free (List.mem_cons.mpr h)
      rw [List.cons_append, constantParts, ih free]
      rintro other rfl
      exact absurd rfl different

theorem intercalate_colons (name next : List Char) (others : List (List Char))
    : List.intercalate [':', ':'] (name :: next :: others)
      = name ++ ':' :: ':' :: List.intercalate [':', ':'] (next :: others) := by
  rw [List.intercalate_cons_cons, List.append_assoc]
  rfl

/-- A chain of words without colons is split into these words, by induction on them. -/
theorem constantParts_intercalate (filled : names ≠ []) (free : ∀ name ∈ names, ':' ∉ name)
    : constantParts (List.intercalate [':', ':'] names) = names := by
  induction names with
  | nil => exact absurd rfl filled
  | cons name more ih =>
      obtain ⟨here, later⟩ := List.forall_mem_cons.mp free
      cases more with
      | nil => rw [List.intercalate_singleton, constantParts_of_free here]
      | cons next others =>
          rw [intercalate_colons, constantParts_append here, ih (List.cons_ne_nil _ _) later]

/-- What follows a chain of words behind a double colon is split by itself. -/
theorem constantParts_intercalate_append (filled : names ≠ [])
    (free : ∀ name ∈ names, ':' ∉ name) (rest : List Char)
    : constantParts (List.intercalate [':', ':'] names ++ ':' :: ':' :: rest)
      = names ++ constantParts rest := by
  induction names with
  | nil => exact absurd rfl filled
  | cons name more ih =>
      obtain ⟨here, later⟩ := List.forall_mem_cons.mp free
      cases more with
      | nil => rw [List.intercalate_singleton, constantParts_append here, List.singleton_append]
      | cons next others =>
          rw [intercalate_colons, List.append_assoc, List.cons_append, List.cons_append,
            constantParts_append here, ih (List.cons_ne_nil _ _) later]
          rfl

/-- The parts of a text make it up, by induction along the parts. -/
theorem intercalate_constantParts (text : List Char)
    : List.intercalate [':', ':'] (constantParts text) = text := by
  induction text using constantParts.induct with
  | case1 => rfl
  | case2 rest ih =>
      rw [constantParts]
      cases found : constantParts rest with
      | nil =>
          rw [found] at ih
          subst ih
          cases found
      | cons part more =>
          rw [List.intercalate_cons_cons, ← found, ih]
          rfl
  | case3 d rest notColons none_left ih =>
      rw [none_left] at ih
      subst ih
      cases none_left
  | case4 d rest notColons part more found ih =>
      rw [constantParts, found]
      · rw [found] at ih
        rw [← ih]
        cases more with
        | nil => simp
        | cons next others => simp [List.intercalate_cons_cons]
      · exact notColons

theorem constantParts_ne_nil (text : List Char) : constantParts text ≠ [] := by
  intro none
  have whole := intercalate_constantParts text
  rw [none] at whole
  rw [← whole] at none
  cases none

/-- A character of a path other than a colon stands in one of its parts, by induction along the
parts.
-/
theorem exists_part_of_mem {text : List Char} {c : Char} (notColon : c ≠ ':')
    (member : c ∈ text) : ∃ part ∈ constantParts text, c ∈ part := by
  induction text using constantParts.induct with
  | case1 => cases member
  | case2 rest ih =>
      obtain ⟨part, among, within⟩ := ih (by simpa [notColon] using member)
      rw [constantParts]
      exact ⟨part, List.mem_cons_of_mem _ among, within⟩
  | case3 d rest notColons none_left ih =>
      rw [constantParts, none_left]
      · rcases List.mem_cons.mp member with rfl | later
        · exact ⟨[c], List.mem_singleton_self _, List.mem_singleton_self _⟩
        · obtain ⟨part, among, -⟩ := ih later
          rw [none_left] at among
          cases among
      · exact notColons
  | case4 d rest notColons part more found ih =>
      rw [constantParts, found]
      · rcases List.mem_cons.mp member with rfl | later
        · exact ⟨c :: part, List.mem_cons_self, List.mem_cons_self⟩
        · obtain ⟨other, among, within⟩ := ih later
          rw [found] at among
          rcases List.mem_cons.mp among with rfl | among
          · exact ⟨d :: other, List.mem_cons_self, List.mem_cons_of_mem _ within⟩
          · exact ⟨other, List.mem_cons_of_mem _ among, within⟩
      · exact notColons

end Naming

namespace Ruby

-----------------------------------------------------------------------------------------
-- Constants
-----------------------------------------------------------------------------------------

/-- A constant: capitalised names, one at least, with double colons between them. -/
def IsConstant (text : String) : Prop :=
  ∃ names : List String,
    names ≠ []
    ∧ (∀ name ∈ names, Settings.isConstantName name.toList = true)
    ∧ text = "::".intercalate names

/-- A constant in full: with a double colon in front. -/
def IsAbsoluteConstant (text : String) : Prop :=
  ∃ constant, IsConstant constant ∧ text = "::" ++ constant

/-- A path of a constant in full: a double colon comes in front unless there is one. -/
def absolute (path : String) : String :=
  if startsWith path "::" then path else "::" ++ path

variable {text name first rest : String}

/-- A capitalised name consists of characters of a word. -/
theorem isWord_of_isConstantName {name : List Char} (named : Settings.isConstantName name = true)
    : ∀ c ∈ name, isWord c = true := by
  cases name with
  | nil => cases named
  | cons first rest =>
      rw [Settings.isConstantName, Bool.and_eq_true, List.all_eq_true] at named
      exact List.forall_mem_cons.mpr ⟨isWord_of_usual (by simp [named.1]), named.2⟩

theorem colon_not_mem_of_isConstantName {name : List Char}
    (named : Settings.isConstantName name = true) : ':' ∉ name :=
  fun member => absurd (isWord_of_isConstantName named ':' member) (by decide)

/-- A constant is told by its parts. -/
theorem isConstant_iff
    : IsConstant text
      ↔ ∀ part ∈ Naming.constantParts text.toList, Settings.isConstantName part = true := by
  constructor
  · rintro ⟨names, filled, named, rfl⟩
    have parts : ∀ part ∈ names.map String.toList, Settings.isConstantName part = true :=
      List.forall_mem_map.mpr named
    have split
        : Naming.constantParts ("::".intercalate names).toList = names.map String.toList := by
      rw [String.toList_intercalate]
      exact Naming.constantParts_intercalate (by simpa using filled) fun part member =>
        colon_not_mem_of_isConstantName (parts part member)
    rwa [split]
  · intro named
    refine ⟨(Naming.constantParts text.toList).map String.ofList, ?_, ?_, ?_⟩
    · rw [Ne, List.map_eq_nil_iff]
      exact Naming.constantParts_ne_nil text.toList
    · rw [List.forall_mem_map]
      intro part member
      rw [String.toList_ofList]
      exact named part member
    · rw [← String.toList_inj, String.toList_intercalate, List.map_map]
      have same : String.toList ∘ String.ofList = id := funext fun _ => String.toList_ofList
      rw [same, List.map_id]
      exact (Naming.intercalate_constantParts text.toList).symm

instance (text : String) : Decidable (IsConstant text) :=
  decidable_of_iff _ isConstant_iff.symm

/-- A name without colons is a constant when it is capitalised. -/
theorem isConstant_of_free (free : ':' ∉ name.toList)
    : IsConstant name ↔ Settings.isConstantName name.toList = true := by
  rw [isConstant_iff, Naming.constantParts_of_free free, List.forall_mem_singleton]

/-- Behind a constant a longer one goes on with another. -/
theorem IsConstant.append_iff (constant : IsConstant first)
    : IsConstant (first ++ "::" ++ rest) ↔ IsConstant rest := by
  have named := isConstant_iff.mp constant
  have split := Naming.constantParts_intercalate_append
    (Naming.constantParts_ne_nil first.toList)
    (fun part member => colon_not_mem_of_isConstantName (named part member)) rest.toList
  have spelled : (first ++ "::" ++ rest).toList = first.toList ++ ':' :: ':' :: rest.toList := by
    simp
  rw [Naming.intercalate_constantParts] at split
  rw [isConstant_iff, spelled, split, List.forall_mem_append, and_iff_right named,
    ← isConstant_iff]

/-- A constant consists of words and colons. -/
theorem IsConstant.chars (constant : IsConstant text)
    : ∀ c ∈ text.toList, c = ':' ∨ isWord c = true := by
  intro c member
  by_cases colon : c = ':'
  · exact .inl colon
  · obtain ⟨part, among, within⟩ := Naming.exists_part_of_mem colon member
    exact .inr (isWord_of_isConstantName (isConstant_iff.mp constant part among) c within)

theorem IsConstant.lineFeed_not_mem (constant : IsConstant text) : '\n' ∉ text.toList := by
  intro member
  rcases constant.chars '\n' member with colon | word
  · cases colon
  · exact absurd word (by decide)

/-- A constant does not begin with a colon, and neither does what goes on behind it. -/
theorem IsConstant.relative_append (constant : IsConstant text) (more : String)
    : startsWith (text ++ more) "::" = false := by
  obtain ⟨names, filled, named, rfl⟩ := constant
  obtain ⟨name, others, rfl⟩ := List.exists_cons_of_ne_nil filled
  have here := named name List.mem_cons_self
  have begins (rest : List Char) : "::".toList.isPrefixOf (name.toList ++ rest) = false := by
    cases chars : name.toList with
    | nil => simp [chars, Settings.isConstantName] at here
    | cons c rest =>
        have notColon : c ≠ ':' := by
          rintro rfl
          simp [chars, Settings.isConstantName, isCapital] at here
        simp [List.isPrefixOf, Ne.symm notColon]
  unfold startsWith
  rw [String.toList_append, String.toList_intercalate]
  cases others with
  | nil =>
      rw [List.map_singleton, List.intercalate_singleton]
      exact begins _
  | cons next others =>
      rw [List.map_cons, List.map_cons, List.intercalate_cons_cons, List.append_assoc,
        List.append_assoc]
      exact begins _

theorem IsConstant.relative (constant : IsConstant text) : startsWith text "::" = false := by
  simpa using constant.relative_append ""

-----------------------------------------------------------------------------------------
-- Paths of constants
-----------------------------------------------------------------------------------------

/-- A path of a constant is a constant, but for two colons in front and a line feed behind. -/
theorem exists_constant_of_isConstantPath
    (path : Settings.isConstantPath text.toList = true)
    : ∃ lead constant final,
        IsConstant constant
        ∧ (lead = "" ∨ lead = "::")
        ∧ (final = "" ∨ final = "\n")
        ∧ text = lead ++ constant ++ final := by
  obtain ⟨body, final, ends, whole⟩
      : ∃ body final,
          (final = "" ∨ final = "\n")
          ∧ (beforeEnd? ['\n'] text.toList).getD text.toList = String.toList body
          ∧ text = body ++ final := by
    cases cut : beforeEnd? ['\n'] text.toList with
    | some front =>
        have same := Text.beforeEnd?_eq_some_iff.mp cut
        refine ⟨String.ofList front, "\n", .inr rfl, by simp, ?_⟩
        rw [← String.toList_inj, same]
        simp
    | none => exact ⟨text, "", .inl rfl, rfl, by simp⟩
  obtain ⟨cut, rfl⟩ := whole
  unfold Settings.isConstantPath at path
  dsimp only at path
  rw [cut] at path
  unfold afterStart? at path
  split at path
  case isTrue absolute =>
    obtain ⟨rest, same⟩ := List.isPrefixOf_iff_prefix.mp absolute
    refine ⟨"::", String.ofList rest, final, ?_, .inr rfl, ends, ?_⟩
    · rw [isConstant_iff, String.toList_ofList, ← List.all_eq_true]
      rw [← same] at path
      simpa using path
    · rw [← String.toList_inj]
      simp [← same]
  case isFalse =>
    have constant := isConstant_iff.mpr (List.all_eq_true.mp path)
    exact ⟨"", body, final, constant, .inl rfl, ends, by simp⟩

/-- A path of a constant is one when it has neither colons in front nor a line feed behind. -/
theorem isConstant_iff_of_isConstantPath (path : Settings.isConstantPath text.toList = true)
    : IsConstant text ↔ startsWith text "::" = false ∧ '\n' ∉ text.toList := by
  refine ⟨fun constant => ⟨constant.relative, constant.lineFeed_not_mem⟩, ?_⟩
  rintro ⟨relative, unbroken⟩
  obtain ⟨lead, constant, final, isConstant, leads, ends, rfl⟩ :=
    exists_constant_of_isConstantPath path
  rcases ends with rfl | rfl
  case inr => simp at unbroken
  rcases leads with rfl | rfl
  case inr => simp [startsWith, List.isPrefixOf] at relative
  simpa using isConstant

theorem isAbsoluteConstant_iff_of_isConstantPath
    (path : Settings.isConstantPath text.toList = true)
    : IsAbsoluteConstant text ↔ startsWith text "::" = true ∧ '\n' ∉ text.toList := by
  constructor
  · rintro ⟨constant, isConstant, rfl⟩
    refine ⟨by simp [startsWith, List.isPrefixOf], ?_⟩
    simpa using isConstant.lineFeed_not_mem
  · rintro ⟨absolute, unbroken⟩
    obtain ⟨lead, constant, final, isConstant, leads, ends, rfl⟩ :=
      exists_constant_of_isConstantPath path
    rcases ends with rfl | rfl
    case inr => simp at unbroken
    rcases leads with rfl | rfl
    case inl =>
      have relative := isConstant.relative
      simp at absolute
      rw [absolute] at relative
      cases relative
    exact ⟨constant, isConstant, by simp⟩

/-- What goes on behind a path without colons in front has none in front either. -/
theorem relative_append_of_isConstantPath (path : Settings.isConstantPath text.toList = true)
    (relative : startsWith text "::" = false) (more : String)
    : startsWith (text ++ more) "::" = false := by
  obtain ⟨lead, constant, final, isConstant, leads, -, rfl⟩ :=
    exists_constant_of_isConstantPath path
  rcases leads with rfl | rfl
  case inr => simp [startsWith, List.isPrefixOf] at relative
  have begins := isConstant.relative_append (final ++ more)
  simpa [String.append_assoc] using begins

/-- A constant begins with a path of a constant when the path is one and the rest as well. -/
theorem isConstant_append_iff (path : Settings.isConstantPath first.toList = true)
    : IsConstant (first ++ "::" ++ rest) ↔ IsConstant first ∧ IsConstant rest := by
  refine ⟨fun whole => ?_, fun both => both.1.append_iff.mpr both.2⟩
  have constant : IsConstant first := by
    refine (isConstant_iff_of_isConstantPath path).mpr ⟨?_, fun member => ?_⟩
    · rw [Bool.eq_false_iff]
      intro absolute
      have begins := startsWith_append absolute ("::" ++ rest)
      rw [← String.append_assoc, whole.relative] at begins
      cases begins
    · exact whole.lineFeed_not_mem (by simp [member])
  exact ⟨constant, constant.append_iff.mp whole⟩

/-- The same in full. -/
theorem isAbsoluteConstant_append_iff (path : Settings.isConstantPath first.toList = true)
    : IsAbsoluteConstant (first ++ "::" ++ rest)
      ↔ IsAbsoluteConstant first ∧ IsConstant rest := by
  constructor
  · rintro ⟨whole, isConstant, same⟩
    have unbroken : '\n' ∉ first.toList := by
      intro member
      have among : '\n' ∈ (first ++ "::" ++ rest).toList := by simp [member]
      rw [same] at among
      exact isConstant.lineFeed_not_mem (by simpa using among)
    have absolute : startsWith first "::" = true := by
      by_contra relative
      have begins := relative_append_of_isConstantPath path (Bool.eq_false_iff.mpr relative)
        ("::" ++ rest)
      rw [← String.append_assoc, same] at begins
      simp [startsWith, List.isPrefixOf] at begins
    obtain ⟨constant, here, rfl⟩ :=
      (isAbsoluteConstant_iff_of_isConstantPath path).mpr ⟨absolute, unbroken⟩
    rw [String.append_assoc, String.append_assoc, String.append_right_inj,
      ← String.append_assoc] at same
    subst same
    exact ⟨⟨constant, here, rfl⟩, here.append_iff.mp isConstant⟩
  · rintro ⟨⟨constant, here, rfl⟩, behind⟩
    exact ⟨constant ++ "::" ++ rest, here.append_iff.mpr behind, by simp [String.append_assoc]⟩

end Ruby

end RubySchema
