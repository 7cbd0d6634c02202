import Mathlib.Data.List.Nodup
import RubySchema.Table

/-!
Tables and sorted lists that do not depend on the order of their entries. A table without repeated
names gives the same values in any order, and texts sort to one list whatever order they come in.
-/

namespace RubySchema

namespace Table

variable {α : Type} {table other : Table α} {name : String} {value : α}

theorem get?_eq_none_iff : table.get? name = none ↔ name ∉ table.names := by
  induction table with
  | nil => simp [get?, names]
  | cons entry rest ih =>
      by_cases same : entry.1 = name
      · simp [get?, names, same]
      · simpa [get?, names, same, Ne.symm same] using ih

theorem mem_of_get? (found : table.get? name = some value) : (name, value) ∈ table := by
  induction table with
  | nil => simp [get?] at found
  | cons entry rest ih =>
      by_cases same : entry.1 = name
      · have head : entry.2 = value := by simpa [get?, same] using found
        exact List.mem_cons.mpr (.inl (Prod.ext same.symm head.symm))
      · exact List.mem_cons_of_mem entry (ih (by simpa [get?, same] using found))

/-- Without repeated names, the values found are exactly the entries. -/
theorem get?_eq_some_iff (unique : table.names.Nodup)
    : table.get? name = some value ↔ (name, value) ∈ table := by
  refine ⟨mem_of_get?, fun member => ?_⟩
  induction table with
  | nil => cases member
  | cons entry rest ih =>
      obtain ⟨absent, tail⟩ := List.nodup_cons.mp unique
      rcases List.mem_cons.mp member with rfl | later
      · simp [get?]
      · have different : entry.1 ≠ name := fun same =>
          absent (same ▸ List.mem_map.mpr ⟨(name, value), later, rfl⟩)
        simpa [get?, different] using ih tail later

/-- Without repeated names, the order of the entries does not matter to what is found. -/
theorem get?_perm (perm : table.Perm other) (unique : table.names.Nodup) (name : String)
    : table.get? name = other.get? name := by
  have otherUnique : other.names.Nodup := (perm.map Prod.fst).nodup_iff.mp unique
  apply Option.ext
  intro value
  rw [get?_eq_some_iff unique, get?_eq_some_iff otherUnique]
  exact perm.mem_iff

/-- A name is looked up in the first of two tables that has it. -/
theorem get?_append (table other : Table α) (name : String)
    : Table.get? (table ++ other) name = (table.get? name).or (other.get? name) := by
  induction table with
  | nil => rfl
  | cons entry rest ih =>
      by_cases same : entry.1 = name
      · simp [get?, same]
      · simpa [get?, same] using ih

/-- A name that only the second of two tables can have is written in the second. -/
theorem put_append (absent : table.get? name = none) (other : Table α) (value : α)
    : Table.put (table ++ other) name value = table ++ other.put name value := by
  induction table with
  | nil => rfl
  | cons entry rest ih =>
      by_cases same : entry.1 = name
      · simp [get?, same] at absent
      · simp only [get?, same, if_false] at absent
        simp [put, same, ih absent]

/-- An entry of a table with a written value is that value, or one that the table had. -/
theorem mem_put {entry : String × α} (member : entry ∈ table.put name value)
    : entry = (name, value) ∨ entry ∈ table := by
  induction table with
  | nil => exact .inl (List.mem_singleton.mp member)
  | cons first rest ih =>
      unfold put at member
      split at member
      · rcases List.mem_cons.mp member with same | later
        · exact .inl same
        · exact .inr (List.mem_cons_of_mem first later)
      · rcases List.mem_cons.mp member with same | later
        · exact .inr (same ▸ List.mem_cons_self)
        · exact (ih later).imp id (List.mem_cons_of_mem first)

theorem names_put (table : Table α) (name : String) (value : α)
    : (table.put name value).names
      = if name ∈ table.names then table.names else table.names ++ [name] := by
  induction table with
  | nil => simp [put, names]
  | cons entry rest ih =>
      by_cases same : entry.1 = name
      · simp [put, names, same]
      · have later : List.map Prod.fst (put rest name value)
            = if name ∈ List.map Prod.fst rest then List.map Prod.fst rest
              else List.map Prod.fst rest ++ [name] := ih
        by_cases known : name ∈ List.map Prod.fst rest
        · simp [put, names, same, Ne.symm same, later, known]
        · simp [put, names, same, Ne.symm same, later, known]

theorem nodup_names_put (unique : table.names.Nodup) (name : String) (value : α)
    : (table.put name value).names.Nodup := by
  rw [names_put]
  split
  case isTrue => exact unique
  case isFalse new =>
    rw [List.nodup_append]
    refine ⟨unique, by simp, ?_⟩
    rintro known member other single rfl
    exact new (List.mem_singleton.mp single ▸ member)

theorem put_of_get?_eq_none (absent : table.get? name = none)
    : table.put name value = table ++ [(name, value)] := by
  have written := put_append absent [] value
  rwa [List.append_nil] at written

theorem put_of_get? (found : table.get? name = some value) : table.put name value = table := by
  induction table with
  | nil => simp [get?] at found
  | cons entry rest ih =>
      by_cases same : entry.1 = name
      · have head : entry.2 = value := by simpa [get?, same] using found
        subst head
        subst same
        simp [put]
      · simp only [get?, same, if_false] at found
        simp [put, same, ih found]

/-- Of two values written under one name the second stands. -/
@[simp]
theorem put_put (table : Table α) (name : String) (first second : α)
    : (table.put name first).put name second = table.put name second := by
  induction table with
  | nil => simp [put]
  | cons entry rest ih =>
      by_cases same : entry.1 = name
      · simp [put, same]
      · simp [put, same, ih]

/-- Entries of new names, each once, stand behind a table that they are written over. -/
theorem foldl_put_of_nodup {entries table : Table α} (unique : (table ++ entries).names.Nodup)
    : entries.foldl (fun table entry => table.put entry.1 entry.2) table = table ++ entries := by
  induction entries generalizing table with
  | nil => rw [List.foldl_nil, List.append_nil]
  | cons entry rest ih =>
      have absent : table.get? entry.1 = none := by
        rw [get?_eq_none_iff]
        intro member
        rw [names, List.map_append, List.map_cons, List.nodup_append] at unique
        exact unique.2.2 _ member _ List.mem_cons_self rfl
      have moved : table ++ entry :: rest = table ++ [entry] ++ rest := by simp
      rw [List.foldl_cons, put_of_get?_eq_none absent, moved]
      exact ih (moved ▸ unique)

/-- Entries that are written over a table stand over what it had. -/
theorem get?_foldl_put (entries table : Table α) (name : String)
    : (entries.foldl (fun table entry => table.put entry.1 entry.2) table).get? name
      = ((ofEntries entries).get? name).or (table.get? name) := by
  induction entries generalizing table with
  | nil => rfl
  | cons entry rest ih =>
      have first : ofEntries (entry :: rest)
          = rest.foldl (fun table entry => table.put entry.1 entry.2) (put [] entry.1 entry.2) :=
        rfl
      rw [List.foldl_cons, first, ih, ih, get?_put, get?_put]
      by_cases same : entry.1 = name
      · simp [same]
      · simp [same, get?]

theorem get?_ofEntries_append (first second : Table α) (name : String)
    : (ofEntries (first ++ second)).get? name
      = ((ofEntries second).get? name).or ((ofEntries first).get? name) := by
  rw [ofEntries, List.foldl_append, get?_foldl_put]
  rfl

theorem get?_ofEntries_eq_none {entries : Table α} (absent : name ∉ entries.names)
    : (ofEntries entries).get? name = none := by
  induction entries with
  | nil => rfl
  | cons entry rest ih =>
      obtain ⟨different, later⟩ := not_or.mp (fun h => absent (List.mem_cons.mpr h))
      have split := get?_ofEntries_append [entry] rest name
      rw [List.singleton_append, ih later, Option.none_or] at split
      rw [split]
      simp [ofEntries, put, get?, Ne.symm different]

/-- Entries of several owners, no two of which have a name in common, give the same values in any
order of the owners.
-/
theorem get?_ofEntries_flatMap_perm {β : Type} {owners others : List β} {entries : β → Table α}
    (perm : owners.Perm others)
    (apart : owners.Pairwise fun a b => ∀ name ∈ (entries a).names, name ∉ (entries b).names)
    (name : String)
    : (ofEntries (owners.flatMap entries)).get? name
      = (ofEntries (others.flatMap entries)).get? name := by
  induction perm with
  | nil => rfl
  | cons owner _ ih =>
      rw [List.flatMap_cons, List.flatMap_cons, get?_ofEntries_append, get?_ofEntries_append,
        ih (List.pairwise_cons.mp apart).2]
  | swap first second rest =>
      have disjoint := (List.pairwise_cons.mp apart).1 first List.mem_cons_self
      simp only [List.flatMap_cons, get?_ofEntries_append]
      by_cases known : name ∈ (entries second).names
      · rw [get?_ofEntries_eq_none (disjoint name known), Option.or_none, Option.or_none]
      · rw [get?_ofEntries_eq_none known, Option.or_none, Option.or_none]
  | trans firstPerm _ firstSame secondSame =>
      rw [firstSame apart]
      apply secondSame
      refine (firstPerm.pairwise_iff ?_).mp apart
      intro a b disjoint name inFirst inSecond
      exact disjoint name inSecond inFirst

end Table

/-- The only item that passes a test is found in any order. -/
theorem find?_perm {α : Type} {test : α → Bool} {first second : List α} (perm : first.Perm second)
    (only : ∀ a ∈ first, ∀ b ∈ first, test a = true → test b = true → a = b)
    : first.find? test = second.find? test := by
  cases found : second.find? test with
  | none =>
      rw [List.find?_eq_none] at found ⊢
      exact fun item member => found item (perm.mem_iff.mp member)
  | some item =>
      have member := perm.mem_iff.mpr (List.mem_of_find?_eq_some found)
      have passes := List.find?_some found
      cases search : first.find? test with
      | none => exact absurd passes (List.find?_eq_none.mp search item member)
      | some other =>
          exact congrArg some (only other (List.mem_of_find?_eq_some search) item member
            (List.find?_some search) passes)

/-- A list sorts to the same list in any order, when only equal items come before each other. -/
theorem mergeSort_perm_eq {α : Type} {le : α → α → Bool} {first second : List α}
    (trans : ∀ a b c, le a b → le b c → le a c) (total : ∀ a b, le a b || le b a)
    (antisymm : ∀ a ∈ first, ∀ b ∈ first, le a b → le b a → a = b) (perm : first.Perm second)
    : first.mergeSort le = second.mergeSort le := by
  have sorted : (first.mergeSort le).Perm (second.mergeSort le) :=
    ((List.mergeSort_perm first le).trans perm).trans (List.mergeSort_perm second le).symm
  apply List.Perm.eq_of_pairwise _ (List.pairwise_mergeSort trans total first)
    (List.pairwise_mergeSort trans total second) sorted
  intro a b aMember bMember
  have bFirst := perm.mem_iff.mpr (List.mem_mergeSort.mp bMember)
  exact antisymm a (List.mem_mergeSort.mp aMember) b bFirst

/-- Items of a list that have an image which occurs once are the same. -/
theorem eq_of_count_map_le_one {α β : Type} [BEq β] [LawfulBEq β] {image : α → β}
    {items : List α} {first second : α} (single : (items.map image).count (image first) ≤ 1)
    (firstMember : first ∈ items) (secondMember : second ∈ items)
    (same : image second = image first) : first = second := by
  rw [List.count, List.countP_map, List.countP_eq_length_filter] at single
  have firstAmong : first ∈ items.filter ((· == image first) ∘ image) :=
    List.mem_filter.mpr ⟨firstMember, beq_self_eq_true _⟩
  have secondAmong : second ∈ items.filter ((· == image first) ∘ image) :=
    List.mem_filter.mpr ⟨secondMember, beq_iff_eq.mpr same⟩
  match items.filter ((· == image first) ∘ image), single, firstAmong, secondAmong with
  | [only], _, firstAmong, secondAmong =>
      exact (List.mem_singleton.mp firstAmong).trans (List.mem_singleton.mp secondAmong).symm

/-- Of two lists neither of which comes first, one is the other. -/
theorem eq_of_not_lt {α : Type} [LT α] [Std.Irrefl (α := α) (· < ·)]
    [Std.Asymm (α := α) (· < ·)] [Std.Trichotomous (α := α) (· < ·)] {a b : List α}
    (first : ¬a < b) (second : ¬b < a) : a = b :=
  (List.le_iff_lt_or_eq.mp second).resolve_left first

/-- Texts are ordered like the pairs of their code points and their characters. -/
theorem textLe_iff {a b : String}
    : textLe a b = true
      ↔ Text.points a < Text.points b ∨ Text.points a = Text.points b ∧ ¬b.toList < a.toList := by
  unfold textLe
  by_cases same : Text.points a = Text.points b
  · have irreflexive : ¬Text.points b < Text.points b := List.lt_irrefl _
    rw [same, if_pos rfl, or_iff_right irreflexive, Bool.not_eq_true', decide_eq_false_iff_not]
    exact (and_iff_right rfl).symm
  · simp [same]

theorem textLe_total (a b : String) : (textLe a b || textLe b a) = true := by
  rw [Bool.or_eq_true, textLe_iff, textLe_iff]
  by_cases same : Text.points a = Text.points b
  · by_cases first : b.toList < a.toList
    · exact .inr (.inr ⟨same.symm, List.lt_asymm first⟩)
    · exact .inl (.inr ⟨same, first⟩)
  · by_cases first : Text.points a < Text.points b
    · exact .inl (.inl first)
    · by_cases second : Text.points b < Text.points a
      · exact .inr (.inl second)
      · exact absurd (eq_of_not_lt first second) same

theorem textLe_antisymm (a b : String) (first : textLe a b = true) (second : textLe b a = true)
    : a = b := by
  rw [textLe_iff] at first second
  rcases first with lt | ⟨same, le⟩
  · rcases second with gt | ⟨same, -⟩
    · exact absurd gt (List.lt_asymm lt)
    · exact absurd lt (same ▸ List.lt_irrefl _)
  · rcases second with gt | ⟨-, ge⟩
    · exact absurd gt (same ▸ List.lt_irrefl _)
    · exact String.toList_injective (eq_of_not_lt ge le)

theorem textLe_trans (a b c : String) (first : textLe a b = true) (second : textLe b c = true)
    : textLe a c = true := by
  rw [textLe_iff] at first second ⊢
  rcases first with lt | ⟨same, le⟩
  · rcases second with next | ⟨same, -⟩
    · exact .inl (List.lt_trans lt next)
    · exact .inl (same ▸ lt)
  · rcases second with next | ⟨again, more⟩
    · exact .inl (same ▸ next)
    · refine .inr ⟨same.trans again, fun gt => ?_⟩
      by_cases lt : b.toList < c.toList
      · exact le (List.lt_trans lt gt)
      · exact le (eq_of_not_lt lt more ▸ gt)

end RubySchema
