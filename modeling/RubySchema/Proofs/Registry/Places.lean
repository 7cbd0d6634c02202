import Mathlib.Data.List.Count
import Mathlib.Data.List.Nodup
import RubySchema.Proofs.Table
import RubySchema.Registry

/-!
Classification succeeds exactly when every name is a text and no two places of types are the same.
The types that are not left out get their places in the order in which their names first come,
behind the built-in types.
-/

namespace RubySchema

namespace Registry

structure OnlyBuiltins (registry : Registry) : Prop where
  builtin : ∀ {name mapping}, registry.get? name = some mapping → mapping.isBuiltin = true
  free : registry.targets = []

/-- The type is left out under a name: by the name, or because it is deprecated. -/
def leavesOut (registry : Registry) (name : String) (type : TypeDef) : Bool :=
  isSkippedName name || registry.isBuiltin name || type.isDeprecated

def keep? (registry : Registry) (type : TypeDef) : Option (String × TypeDef) :=
  match type.name with
  | .string name => if registry.leavesOut name type then none else some (name, type)
  | _ => none

def kept (registry : Registry) (types : List TypeDef) : List (String × TypeDef) :=
  types.filterMap registry.keep?

/-- A list of named types with further ones behind, except those whose names it has. -/
def addNew (done : List (String × TypeDef)) : List (String × TypeDef) → List (String × TypeDef)
  | [] => done
  | entry :: rest =>
      if entry.1 ∈ done.map Prod.fst then addNew done rest else addNew (done ++ [entry]) rest

def firsts (entries : List (String × TypeDef)) : List (String × TypeDef) :=
  addNew [] entries

def place (registry : Registry) (entry : String × TypeDef) : NameMapping :=
  registry.mappingFor entry.2 entry.1

def withPlaces (registry : Registry) (entries : List (String × TypeDef)) : Registry :=
  {
    registry with
    mappings := registry.mappings ++ entries.map fun entry => (entry.1, registry.place entry)
    targets := registry.targets
      ++ entries.map fun entry => ((registry.place entry).targetName, entry.1)
  }

-----------------------------------------------------------------------------------------
-- Names that came before
-----------------------------------------------------------------------------------------

/-- Names that are all new and all different are all added. -/
theorem addNew_eq_append {done entries : List (String × TypeDef)}
    (unique : ((done ++ entries).map Prod.fst).Nodup)
    : addNew done entries = done ++ entries := by
  induction entries generalizing done with
  | nil => simp [addNew]
  | cons entry rest ih =>
      have new : entry.1 ∉ done.map Prod.fst := by
        rw [List.map_append, List.nodup_append] at unique
        exact fun member => unique.2.2 entry.1 member entry.1 (by simp) rfl
      rw [addNew, if_neg new, ih (by simpa using unique)]
      simp

theorem prefix_addNew (done entries : List (String × TypeDef)) : done <+: addNew done entries := by
  induction entries generalizing done with
  | nil => exact List.prefix_refl done
  | cons entry rest ih =>
      unfold addNew
      split
      · exact ih done
      · exact (List.prefix_append done [entry]).trans (ih _)

/-- Nothing is added that is not among the entries. -/
theorem mem_of_mem_addNew {done entries : List (String × TypeDef)} {entry : String × TypeDef}
    (member : entry ∈ addNew done entries) : entry ∈ done ∨ entry ∈ entries := by
  induction entries generalizing done with
  | nil => exact .inl member
  | cons head rest ih =>
      unfold addNew at member
      split at member
      · exact (ih member).imp_right (List.mem_cons_of_mem head)
      · rcases ih member with before | later
        · rcases List.mem_append.mp before with before | here
          · exact .inl before
          · exact .inr (List.mem_singleton.mp here ▸ List.mem_cons_self)
        · exact .inr (List.mem_cons_of_mem head later)

theorem mem_names_addNew {done entries : List (String × TypeDef)} {entry : String × TypeDef}
    (member : entry ∈ entries) : entry.1 ∈ (addNew done entries).map Prod.fst := by
  induction entries generalizing done with
  | nil => cases member
  | cons head rest ih =>
      unfold addNew
      rcases List.mem_cons.mp member with rfl | later
      · split
        case isTrue known => exact List.map_subset _ (prefix_addNew done rest).subset known
        case isFalse new =>
          exact List.mem_map.mpr ⟨entry, (prefix_addNew _ rest).subset (by simp), rfl⟩
      · split
        · exact ih later
        · exact ih later

theorem firsts_eq_self {entries : List (String × TypeDef)} (unique : (entries.map Prod.fst).Nodup)
    : firsts entries = entries := by
  rw [firsts, addNew_eq_append (by simpa using unique), List.nil_append]

-----------------------------------------------------------------------------------------
-- Places of types
-----------------------------------------------------------------------------------------

/-- No schema type is placed among the built-in types. -/
theorem categorize_ne_builtIn (kind : TypeKind) (name : String)
    : (TypeName.categorize kind name).1 ≠ .builtIn := by
  unfold TypeName.categorize
  dsimp only
  repeat' split
  all_goals simp

theorem place_isBuiltin (registry : Registry) (entry : String × TypeDef)
    : (registry.place entry).isBuiltin = false := by
  have other := categorize_ne_builtIn entry.2.kind entry.1
  simpa [place, mappingFor, NameMapping.isBuiltin] using other

section
variable {start : Registry} {done : List (String × TypeDef)} {name : String} {type : TypeDef}

/-- Names of built-in types come first, then those of placed types. -/
theorem get?_withPlaces (start : Registry) (done : List (String × TypeDef)) (name : String)
    : (start.withPlaces done).get? name
      = (start.get? name).or
        (Table.get? (done.map fun entry => (entry.1, start.place entry)) name) :=
  Table.get?_append _ _ _

theorem isBuiltin_withPlaces (start : Registry) (done : List (String × TypeDef)) (name : String)
    : (start.withPlaces done).isBuiltin name = start.isBuiltin name := by
  unfold isBuiltin
  rw [get?_withPlaces]
  cases known : start.get? name with
  | some mapping => rfl
  | none =>
      cases placed : Table.get? (done.map fun entry => (entry.1, start.place entry)) name with
      | none => rfl
      | some mapping =>
          obtain ⟨entry, -, same⟩ := List.mem_map.mp (Table.mem_of_get? placed)
          obtain ⟨-, rfl⟩ := Prod.mk.inj same
          simp [place_isBuiltin]

/-- A name without a mapping among placed types and no built-in name has no mapping. -/
theorem get?_withPlaces_eq_none (only : start.OnlyBuiltins) (other : start.isBuiltin name = false)
    (fresh : name ∉ done.map Prod.fst) : (start.withPlaces done).get? name = none := by
  have unknown : start.get? name = none := by
    cases known : start.get? name with
    | none => rfl
    | some mapping =>
        have builtin := only.builtin known
        simp [isBuiltin, known, builtin] at other
  rw [get?_withPlaces, unknown, Option.none_or, Table.get?_eq_none_iff]
  simpa [Table.names, Function.comp_def] using fresh

theorem classifyKept_of_leavesOut (named : type.name = .string name)
    (out : start.leavesOut name type = true)
    : (start.withPlaces done).classifyKept type = .ok (none, start.withPlaces done) := by
  have skipped : (start.withPlaces done).shouldSkip type = .ok true := by
    rw [shouldSkip, named]
    show Except.ok _ = _
    rw [isBuiltin_withPlaces]
    exact congrArg Except.ok out
  rw [classifyKept, skipped]
  rfl

/-- Classification under a name: the mapping that is known, or a new one whose place is free. -/
theorem classify_of_name (registry : Registry) (named : type.name = .string name)
    : registry.classify type
      = match registry.get? name with
        | some mapping => .ok (mapping, registry)
        | none =>
            match Table.get? registry.targets (registry.mappingFor type name).targetName with
            | some previous =>
                if previous == name then
                  .ok
                    (registry.mappingFor type name,
                      registry.extend (registry.mappingFor type name))
                else
                  .error
                    (.duplicateTarget (registry.mappingFor type name).targetName previous name)
            | none =>
                .ok
                  (registry.mappingFor type name,
                    registry.extend (registry.mappingFor type name)) := by
  rw [classify, named]
  rfl

theorem classifyKept_of_keeps (named : type.name = .string name)
    (keeps : start.leavesOut name type = false)
    : (start.withPlaces done).classifyKept type
      = (do
        let (mapping, extended) ← (start.withPlaces done).classify type
        return (some mapping, extended)) := by
  have shown : (start.withPlaces done).shouldSkip type = .ok false := by
    rw [shouldSkip, named]
    show Except.ok _ = _
    rw [isBuiltin_withPlaces]
    exact congrArg Except.ok keeps
  rw [classifyKept, shown]
  rfl

/-- A type under a name that has been placed changes nothing. -/
theorem classifyKept_of_known (named : type.name = .string name)
    (keeps : start.leavesOut name type = false) (known : name ∈ done.map Prod.fst)
    : ∃ mapping,
        (start.withPlaces done).classifyKept type = .ok (mapping, start.withPlaces done) := by
  have placed : ∃ mapping, (start.withPlaces done).get? name = some mapping := by
    rw [get?_withPlaces]
    cases builtin : start.get? name with
    | some mapping => exact ⟨mapping, rfl⟩
    | none =>
        apply Option.ne_none_iff_exists'.mp
        rw [Option.none_or, ne_eq, Table.get?_eq_none_iff]
        simpa [Table.names, Function.comp_def] using known
  obtain ⟨mapping, found⟩ := placed
  refine ⟨some mapping, ?_⟩
  rw [classifyKept_of_keeps named keeps, classify_of_name _ named, found]
  rfl

/-- A new name whose place is free is placed behind the others. -/
theorem classifyKept_of_free (only : start.OnlyBuiltins) (named : type.name = .string name)
    (keeps : start.leavesOut name type = false) (fresh : name ∉ done.map Prod.fst)
    (free : (start.place (name, type)).targetName
      ∉ done.map fun entry => (start.place entry).targetName)
    : (start.withPlaces done).classifyKept type
      = .ok (some (start.place (name, type)), start.withPlaces (done ++ [(name, type)])) := by
  have other : start.isBuiltin name = false := by
    simp only [leavesOut, Bool.or_eq_false_iff] at keeps
    exact keeps.1.2
  have unknown := get?_withPlaces_eq_none only other fresh
  have vacant : Table.get? (start.withPlaces done).targets (start.place (name, type)).targetName
      = none := by
    rw [Table.get?_eq_none_iff]
    simpa [withPlaces, only.free, Table.names, Function.comp_def] using free
  have extended : (start.withPlaces done).extend (start.place (name, type))
      = start.withPlaces (done ++ [(name, type)]) := by
    have mappings : Table.put (start.withPlaces done).mappings name (start.place (name, type))
        = (start.withPlaces done).mappings ++ [(name, start.place (name, type))] :=
      Table.put_of_get?_eq_none unknown
    have targets : Table.put (start.withPlaces done).targets
          (start.place (name, type)).targetName name
        = (start.withPlaces done).targets ++ [((start.place (name, type)).targetName, name)] :=
      Table.put_of_get?_eq_none vacant
    show Registry.mk _ _ (Table.put _ name _) (Table.put _ _ name) = _
    rw [mappings, targets]
    simp [withPlaces]
  have mapped : (start.withPlaces done).mappingFor type name = start.place (name, type) := rfl
  rw [classifyKept_of_keeps named keeps, classify_of_name _ named, unknown]
  dsimp only
  rw [mapped, vacant, extended]
  rfl

/-- A new name whose place is taken fails, for the name that has the place. -/
theorem classifyKept_of_taken (only : start.OnlyBuiltins) (named : type.name = .string name)
    (keeps : start.leavesOut name type = false) (fresh : name ∉ done.map Prod.fst)
    (taken : (start.place (name, type)).targetName
      ∈ done.map fun entry => (start.place entry).targetName)
    : ∃ previous,
        (start.withPlaces done).classifyKept type
          = .error (.duplicateTarget (start.place (name, type)).targetName previous name) := by
  have other : start.isBuiltin name = false := by
    simp only [leavesOut, Bool.or_eq_false_iff] at keeps
    exact keeps.1.2
  have unknown := get?_withPlaces_eq_none only other fresh
  have held : ∃ previous,
      Table.get? (start.withPlaces done).targets (start.place (name, type)).targetName
        = some previous := by
    apply Option.ne_none_iff_exists'.mp
    rw [ne_eq, Table.get?_eq_none_iff]
    simpa [withPlaces, only.free, Table.names, Function.comp_def] using taken
  obtain ⟨previous, found⟩ := held
  have different : (previous == name) = false := by
    have member := Table.mem_of_get? found
    simp only [withPlaces, only.free, List.nil_append, List.mem_map] at member
    obtain ⟨entry, member, same⟩ := member
    obtain ⟨-, rfl⟩ := Prod.mk.inj same
    exact beq_eq_false_iff_ne.mpr fun same => fresh (same ▸ List.mem_map.mpr ⟨entry, member, rfl⟩)
  refine ⟨previous, ?_⟩
  have mapped : (start.withPlaces done).mappingFor type name = start.place (name, type) := rfl
  rw [classifyKept_of_keeps named keeps, classify_of_name _ named, unknown]
  dsimp only
  rw [mapped, found]
  dsimp only
  rw [different]
  rfl

-----------------------------------------------------------------------------------------
-- Classification of all types
-----------------------------------------------------------------------------------------

/-- A type that is left out under its name is not among those that are kept. -/
theorem kept_cons_of_leavesOut {rest : List TypeDef} (named : type.name = .string name)
    (out : start.leavesOut name type = true) : start.kept (type :: rest) = start.kept rest := by
  simp [kept, keep?, named, out]

theorem kept_cons_of_keeps {rest : List TypeDef} (named : type.name = .string name)
    (keeps : start.leavesOut name type = false)
    : start.kept (type :: rest) = (name, type) :: start.kept rest := by
  simp [kept, keep?, named, keeps]

theorem classifyAll_cons (registry : Registry) (type : TypeDef) (rest : List TypeDef)
    : registry.classifyAll (type :: rest)
      = (do
        let next ← registry.classifyKept type
        next.2.classifyAll rest) := by
  unfold classifyAll
  rw [List.foldlM_cons]
  cases registry.classifyKept type <;> rfl

theorem classifyKept_of_unnamed {registry : Registry} (unnamed : ¬∃ name, type.name = .string name)
    : registry.classifyKept type = .error .illTyped := by
  cases shape : type.name with
  | string name => exact absurd ⟨name, shape⟩ unnamed
  | _ => simp only [classifyKept, shouldSkip, shape]; rfl

/-- A place that is taken stays taken, whatever is placed behind it. -/
theorem not_nodup_of_taken {entry : String × TypeDef} (more : List (String × TypeDef))
    (taken
      : (start.place entry).targetName ∈ done.map fun other => (start.place other).targetName)
    : ¬((addNew (done ++ [entry]) more).map fun other => (start.place other).targetName).Nodup := by
  intro unique
  have apart := unique.sublist ((prefix_addNew (done ++ [entry]) more).sublist.map _)
  rw [List.map_append, List.nodup_append] at apart
  exact absurd rfl (apart.2.2 _ taken _ (by simp))

theorem nodup_of_free {entry : String × TypeDef}
    (apart : (done.map fun other => (start.place other).targetName).Nodup)
    (free : (start.place entry).targetName ∉ done.map fun other => (start.place other).targetName)
    : ((done ++ [entry]).map fun other => (start.place other).targetName).Nodup := by
  rw [List.map_append, List.nodup_append]
  refine ⟨apart, by simp, ?_⟩
  rintro target member other single rfl
  simp only [List.map_cons, List.map_nil, List.mem_singleton] at single
  exact free (single ▸ member)

/-- Behind types that have been placed, classification succeeds exactly when all further names are
texts and all places differ, and then places each new name. By induction on the types, where each is
left out, known, placed, or refused.
-/
theorem classifyAll_withPlaces (only : start.OnlyBuiltins) (types : List TypeDef)
    (apart : (done.map fun entry => (start.place entry).targetName).Nodup) (registry : Registry)
    : (start.withPlaces done).classifyAll types = .ok registry
      ↔ (∀ type ∈ types, ∃ name, type.name = .string name)
        ∧ ((addNew done (start.kept types)).map fun entry => (start.place entry).targetName).Nodup
        ∧ registry = start.withPlaces (addNew done (start.kept types)) := by
  induction types generalizing done with
  | nil =>
      have none_left : (start.withPlaces done).classifyAll [] = .ok (start.withPlaces done) := rfl
      have none_kept : addNew done (start.kept []) = done := rfl
      rw [none_left, none_kept]
      constructor
      · intro same
        exact ⟨by simp, apart, (Except.ok.inj same).symm⟩
      · rintro ⟨-, -, rfl⟩
        rfl
  | cons type rest ih =>
      rw [classifyAll_cons]
      by_cases named : ∃ name, type.name = .string name
      · obtain ⟨name, named⟩ := named
        have names : (∀ other ∈ type :: rest, ∃ name, other.name = .string name)
            ↔ ∀ other ∈ rest, ∃ name, other.name = .string name := by
          simp [named]
        rw [names]
        cases out : start.leavesOut name type with
        | true =>
            rw [classifyKept_of_leavesOut named out, kept_cons_of_leavesOut named out]
            exact ih apart
        | false =>
            rw [kept_cons_of_keeps named out, addNew]
            by_cases known : name ∈ done.map Prod.fst
            · obtain ⟨mapping, same⟩ := classifyKept_of_known named out known
              rw [same, if_pos known]
              exact ih apart
            · rw [if_neg known]
              by_cases taken : (start.place (name, type)).targetName
                  ∈ done.map fun entry => (start.place entry).targetName
              · -- neither side holds: the type is refused, and two places are the same
                obtain ⟨previous, failed⟩ := classifyKept_of_taken only named out known taken
                rw [failed]
                refine ⟨fun impossible => (nomatch impossible), ?_⟩
                rintro ⟨-, unique, -⟩
                exact absurd unique (not_nodup_of_taken _ taken)
              · rw [classifyKept_of_free only named out known taken]
                exact ih (nodup_of_free apart taken)
      · rw [classifyKept_of_unnamed named]
        refine ⟨fun impossible => (nomatch impossible), ?_⟩
        rintro ⟨texts, -⟩
        exact absurd (texts type (by simp)) named

theorem withPlaces_nil (start : Registry) : start.withPlaces [] = start := by
  simp [withPlaces]

/-- Behind built-in types, classification succeeds exactly when all names are texts and the places
of the names that come first all differ, and then it has placed each of these.
-/
theorem classifyAll_eq_ok_iff (only : start.OnlyBuiltins) (types : List TypeDef)
    (registry : Registry)
    : start.classifyAll types = .ok registry
      ↔ (∀ type ∈ types, ∃ name, type.name = .string name)
        ∧ ((firsts (start.kept types)).map fun entry => (start.place entry).targetName).Nodup
        ∧ registry = start.withPlaces (firsts (start.kept types)) := by
  have apart
      : (([] : List (String × TypeDef)).map fun entry => (start.place entry).targetName).Nodup :=
    List.nodup_nil
  have general := classifyAll_withPlaces only types apart registry
  rwa [withPlaces_nil] at general

/-- Under a name, classification of a type can fail only for a place that is taken. -/
theorem classifyKept_eq_error {registry : Registry} {cause : Error}
    (named : type.name = .string name)
    (failed : registry.classifyKept type = .error cause)
    : ∃ target first second, cause = .duplicateTarget target first second := by
  have shown : registry.shouldSkip type
      = .ok (isSkippedName name || registry.isBuiltin name || type.isDeprecated) := by
    rw [shouldSkip, named]
    rfl
  have classified : registry.classify type = .error cause := by
    rw [classifyKept, shown] at failed
    cases out : isSkippedName name || registry.isBuiltin name || type.isDeprecated with
    | true =>
        rw [out] at failed
        cases failed
    | false =>
        rw [out] at failed
        cases made : registry.classify type with
        | ok pair =>
            rw [made] at failed
            cases failed
        | error other =>
            rw [made] at failed
            cases failed
            rfl
  rw [classify_of_name registry named] at classified
  split at classified
  · cases classified
  split at classified
  · split at classified
    · cases classified
    · cases classified
      exact ⟨_, _, _, rfl⟩
  · cases classified

/-- Classification of types whose names are texts can fail only for a place that is taken, by
induction on the types.
-/
theorem classifyAll_eq_error {types : List TypeDef} {registry : Registry} {cause : Error}
    (texts : ∀ type ∈ types, ∃ name, type.name = .string name)
    (failed : registry.classifyAll types = .error cause)
    : ∃ target first second, cause = .duplicateTarget target first second := by
  induction types generalizing registry with
  | nil => cases failed
  | cons type rest ih =>
      obtain ⟨name, named⟩ := texts type (by simp)
      have rest_texts : ∀ other ∈ rest, ∃ name, other.name = .string name :=
        fun other member => texts other (List.mem_cons_of_mem type member)
      rw [classifyAll_cons] at failed
      cases step : registry.classifyKept type with
      | ok next =>
          rw [step] at failed
          exact ih rest_texts failed
      | error other =>
          rw [step] at failed
          cases failed
          exact classifyKept_eq_error named step

-----------------------------------------------------------------------------------------
-- Mappings once every type has its place
-----------------------------------------------------------------------------------------

/-- A mapping is that of a built-in type, or the place of a type under its name. -/
theorem get?_withPlaces_cases {mapping : NameMapping}
    (found : (start.withPlaces done).finalize.get? name = some mapping)
    : start.get? name = some mapping
      ∨ ∃ type, (name, type) ∈ done ∧ mapping = start.place (name, type) := by
  have split := get?_withPlaces start done name
  rw [show (start.withPlaces done).get? name = some mapping from found] at split
  cases known : start.get? name with
  | some builtin =>
      rw [known, Option.some_or] at split
      exact .inl (congrArg some (Option.some.inj split.symm))
  | none =>
      rw [known, Option.none_or] at split
      obtain ⟨entry, member, same⟩ := List.mem_map.mp (Table.mem_of_get? split.symm)
      obtain ⟨rfl, rfl⟩ := Prod.mk.inj same
      exact .inr ⟨entry.2, member, rfl⟩

/-- A mapping that is not that of a built-in type is the place of a type under its name. -/
theorem exists_of_get?_withPlaces {mapping : NameMapping} (only : start.OnlyBuiltins)
    (found : (start.withPlaces done).finalize.get? name = some mapping)
    (own : mapping.isBuiltin = false)
    : ∃ type, (name, type) ∈ done ∧ mapping = start.place (name, type) := by
  rcases get?_withPlaces_cases found with builtin | place
  · rw [only.builtin builtin] at own
    cases own
  · exact place

theorem get?_of_mem (unique : (done.map Prod.fst).Nodup) (unknown : start.get? name = none)
    (member : (name, type) ∈ done)
    : (start.withPlaces done).finalize.get? name = some (start.place (name, type)) := by
  show (start.withPlaces done).get? name = _
  rw [get?_withPlaces, unknown, Option.none_or, Table.get?_eq_some_iff]
  · exact List.mem_map.mpr ⟨(name, type), member, rfl⟩
  · simpa [Table.names, Function.comp_def] using unique

theorem keep?_eq_some {entry : String × TypeDef}
    : start.keep? type = some entry
      ↔ type.name = .string entry.1 ∧ entry.2 = type ∧ start.leavesOut entry.1 type = false := by
  unfold keep?
  split
  case h_1 text named =>
    split
    case isTrue out =>
      constructor
      · intro found
        cases found
      · rintro ⟨same, -, keeps⟩
        obtain rfl := Json.string.inj (named.symm.trans same)
        rw [out] at keeps
        cases keeps
    case isFalse keeps =>
      constructor
      · intro found
        cases found
        exact ⟨named, rfl, by simpa using keeps⟩
      · rintro ⟨same, rfl, -⟩
        obtain rfl := Json.string.inj (named.symm.trans same)
        rfl
  case h_2 other =>
    constructor
    · intro found
      cases found
    · rintro ⟨same, -, -⟩
      exact absurd same (other entry.1)

theorem mem_kept {types : List TypeDef}
    : (name, type) ∈ start.kept types
      ↔ type ∈ types ∧ type.name = .string name ∧ start.leavesOut name type = false := by
  simp only [kept, List.mem_filterMap, keep?_eq_some]
  constructor
  · rintro ⟨other, member, named, rfl, keeps⟩
    exact ⟨member, named, keeps⟩
  · rintro ⟨member, named, keeps⟩
    exact ⟨type, member, named, rfl, keeps⟩

/-- The names of kept types are among the names of types, in order, by induction on the types. -/
theorem names_kept_sublist {types : List TypeDef}
    (texts : ∀ type ∈ types, ∃ name, type.name = .string name)
    : ((start.kept types).map fun entry => Json.string entry.1).Sublist
        (types.map TypeDef.name) := by
  induction types with
  | nil => exact List.Sublist.slnil
  | cons type rest ih =>
      have later := ih fun other member => texts other (List.mem_cons_of_mem type member)
      obtain ⟨name, named⟩ := texts type List.mem_cons_self
      cases out : start.leavesOut name type with
      | true =>
          rw [kept_cons_of_leavesOut named out]
          exact later.cons _
      | false =>
          rw [kept_cons_of_keeps named out, List.map_cons, List.map_cons, named]
          exact later.cons_cons _

/-- Kept types have names of their own when no other type has the name of one. -/
theorem nodup_names_kept {types : List TypeDef}
    (texts : ∀ type ∈ types, ∃ name, type.name = .string name)
    (single
      : ∀ entry ∈ start.kept types, (types.map TypeDef.name).count (.string entry.1) ≤ 1)
    : ((start.kept types).map Prod.fst).Nodup := by
  rw [List.nodup_iff_count_le_one]
  intro name
  by_cases member : name ∈ (start.kept types).map Prod.fst
  · obtain ⟨entry, keeps, rfl⟩ := List.mem_map.mp member
    have injective : Function.Injective Json.string := fun _ _ same => Json.string.inj same
    calc ((start.kept types).map Prod.fst).count entry.1
        = (((start.kept types).map Prod.fst).map Json.string).count (.string entry.1) :=
          (List.count_map_of_injective _ _ injective _).symm
      _ = ((start.kept types).map fun entry => Json.string entry.1).count (.string entry.1) := by
          rw [List.map_map]
          rfl
      _ ≤ (types.map TypeDef.name).count (.string entry.1) :=
          (names_kept_sublist texts).count_le _
      _ ≤ 1 := single entry keeps
  · rw [List.count_eq_zero_of_not_mem member]
    omega

theorem get?_eq_none_of_mem_kept (only : start.OnlyBuiltins) {types : List TypeDef}
    (member : (name, type) ∈ start.kept types) : start.get? name = none := by
  obtain ⟨-, -, keeps⟩ := mem_kept.mp member
  cases known : start.get? name with
  | none => rfl
  | some mapping => simp [leavesOut, isBuiltin, known, only.builtin known] at keeps

/-- Types placed in another order have the same mappings. -/
theorem get?_withPlaces_perm {other : List (String × TypeDef)} (perm : done.Perm other)
    (unique : (done.map Prod.fst).Nodup) (name : String)
    : (start.withPlaces done).finalize.get? name = (start.withPlaces other).finalize.get? name := by
  show (start.withPlaces done).get? name = (start.withPlaces other).get? name
  rw [get?_withPlaces, get?_withPlaces, Table.get?_perm (perm.map _)]
  simpa [Table.names, Function.comp_def] using unique

/-- A generated name is looked up among the places of types, from the last one on, and then among
the mappings there were.
-/
theorem byTarget?_withPlaces (start : Registry) (entries : List (String × TypeDef))
    (target : String)
    : (start.withPlaces entries).finalize.byTarget? target
      = ((entries.map start.place).reverse.find? fun mapping => mapping.targetName == target).or
        (start.mappings.values.reverse.find? fun mapping => mapping.targetName == target) := by
  have values : (start.withPlaces entries).mappings.values
      = start.mappings.values ++ entries.map start.place := by
    simp [withPlaces, Table.values, Function.comp_def]
  show (start.withPlaces entries).mappings.values.reverse.find? _ = _
  rw [values, List.reverse_append, List.find?_append]

/-- Types placed in another order are found at the same places. -/
theorem byTarget?_withPlaces_perm {other : List (String × TypeDef)} (perm : done.Perm other)
    (apart : (done.map fun entry => (start.place entry).targetName).Nodup) (target : String)
    : (start.withPlaces done).finalize.byTarget? target
      = (start.withPlaces other).finalize.byTarget? target := by
  have reversed : (done.map start.place).reverse.Perm (other.map start.place).reverse :=
    (List.reverse_perm _).trans ((perm.map start.place).trans (List.reverse_perm _).symm)
  have same
      : ((done.map start.place).reverse.find? fun mapping => mapping.targetName == target)
        = (other.map start.place).reverse.find? fun mapping => mapping.targetName == target := by
    apply find?_perm reversed
    intro a aMember b bMember aTarget bTarget
    obtain ⟨first, firstMember, rfl⟩ := List.mem_map.mp (List.mem_reverse.mp aMember)
    obtain ⟨second, secondMember, rfl⟩ := List.mem_map.mp (List.mem_reverse.mp bMember)
    have equal : (start.place first).targetName = (start.place second).targetName :=
      (eq_of_beq aTarget).trans (eq_of_beq bTarget).symm
    rw [List.inj_on_of_nodup_map apart firstMember secondMember equal]
  rw [byTarget?_withPlaces, byTarget?_withPlaces, same]

end

end Registry

namespace Classified

variable {classified : Classified} {mapping : NameMapping}

theorem lookup_eq_ok {name : String}
    : classified.lookup name = .ok mapping ↔ classified.get? name = some mapping := by
  unfold lookup
  cases classified.get? name <;> simp

/-- A value has a mapping when it is a name that has one. -/
theorem lookupValue_eq_ok {value : Json}
    : classified.lookupValue value = .ok mapping
      ↔ ∃ name, value = .string name ∧ classified.get? name = some mapping := by
  unfold lookupValue
  split
  case h_1 name =>
    rw [lookup_eq_ok]
    simp
  case h_2 other =>
    constructor
    · intro found
      split at found <;> cases found
    · rintro ⟨name, rfl, -⟩
      exact absurd rfl (other name)

end Classified

end RubySchema
