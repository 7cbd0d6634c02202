import RubySchema.Proofs.Generation.Stages
import RubySchema.Proofs.Registry.Suffixes

/-!
Classification fails exactly when two first types of different names have one place, and otherwise
maps the built-in names and the names of the types that are not passed over. Types are passed over
for a few reasons; of the others, the first of each name has the place that its kind and its name
tell.
-/

namespace RubySchema

open Text

namespace Registry

/-- A type is passed over: for its name, because the reference library has it, or because it is
deprecated.
-/
inductive IsPassedOver (builtins : List String) (name : String) (type : TypeDef) : Prop where
  | connection (front : String) (ends : name = front ++ "Connection")
  | edge (front : String) (ends : name = front ++ "Edge")
  | introspection (rest : String) (starts : name = "__" ++ rest)
  | builtin (member : name ∈ builtins)
  | deprecated (deprecated : type.isDeprecated = true)

structure IsFirst (builtins : List String) (types : List TypeDef) (name : String) (type : TypeDef)
    : Prop where
  named : type.name = .string name
  shown : ¬IsPassedOver builtins name type
  first
    : ∃ before after,
        types = before ++ type :: after
        ∧ ∀ other ∈ before, other.name = .string name → IsPassedOver builtins name other

/-- First types of two names have one place. -/
def IsContested (builtins : List String) (types : List TypeDef) : Prop :=
  ∃ name other type otherType category stem,
    name ≠ other
    ∧ IsFirst builtins types name type
    ∧ IsFirst builtins types other otherType
    ∧ TypeName.HasPlace type.kind name category stem
    ∧ TypeName.HasPlace otherType.kind other category stem

-----------------------------------------------------------------------------------------
-- First types
-----------------------------------------------------------------------------------------

/-- What is added behind a list is the first entry of each name that the list does not have. -/
theorem mem_addNew_iff {done entries : List (String × TypeDef)} {entry : String × TypeDef}
    : entry ∈ addNew done entries
      ↔ entry ∈ done
        ∨ entry.1 ∉ done.map Prod.fst
          ∧ entries.find? (fun other => other.1 == entry.1) = some entry := by
  induction entries generalizing done with
  | nil => simp [addNew]
  | cons head rest ih =>
      unfold addNew
      split
      case isTrue known =>
        rw [ih]
        refine or_congr_right (and_congr_right fun new => ?_)
        have other : (head.1 == entry.1) = false := by
          rw [beq_eq_false_iff_ne]
          intro same
          exact new (same ▸ known)
        rw [List.find?_cons_of_neg (by simp [other])]
      case isFalse new =>
        rw [ih]
        by_cases same : head.1 = entry.1
        · rw [List.find?_cons_of_pos (by simp [same])]
          simp only [List.mem_append, List.map_append, List.mem_singleton, List.map_cons,
            List.map_nil, Option.some.injEq, same, or_true, not_true_eq_false, false_and, or_false]
          constructor
          · exact Or.imp_right fun here => ⟨same ▸ new, here.symm⟩
          · exact Or.imp_right fun here => here.2.symm
        · rw [List.find?_cons_of_neg (by simp [same])]
          have elsewhere : entry ≠ head := fun equal => same (congrArg Prod.fst equal).symm
          simp [elsewhere, Ne.symm same]

theorem mem_firsts_iff {entries : List (String × TypeDef)} {entry : String × TypeDef}
    : entry ∈ firsts entries
      ↔ entries.find? (fun other => other.1 == entry.1) = some entry := by
  rw [firsts, mem_addNew_iff]
  simp

/-- Each name comes once among the first entries. -/
theorem nodup_names_addNew {done entries : List (String × TypeDef)}
    (unique : (done.map Prod.fst).Nodup) : ((addNew done entries).map Prod.fst).Nodup := by
  induction entries generalizing done with
  | nil => exact unique
  | cons head rest ih =>
      unfold addNew
      split
      case isTrue => exact ih unique
      case isFalse new =>
        refine ih ?_
        rw [List.map_append, List.nodup_append]
        refine ⟨unique, by simp, ?_⟩
        rintro name member other single rfl
        simp only [List.map_cons, List.map_nil, List.mem_singleton] at single
        exact new (single ▸ member)

section
variable {settings : Settings} {builtins : List String} {types : List TypeDef} {name : String}
  {type : TypeDef}

/-- Types are left out of classification exactly when they are passed over. -/
theorem leavesOut_iff (settings : Settings) (usual : TypeName.IsGraphQL name)
    : (Job.startRegistry settings builtins).leavesOut name type = true
      ↔ IsPassedOver builtins name type := by
  have ascii : Text.IsAscii name := fun c member => toNat_lt_of_usual (usual c member)
  have provided
      : (Job.startRegistry settings builtins).isBuiltin name = true ↔ name ∈ builtins := by
    rw [isBuiltin, Job.get?_startRegistry]
    by_cases member : name ∈ builtins
    · simp [member, builtinMapping, NameMapping.isBuiltin]
    · simp [member]
  simp only [leavesOut, isSkippedName, Bool.or_eq_true, provided, startsWith_iff,
    endsWith_iff ascii (by decide : Text.IsAscii "Connection"),
    endsWith_iff ascii (by decide : Text.IsAscii "Edge")]
  constructor
  · rintro ((((⟨front, ends⟩ | ⟨front, ends⟩) | ⟨rest, starts⟩) | member) | deprecated)
    · exact .connection front ends
    · exact .edge front ends
    · exact .introspection rest starts
    · exact .builtin member
    · exact .deprecated deprecated
  · intro passed
    cases passed with
    | connection front ends => exact .inl (.inl (.inl (.inl ⟨front, ends⟩)))
    | edge front ends => exact .inl (.inl (.inl (.inr ⟨front, ends⟩)))
    | introspection rest starts => exact .inl (.inl (.inr ⟨rest, starts⟩))
    | builtin member => exact .inl (.inr member)
    | deprecated deprecated => exact .inr deprecated

/-- A type is kept under a name when it has the name and is not passed over. -/
theorem keep?_eq_some_iff (settings : Settings) (usual : TypeName.IsGraphQL name)
    : (Job.startRegistry settings builtins).keep? type = some (name, type)
      ↔ type.name = .string name ∧ ¬IsPassedOver builtins name type := by
  rw [keep?_eq_some, ← leavesOut_iff settings usual]
  simp

/-- The types that get a place are the first ones. -/
theorem mem_firsts_kept_iff (usual : TypeName.IsGraphQL name)
    : (name, type) ∈ firsts ((Job.startRegistry settings builtins).kept types)
      ↔ IsFirst builtins types name type := by
  have keeps (other : TypeDef)
      : ((Job.startRegistry settings builtins).keep? other).any (fun entry => entry.1 == name)
          = true
        ↔ other.name = .string name ∧ ¬IsPassedOver builtins name other := by
    rw [← keep?_eq_some_iff settings usual, Option.any_eq_true]
    constructor
    · rintro ⟨⟨text, kept⟩, found, same⟩
      obtain rfl := eq_of_beq same
      obtain ⟨-, rfl, -⟩ := keep?_eq_some.mp found
      exact found
    · exact fun found => ⟨(name, other), found, beq_self_eq_true name⟩
  rw [mem_firsts_iff, kept, List.find?_filterMap, Option.bind_eq_some_iff]
  constructor
  · rintro ⟨other, search, found⟩
    obtain ⟨-, same, -⟩ := keep?_eq_some.mp found
    obtain rfl : type = other := same
    obtain ⟨named, shown⟩ := (keep?_eq_some_iff settings usual).mp found
    obtain ⟨-, before, after, split, none⟩ := List.find?_eq_some_iff_append.mp search
    refine ⟨named, shown, before, after, split, fun other member otherNamed => ?_⟩
    by_contra otherShown
    have passes := (keeps other).mpr ⟨otherNamed, otherShown⟩
    have fails := none other member
    rw [passes] at fails
    cases fails
  · rintro ⟨named, shown, before, after, split, passed⟩
    refine ⟨type, List.find?_eq_some_iff_append.mpr ⟨(keeps type).mpr ⟨named, shown⟩, before, after,
      split, fun other member => ?_⟩, (keep?_eq_some_iff settings usual).mpr ⟨named, shown⟩⟩
    rw [Bool.not_eq_true', ← Bool.not_eq_true, keeps other]
    rintro ⟨otherNamed, otherShown⟩
    exact otherShown (passed other member otherNamed)

/-- A usual name of a type that is not passed over has a first type. -/
theorem exists_isFirst (usual : TypeName.IsGraphQL name) (member : type ∈ types)
    (named : type.name = .string name) (shown : ¬IsPassedOver builtins name type)
    : ∃ first, IsFirst builtins types name first := by
  have keeps : (name, type) ∈ (Job.startRegistry Settings.standard builtins).kept types :=
    List.mem_filterMap.mpr ⟨type, member, (keep?_eq_some_iff _ usual).mpr ⟨named, shown⟩⟩
  have placed
      : name ∈ (firsts ((Job.startRegistry Settings.standard builtins).kept types)).map Prod.fst :=
    mem_names_addNew keeps
  obtain ⟨⟨text, first⟩, among, same⟩ := List.mem_map.mp placed
  obtain rfl : text = name := same
  exact ⟨first, (mem_firsts_kept_iff usual).mp among⟩

-----------------------------------------------------------------------------------------
-- Places
-----------------------------------------------------------------------------------------

/-- A generated name is told by its category and the name within it. -/
theorem target_eq_iff {category otherCategory : Category} {stem other : String}
    : category.word ++ "::" ++ stem = otherCategory.word ++ "::" ++ other
      ↔ category = otherCategory ∧ stem = other := by
  constructor
  · intro same
    have free (category : Category) : ':' ∉ category.word.toList := by
      cases category <;> decide
    have lists := congrArg String.toList same
    simp only [String.toList_append, List.append_assoc] at lists
    have words : category.word = otherCategory.word :=
      String.toList_injective (eq_of_append_cons (free category) (free otherCategory) lists)
    have categories : category = otherCategory := by
      revert words
      cases category <;> cases otherCategory <;> decide
    subst categories
    exact ⟨rfl, by simpa [String.ext_iff] using same⟩
  · rintro ⟨rfl, rfl⟩
    rfl

/-- A type that is not passed over is mapped to the place that the rules give it. -/
theorem targetName_place_iff (settings : Settings) {category : Category} {stem : String}
    (usual : TypeName.IsGraphQL name)
    (shown : ¬IsPassedOver builtins name type)
    : ((Job.startRegistry settings builtins).place (name, type)).targetName
          = category.word ++ "::" ++ stem
      ↔ TypeName.HasPlace type.kind name category stem := by
  have notConnection : ∀ front, name ≠ front ++ "Connection" :=
    fun front ends => shown (.connection front ends)
  rw [usual.hasPlace_iff notConnection, Prod.ext_iff]
  exact target_eq_iff

theorem category_place {category : Category} {stem : String} (usual : TypeName.IsGraphQL name)
    (shown : ¬IsPassedOver builtins name type)
    (place : TypeName.HasPlace type.kind name category stem)
    : ((Job.startRegistry settings builtins).place (name, type)).category = category :=
  congrArg Prod.fst (place.categorize_eq usual fun front ends => shown (.connection front ends))

/-- Once types are classified, a usual name has the place of its first type. -/
theorem IsFirst.get?_classified {registry : Registry} (usual : TypeName.IsGraphQL name)
    (first : IsFirst builtins types name type)
    (classifies : (Job.startRegistry settings builtins).classifyAll types = .ok registry)
    : registry.finalize.get? name
      = some ((Job.startRegistry settings builtins).place (name, type)) := by
  obtain ⟨-, -, rfl⟩ :=
    (classifyAll_eq_ok_iff (Job.onlyBuiltins_startRegistry settings builtins) types registry).mp
      classifies
  have start := Job.get?_startRegistry settings builtins name
  rw [if_neg fun among => first.shown (.builtin among)] at start
  exact get?_of_mem (nodup_names_addNew List.nodup_nil) start
    ((mem_firsts_kept_iff usual).mpr first)

section
variable (usual : ∀ type ∈ types, ∃ name, type.name = .string name ∧ TypeName.IsGraphQL name)
include usual

theorem usual_of_named (member : type ∈ types) (named : type.name = .string name)
    : TypeName.IsGraphQL name := by
  obtain ⟨text, same, graphQL⟩ := usual type member
  exact Json.string.inj (same.symm.trans named) ▸ graphQL

theorem IsFirst.isGraphQL (first : IsFirst builtins types name type) : TypeName.IsGraphQL name := by
  obtain ⟨before, after, split, -⟩ := first.first
  exact usual_of_named usual (by simp [split]) first.named

/-- Among types with usual names, those that get a place are the first ones. -/
theorem mem_places_iff
    : (name, type) ∈ firsts ((Job.startRegistry settings builtins).kept types)
      ↔ IsFirst builtins types name type := by
  constructor
  · intro member
    have keeps := (mem_of_mem_addNew member).resolve_left List.not_mem_nil
    obtain ⟨among, named, -⟩ := mem_kept.mp keeps
    exact (mem_firsts_kept_iff (usual_of_named usual among named)).mp member
  · exact fun first => (mem_firsts_kept_iff (first.isGraphQL usual)).mpr first

/-- A name has a first type exactly when it is the name of a type that is not passed over. -/
theorem exists_isFirst_iff
    : (∃ type, IsFirst builtins types name type)
      ↔ ∃ type ∈ types, type.name = .string name ∧ ¬IsPassedOver builtins name type := by
  constructor
  · rintro ⟨type, named, shown, before, after, rfl, -⟩
    exact ⟨type, by simp, named, shown⟩
  · rintro ⟨type, member, named, shown⟩
    exact exists_isFirst (usual_of_named usual member named) member named shown

/-- The places of the first types differ exactly when no place is contested. -/
theorem nodup_places_iff
    : ((firsts ((Job.startRegistry settings builtins).kept types)).map fun entry =>
          ((Job.startRegistry settings builtins).place entry).targetName).Nodup
      ↔ ¬IsContested builtins types := by
  have names : ((firsts ((Job.startRegistry settings builtins).kept types)).map Prod.fst).Nodup :=
    nodup_names_addNew List.nodup_nil
  rw [List.nodup_map_iff_inj_on names.of_map]
  constructor
  · rintro apart ⟨name, other, type, otherType, category, stem, differ, first, second, place,
      otherPlace⟩
    have target := (targetName_place_iff settings (first.isGraphQL usual) first.shown).mpr
      place
    have otherTarget := (targetName_place_iff settings (second.isGraphQL usual)
      second.shown).mpr otherPlace
    have same := apart _ ((mem_places_iff usual).mpr first) _ ((mem_places_iff usual).mpr second)
      (target.trans otherTarget.symm)
    exact differ (congrArg Prod.fst same)
  · rintro free ⟨name, type⟩ member ⟨other, otherType⟩ otherMember same
    have first := (mem_places_iff usual).mp member
    have second := (mem_places_iff usual).mp otherMember
    by_contra differ
    have differentNames : name ≠ other := fun equal =>
      differ (List.inj_on_of_nodup_map names member otherMember equal)
    have place := (targetName_place_iff settings (first.isGraphQL usual)
      first.shown).mp rfl
    have otherPlace := (targetName_place_iff settings (second.isGraphQL usual)
      second.shown).mp same.symm
    exact free ⟨name, other, type, otherType, _, _, differentNames, first, second, place,
      otherPlace⟩

-----------------------------------------------------------------------------------------
-- Classification
-----------------------------------------------------------------------------------------

/-- Classification of types with usual names fails exactly for a contested place. -/
theorem classifyAll_fails_iff
    : (∃ target first second,
          (Job.startRegistry settings builtins).classifyAll types
            = .error (.duplicateTarget target first second))
      ↔ IsContested builtins types := by
  have texts : ∀ type ∈ types, ∃ name, type.name = .string name := fun type member =>
    (usual type member).imp fun _ => And.left
  have exact := classifyAll_eq_ok_iff (Job.onlyBuiltins_startRegistry settings builtins) types
  simp only [nodup_places_iff usual] at exact
  constructor
  · rintro ⟨target, first, second, failed⟩
    by_contra free
    have made := (exact _).mpr ⟨texts, free, rfl⟩
    rw [failed] at made
    cases made
  · intro contested
    cases outcome : (Job.startRegistry settings builtins).classifyAll types with
    | ok registry => exact absurd contested ((exact registry).mp outcome).2.1
    | error cause =>
        obtain ⟨target, first, second, rfl⟩ := classifyAll_eq_error texts outcome
        exact ⟨target, first, second, rfl⟩

/-- Once types with usual names are classified, the mappings are those of the built-in names and of
the first types.
-/
theorem get?_classified_iff {registry : Registry} {mapping : NameMapping}
    (classifies : (Job.startRegistry settings builtins).classifyAll types = .ok registry)
    : registry.finalize.get? name = some mapping
      ↔ name ∈ builtins
          ∧ mapping
            = (Registry.empty settings.builtinNamespace settings.baseTypeOverrides).builtinMapping
              name
        ∨ ∃ type,
            IsFirst builtins types name type
            ∧ mapping = (Job.startRegistry settings builtins).place (name, type) := by
  obtain ⟨-, -, whole⟩ :=
    (classifyAll_eq_ok_iff (Job.onlyBuiltins_startRegistry settings builtins) types registry).mp
      classifies
  constructor
  · intro found
    rw [whole] at found
    rcases get?_withPlaces_cases found with builtin | ⟨type, member, same⟩
    · exact .inl (Job.get?_startRegistry_eq_some.mp builtin)
    · exact .inr ⟨type, (mem_places_iff usual).mp member, same⟩
  · rintro (⟨among, rfl⟩ | ⟨type, first, rfl⟩)
    · rw [whole]
      refine (get?_withPlaces _ _ name).trans ?_
      rw [Job.get?_startRegistry_eq_some.mpr ⟨among, rfl⟩, Option.some_or]
    · exact first.get?_classified (first.isGraphQL usual) classifies

/-- Once types with usual names are classified, the names with mappings are the built-in ones and
those of types that are not passed over.
-/
theorem isSome_classified_iff {registry : Registry}
    (classifies : (Job.startRegistry settings builtins).classifyAll types = .ok registry)
    : (registry.finalize.get? name).isSome
      ↔ name ∈ builtins
        ∨ ∃ type ∈ types, type.name = .string name ∧ ¬IsPassedOver builtins name type := by
  rw [← exists_isFirst_iff usual, Option.isSome_iff_exists]
  simp only [get?_classified_iff usual classifies]
  constructor
  · rintro ⟨mapping, ⟨among, -⟩ | ⟨type, first, -⟩⟩
    · exact .inl among
    · exact .inr ⟨type, first⟩
  · rintro (among | ⟨type, first⟩)
    · exact ⟨_, .inl ⟨among, rfl⟩⟩
    · exact ⟨_, .inr ⟨type, first, rfl⟩⟩

end

/-- Classification behind the built-in names fails for a place that two names would have, exactly
when first types of two names have one place. Otherwise the built-in names and the names of the
types that are not passed over have mappings, and the first type of each name has the place that the
rules give it.
-/
theorem classifyAll_exact
    (usual : ∀ type ∈ types, ∃ name, type.name = .string name ∧ TypeName.IsGraphQL name)
    : ((∃ target first second,
            (Job.startRegistry settings builtins).classifyAll types
              = .error (.duplicateTarget target first second))
          ↔ IsContested builtins types)
        ∧ (¬IsContested builtins types
          → ∃ registry,
              (Job.startRegistry settings builtins).classifyAll types = .ok registry
              ∧ (∀ name,
                  (registry.finalize.get? name).isSome
                    ↔ name ∈ builtins
                      ∨ ∃ type ∈ types,
                          type.name = .string name ∧ ¬IsPassedOver builtins name type)
              ∧ (∀ name ∈ builtins,
                  ∃ mapping,
                    registry.finalize.get? name = some mapping ∧ mapping.category = .builtIn)
              ∧ ∀ name type category stem,
                  IsFirst builtins types name type
                  → TypeName.HasPlace type.kind name category stem
                  → ∃ mapping,
                      registry.finalize.get? name = some mapping
                      ∧ mapping.category = category
                      ∧ mapping.targetName = category.word ++ "::" ++ stem) := by
  refine ⟨classifyAll_fails_iff usual, fun free => ?_⟩
  have texts : ∀ type ∈ types, ∃ name, type.name = .string name := fun type member =>
    (usual type member).imp fun _ => And.left
  have made := (classifyAll_eq_ok_iff (Job.onlyBuiltins_startRegistry settings builtins) types
    _).mpr ⟨texts, (nodup_places_iff usual).mpr free, rfl⟩
  refine ⟨_, made, fun name => isSome_classified_iff usual made, fun name among => ?_,
    fun name type category stem first place => ?_⟩
  · exact ⟨_, (get?_classified_iff usual made).mpr (.inl ⟨among, rfl⟩), rfl⟩
  · have graphQL := first.isGraphQL usual
    exact ⟨_, (get?_classified_iff usual made).mpr (.inr ⟨type, first, rfl⟩),
      category_place graphQL first.shown place,
      (targetName_place_iff settings graphQL first.shown).mpr place⟩

/-- A type that is kept is the first of its name when no other of its name stands in front of it. -/
theorem isFirst_of_keeps {before after : List TypeDef} (named : type.name = .string name)
    (usual : TypeName.IsGraphQL name)
    (keeps : (Job.startRegistry settings builtins).leavesOut name type = false)
    (new : ∀ other ∈ before, other.name ≠ .string name)
    : IsFirst builtins (before ++ type :: after) name type where
  named := named
  shown := by
    rw [← leavesOut_iff settings usual, keeps]
    decide
  first := ⟨before, after, rfl, fun other member same => absurd same (new other member)⟩

end

/-- An input object and an object whose name ends in `Input` contest a place. A payload of another
version has a place next to such an object.
-/
theorem classifyAll_exact_tags
    : (∃ target first second,
        (Job.startRegistry Settings.standard ["ID"]).classifyAll
            [Job.plainType "Tag" .inputObject [], Job.plainType "TagInput" .object []]
          = .error (.duplicateTarget target first second))
      ∧ ∃ registry,
          (Job.startRegistry Settings.standard ["ID"]).classifyAll
              [Job.plainType "TagInput" .object [], Job.plainType "TagPayloadV2" .object []]
            = .ok registry
          ∧ ∃ mapping,
              registry.finalize.get? "TagPayloadV2" = some mapping
              ∧ mapping.category = .payloads
              ∧ mapping.targetName = "Payloads" ++ "::" ++ "TagV2" := by
  constructor
  · have usual := TypeName.isGraphQL_of_names
      (show [Job.plainType "Tag" .inputObject [], Job.plainType "TagInput" .object []].map
        TypeDef.name = ["Tag", "TagInput"].map Json.string from rfl) (by decide)
    have first
        : IsFirst ["ID"] ([] ++ Job.plainType "Tag" .inputObject []
            :: [Job.plainType "TagInput" .object []]) "Tag" (Job.plainType "Tag" .inputObject []) :=
      @isFirst_of_keeps Settings.standard _ _ _ _ _ rfl (by decide) (by decide +kernel) (by simp)
    have second
        : IsFirst ["ID"] ([Job.plainType "Tag" .inputObject []]
            ++ Job.plainType "TagInput" .object [] :: []) "TagInput"
            (Job.plainType "TagInput" .object []) :=
      @isFirst_of_keeps Settings.standard _ _ _ _ _ rfl (by decide) (by decide +kernel)
        (by simp [Job.plainType])
    have place : TypeName.HasPlace .inputObject "Tag" .inputs "Tag" :=
      (TypeName.IsGraphQL.hasPlace_iff (by decide) fun front ends =>
        first.shown (.connection front ends)).mpr (by decide +kernel)
    have word : TypeName.EndsIn "Input" "TagInput" "Tag" :=
      ⟨"Tag".toList, [], .unnumbered, rfl, rfl⟩
    exact (classifyAll_exact usual).1.mpr ⟨"Tag", "TagInput", _, _, .inputs, "Tag", by decide,
      first, second, place, .inputWord (by decide) word⟩
  · have usual := TypeName.isGraphQL_of_names
      (show [Job.plainType "TagInput" .object [], Job.plainType "TagPayloadV2" .object []].map
        TypeDef.name = ["TagInput", "TagPayloadV2"].map Json.string from rfl) (by decide)
    have free : ¬IsContested ["ID"]
        [Job.plainType "TagInput" .object [], Job.plainType "TagPayloadV2" .object []] := by
      intro contested
      obtain ⟨target, first, second, failed⟩ :=
        (@classifyAll_exact Settings.standard _ _ usual).1.mpr contested
      have succeeds : ((Job.startRegistry Settings.standard ["ID"]).classifyAll
          [Job.plainType "TagInput" .object [], Job.plainType "TagPayloadV2" .object []]).isOk
          = true := by
        decide +kernel
      rw [failed] at succeeds
      cases succeeds
    obtain ⟨registry, classifies, -, -, places⟩ := (classifyAll_exact usual).2 free
    have first
        : IsFirst ["ID"] ([Job.plainType "TagInput" .object []]
            ++ Job.plainType "TagPayloadV2" .object [] :: []) "TagPayloadV2"
            (Job.plainType "TagPayloadV2" .object []) :=
      @isFirst_of_keeps Settings.standard _ _ _ _ _ rfl (by decide) (by decide +kernel)
        (by simp [Job.plainType])
    have place : TypeName.HasPlace .object "TagPayloadV2" .payloads "TagV2" :=
      (TypeName.IsGraphQL.hasPlace_iff (by decide) fun front ends =>
        first.shown (.connection front ends)).mpr (by decide +kernel)
    exact ⟨registry, classifies, places _ _ _ _ first place⟩

end Registry

end RubySchema
