import RubySchema.Proofs.Generation.Pieces
import RubySchema.Proofs.Reference
import RubySchema.Proofs.Registry.Suffixes
import RubySchema.Proofs.Runs

/-!
Two uses of types are written alike only if they are uses of one type with the same wrappers, in
full or without the namespace of the constant. A use is written as a constant with brackets, a
method and marks around it.
-/

namespace RubySchema

open Text

-----------------------------------------------------------------------------------------
-- Constants
-----------------------------------------------------------------------------------------

/-- The constant that a type of the schema comes to: a generated one, or one of the reference
library.
-/
inductive Landing where
  | generated (category : Category) (stem : String)
  | provided (name : String)

namespace Landing

def target : Landing → String
  | .generated category stem => category.word ++ "::" ++ stem
  | .provided name => "::GraphQL::Types" ++ "::" ++ name

/-- The constant without the namespace it lies in. -/
def short : Landing → String
  | .generated category stem => category.word ++ "::" ++ stem
  | .provided name => "Types::" ++ name

def stem : Landing → String
  | .generated _ stem => stem
  | .provided name => name

@[simp]
theorem target_generated (category : Category) (stem : String)
    : (generated category stem).target = category.word ++ "::" ++ stem := rfl

@[simp]
theorem target_provided (name : String)
    : (provided name).target = "::GraphQL::Types" ++ "::" ++ name := rfl

@[simp]
theorem short_generated (category : Category) (stem : String)
    : (generated category stem).short = category.word ++ "::" ++ stem := rfl

@[simp]
theorem short_provided (name : String) : (provided name).short = "Types::" ++ name := rfl

variable {namespaceName : String} {landing first second : Landing}

/-- No constant of the reference library lies in the namespace of a schema: the constants there have
two names more than that namespace has before `Schema`.
-/
theorem not_prefix_provided (namespaceName : String) {more : List Char} (free : ':' ∉ more)
    : ¬("::" ++ (namespaceName ++ "::Schema") ++ "::").toList
      <+: "::GraphQL::Types::".toList ++ more := by
  rintro ⟨rest, same⟩
  have lists : namespaceName.toList ++ ':' :: (":Schema::".toList ++ rest)
      = "GraphQL".toList ++ ':' :: (":Types::".toList ++ more) := by
    simpa using same
  have counts := congrArg (List.count ':') lists
  have none : List.count ':' more = 0 := List.count_eq_zero.mpr free
  have namespaceFree : ':' ∉ namespaceName.toList := by
    rw [← List.count_eq_zero]
    simp [none] at counts
    omega
  have front := eq_of_append_cons namespaceFree (by decide) lists
  rw [front] at lists
  simp at lists

theorem qualify_target (schemaNamespace : String) (landing : Landing)
    : Notation.qualify schemaNamespace landing.target
      = match landing with
        | .generated _ _ => "::" ++ schemaNamespace ++ "::" ++ landing.short
        | .provided _ => "::GraphQL::" ++ landing.short := by
  unfold Notation.qualify
  cases landing with
  | generated category stem =>
      have relative : ¬startsWith (category.word ++ "::" ++ stem) "::" = true := by
        cases category <;> simp [startsWith, Category.word, List.isPrefixOf]
      exact if_neg relative
  | provided name =>
      have absolute : startsWith ("::GraphQL::Types" ++ "::" ++ name) "::" = true := by
        simp [startsWith]
      refine (if_pos absolute).trans ?_
      apply String.toList_injective
      simp

/-- Without its namespace a constant is short, whatever stands behind it. -/
theorem withoutNamespace_append (namespaceName : String) (words : ':' ∉ landing.stem.toList)
    {more : String} (free : ':' ∉ more.toList)
    : Notation.withoutNamespace (namespaceName ++ "::Schema")
        (Notation.qualify (namespaceName ++ "::Schema") landing.target ++ more)
      = landing.short ++ more := by
  have after (start middle rest : String)
      : afterStart? start.toList (start ++ middle ++ rest).toList
        = some (middle ++ rest).toList := by
    simp [afterStart?, List.isPrefixOf_iff_prefix]
  rw [qualify_target]
  unfold Notation.withoutNamespace
  cases landing with
  | generated category stem =>
      dsimp only
      rw [after]
      exact String.ofList_toList
  | provided name =>
      have outside : afterStart? ("::" ++ (namespaceName ++ "::Schema") ++ "::").toList
            ("::GraphQL::" ++ short (.provided name) ++ more).toList
          = none := by
        have free : ':' ∉ name.toList ++ more.toList := by
          rw [List.mem_append]
          exact not_or.mpr ⟨words, free⟩
        have apart := not_prefix_provided namespaceName free
        rw [afterStart?, if_neg]
        rw [List.isPrefixOf_iff_prefix]
        simpa using apart
      dsimp only
      rw [outside]
      dsimp only
      rw [after]
      exact String.ofList_toList

/-- A constant tells what is left of it without its namespace. -/
theorem short_eq_of_qualify (firstFree : ':' ∉ first.stem.toList)
    (secondFree : ':' ∉ second.stem.toList)
    (same
      : Notation.qualify (namespaceName ++ "::Schema") first.target
        = Notation.qualify (namespaceName ++ "::Schema") second.target)
    : first.short = second.short := by
  have none : ':' ∉ "".toList := by decide
  have left := withoutNamespace_append namespaceName firstFree none
  have right := withoutNamespace_append namespaceName secondFree none
  rw [same, right] at left
  simpa using left.symm

end Landing

-----------------------------------------------------------------------------------------
-- Constants of mapped names
-----------------------------------------------------------------------------------------

/-- A name lands at a constant: a name of a built-in type at that type, and the name of a type that
has been placed at its place.
-/
inductive Registry.Lands (start : Registry) (done : List (String × TypeDef)) (name : String)
    : Landing → Prop where
  | provided (builtin : start.isBuiltin name = true) : Lands start done name (.provided name)
  | generated {type : TypeDef} (member : (name, type) ∈ done)
    : Lands start done name
        (.generated (TypeName.categorize type.kind name).1 (TypeName.categorize type.kind name).2)

/-- Outside the other categories a type keeps its name, but for a `Connection` at its end. -/
theorem TypeName.categorize_of_types {kind : TypeKind} {name : String}
    (types : (categorize kind name).1 = .types)
    : (categorize kind name).2 = (Naming.stripConnection name).1 := by
  revert types
  unfold categorize
  dsimp only
  repeat' split
  · nofun
  · nofun
  · nofun
  · nofun
  · exact fun _ => rfl

/-- A usual name that is not left out does not end in `Connection`. -/
theorem Registry.stripConnection_of_shown {name : String} (usual : TypeName.IsGraphQL name)
    (shown : isSkippedName name = false) : (Naming.stripConnection name).1 = name := by
  have ascii : IsAscii name := fun c member => toNat_lt_of_usual (usual c member)
  refine congrArg Prod.fst (Naming.stripConnection_of_ne fun stem ends => ?_)
  have skipped : endsWith name "Connection" = true :=
    (endsWith_iff ascii (by decide)).mpr ⟨stem, ends⟩
  simp [isSkippedName, skipped] at shown

namespace Registry

section
variable {start : Registry} {types : List TypeDef} {name other : String} {first second : Landing}

/-- The last name of a constant consists of characters of the name that lands there. -/
theorem Lands.stem_subset {done : List (String × TypeDef)} {landing : Landing}
    (lands : start.Lands done name landing) : landing.stem.toList ⊆ name.toList := by
  cases lands with
  | provided => exact List.Subset.refl _
  | generated => exact TypeName.categorize_subset _ _

/-- A generated constant and one of the reference library differ without their namespaces as well.
-/
theorem not_lands_at_one (usual : TypeName.IsGraphQL name) {type : TypeDef}
    (member : (name, type) ∈ firsts (start.kept types)) (builtin : start.isBuiltin other = true)
    : (Landing.generated (TypeName.categorize type.kind name).1
          (TypeName.categorize type.kind name).2).short
        ≠ (Landing.provided other).short := by
  intro same
  have keeps : (name, type) ∈ start.kept types := by
    exact (mem_of_mem_addNew member).resolve_left List.not_mem_nil
  obtain ⟨-, -, keeps⟩ := mem_kept.mp keeps
  simp only [leavesOut, Bool.or_eq_false_iff] at keeps
  obtain ⟨⟨shown, generated⟩, -⟩ := keeps
  have category : (TypeName.categorize type.kind name).1 = .types := by
    revert same
    cases (TypeName.categorize type.kind name).1 <;>
      simp [Category.word, String.ext_iff]
  have stem := (TypeName.categorize_of_types category).trans (stripConnection_of_shown usual shown)
  rw [category, stem] at same
  have names : name = other := by
    simpa [Category.word, String.ext_iff] using same
  rw [names, builtin] at generated
  cases generated

/-- A name is told by the constant it lands at, without the namespace of the constant. -/
theorem Lands.eq_of_short
    (apart : ((firsts (start.kept types)).map fun entry => (start.place entry).targetName).Nodup)
    (nameUsual : TypeName.IsGraphQL name) (otherUsual : TypeName.IsGraphQL other)
    (nameLands : start.Lands (firsts (start.kept types)) name first)
    (otherLands : start.Lands (firsts (start.kept types)) other second)
    (same : first.short = second.short) : name = other := by
  cases nameLands with
  | provided builtin =>
      cases otherLands with
      | provided => simpa [String.ext_iff] using same
      | generated member => exact absurd same.symm (not_lands_at_one otherUsual member builtin)
  | @generated type member =>
      cases otherLands with
      | provided builtin => exact absurd same (not_lands_at_one nameUsual member builtin)
      | @generated otherType otherMember =>
          have targets : (start.place (name, type)).targetName
              = (start.place (other, otherType)).targetName := same
          exact congrArg Prod.fst (List.inj_on_of_nodup_map apart member otherMember targets)

end

variable {settings : Settings} {builtins : List String} {done : List (String × TypeDef)}
  {name : String}

/-- A name that has a mapping lands at the constant of the mapping. -/
theorem exists_lands (usual : settings.builtinNamespace = "::GraphQL::Types")
    {mapping : NameMapping}
    (found
      : ((Job.startRegistry settings builtins).withPlaces done).finalize.get? name = some mapping)
    : ∃ landing,
        mapping.targetName = landing.target
        ∧ (Job.startRegistry settings builtins).Lands done name landing := by
  rcases get?_withPlaces_cases found with builtin | ⟨type, member, rfl⟩
  · have provided := (Job.onlyBuiltins_startRegistry settings builtins).builtin builtin
    refine ⟨.provided name, ?_, .provided (by simp [isBuiltin, builtin, provided])⟩
    obtain ⟨-, rfl⟩ := Job.get?_startRegistry_eq_some.mp builtin
    show settings.builtinNamespace ++ "::" ++ name = _
    rw [usual]
    rfl
  · exact ⟨_, rfl, .generated member⟩

end Registry

-----------------------------------------------------------------------------------------
-- Written types
-----------------------------------------------------------------------------------------

namespace Notation

/-- Characters of a constant: those of words, colons, and a line feed that may end a path. -/
def isConstantChar (c : Char) : Bool :=
  isWord c || c == ':' || c == '\n'

/-- What stands behind the constant in the type of a field. -/
def fieldEnd (isNullable isArray isItemNullable isConnection : Bool) : String :=
  (if isConnection then ".connection_type" else "")
    ++ (if !isArray then "" else if isItemNullable then ", null: true]" else "]")
    ++ (", null: " ++ truth isNullable)

def shortEnd (isNullable isArray isItemNullable isConnection : Bool) : String :=
  (if isConnection then ".connection_type" else "")
    ++ (if !isArray then "" else if isItemNullable then "]" else "!]")
    ++ (if isNullable then "" else "!")

/-- A constant between a bracket, if the use is a list, and what tells the wrappers of a use. -/
def written (ending : Bool → Bool → Bool → Bool → String) (constant : String) (use : Resolved)
    : String :=
  (if use.isArray then "[" else "") ++ constant
    ++ ending use.isNullable use.isArray use.isItemNullable use.isConnection

theorem field_eq (schemaNamespace : String) (use : Resolved)
    : Notation.field schemaNamespace use
      = written fieldEnd (qualify schemaNamespace use.targetName) use := by
  obtain ⟨_, _, null, list, item, connection⟩ := use
  apply String.toList_injective
  cases list <;> cases item <;> simp [Notation.field, reference, written, fieldEnd]

theorem short_eq {namespaceName : String} {landing : Landing} {use : Resolved}
    (words : ':' ∉ landing.stem.toList) (lands : use.targetName = landing.target)
    : Notation.short (namespaceName ++ "::Schema") use = written shortEnd landing.short use := by
  have free : ':' ∉ (if use.isConnection then ".connection_type" else "").toList := by
    split <;> decide
  rw [Notation.short, reference, lands, Landing.withoutNamespace_append _ words free]
  obtain ⟨_, _, null, list, item, connection⟩ := use
  apply String.toList_injective
  cases list <;> cases item <;> simp [written, shortEnd]

/-- What stands behind a constant begins where the constant ends, and tells all wrappers of a use
that matter.
-/
structure IsTelling (ending : Bool → Bool → Bool → Bool → String) : Prop where
  stops
    : ∀ isNullable isArray isItemNullable isConnection,
      ∀ c ∈ (ending isNullable isArray isItemNullable isConnection).toList.head?,
        isConstantChar c = false
  unbracketed
    : ∀ isNullable isArray isItemNullable isConnection,
      '[' ∉ (ending isNullable isArray isItemNullable isConnection).toList
  tells
    : ∀ isArray isNullable isItemNullable isConnection otherNullable otherItem otherConnection,
      ending isNullable isArray isItemNullable isConnection
          = ending otherNullable isArray otherItem otherConnection
        ↔ isNullable = otherNullable
          ∧ (isArray = true → isItemNullable = otherItem)
          ∧ isConnection = otherConnection

theorem isTelling_fieldEnd : IsTelling fieldEnd where
  stops isNullable isArray isItemNullable isConnection c first := by
    cases isConnection <;> cases isArray <;> cases isItemNullable <;> cases isNullable
      <;> cases first <;> rfl
  unbracketed := by decide
  tells := by decide

theorem isTelling_shortEnd : IsTelling shortEnd where
  stops isNullable isArray isItemNullable isConnection c first := by
    cases isConnection <;> cases isArray <;> cases isItemNullable <;> cases isNullable
      <;> cases first <;> rfl
  unbracketed := by decide
  tells := by decide

end Notation

/-- Two uses are of one type and have the same wrappers; it is no matter whether the items of what
is no list may be null.
-/
structure Resolved.IsSameUse (first second : Resolved) : Prop where
  name : first.name = second.name
  isNullable : first.isNullable = second.isNullable
  isArray : first.isArray = second.isArray
  isItemNullable : first.isArray = true → first.isItemNullable = second.isItemNullable
  isConnection : first.isConnection = second.isConnection

namespace Notation

/-- Uses are written alike exactly when they are the same, if their constants tell their names. -/
theorem IsTelling.written_eq_iff {ending : Bool → Bool → Bool → Bool → String}
    (telling : IsTelling ending) {constant other : String} {first second : Resolved}
    (constantChars : ∀ c ∈ constant.toList, isConstantChar c = true)
    (otherChars : ∀ c ∈ other.toList, isConstantChar c = true)
    (told : constant = other ↔ first.name = second.name)
    : written ending constant first = written ending other second ↔ first.IsSameUse second := by
  have bracketed {constant : String} {use : Resolved}
      (chars : ∀ c ∈ constant.toList, isConstantChar c = true)
      : '[' ∈ (written ending constant use).toList ↔ use.isArray = true := by
    have inside : '[' ∉ constant.toList := fun member => absurd (chars '[' member) (by decide)
    have behind := telling.unbracketed use.isNullable use.isArray use.isItemNullable
      use.isConnection
    cases list : use.isArray <;> simp_all [written]
  constructor
  · intro same
    have lists : first.isArray = second.isArray := by
      rw [Bool.eq_iff_iff, ← bracketed constantChars, same, bracketed otherChars]
    have parts := congrArg String.toList same
    simp only [written, lists, String.toList_append, List.append_assoc,
      List.append_cancel_left_eq] at parts
    obtain ⟨constants, endings⟩ := eq_of_append_of_all constantChars otherChars
      (telling.stops _ _ _ _) (telling.stops _ _ _ _) parts
    obtain ⟨null, item, connection⟩ := (telling.tells _ _ _ _ _ _ _).mp
      (String.toList_injective endings)
    exact ⟨told.mp (String.toList_injective constants), null, lists,
      fun list => item (lists ▸ list), connection⟩
  · intro same
    have endings := (telling.tells first.isArray first.isNullable first.isItemNullable
      first.isConnection second.isNullable second.isItemNullable second.isConnection).mpr
      ⟨same.isNullable, same.isItemNullable, same.isConnection⟩
    rw [written, endings, told.mpr same.name, same.isArray, written]

end Notation

/-- A usual name is usual without a `Connection` at its end. -/
theorem TypeName.IsGraphQL.stripConnection {name : String} (usual : IsGraphQL name)
    : IsGraphQL (Naming.stripConnection name).1 := by
  unfold Naming.stripConnection
  split
  case h_1 rest before =>
    intro c member
    rw [String.toList_ofList] at member
    exact usual c (beforeEnd?_subset before member)
  case h_2 => exact usual

namespace Landing

variable {landing : Landing}

theorem isConstantChar_short (words : TypeName.IsGraphQL landing.stem)
    : ∀ c ∈ landing.short.toList, Notation.isConstantChar c = true := by
  have inStem : ∀ c ∈ landing.stem.toList, Notation.isConstantChar c = true := by
    intro c member
    simp [Notation.isConstantChar, isWord_of_usual (words c member)]
  have inWord (category : Category)
      : ∀ c ∈ (category.word ++ "::").toList, Notation.isConstantChar c = true :=
    List.all_eq_true.mp (by cases category <;> decide)
  cases landing with
  | generated category stem =>
      intro c member
      rw [short, String.toList_append, List.mem_append] at member
      exact member.elim (inWord category c) (inStem c)
  | provided name =>
      intro c member
      rw [short, String.toList_append, List.mem_append] at member
      exact member.elim (inWord .types c) (inStem c)

theorem isConstantChar_qualify {namespaceName : String}
    (path : Settings.isConstantPath namespaceName.toList = true)
    (words : TypeName.IsGraphQL landing.stem)
    : ∀ c ∈ (Notation.qualify (namespaceName ++ "::Schema") landing.target).toList,
        Notation.isConstantChar c = true := by
  have spelled {text : List Char} (all : text.all Notation.isConstantChar = true)
      : ∀ c ∈ text, Notation.isConstantChar c = true :=
    List.all_eq_true.mp all
  have inNamespace : ∀ c ∈ namespaceName.toList, Notation.isConstantChar c = true := by
    obtain ⟨body, form, chars⟩ := Settings.exists_body_of_isConstantPath path
    have inBody : ∀ c ∈ body, Notation.isConstantChar c = true := by
      intro c member
      rcases chars c member with rfl | word
      · decide
      · simp [Notation.isConstantChar, word]
    rcases form with same | same
    · exact same ▸ inBody
    · rw [same]
      exact List.forall_mem_append.mpr ⟨inBody, spelled (by decide)⟩
  have inShort := isConstantChar_short words
  rw [qualify_target]
  cases landing with
  | generated category stem =>
      simp only [String.toList_append, List.forall_mem_append]
      exact ⟨⟨⟨spelled (by decide), inNamespace, spelled (by decide)⟩, spelled (by decide)⟩,
        inShort⟩
  | provided name =>
      simp only [String.toList_append, List.forall_mem_append]
      exact ⟨spelled (by decide), inShort⟩

end Landing

namespace Notation

variable {settings : Settings} {builtins : List String} {types : List TypeDef}
  {registry : Registry} {namespaceName : String} {first second : Field} {use other : Resolved}

/-- Written types lose nothing. In the type of a field and in the short form alike, two fields with
usual names of types are written the same exactly when they use the same type in the same wrappers.
-/
theorem eq_iff_isSameUse (usual : settings.builtinNamespace = "::GraphQL::Types")
    (path : Settings.isConstantPath namespaceName.toList = true)
    (classifies : (Job.startRegistry settings builtins).classifyAll types = .ok registry)
    (firstUsual : TypeName.IsGraphQL first.type.name.display)
    (secondUsual : TypeName.IsGraphQL second.type.name.display)
    (firstResolves : Resolved.ofField registry.finalize first = .ok use)
    (secondResolves : Resolved.ofField registry.finalize second = .ok other)
    : (Notation.field (namespaceName ++ "::Schema") use
          = Notation.field (namespaceName ++ "::Schema") other
        ↔ use.IsSameUse other)
      ∧ (Notation.short (namespaceName ++ "::Schema") use
          = Notation.short (namespaceName ++ "::Schema") other
        ↔ use.IsSameUse other) := by
  have only := Job.onlyBuiltins_startRegistry settings builtins
  obtain ⟨-, apart, rfl⟩ := (Registry.classifyAll_eq_ok_iff only types registry).mp classifies
  obtain ⟨mapping, found, target, stripped⟩ := Resolved.exists_of_ofField firstResolves
  obtain ⟨otherMapping, otherFound, otherTarget, otherStripped⟩ :=
    Resolved.exists_of_ofField secondResolves
  have useUsual : TypeName.IsGraphQL use.name := by
    rw [show use.name = _ from congrArg Prod.fst stripped]
    exact firstUsual.stripConnection
  have otherUsual : TypeName.IsGraphQL other.name := by
    rw [show other.name = _ from congrArg Prod.fst otherStripped]
    exact secondUsual.stripConnection
  obtain ⟨landing, lands, landsAt⟩ := Registry.exists_lands usual found
  obtain ⟨otherLanding, otherLands, otherLandsAt⟩ := Registry.exists_lands usual otherFound
  have words : TypeName.IsGraphQL landing.stem :=
    fun c member => useUsual c (landsAt.stem_subset member)
  have otherWords : TypeName.IsGraphQL otherLanding.stem :=
    fun c member => otherUsual c (otherLandsAt.stem_subset member)
  have free {landing : Landing} (words : TypeName.IsGraphQL landing.stem)
      : ':' ∉ landing.stem.toList := fun member => absurd (words ':' member) (by decide)
  have targets : use.name = other.name → landing.target = otherLanding.target := by
    intro same
    rw [same, otherFound] at found
    rw [← lands, ← otherLands, Option.some.inj found]
  have shorts : landing.short = otherLanding.short ↔ use.name = other.name :=
    ⟨landsAt.eq_of_short apart useUsual otherUsual otherLandsAt,
      fun same => Landing.short_eq_of_qualify (free words) (free otherWords)
        (congrArg (qualify (namespaceName ++ "::Schema")) (targets same))⟩
  have constants
      : qualify (namespaceName ++ "::Schema") landing.target
            = qualify (namespaceName ++ "::Schema") otherLanding.target
          ↔ use.name = other.name :=
    ⟨fun same =>
        shorts.mp (Landing.short_eq_of_qualify (free words) (free otherWords) same),
      fun same => congrArg (qualify (namespaceName ++ "::Schema")) (targets same)⟩
  constructor
  · rw [field_eq, field_eq, ← target, ← otherTarget, lands, otherLands]
    exact isTelling_fieldEnd.written_eq_iff (Landing.isConstantChar_qualify path words)
      (Landing.isConstantChar_qualify path otherWords) constants
  · rw [short_eq (free words) (target.symm.trans lands),
      short_eq (free otherWords) (otherTarget.symm.trans otherLands)]
    exact isTelling_shortEnd.written_eq_iff (Landing.isConstantChar_short words)
      (Landing.isConstantChar_short otherWords) shorts

/-- A field that lists tags, any of which may be null unless they are wrapped once more. -/
def tagList (wrap : TypeRef → TypeRef) : Field :=
  { Job.plainField "tags" "Tag" [] with type := .list (wrap (.named (.string "Tag") none)) }

/-- In a namespace within that of the reference library as well, lists whose items may be null are
told from those whose items may not.
-/
theorem eq_iff_isSameUse_tagList
    : ∃ registry,
        (Job.startRegistry Settings.standard ["ID"]).classifyAll
            [Job.plainType "Tag" .object []]
          = .ok registry
        ∧ ∃ use,
            Resolved.ofField registry.finalize (tagList id) = .ok use
            ∧ ∃ other,
                Resolved.ofField registry.finalize (tagList .nonNull) = .ok other
                ∧ (Notation.field ("GraphQL" ++ "::Schema") use
                      = Notation.field ("GraphQL" ++ "::Schema") other
                    ↔ use.IsSameUse other)
                ∧ (Notation.short ("GraphQL" ++ "::Schema") use
                      = Notation.short ("GraphQL" ++ "::Schema") other
                    ↔ use.IsSameUse other) := by
  obtain ⟨registry, classifies, use, resolves, other, otherResolves, -⟩
      : ∃ registry,
          (Job.startRegistry Settings.standard ["ID"]).classifyAll
              [Job.plainType "Tag" .object []]
            = .ok registry
          ∧ ∃ use,
              Resolved.ofField registry.finalize (tagList id) = .ok use
              ∧ ∃ other,
                  Resolved.ofField registry.finalize (tagList .nonNull) = .ok other ∧ True := by
    decide +kernel
  exact ⟨registry, classifies, use, resolves, other, otherResolves,
    eq_iff_isSameUse rfl (by decide) classifies (by decide) (by decide) resolves otherResolves⟩

end Notation

end RubySchema
