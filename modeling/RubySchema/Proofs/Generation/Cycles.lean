import RubySchema.Proofs.Generation.Declarations
import RubySchema.Proofs.Generation.Stages
import RubySchema.Proofs.Settings

/-!
Of two types that refer to each other the later one declares the earlier one, once; every other
declaration is that of a member of a union.
-/

namespace RubySchema

open Text

/-- A union has a type among its members, or a built-in type of the same generated name. -/
def Plan.Lists (plan : Plan) (union member : Subject) : Prop :=
  union.type.kind = .union
    ∧ ∃ mention ∈ union.type.possibleTypes,
        mention.name = member.type.name
        ∨ ∃ mapping,
            plan.classified.lookupValue mention.name = .ok mapping
            ∧ mapping.isBuiltin = true ∧ mapping.targetName = member.mapping.targetName

namespace Job

def Draft.schemaDocument? (draft : Draft) (target : String) : Option Document :=
  (Table.get? draft.assembly.artifacts target).map Artifacts.schema

theorem isGraphQL_free {name : String} (graphQL : TypeName.IsGraphQL name)
    : ' ' ∉ name.toList := by
  intro member
  exact absurd (graphQL ' ' member) (by decide)

section
variable {job : Job} {draft : Draft} {start : Registry} {builtins : List String}

/-- A mapping has no blank in its generated name when neither the module of the built-in types nor a
name in the schema has one.
-/
theorem Placed.target_free {classified : Classified} {types : List TypeDef} {name : String}
    {mapping : NameMapping} (accepted : job.settings.IsAccepted)
    (known : job.reference.builtinNames = .ok builtins)
    (placed : Placed (startRegistry job.settings builtins) types classified)
    (graphQL : ∀ type ∈ types, ∃ name, type.name = .string name ∧ TypeName.IsGraphQL name)
    (found : classified.get? name = some mapping) : ' ' ∉ mapping.targetName.toList := by
  rw [placed.classified_eq] at found
  rcases Registry.get?_withPlaces_cases found with builtin | ⟨type, keeps, rfl⟩
  · obtain ⟨provided, rfl⟩ := get?_startRegistry_eq_some.mp builtin
    show ' ' ∉ (job.settings.builtinNamespace ++ "::" ++ name).toList
    rw [String.toList_append, String.toList_append, List.mem_append, List.mem_append]
    rintro ((member | member) | later)
    · exact accepted.builtinNamespace_free member
    · exact absurd member (by decide)
    · exact Reference.builtinNames_free known name provided later
  · obtain ⟨member, named, -⟩ := Registry.mem_kept.mp keeps
    obtain ⟨other, same, names⟩ := graphQL type member
    have equal : name = other := Json.string.inj (named.symm.trans same)
    exact Registry.place_free _ (equal ▸ isGraphQL_free names)

/-- The documents of a run are those of its types, and its graph is theirs. -/
theorem Stages.artifacts_eq {job : Job} {draft : Draft} (stages : job.Stages draft)
    (apart : ((job.subjects draft.plan).map fun subject => subject.mapping.targetName).Nodup)
    : draft.assembly.artifacts
          = draft.plan.documents DependencyGraph.empty (job.subjects draft.plan)
      ∧ draft.progress.graph = draft.plan.graphOf (job.subjects draft.plan) := by
  have ran := Progress.ran_of_performSubjects apart stages.performed
  obtain ⟨texts, -, same⟩ := stages.exists_texts
  rw [same, artifacts_withFixed, ran.artifacts]
  exact ⟨rfl, ran.graph⟩

/-- What a type lists under the generated name of another is that type or a built-in one. -/
theorem Placed.lists_of_isMemberTarget {plan : Plan} {union member : Subject}
    (placed : Placed start plan.schema.types plan.classified)
    (generated : member ∈ job.subjects plan)
    (listed : Contribution.IsMemberTarget plan union member.mapping.targetName)
    : plan.Lists union member := by
  obtain ⟨isUnion, mention, mentioned, mapping, found, target⟩ := listed
  refine ⟨isUnion, mention, mentioned, ?_⟩
  cases builtin : mapping.isBuiltin with
  | true => exact .inr ⟨mapping, found, builtin, target⟩
  | false =>
      left
      obtain ⟨entry, keeps, typeSame, mappingSame⟩ := placed.exists_of_mem generated
      obtain ⟨name, named, known⟩ := Classified.lookupValue_eq_ok.mp found
      obtain ⟨type, alsoKeeps, rfl⟩ := placed.exists_of_get? known builtin
      have same : (name, type) = entry := by
        apply List.inj_on_of_nodup_map placed.apart alsoKeeps keeps
        rw [target, mappingSame]
      rw [named, typeSame, ← same]
      exact (Registry.mem_kept.mp alsoKeeps).2.1.symm

/-- The schema document of a type is begun at the graph of the types before it. -/
theorem Stages.schemaDocument?_eq (stages : job.Stages draft) {earlier later : List Subject}
    {subject : Subject}
    (apart : ((job.subjects draft.plan).map fun subject => subject.mapping.targetName).Nodup)
    (split : job.subjects draft.plan = earlier ++ subject :: later)
    : draft.schemaDocument? subject.mapping.targetName
      = some (subject.documents draft.plan (draft.plan.graphOf earlier)).schema := by
  rw [Draft.schemaDocument?, (stages.artifacts_eq apart).1, split]
  rw [split] at apart
  rw [Plan.get?_documents apart]
  rfl

theorem Placed.subject_free {plan : Plan} {subject : Subject}
    (placed : Placed start plan.schema.types plan.classified)
    (graphQL
      : ∀ type ∈ plan.schema.types, ∃ name, type.name = .string name ∧ TypeName.IsGraphQL name)
    (member : subject ∈ job.subjects plan) : ' ' ∉ subject.mapping.targetName.toList := by
  obtain ⟨entry, keeps, -, same⟩ := placed.exists_of_mem member
  obtain ⟨known, named, -⟩ := Registry.mem_kept.mp keeps
  obtain ⟨name, sameName, names⟩ := graphQL entry.2 known
  have equal : entry.1 = name := Json.string.inj (named.symm.trans sameName)
  rw [same]
  exact Registry.place_free _ (equal ▸ isGraphQL_free names)

theorem Placed.declared_free {plan : Plan} {earlier : List Subject} {subject : Subject}
    {target : String} (accepted : job.settings.IsAccepted)
    (known : job.reference.builtinNames = .ok builtins)
    (placed : Placed (startRegistry job.settings builtins) plan.schema.types plan.classified)
    (graphQL
      : ∀ type ∈ plan.schema.types, ∃ name, type.name = .string name ∧ TypeName.IsGraphQL name)
    (run : ∀ other ∈ earlier, other ∈ job.subjects plan)
    (origin
      : Contribution.IsMemberTarget plan subject target
        ∨ ∃ other ∈ earlier, target = other.mapping.targetName)
    : ' ' ∉ target.toList := by
  rcases origin with ⟨-, mention, -, mapping, found, rfl⟩ | ⟨other, among, rfl⟩
  · obtain ⟨name, -, found⟩ := Classified.lookupValue_eq_ok.mp found
    exact placed.target_free accepted known graphQL found
  · exact placed.subject_free graphQL (run other among)

/-- A pair of types is split out of the run at the earlier one and at the later one. -/
theorem exists_split {subjects : List Subject} {first second : Subject}
    (before : [first, second].Sublist subjects)
    : ∃ earlier middle later,
        subjects = earlier ++ first :: (middle ++ second :: later)
        ∧ subjects = (earlier ++ first :: middle) ++ second :: later := by
  obtain ⟨front, back, split, firstFront, secondBack⟩ := List.cons_sublist_iff.mp before
  obtain ⟨earlier, rest, rfl⟩ := List.append_of_mem firstFront
  obtain ⟨middle, later, rfl⟩ := List.append_of_mem (List.singleton_sublist.mp secondBack)
  refine ⟨earlier, rest ++ middle, later, ?_, ?_⟩
  · rw [split, List.append_assoc, List.cons_append, List.append_assoc]
  · rw [split, List.append_assoc, List.append_assoc, List.cons_append, List.cons_append,
      List.append_assoc]

/-- A type that declares a later one has it among its members, for all else that it declares stands
before it.
-/
theorem Placed.lists_of_declared {plan : Plan} (accepted : job.settings.IsAccepted)
    (known : job.reference.builtinNames = .ok builtins)
    (placed : Placed (startRegistry job.settings builtins) plan.schema.types plan.classified)
    (graphQL
      : ∀ type ∈ plan.schema.types, ∃ name, type.name = .string name ∧ TypeName.IsGraphQL name)
    {earlier later : List Subject} {first second : Subject}
    (split : job.subjects plan = earlier ++ first :: later) (after : second ∈ later)
    (declared
      : plan.declaration second.mapping.targetName
        ∈ (first.documents plan (plan.graphOf earlier)).schema.fragments .preamble)
    : plan.Lists first second := by
  have apart : ((job.subjects plan).map fun subject => subject.mapping.targetName).Nodup :=
    placed.nodup_targets
  rw [split] at apart
  have secondMember : second ∈ job.subjects plan := by
    rw [split]
    exact List.mem_append_right _ (List.mem_cons_of_mem _ after)
  have run : ∀ other ∈ earlier, other ∈ job.subjects plan := by
    intro other among
    rw [split]
    exact List.mem_append_left _ among
  obtain ⟨target, same, origin⟩ := Plan.pair_of_mem_preamble apart declared
  obtain rfl : second.mapping.targetName = target :=
    ForwardDeclaration.text_injective (placed.subject_free graphQL secondMember)
      (placed.declared_free accepted known graphQL run (origin.imp_right And.left)) same
  rcases origin with listed | ⟨⟨other, among, equal⟩, -⟩
  · exact placed.lists_of_isMemberTarget secondMember listed
  · -- the later type would stand among those before the earlier one
    rw [List.map_append, List.nodup_append] at apart
    have beforeFirst
        : second.mapping.targetName ∈ earlier.map fun subject => subject.mapping.targetName :=
      List.mem_map.mpr ⟨other, among, equal.symm⟩
    have afterFirst
        : second.mapping.targetName
          ∈ (first :: later).map fun subject => subject.mapping.targetName :=
      List.mem_map_of_mem (List.mem_cons_of_mem _ after)
    exact absurd rfl (apart.2.2 _ beforeFirst _ afterFirst)

/-- Of two types that refer to each other the later one declares the earlier one, once; the earlier
one does not declare the later one, unless it is a union that has it, or a built-in type of its
generated name, among its members. All other declarations are of members of unions, and no document
makes one twice. The invariant that carries this: the graph at the beginning of a type holds exactly
the references of the types before it.
-/
theorem declarations_of_mutual_types {job : Job} {draft : Draft}
    (accepted : job.settings.IsAccepted) (drafted : job.draft.outcome = .ok draft)
    (distinct : (draft.plan.schema.types.map TypeDef.name).Nodup)
    (graphQL
      : ∀ type ∈ draft.plan.schema.types,
          ∃ name, type.name = .string name ∧ TypeName.IsGraphQL name)
    : (∀ first second,
        [first, second].Sublist (job.subjects draft.plan)
        → DependencyGraph.sortPair first.mapping.targetName second.mapping.targetName
          ∈ draft.progress.graph.mutualPairs
        → ∃ earlier later,
            draft.schemaDocument? first.mapping.targetName = some earlier
            ∧ draft.schemaDocument? second.mapping.targetName = some later
            ∧ (later.fragments .preamble).count (draft.plan.declaration first.mapping.targetName)
              = 1
            ∧ (draft.plan.declaration second.mapping.targetName ∈ earlier.fragments .preamble
              → draft.plan.Lists first second))
      ∧ (∀ target document,
          draft.schemaDocument? target = some document
          → (document.fragments .preamble).Nodup
            ∧ ∃ subject ∈ job.subjects draft.plan,
                subject.mapping.targetName = target
                ∧ ∀ fragment ∈ document.fragments .preamble,
                    ∃ other,
                      fragment = draft.plan.declaration other
                      ∧ (DependencyGraph.sortPair target other ∈ draft.progress.graph.mutualPairs
                        ∨ Contribution.IsMemberTarget draft.plan subject other)) := by
  have stages := draft_eq_ok_iff.mp drafted
  obtain ⟨builtins, known, placed⟩ := stages.placed distinct
  have apart : ((job.subjects draft.plan).map fun subject => subject.mapping.targetName).Nodup :=
    placed.nodup_targets
  rw [(stages.artifacts_eq apart).2]
  refine ⟨?_, ?_⟩
  · intro first second before pair
    obtain ⟨earlier, middle, later, splitFirst, splitSecond⟩ := exists_split before
    refine ⟨_, _, stages.schemaDocument?_eq apart splitFirst,
      stages.schemaDocument?_eq apart splitSecond, ?_, ?_⟩
    · rw [splitSecond] at apart pair
      apply List.count_eq_one_of_mem Subject.nodup_preamble
      exact Plan.declaration_mem_of_pair apart (by simp) pair
    · exact placed.lists_of_declared accepted known graphQL splitFirst (by simp)
  · intro target document found
    obtain ⟨artifacts, here, rfl⟩ := Option.map_eq_some_iff.mp found
    rw [(stages.artifacts_eq apart).1] at here
    obtain ⟨earlier, subject, later, split, same⟩ :=
      Plan.exists_of_mem_documents (Table.mem_of_get? here)
    obtain ⟨rfl, rfl⟩ := Prod.mk.inj same
    refine ⟨Subject.nodup_preamble, subject, by simp [split], rfl, ?_⟩
    intro fragment member
    rw [split] at apart ⊢
    obtain ⟨other, shown, origin⟩ := Plan.pair_of_mem_preamble apart member
    exact ⟨other, shown, origin.symm.imp_left And.right⟩

end

/-- A union and an input object that refer to each other. The union has the built-in type `ID` among
its members, which has the generated name of the input object.
-/
def sharedTarget : Job :=
  let union : TypeDef :=
    {
      plainType "A" .union [plainField "f" "IDInput" []] with
      possibleTypes := [⟨.string "ID", .string "OBJECT", false⟩]
    }
  let input : TypeDef :=
    {
      plainType "IDInput" .inputObject [] with
      fields := none
      inputFields := some [plainField "g" "A" []]
    }
  {
    smallJob "A" "A" [union, input] with
    settings := { Settings.standard with builtinNamespace := "Inputs" }
  }

theorem isAccepted_sharedTarget : sharedTarget.settings.IsAccepted := by
  refine ⟨[("builtin_namespace", .string "Inputs")], ?_⟩
  decide +kernel

/-- The run has two types, which refer to each other, and the first one declares the second one. -/
theorem draft_sharedTarget
    : ∃ draft,
        sharedTarget.draft.outcome = .ok draft
        ∧ draft.plan.schema.types.map TypeDef.name = [.string "A", .string "IDInput"]
        ∧ (sharedTarget.subjects draft.plan).map (fun subject => subject.mapping.targetName)
          = ["Types::A", "Inputs::ID"]
        ∧ (sharedTarget.subjects draft.plan).map
            (fun subject => (subject.type.name, subject.type.possibleTypes.map Mention.name))
          = [(.string "A", [.string "ID"]), (.string "IDInput", [])]
        ∧ draft.progress.graph.edges.names.Nodup
        ∧ draft.progress.graph.dependsOn "Types::A" "Inputs::ID" = true
        ∧ draft.progress.graph.dependsOn "Inputs::ID" "Types::A" = true
        ∧ (draft.schemaDocument? "Types::A").map (fun document =>
            decide (draft.plan.declaration "Inputs::ID" ∈ document.fragments .preamble))
          = some true := by
  decide +kernel

/-- The run meets all that is asked of it, and its types are a pair. -/
theorem types_sharedTarget
    : ∃ draft first second,
        sharedTarget.draft.outcome = .ok draft
        ∧ (draft.plan.schema.types.map TypeDef.name).Nodup
        ∧ (∀ type ∈ draft.plan.schema.types,
            ∃ name, type.name = .string name ∧ TypeName.IsGraphQL name)
        ∧ [first, second].Sublist (sharedTarget.subjects draft.plan)
        ∧ DependencyGraph.sortPair first.mapping.targetName second.mapping.targetName
          ∈ draft.progress.graph.mutualPairs
        ∧ second.type.name ∉ first.type.possibleTypes.map Mention.name
        ∧ (draft.schemaDocument? first.mapping.targetName).map (fun document =>
            decide (draft.plan.declaration second.mapping.targetName
              ∈ document.fragments .preamble))
          = some true := by
  obtain ⟨draft, drafted, names, targets, members, unique, forth, back, declared⟩ :=
    draft_sharedTarget
  have two : (sharedTarget.subjects draft.plan).length = 2 := by
    simpa using congrArg List.length targets
  obtain ⟨first, second, subjects⟩ := List.length_eq_two.mp two
  rw [subjects] at targets members
  simp only [List.map_cons, List.map_nil, List.cons.injEq, Prod.mk.injEq, and_true]
    at targets members
  obtain ⟨firstTarget, secondTarget⟩ := targets
  obtain ⟨⟨-, listed⟩, secondName, -⟩ := members
  refine ⟨draft, first, second, drafted, ?_, ?_, ?_, ?_, ?_, ?_⟩
  · rw [names]
    decide
  · exact @TypeName.isGraphQL_of_names _ ["A", "IDInput"] names (by decide)
  · rw [subjects]
  · rw [firstTarget, secondTarget, DependencyGraph.mem_mutualPairs_iff unique]
    exact ⟨by decide, forth, back⟩
  · rw [listed, secondName]
    decide
  · rw [firstTarget, secondTarget]
    exact declared

/-- Declarations of an input object and a union that refer to each other: the later one declares the
earlier one, once.
-/
theorem declarations_of_union_and_input
    : ∃ draft first second later,
        sharedTarget.draft.outcome = .ok draft
        ∧ [first, second].Sublist (sharedTarget.subjects draft.plan)
        ∧ draft.schemaDocument? second.mapping.targetName = some later
        ∧ (later.fragments .preamble).count (draft.plan.declaration first.mapping.targetName)
          = 1 := by
  obtain ⟨draft, first, second, drafted, distinct, graphQL, before, pair, -, -⟩ :=
    types_sharedTarget
  obtain ⟨-, later, -, found, once, -⟩ :=
    (declarations_of_mutual_types isAccepted_sharedTarget drafted distinct graphQL).1 first second
      before pair
  exact ⟨draft, first, second, later, drafted, before, found, once⟩

/-- A union need not have a type among its members to declare it: a built-in type that shares its
generated name will do.
-/
theorem declares_unlisted_type
    : ¬∀ (job : Job) (draft : Draft),
        job.settings.IsAccepted
        → job.draft.outcome = .ok draft
        → (draft.plan.schema.types.map TypeDef.name).Nodup
        → (∀ type ∈ draft.plan.schema.types,
            ∃ name, type.name = .string name ∧ TypeName.IsGraphQL name)
        → ∀ first second,
            [first, second].Sublist (job.subjects draft.plan)
            → DependencyGraph.sortPair first.mapping.targetName second.mapping.targetName
              ∈ draft.progress.graph.mutualPairs
            → ∀ document,
                draft.schemaDocument? first.mapping.targetName = some document
                → draft.plan.declaration second.mapping.targetName ∈ document.fragments .preamble
                → first.type.kind = .union
                  ∧ ∃ mention ∈ first.type.possibleTypes, mention.name = second.type.name := by
  intro claim
  obtain ⟨draft, first, second, drafted, distinct, graphQL, before, pair, unlisted, declared⟩ :=
    types_sharedTarget
  obtain ⟨document, found, declares⟩ := Option.map_eq_some_iff.mp declared
  obtain ⟨-, mention, listed, same⟩ :=
    claim sharedTarget draft isAccepted_sharedTarget drafted distinct graphQL first second before
      pair document found (of_decide_eq_true declares)
  exact unlisted (List.mem_map.mpr ⟨mention, listed, same⟩)

end Job

end RubySchema
