import RubySchema.Proofs.Generation.Documents

/-!
Forward declarations. The graph at the beginning of a type holds exactly the references of the types
before it, so of two types that refer to each other the later one declares the earlier one. Main
statement: the declarations in the documents of a run are those of mutual partners and of members of
unions.
-/

namespace RubySchema

/-- A type refers to a name by one of its contributions. -/
def Plan.Refers (plan : Plan) (subject : Subject) (target : String) : Prop :=
  ∃ contribution ∈ Contribution.script plan subject, contribution.tracked? plan = some target

section
variable {plan : Plan} {graph : DependencyGraph} {subject : Subject} {subjects : List Subject}

/-- A name is declared by a reference that closes a cycle, or as a member of a union. -/
theorem Contribution.declared?_eq_some {contribution : Contribution} {source target : String}
    : contribution.declared? plan graph source = some target
      ↔ contribution.tracked? plan = some target ∧ graph.closes source target = true
        ∨ contribution = .declaration target := by
  cases contribution with
  | reference other =>
      simp only [declared?, tracked?, Option.ite_none_right_eq_some, Bool.and_eq_true,
        Option.some.injEq, reduceCtorEq, or_false]
      constructor
      · rintro ⟨⟨tracked, closes⟩, rfl⟩
        exact ⟨⟨tracked, rfl⟩, closes⟩
      · rintro ⟨⟨tracked, rfl⟩, closes⟩
        exact ⟨⟨tracked, closes⟩, rfl⟩
  | declaration other => simp [declared?, tracked?]
  | fragment | listed | closing => simp [declared?, tracked?]

/-- Contributions of a type add the references that they make, by induction on the contributions. -/
theorem DependencyGraph.dependsOn_foldl_receive {contributions : List Contribution}
    {source first second : String}
    : (contributions.foldl (DependencyGraph.receive plan source) graph).dependsOn first second
        = true
      ↔ graph.dependsOn first second = true
        ∨ first = source
          ∧ ∃ contribution ∈ contributions, contribution.tracked? plan = some second := by
  induction contributions generalizing graph with
  | nil => simp
  | cons contribution rest ih =>
      rw [List.foldl_cons, ih, DependencyGraph.receive, List.exists_mem_cons_iff]
      cases contribution.tracked? plan with
      | none => simp
      | some target =>
          have flipped : some target = some second ↔ second = target := by
            rw [Option.some.injEq, eq_comm]
          rw [DependencyGraph.dependsOn_insert, flipped, and_or_left, or_assoc]

/-- After types in order the graph also holds the references that they make. -/
theorem DependencyGraph.dependsOn_foldl_after {first second : String}
    : (subjects.foldl (DependencyGraph.after plan) graph).dependsOn first second = true
      ↔ graph.dependsOn first second = true
        ∨ ∃ subject ∈ subjects,
            first = subject.mapping.targetName ∧ plan.Refers subject second := by
  induction subjects generalizing graph with
  | nil => simp
  | cons subject rest ih =>
      rw [List.foldl_cons, ih, DependencyGraph.after, DependencyGraph.dependsOn_foldl_receive,
        List.exists_mem_cons_iff, or_assoc]
      rfl

theorem DependencyGraph.HasUniqueSources.foldl_receive {contributions : List Contribution}
    {source : String} (unique : graph.HasUniqueSources)
    : (contributions.foldl (DependencyGraph.receive plan source) graph).HasUniqueSources := by
  induction contributions generalizing graph with
  | nil => exact unique
  | cons contribution rest ih =>
      apply ih
      unfold DependencyGraph.receive
      split
      · exact unique.insert source _
      · exact unique

theorem DependencyGraph.HasUniqueSources.foldl_after (unique : graph.HasUniqueSources)
    : (subjects.foldl (DependencyGraph.after plan) graph).HasUniqueSources := by
  induction subjects generalizing graph with
  | nil => exact unique
  | cons subject rest ih => exact ih unique.foldl_receive

theorem Plan.names_documents
    : (plan.documents graph subjects).names
      = subjects.map fun subject => subject.mapping.targetName := by
  induction subjects generalizing graph with
  | nil => rfl
  | cons subject rest ih => exact congrArg (subject.mapping.targetName :: ·) ih

/-- Documents of types are those of one of them, begun at the graph after the types before it. -/
theorem Plan.exists_of_mem_documents {entry : String × Artifacts}
    (member : entry ∈ plan.documents graph subjects)
    : ∃ earlier subject later,
        subjects = earlier ++ subject :: later
        ∧ entry
          = (subject.mapping.targetName,
            subject.documents plan (earlier.foldl (DependencyGraph.after plan) graph)) := by
  induction subjects generalizing graph with
  | nil => cases member
  | cons subject rest ih =>
      rcases List.mem_cons.mp member with rfl | member
      · exact ⟨[], subject, rest, rfl, rfl⟩
      · obtain ⟨earlier, found, later, rfl, same⟩ := ih member
        exact ⟨subject :: earlier, found, later, rfl, same⟩

/-- The documents of a type are found under its generated name if that is its own. -/
theorem Plan.get?_documents {earlier later : List Subject}
    (apart
      : ((earlier ++ subject :: later).map fun subject => subject.mapping.targetName).Nodup)
    : Table.get? (plan.documents graph (earlier ++ subject :: later)) subject.mapping.targetName
      = some (subject.documents plan (earlier.foldl (DependencyGraph.after plan) graph)) := by
  have unique : (plan.documents graph (earlier ++ subject :: later)).names.Nodup := by
    rw [Plan.names_documents]
    exact apart
  rw [Table.get?_eq_some_iff unique, Plan.documents_append]
  exact List.mem_append_right _ List.mem_cons_self

/-- Contributions of a type place nothing in the preamble themselves. -/
theorem Contribution.placed?_preamble {contribution : Contribution}
    (member : contribution ∈ script plan subject)
    : contribution.placed? .schema .preamble = none := by
  cases contribution with
  | reference | declaration | listed => rfl
  | closing kind text => simp [placed?]
  | fragment kind place text =>
      have notPreamble : place ≠ .preamble := (isBodyOf_or_isClosing member).elim id False.elim
      simp [placed?, notPreamble]

/-- A document of a type is what the contributions of the type make of an empty one. -/
theorem Subject.eq_of_document? {kind : DocumentKind} {document : Document}
    (found : (subject.documents plan graph).document? kind = some document)
    : document
      = (Contribution.script plan subject).foldl
        (Document.receive plan graph subject.mapping.targetName)
        (Document.empty subject.mapping.targetName kind) := by
  unfold Subject.documents at found
  rw [Artifacts.document?_foldl_receive, Option.map_eq_some_iff] at found
  obtain ⟨empty, opened, rfl⟩ := found
  rw [Artifacts.eq_empty_of_document? opened]
  rfl

theorem Subject.schema_documents
    : (subject.documents plan graph).schema
      = (Contribution.script plan subject).foldl
        (Document.receive plan graph subject.mapping.targetName)
        (Document.empty subject.mapping.targetName .schema) :=
  Subject.eq_of_document? rfl

/-- A document of a type holds what the type places there, but for the preamble of a schema
document.
-/
theorem Subject.fragments_of_document? {kind : DocumentKind} {document : Document} {place : Section}
    (found : (subject.documents plan graph).document? kind = some document)
    (outside : place = .preamble → kind ≠ .schema)
    : document.fragments place
      = (Contribution.script plan subject).filterMap (Contribution.placed? kind place) := by
  rw [Subject.eq_of_document? found, Document.fragments_foldl_receive outside]
  rfl

/-- The preamble of a type that is begun at a graph holds the declarations of the names that its
contributions declare.
-/
theorem Subject.mem_preamble {fragment : String}
    : fragment ∈ (subject.documents plan graph).schema.fragments .preamble
      ↔ ∃ contribution ∈ Contribution.script plan subject,
          ∃ target,
            contribution.declared? plan graph subject.mapping.targetName = some target
            ∧ fragment = plan.declaration target := by
  rw [Subject.schema_documents,
    Document.mem_preamble_foldl_receive rfl fun _ => Contribution.placed?_preamble]
  simp [Document.empty, Document.fragments]

theorem Subject.nodup_preamble
    : ((subject.documents plan graph).schema.fragments .preamble).Nodup := by
  rw [Subject.schema_documents]
  exact Document.nodup_preamble_foldl_receive rfl (fun _ => Contribution.placed?_preamble)
    List.nodup_nil

def Plan.graphOf (plan : Plan) (subjects : List Subject) : DependencyGraph :=
  subjects.foldl (DependencyGraph.after plan) DependencyGraph.empty

/-- The graph of a run holds the references of its types. -/
theorem Plan.dependsOn_graphOf {first second : String}
    : (plan.graphOf subjects).dependsOn first second = true
      ↔ ∃ subject ∈ subjects, first = subject.mapping.targetName ∧ plan.Refers subject second := by
  have nothing : DependencyGraph.empty.dependsOn first second = false := rfl
  rw [Plan.graphOf, DependencyGraph.dependsOn_foldl_after, nothing]
  simp

/-- The graph of a run holds the references of a type of its own name. -/
theorem Plan.dependsOn_graphOf_of_mem {second : String}
    (apart : (subjects.map fun subject => subject.mapping.targetName).Nodup)
    (member : subject ∈ subjects)
    : (plan.graphOf subjects).dependsOn subject.mapping.targetName second = true
      ↔ plan.Refers subject second := by
  rw [Plan.dependsOn_graphOf]
  constructor
  · rintro ⟨other, among, same, refers⟩
    exact List.inj_on_of_nodup_map apart member among same ▸ refers
  · intro refers
    exact ⟨subject, member, rfl, refers⟩

/-- Two types have a pair in a run when they refer to each other. -/
theorem Plan.mem_mutualPairs_graphOf {second : String}
    (apart : (subjects.map fun subject => subject.mapping.targetName).Nodup)
    (member : subject ∈ subjects)
    : DependencyGraph.sortPair subject.mapping.targetName second
          ∈ (plan.graphOf subjects).mutualPairs
      ↔ subject.mapping.targetName ≠ second
        ∧ plan.Refers subject second
        ∧ (plan.graphOf subjects).dependsOn second subject.mapping.targetName = true := by
  have unique : (plan.graphOf subjects).HasUniqueSources :=
    DependencyGraph.HasUniqueSources.foldl_after List.nodup_nil
  rw [DependencyGraph.mem_mutualPairs_iff unique, Plan.dependsOn_graphOf_of_mem apart member]

/-- A type declares an earlier one that it has a pair with. -/
theorem Plan.declaration_mem_of_pair {earlier later : List Subject} {first second : Subject}
    (apart : ((earlier ++ second :: later).map fun subject => subject.mapping.targetName).Nodup)
    (before : first ∈ earlier)
    (pair
      : DependencyGraph.sortPair first.mapping.targetName second.mapping.targetName
        ∈ (plan.graphOf (earlier ++ second :: later)).mutualPairs)
    : plan.declaration first.mapping.targetName
      ∈ (second.documents plan (plan.graphOf earlier)).schema.fragments .preamble := by
  have firstMember : first ∈ earlier ++ second :: later := List.mem_append_left _ before
  have secondMember : second ∈ earlier ++ second :: later :=
    List.mem_append_right _ List.mem_cons_self
  obtain ⟨different, forth, back⟩ := (Plan.mem_mutualPairs_graphOf apart firstMember).mp pair
  obtain ⟨contribution, member, tracked⟩ :=
    (Plan.dependsOn_graphOf_of_mem apart secondMember).mp back
  have known
      : (plan.graphOf earlier).dependsOn first.mapping.targetName second.mapping.targetName
        = true :=
    Plan.dependsOn_graphOf.mpr ⟨first, before, rfl, forth⟩
  have closes
      : (plan.graphOf earlier).closes second.mapping.targetName first.mapping.targetName
        = true := by
    rw [DependencyGraph.closes, known, Bool.and_true, bne_iff_ne]
    exact Ne.symm different
  exact Subject.mem_preamble.mpr
    ⟨contribution, member, _, Contribution.declared?_eq_some.mpr (.inl ⟨tracked, closes⟩), rfl⟩

/-- What a type declares is a member of it, or a type that comes earlier and that it has a pair
with.
-/
theorem Plan.pair_of_mem_preamble {earlier later : List Subject} {fragment : String}
    (apart : ((earlier ++ subject :: later).map fun subject => subject.mapping.targetName).Nodup)
    (member : fragment ∈ (subject.documents plan (plan.graphOf earlier)).schema.fragments .preamble)
    : ∃ target,
        fragment = plan.declaration target
        ∧ (Contribution.IsMemberTarget plan subject target
          ∨ (∃ other ∈ earlier, target = other.mapping.targetName)
            ∧ DependencyGraph.sortPair subject.mapping.targetName target
              ∈ (plan.graphOf (earlier ++ subject :: later)).mutualPairs) := by
  obtain ⟨contribution, made, target, declared, rfl⟩ := Subject.mem_preamble.mp member
  refine ⟨target, rfl, ?_⟩
  rcases Contribution.declared?_eq_some.mp declared with ⟨tracked, closes⟩ | rfl
  · right
    have here : subject ∈ earlier ++ subject :: later :=
      List.mem_append_right _ List.mem_cons_self
    rw [DependencyGraph.closes, Bool.and_eq_true, bne_iff_ne] at closes
    obtain ⟨other, among, same, refers⟩ := Plan.dependsOn_graphOf.mp closes.2
    refine ⟨⟨other, among, same⟩, (Plan.mem_mutualPairs_graphOf apart here).mpr ?_⟩
    refine ⟨closes.1, ⟨contribution, made, tracked⟩, ?_⟩
    exact Plan.dependsOn_graphOf.mpr ⟨other, List.mem_append_left _ among, same, refers⟩
  · left
    exact (Contribution.isBodyOf_or_isClosing made).elim id False.elim

end

end RubySchema
