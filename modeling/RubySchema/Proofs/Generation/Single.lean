import RubySchema.Proofs.Generation.Cycles

/-!
The types of a run that comes to documents have been placed, each at a place of its own. The schema
document of a type is closed once the type has been carried out, and every type begins with a
fragment of its schema document; so of two types of one generated name the second cannot be carried
out.
-/

namespace RubySchema

section
variable {plan : Plan} {graph : DependencyGraph} {subject : Subject} {subjects : List Subject}
variable {contribution : Contribution} {contributions : List Contribution}
variable {source target : String} {document : Document} {progress : Progress}

-----------------------------------------------------------------------------------------
-- Closed documents
-----------------------------------------------------------------------------------------

/-- A closed document stays closed. -/
theorem Document.isClosed_receive_of_closed (closed : document.isClosed = true)
    : (document.receive plan graph source contribution).isClosed = true := by
  by_cases ends : ∃ text, contribution = .closing document.kind text
  · obtain ⟨text, rfl⟩ := ends
    simp [Document.receive, Document.finish]
  · rw [Document.isClosed_receive fun text same => ends ⟨text, same⟩]
    exact closed

theorem Document.isClosed_foldl_receive_of_closed (closed : document.isClosed = true)
    : (contributions.foldl (Document.receive plan graph source) document).isClosed = true := by
  induction contributions generalizing document with
  | nil => exact closed
  | cons contribution rest ih => exact ih (Document.isClosed_receive_of_closed closed)

/-- A document that has been ended is closed, whatever follows. -/
theorem Document.isClosed_foldl_receive {text : String}
    (ended : .closing document.kind text ∈ contributions)
    : (contributions.foldl (Document.receive plan graph source) document).isClosed = true := by
  obtain ⟨before, after, rfl⟩ := List.append_of_mem ended
  rw [List.foldl_append, List.foldl_cons]
  apply Document.isClosed_foldl_receive_of_closed
  have sameKind
      : (before.foldl (Document.receive plan graph source) document).kind = document.kind := by
    clear ended
    induction before generalizing document with
    | nil => rfl
    | cons contribution rest ih =>
        have here
            : (document.receive plan graph source contribution).kind = document.kind :=
          Document.kind_receive document source
        rw [List.foldl_cons, ← here]
        exact ih
  simp [Document.receive, sameKind, Document.finish]

/-- A document that the contributions of a type end is closed when the type has been carried out. -/
theorem Subject.isClosed_of_document? {kind : DocumentKind} {text : String}
    (found : (subject.documents plan graph).document? kind = some document)
    (ended : .closing kind text ∈ Contribution.script plan subject) : document.isClosed = true := by
  rw [Subject.eq_of_document? found]
  exact Document.isClosed_foldl_receive ended

/-- The schema document of a type that has been carried out is closed. -/
theorem Subject.isClosed_schema_documents
    : (subject.documents plan graph).schema.isClosed = true := by
  have found : (subject.documents plan graph).document? .schema
      = some (subject.documents plan graph).schema := rfl
  apply Subject.isClosed_of_document? found
  rw [Contribution.mem_script, Contribution.ofSubject_eq]
  apply List.mem_append_right
  exact List.mem_append_left _ (List.mem_append_left _ (List.mem_singleton_self _))

-----------------------------------------------------------------------------------------
-- The first step of a type
-----------------------------------------------------------------------------------------

def Steps.BeginsInSchema (steps : Steps) : Prop :=
  steps = [] ∨ ∃ place text rest, steps = .ok (.fragment .schema place text) :: rest

theorem Steps.BeginsInSchema.append {first second : Steps} (begins : first.BeginsInSchema)
    (later : second.BeginsInSchema) : Steps.BeginsInSchema (first ++ second) := by
  rcases begins with rfl | ⟨place, text, rest, rfl⟩
  · exact later
  · exact .inr ⟨place, text, rest ++ second, rfl⟩

theorem Contribution.beginsInSchema_ofInterface {mention : Mention}
    (whole : (ofInterface plan subject mention).AreMade)
    : (ofInterface plan subject mention).BeginsInSchema := by
  rcases ofInterface_of_areMade whole with ⟨-, nothing⟩ | ⟨-, mapping, -, lines⟩
  · exact .inl nothing
  · rw [lines, Subject.fragment_schema]
    exact .inr ⟨_, _, _, rfl⟩

/-- The first step of a type is a fragment of its schema document: the line of an interface, or the
header.
-/
theorem Contribution.exists_first (whole : IsWhole plan subject)
    : ∃ place text rest, ofSubject plan subject = .ok (.fragment .schema place text) :: rest := by
  have interfaces : Steps.BeginsInSchema
      (subject.type.interfaces.flatMap (ofInterface plan subject)) := by
    have each
        : ∀ mention ∈ subject.type.interfaces,
            (ofInterface plan subject mention).BeginsInSchema := by
      intro mention member
      apply beginsInSchema_ofInterface
      intro step made
      apply whole
      unfold ofSubject
      simp only [List.append_assoc]
      exact List.mem_append_left _ (List.mem_flatMap.mpr ⟨mention, member, made⟩)
    generalize subject.type.interfaces = mentions at each
    induction mentions with
    | nil => exact .inl rfl
    | cons mention rest ih =>
        rw [List.flatMap_cons]
        exact (each mention List.mem_cons_self).append
          (ih fun other member => each other (List.mem_cons_of_mem mention member))
  have header
      : ∃ rest,
          ofHeaders plan subject
            = (plan.render (.schemaHeader subject.mapping subject.type.description)).map
                (Contribution.fragment .schema .header)
              :: rest := by
    unfold ofHeaders
    simp only [Subject.fragment_schema, List.append_assoc, List.singleton_append]
    exact ⟨_, rfl⟩
  obtain ⟨headerRest, header⟩ := header
  have shape
      : ∃ rest,
          ofSubject plan subject
            = subject.type.interfaces.flatMap (ofInterface plan subject)
              ++ (plan.render (.schemaHeader subject.mapping subject.type.description)).map
                  (Contribution.fragment .schema .header)
                :: rest := by
    unfold ofSubject
    rw [header]
    simp only [List.append_assoc, List.cons_append]
    exact ⟨_, rfl⟩
  obtain ⟨rest, shape⟩ := shape
  rcases interfaces with none | ⟨place, text, more, some⟩
  · rw [none, List.nil_append] at shape
    obtain ⟨contribution, made⟩ := whole _ (shape ▸ List.mem_cons_self)
    cases text : plan.render (.schemaHeader subject.mapping subject.type.description) with
    | ok text =>
        rw [text] at shape
        exact ⟨_, _, _, shape⟩
    | error cause =>
        rw [text] at made
        cases made
  · rw [some] at shape
    exact ⟨place, text, _, shape⟩

/-- A type cannot be carried out into a schema document that is closed. -/
theorem Progress.performAll_of_closed {artifacts : Artifacts}
    (here : Table.get? progress.assembly.artifacts target = some artifacts)
    (closed : artifacts.schema.isClosed = true) (whole : Contribution.IsWhole plan subject)
    : ((progress.openFor target).performAll plan target (Contribution.ofSubject plan subject)).2
      ≠ none := by
  obtain ⟨place, text, rest, begins⟩ := Contribution.exists_first whole
  have opened : (progress.openFor target).assembly = progress.assembly := by
    simp [openFor, Assembly.documentsFor, here]
  have refused
      : (progress.openFor target).perform plan target (.fragment .schema place text)
        = .error (.closedDocument artifacts.schema.kind.word artifacts.schema.owner) := by
    simp only [perform, onDocument, opened, Assembly.documentsFor, here, Artifacts.document?,
      Document.add, closed, if_true]
    rfl
  rw [begins, performAll, refused]
  intro impossible
  cases impossible

-----------------------------------------------------------------------------------------
-- Types of a run
-----------------------------------------------------------------------------------------

/-- Every schema document of a run so far is closed. -/
def Progress.IsClosed (progress : Progress) : Prop :=
  ∀ {name artifacts},
    Table.get? progress.assembly.artifacts name = some artifacts → artifacts.schema.isClosed = true

/-- A type that is carried out where all documents are closed has a new name, and all documents are
closed afterwards.
-/
theorem Progress.IsClosed.perform_subject (closed : progress.IsClosed) {next : Progress}
    (performed
      : (progress.openFor subject.mapping.targetName).performAll plan subject.mapping.targetName
          (Contribution.ofSubject plan subject)
        = (next, none))
    : Table.get? progress.assembly.artifacts subject.mapping.targetName = none
      ∧ next.assembly.artifacts
        = progress.assembly.artifacts
          ++ [(subject.mapping.targetName, subject.documents plan progress.graph)]
      ∧ next.IsClosed := by
  have whole : Contribution.IsWhole plan subject :=
    Progress.succeeds_of_performAll (congrArg Prod.snd performed)
  cases known : Table.get? progress.assembly.artifacts subject.mapping.targetName with
  | some artifacts =>
      exact absurd (congrArg Prod.snd performed)
        (Progress.performAll_of_closed known (closed known) whole)
  | none =>
      obtain ⟨other, again, ran⟩ := Progress.perform_subject whole known
      obtain rfl : next = other := congrArg Prod.fst (performed.symm.trans again)
      refine ⟨rfl, ran.artifacts, ?_⟩
      intro name artifacts found
      rw [ran.artifacts, Table.get?_append] at found
      cases before : Table.get? progress.assembly.artifacts name with
      | some earlier =>
          rw [before, Option.some_or, Option.some.injEq] at found
          exact found ▸ closed before
      | none =>
          rw [before, Option.none_or] at found
          have same := Table.mem_of_get? found
          rw [Plan.documents, Plan.documents, List.mem_singleton] at same
          rw [(Prod.mk.inj same).2]
          exact Subject.isClosed_schema_documents

/-- Types that are carried out where all documents are closed have new names, each its own. By
induction on the types.
-/
theorem Progress.IsClosed.nodup_targets (closed : progress.IsClosed)
    (performed : (progress.performSubjects plan subjects).2 = none)
    : (subjects.map fun subject => subject.mapping.targetName).Nodup
      ∧ ∀ subject ∈ subjects,
          Table.get? progress.assembly.artifacts subject.mapping.targetName = none := by
  induction subjects generalizing progress with
  | nil => exact ⟨List.nodup_nil, fun _ member => nomatch member⟩
  | cons subject rest ih =>
      rw [performSubjects] at performed
      split at performed
      case h_1 next finished =>
        obtain ⟨fresh, artifacts, stillClosed⟩ := closed.perform_subject finished
        obtain ⟨apart, others⟩ := ih stillClosed performed
        have different
            : ∀ other ∈ rest,
                other.mapping.targetName ≠ subject.mapping.targetName
                ∧ Table.get? progress.assembly.artifacts other.mapping.targetName = none := by
          intro other member
          have unknown := others other member
          rw [artifacts, Table.get?_append, Option.or_eq_none_iff] at unknown
          refine ⟨fun same => ?_, unknown.1⟩
          simp [Table.get?, same] at unknown
        constructor
        · rw [List.map_cons, List.nodup_cons]
          refine ⟨fun member => ?_, apart⟩
          obtain ⟨other, member, same⟩ := List.mem_map.mp member
          exact (different other member).1 same
        · intro other member
          rcases List.mem_cons.mp member with rfl | member
          · exact fresh
          · exact (different other member).2
      case h_2 => cases performed

end

namespace Job

variable {job : Job} {draft : Draft}

/-- The types of a run that comes to documents have generated names of their own. -/
theorem Stages.nodup_targets (stages : job.Stages draft)
    : ((job.subjects draft.plan).map fun subject => subject.mapping.targetName).Nodup := by
  have closed : Progress.empty.IsClosed := fun found => nomatch found
  exact (closed.nodup_targets (congrArg Prod.snd stages.performed)).1

/-- No other type of a run has the name of one that is generated: both would be carried out under
one generated name.
-/
theorem Stages.count_le_one (stages : job.Stages draft) {name : String} {mapping : NameMapping}
    (known : draft.plan.classified.get? name = some mapping) (own : mapping.isBuiltin = false)
    : (draft.plan.schema.types.map TypeDef.name).count (.string name) ≤ 1 := by
  have apart := stages.nodup_targets
  rw [map_subjects job draft.plan fun _ mapping => mapping.targetName] at apart
  let named := draft.plan.schema.types.filter fun type => type.name == .string name
  have subjects
      : (draft.plan.classified.subjects named).map (fun subject => subject.mapping.targetName)
        = List.replicate named.length mapping.targetName := by
    have each : ∀ type ∈ named, type.name = .string name := fun type member =>
      eq_of_beq (List.mem_filter.mp member).2
    generalize named = types at each
    induction types with
    | nil => rfl
    | cons type rest ih =>
        have here
            : draft.plan.classified.subject? type = some { type, mapping, unshown := 0 } := by
          simp [Classified.subject?, each type List.mem_cons_self, known, own]
        have later := ih fun other member => each other (List.mem_cons_of_mem type member)
        rw [Classified.subjects, List.filterMap_cons_some here, List.map_cons,
          List.length_cons, List.replicate_succ, ← later]
        rfl
  have sub
      : (draft.plan.classified.subjects named).Sublist
          (draft.plan.classified.subjects draft.plan.schema.types) :=
    List.filter_sublist.filterMap _
  have single := apart.sublist (sub.map fun subject => subject.mapping.targetName)
  rw [subjects, List.nodup_replicate] at single
  rw [List.count, List.countP_map, List.countP_eq_length_filter]
  exact single

/-- The types of a run that comes to documents have been placed. -/
theorem Stages.exists_placed (stages : job.Stages draft)
    : ∃ builtins,
        job.reference.builtinNames = .ok builtins
        ∧ Placed (startRegistry job.settings builtins) draft.plan.schema.types
          draft.plan.classified := by
  obtain ⟨builtins, found, texts, apart, same⟩ := classify_eq_ok_iff.mp stages.classified
  have only := onlyBuiltins_startRegistry job.settings builtins
  let start := startRegistry job.settings builtins
  have single
      : ∀ entry ∈ start.kept draft.plan.schema.types,
          (draft.plan.schema.types.map TypeDef.name).count (.string entry.1) ≤ 1 := by
    intro entry keeps
    have unknown : start.get? entry.1 = none := Registry.get?_eq_none_of_mem_kept only keeps
    cases known : draft.plan.classified.get? entry.1 with
    | some mapping =>
        apply stages.count_le_one known
        rw [same] at known
        rcases Registry.get?_withPlaces_cases known with builtin | ⟨type, -, rfl⟩
        · cases unknown.symm.trans builtin
        · exact Registry.place_isBuiltin start _
    | none =>
        -- the first kept type of the name has been placed
        have none := Registry.get?_withPlaces start
          (Registry.firsts (start.kept draft.plan.schema.types)) entry.1
        rw [same] at known
        rw [unknown, Option.none_or] at none
        have absent := Table.get?_eq_none_iff.mp (none.symm.trans known)
        obtain ⟨first, member, named⟩ := List.mem_map.mp (Registry.mem_names_addNew keeps)
        exact absurd (List.mem_map.mpr ⟨_, List.mem_map.mpr ⟨first, member, rfl⟩, named⟩) absent
  rw [Registry.firsts_eq_self (Registry.nodup_names_kept texts single)] at apart same
  exact ⟨builtins, found, same ▸ placed_of_count only texts single apart⟩

end Job

end RubySchema
