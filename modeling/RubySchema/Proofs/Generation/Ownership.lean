import RubySchema.Proofs.Generation.Manifest

/-!
In a run that comes to files each document is closed, has one header and one end, and has been made
by one type alone; and a run on types that share the name of a generated one comes to no files. A
type opens each of its documents once and ends it once, and nothing comes to a document that has
ended.
-/

namespace RubySchema

/-- A finished document takes no further fragment, and has one header and one end. -/
structure Document.IsFinished (document : Document) : Prop where
  closed : document.isClosed = true
  header : (document.fragments .header).length = 1
  postamble : (document.fragments .postamble).length = 1

-----------------------------------------------------------------------------------------
-- The documents of one type
-----------------------------------------------------------------------------------------

namespace Contribution

variable {plan : Plan} {subject : Subject} {kind : DocumentKind}

/-- A type ends each of its documents, with one fragment. -/
theorem exists_ending (has : subject.hasDocument kind = true)
    : ∃ text,
        .ok (.closing kind text) ∈ ofClosing subject
        ∧ Steps.placed kind .postamble (ofClosing subject) = [text] := by
  unfold ofClosing
  cases kind with
  | schema =>
      refine ⟨"end\n", by simp, ?_⟩
      cases subject.hasDocument .implementation <;> cases subject.hasDocument .spec <;> rfl
  | implementation =>
      rw [if_pos has]
      refine ⟨"end\n", by simp, ?_⟩
      cases subject.hasDocument .spec <;> rfl
  | spec =>
      rw [if_pos has]
      refine ⟨"  end\nend\n", by simp, ?_⟩
      cases subject.hasDocument .implementation <;> rfl

/-- In front of the ends no step of a type ends a document. -/
theorem placed_postamble_ofSubject
    : Steps.placed kind .postamble (ofSubject plan subject)
      = Steps.placed kind .postamble (ofClosing subject) := by
  rw [ofSubject_eq_parts, Steps.placed_append, Steps.placed_append, Steps.placed_append,
    placed_interfaces_of_ne (by simp), placed_ofHeaders_of_ne (by simp),
    placed_ofInside_of_ne (by simp), List.append_nil, List.nil_append, List.nil_append]

/-- The documents of a whole type are finished. -/
theorem IsWhole.isFinished {graph : DependencyGraph} {document : Document}
    (whole : IsWhole plan subject)
    (found : (subject.documents plan graph).document? kind = some document)
    : document.IsFinished := by
  obtain ⟨text, ended, placed⟩ := exists_ending (Subject.hasDocument_of_document? found)
  obtain ⟨page, -, header⟩ := whole.exists_header found
  refine ⟨?_, by rw [header, List.length_singleton], ?_⟩
  · apply Subject.isClosed_of_document? found
    rw [mem_script, Contribution.ofSubject_eq]
    exact List.mem_append_right _ ended
  · have outside : Section.postamble ≠ .preamble := by decide
    rw [Subject.fragments_of_document? found fun same => absurd same outside]
    show (Steps.placed kind .postamble (ofSubject plan subject)).length = 1
    rw [placed_postamble_ofSubject, placed, List.length_singleton]

end Contribution

-----------------------------------------------------------------------------------------
-- The type of a document
-----------------------------------------------------------------------------------------

/-- A type is generated under a name: it has a mapping to that name, which is not that of a built-in
type.
-/
def Classified.generatesAt (classified : Classified) (target : String) (type : TypeDef) : Bool :=
  (classified.subject? type).any fun subject => subject.mapping.targetName == target

theorem Classified.generatesAt_iff {classified : Classified} {target : String} {type : TypeDef}
    : classified.generatesAt target type = true
      ↔ ∃ subject,
          classified.subject? type = some subject ∧ subject.mapping.targetName = target := by
  unfold generatesAt
  cases classified.subject? type <;> simp

/-- When types have generated names of their own, one alone is generated under the name of each. By
induction on the types.
-/
theorem Classified.filter_generatesAt {classified : Classified} {types : List TypeDef}
    {subject : Subject} (member : subject ∈ classified.subjects types)
    (apart : ((classified.subjects types).map fun subject => subject.mapping.targetName).Nodup)
    : types.filter (classified.generatesAt subject.mapping.targetName) = [subject.type] := by
  induction types with
  | nil => cases member
  | cons type rest ih =>
      cases made : classified.subject? type with
      | none =>
          have skipped : classified.subjects (type :: rest) = classified.subjects rest :=
            List.filterMap_cons_none made
          rw [skipped] at member apart
          rw [List.filter_cons_of_neg (by simp [generatesAt, made])]
          exact ih member apart
      | some first =>
          have shown : classified.subjects (type :: rest) = first :: classified.subjects rest :=
            List.filterMap_cons_some made
          rw [shown] at member apart
          obtain ⟨alone, apart⟩ := List.nodup_cons.mp apart
          rcases List.mem_cons.mp member with rfl | later
          · obtain ⟨name, mapping, -, -, -, same⟩ := Job.exists_of_subject? made
            have others : rest.filter (classified.generatesAt subject.mapping.targetName) = [] := by
              rw [List.filter_eq_nil_iff]
              intro other among generated
              obtain ⟨second, makes, target⟩ := generatesAt_iff.mp generated
              exact alone (List.mem_map.mpr
                ⟨second, List.mem_filterMap.mpr ⟨other, among, makes⟩, target⟩)
            rw [List.filter_cons_of_pos (by simp [generatesAt, made]), others, same]
          · have different : first.mapping.targetName ≠ subject.mapping.targetName := fun equal =>
              alone (List.mem_map.mpr ⟨subject, later, equal.symm⟩)
            rw [List.filter_cons_of_neg (by simp [generatesAt, made, different])]
            exact ih later apart

namespace Job

/-- Documents belong to a type of a run: no other entry of the schema is generated under their name,
what they hold has been contributed by the type, and each of them is finished.
-/
structure Draft.Owns (draft : Draft) (subject : Subject) (artifacts : Artifacts) : Prop where
  alone
    : draft.plan.schema.types.filter (draft.plan.classified.generatesAt artifacts.targetName)
      = [subject.type]
  made : ∃ graph, artifacts = subject.documents draft.plan graph
  finished : ∀ kind, ∀ document ∈ artifacts.document? kind, document.IsFinished

variable {job : Job} {draft : Draft}

/-- One entry of the schema alone is generated under the name of a type of a run. -/
theorem Stages.filter_generatesAt (stages : job.Stages draft) {subject : Subject}
    (member : subject ∈ job.subjects draft.plan)
    : draft.plan.schema.types.filter
        (draft.plan.classified.generatesAt subject.mapping.targetName)
      = [subject.type] := by
  have apart := stages.nodup_targets
  rw [map_subjects job draft.plan fun _ mapping => mapping.targetName] at apart
  obtain ⟨original, generated, typeSame, mappingSame⟩ := exists_generated_of_mem member
  rw [← typeSame, ← mappingSame]
  exact Classified.filter_generatesAt generated apart

/-- The documents of a run belong to its types. -/
theorem Stages.exists_owner (stages : job.Stages draft) {artifacts : Artifacts}
    (among : artifacts ∈ draft.assembly.artifacts.values)
    : ∃ subject ∈ job.subjects draft.plan, draft.Owns subject artifacts := by
  rw [(stages.artifacts_eq stages.nodup_targets).1] at among
  obtain ⟨entry, documented, rfl⟩ := List.mem_map.mp among
  obtain ⟨earlier, subject, later, split, same⟩ := Plan.exists_of_mem_documents documented
  have member : subject ∈ job.subjects draft.plan := by
    rw [split]
    exact List.mem_append_right _ List.mem_cons_self
  have whole := Progress.isWhole_of_performSubjects (congrArg Prod.snd stages.performed)
  rw [same]
  refine ⟨subject, member, ?_, ⟨_, rfl⟩, fun kind document found => ?_⟩
  · rw [Subject.isFiled_documents.named]
    exact stages.filter_generatesAt member
  · exact (whole subject member).isFinished found

-----------------------------------------------------------------------------------------
-- Runs
-----------------------------------------------------------------------------------------

/-- A name that is mapped, and not to a built-in type, is that of two types or more. -/
structure HasRepeatedName (job : Job) (schema : Schema) (name : String) : Prop where
  filtered : job.hooks.applyFilters job.schema = .ok schema
  mapped
    : ∃ classified mapping,
        (classify job.reference job.settings schema).outcome = .ok classified
        ∧ classified.get? name = some mapping ∧ mapping.isBuiltin = false
  repeated : 2 ≤ (schema.types.map TypeDef.name).count (.string name)

/-- One type, one definition. In a run that comes to files, those of types show documents which
belong to one entry of the schema each: no other entry is generated under their name or has
contributed to them, and each is closed and has one header and one end. A run on types that share
the name of a generated one comes to an error, also when some of them are deprecated.
-/
theorem one_type_of_build (job : Job)
    : (∀ generation,
          job.build.outcome = .ok generation →
            ∃ draft files,
              job.draft.outcome = .ok draft
              ∧ List.Forall₂ (FileRole.Matches draft) (roles (job.subjects draft.plan)) files
              ∧ generation.files
                = files.map (fun file =>
                  { file with content := job.hooks.applyHeaders file.path file.content })
              ∧ ∀ artifacts ∈ draft.assembly.artifacts.values,
                  ∃ subject ∈ job.subjects draft.plan, draft.Owns subject artifacts)
      ∧ ∀ schema name,
          job.HasRepeatedName schema name → ∃ cause, job.build.outcome = .error cause := by
  constructor
  · intro generation built
    obtain ⟨draft, files, drafted, made, rfl⟩ := build_eq_ok_iff.mp built
    have stages := draft_eq_ok_iff.mp drafted
    exact ⟨draft, files, drafted, stages.forall₂_files made, rfl, fun _ => stages.exists_owner⟩
  · rintro schema name ⟨filtered, ⟨classified, mapping, classifies, known, own⟩, repeated⟩
    cases built : job.build.outcome with
    | error cause => exact ⟨cause, rfl⟩
    | ok generation =>
        obtain ⟨draft, files, drafted, -⟩ := build_eq_ok_iff.mp built
        have stages := draft_eq_ok_iff.mp drafted
        obtain rfl : draft.plan.schema = schema :=
          Except.ok.inj (stages.filtered.symm.trans filtered)
        obtain rfl : draft.plan.classified = classified :=
          Except.ok.inj (stages.classified.symm.trans classifies)
        exact absurd (stages.count_le_one known own) (Nat.not_le.mpr repeated)

/-- A run on two types of one name, the first of which is deprecated and so gets no place. -/
def relabelling : Job :=
  smallJob "Query" "Query"
    [
      plainType "Query" .object [plainField "label" "Label" []],
      { plainType "Label" .object [plainField "id" "ID" []] with isDeprecated := true },
      plainType "Label" .object [plainField "id" "ID" []]
    ]

theorem hasRepeatedName_relabelling
    : ∃ schema, relabelling.HasRepeatedName schema "Label" := by
  refine ⟨relabelling.schema, rfl, ?_, by decide⟩
  have classifies
      : ∃ classified,
          (classify relabelling.reference relabelling.settings relabelling.schema).outcome
            = .ok classified
          ∧ (classified.get? "Label").map NameMapping.isBuiltin = some false := by
    decide +kernel
  obtain ⟨classified, classifies, found⟩ := classifies
  obtain ⟨mapping, known, own⟩ := Option.map_eq_some_iff.mp found
  exact ⟨classified, mapping, classifies, known, own⟩

/-- The run on imports shows documents of one type each. That on labels fails, since the second of
them comes to a document that has ended.
-/
theorem one_type_of_importing
    : (∃ generation,
          importing.build.outcome = .ok generation
          ∧ ∃ draft,
              importing.draft.outcome = .ok draft
              ∧ ∀ artifacts ∈ draft.assembly.artifacts.values,
                  ∃ subject ∈ importing.subjects draft.plan, draft.Owns subject artifacts)
      ∧ relabelling.build.outcome = .error (.closedDocument "schema" "Types::Label") := by
  constructor
  · obtain ⟨generation, built⟩ := succeeds_importing
    obtain ⟨draft, files, drafted, -, -, owned⟩ :=
      (one_type_of_build importing).1 generation built
    exact ⟨generation, built, draft, drafted, owned⟩
  · obtain ⟨schema, repeated⟩ := hasRepeatedName_relabelling
    obtain ⟨cause, failed⟩ := (one_type_of_build relabelling).2 schema "Label" repeated
    have shown
        : (match relabelling.build.outcome with
          | .ok _ => none
          | .error cause => some cause)
          = some (.closedDocument "schema" "Types::Label") := by
      decide +kernel
    rw [failed] at shown
    rw [failed, Option.some.inj shown]

end Job

end RubySchema
