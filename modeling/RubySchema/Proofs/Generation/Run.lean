import RubySchema.Proofs.Generation.Script
import RubySchema.Proofs.Generation.Steps

/-!
Types of different generated names are carried out exactly when none of their steps fails, and what
they come to is told by the steps of each. Each type of a run is carried out into documents of its
own, and sees of the types before it only what they refer to.
-/

namespace RubySchema

def DependencyGraph.after (plan : Plan) (graph : DependencyGraph) (subject : Subject)
    : DependencyGraph :=
  (Contribution.script plan subject).foldl
    (DependencyGraph.receive plan subject.mapping.targetName) graph

def Subject.documents (plan : Plan) (graph : DependencyGraph) (subject : Subject) : Artifacts :=
  (Contribution.script plan subject).foldl (Artifacts.receive plan graph)
    (Artifacts.empty subject.mapping.targetName)

def Plan.documents (plan : Plan) (graph : DependencyGraph) : List Subject → Table Artifacts
  | [] => []
  | subject :: rest =>
      (subject.mapping.targetName, subject.documents plan graph)
        :: plan.documents (graph.after plan subject) rest

structure Progress.Ran (plan : Plan) (subjects : List Subject) (before after : Progress)
    : Prop where
  artifacts
    : after.assembly.artifacts = before.assembly.artifacts ++ plan.documents before.graph subjects
  fixed : after.assembly.fixed = before.assembly.fixed
  graph : after.graph = subjects.foldl (DependencyGraph.after plan) before.graph
  total
    : after.total
      = before.total
        + ((subjects.flatMap (Contribution.script plan)).filterMap Contribution.listed?).length
  fieldList
    : after.fieldList
      = (subjects.flatMap (Contribution.script plan)).foldl listAfter before.fieldList

section
variable {plan : Plan} {subject : Subject} {subjects : List Subject}

theorem Contribution.Orderly.append {body rest : List Contribution}
    (inBody : ∀ contribution ∈ body, ∀ kind text, contribution ≠ .closing kind text)
    (orderly : Orderly [] rest) : Orderly [] (body ++ rest) := by
  induction body with
  | nil => exact orderly
  | cons contribution more ih =>
      have later := ih fun other member => inBody other (List.mem_cons_of_mem _ member)
      cases contribution with
      | closing kind text => exact absurd rfl (inBody _ List.mem_cons_self kind text)
      | fragment | reference | declaration => exact ⟨List.not_mem_nil, later⟩
      | listed => exact ⟨trivial, later⟩

/-- What a type contributes can all be made in order: its documents are ended last, each once. -/
theorem Contribution.orderly_script : Orderly [] (script plan subject) := by
  have body : ∀ contribution ∈ (ofBody plan subject).filterMap Except.toOption,
      ∀ kind text, contribution ≠ .closing kind text := by
    rintro contribution member kind text rfl
    obtain ⟨step, made, same⟩ := List.mem_filterMap.mp member
    cases step with
    | error cause => cases same
    | ok value =>
        cases same
        exact all_ofBody _ made
  rw [script, Contribution.ofSubject_eq, List.filterMap_append]
  apply Orderly.append body
  unfold ofClosing
  cases subject.hasDocument .implementation <;> cases subject.hasDocument .spec <;>
    simp [Except.toOption, Orderly, IsAccepted, closedAfter]

theorem Artifacts.eq_empty_of_document? {target : String} {kind : DocumentKind}
    {document : Document} (found : (Artifacts.empty target).document? kind = some document)
    : document = Document.empty target kind := by
  cases kind with
  | schema => exact (Option.some.inj found).symm
  | implementation | spec =>
      simp only [Artifacts.empty, Artifacts.document?] at found
      split at found
      · exact (Option.some.inj found).symm
      · cases found

theorem Artifacts.ready_empty (target : String) : (Artifacts.empty target).Ready target [] := by
  refine ⟨rfl, ?_, ?_⟩
  · intro kind document found
    rw [eq_empty_of_document? found]
    rfl
  · intro kind document found _
    rw [eq_empty_of_document? found]
    rfl

/-- A type of a new name is carried out into documents of its own. -/
theorem Progress.perform_subject {progress : Progress} (whole : Contribution.IsWhole plan subject)
    (fresh : Table.get? progress.assembly.artifacts subject.mapping.targetName = none)
    : ∃ next,
        (progress.openFor subject.mapping.targetName).performAll plan subject.mapping.targetName
            (Contribution.ofSubject plan subject)
          = (next, none)
        ∧ Progress.Ran plan [subject] progress next := by
  let target := subject.mapping.targetName
  let start := progress.openFor target
  have opened : start.assembly.artifacts
      = progress.assembly.artifacts ++ [(target, Artifacts.empty target)] := by
    show ((progress.assembly.documentsFor target).2).artifacts = _
    rw [Assembly.documentsFor, fresh]
    exact Table.put_of_get?_eq_none fresh
  have unfixed : start.assembly.fixed = progress.assembly.fixed := by
    show ((progress.assembly.documentsFor target).2).fixed = _
    rw [Assembly.documentsFor, fresh]
  have here : Table.get? start.assembly.artifacts target = some (Artifacts.empty target) := by
    rw [opened, Table.get?_append, fresh]
    simp [Table.get?]
  -- no step of a whole type fails, so what it contributes is all carried out
  rw [whole.ofSubject_eq]
  obtain ⟨next, performed, received⟩
      : ∃ next,
          start.performAll plan target ((Contribution.script plan subject).map .ok) = (next, none)
          ∧ Progress.Received plan target progress.graph (Contribution.script plan subject) start
            next :=
    Progress.performAll_received here (Artifacts.ready_empty target) Contribution.orderly_script
      fun _ _ => rfl
  refine ⟨next, performed, ?_, received.fixed.trans unfixed, ?_, ?_, ?_⟩
  · rw [received.documents here, opened, Table.put_append fresh]
    simp [Table.put, Plan.documents, Subject.documents, target]
  · exact received.graph
  · rw [List.flatMap_singleton]
    exact received.total
  · rw [List.flatMap_singleton]
    exact received.fieldList

theorem Plan.documents_append (graph : DependencyGraph) (first second : List Subject)
    : plan.documents graph (first ++ second)
      = plan.documents graph first
        ++ plan.documents (first.foldl (DependencyGraph.after plan) graph) second := by
  induction first generalizing graph with
  | nil => rfl
  | cons subject rest ih =>
      rw [List.cons_append, Plan.documents, Plan.documents, ih]
      rfl

theorem Progress.Ran.append {more : List Subject} {before middle after : Progress}
    (earlier : Progress.Ran plan subjects before middle)
    (later : Progress.Ran plan more middle after)
    : Progress.Ran plan (subjects ++ more) before after := by
  refine ⟨?_, later.fixed.trans earlier.fixed, ?_, ?_, ?_⟩
  · rw [later.artifacts, earlier.artifacts, earlier.graph, Plan.documents_append,
      List.append_assoc]
  · rw [later.graph, earlier.graph, List.foldl_append]
  · rw [later.total, earlier.total, List.flatMap_append, List.filterMap_append,
      List.length_append, Nat.add_assoc]
  · rw [later.fieldList, earlier.fieldList, List.flatMap_append, List.foldl_append]

/-- Whole types of different new names are carried out, by induction on the types. -/
theorem Progress.performSubjects_ran {progress : Progress}
    (whole : ∀ subject ∈ subjects, Contribution.IsWhole plan subject)
    (apart : (subjects.map fun subject => subject.mapping.targetName).Nodup)
    (fresh
      : ∀ subject ∈ subjects,
          Table.get? progress.assembly.artifacts subject.mapping.targetName = none)
    : ∃ next,
        progress.performSubjects plan subjects = (next, none)
        ∧ Progress.Ran plan subjects progress next := by
  induction subjects generalizing progress with
  | nil => exact ⟨progress, rfl, by simp [Plan.documents], rfl, rfl, rfl, rfl⟩
  | cons subject rest ih =>
      obtain ⟨alone, apart⟩ := List.nodup_cons.mp apart
      obtain ⟨middle, performed, ran⟩ :=
        Progress.perform_subject (whole subject List.mem_cons_self)
          (fresh subject List.mem_cons_self)
      have stillFresh
          : ∀ other ∈ rest,
              Table.get? middle.assembly.artifacts other.mapping.targetName = none := by
        intro other member
        have different : subject.mapping.targetName ≠ other.mapping.targetName := fun same =>
          alone (List.mem_map.mpr ⟨other, member, same.symm⟩)
        rw [ran.artifacts, Table.get?_append, fresh other (List.mem_cons_of_mem _ member)]
        simp [Plan.documents, Table.get?, different]
      obtain ⟨next, finished, more⟩ :=
        ih (fun other member => whole other (List.mem_cons_of_mem _ member)) apart stillFresh
      refine ⟨next, ?_, ran.append more⟩
      rw [Progress.performSubjects, performed]
      exact finished

/-- Steps that do not fail together do not fail one by one, by induction on the steps. -/
theorem Progress.succeeds_of_performAll {target : String} {steps : Steps}
    {progress : Progress} (performed : (progress.performAll plan target steps).2 = none)
    : ∀ step ∈ steps, Succeeds step := by
  induction steps generalizing progress with
  | nil => simp
  | cons step rest ih =>
      cases step with
      | error cause => cases performed
      | ok contribution =>
          rw [Progress.performAll] at performed
          split at performed
          · intro step member
            rcases List.mem_cons.mp member with rfl | member
            · exact succeeds_ok contribution
            · exact ih performed step member
          · cases performed

/-- Types that are carried out are whole, by induction on the types. -/
theorem Progress.isWhole_of_performSubjects {progress : Progress}
    (performed : (progress.performSubjects plan subjects).2 = none)
    : ∀ subject ∈ subjects, Contribution.IsWhole plan subject := by
  induction subjects generalizing progress with
  | nil => simp
  | cons subject rest ih =>
      rw [Progress.performSubjects] at performed
      split at performed
      case h_1 next finished =>
        intro other member
        rcases List.mem_cons.mp member with rfl | member
        · exact Progress.succeeds_of_performAll (congrArg Prod.snd finished)
        · exact ih performed other member
      case h_2 => cases performed

/-- Whole types of different generated names are carried out from the start. -/
theorem Progress.performSubjects_empty_ran
    (whole : ∀ subject ∈ subjects, Contribution.IsWhole plan subject)
    (apart : (subjects.map fun subject => subject.mapping.targetName).Nodup)
    : ∃ progress,
        Progress.empty.performSubjects plan subjects = (progress, none)
        ∧ Progress.Ran plan subjects Progress.empty progress := by
  have fresh
      : ∀ subject ∈ subjects,
          Table.get? Progress.empty.assembly.artifacts subject.mapping.targetName = none :=
    fun _ _ => rfl
  exact Progress.performSubjects_ran whole apart fresh

/-- What a run has come to is told by the steps of its types. -/
theorem Progress.ran_of_performSubjects {progress : Progress}
    (apart : (subjects.map fun subject => subject.mapping.targetName).Nodup)
    (performed : Progress.empty.performSubjects plan subjects = (progress, none))
    : Progress.Ran plan subjects Progress.empty progress := by
  have whole := Progress.isWhole_of_performSubjects (congrArg Prod.snd performed)
  obtain ⟨next, again, ran⟩ := Progress.performSubjects_empty_ran whole apart
  obtain rfl : progress = next := congrArg Prod.fst (performed.symm.trans again)
  exact ran

end

end RubySchema
