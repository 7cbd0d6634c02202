import Mathlib.Data.List.Perm.Basic
import RubySchema.Proofs.Generation.Agreement
import RubySchema.Proofs.Generation.Declarations
import RubySchema.Proofs.Runs

/-!
Types in another order. What types come to together, apart from forward declarations, does not
depend on the order in which they are carried out.
-/

namespace RubySchema

/-- What stands beside one list in two ways is related where both ways lead from one item. -/
theorem forall₂_beside {α β γ : Type} {one : α → β → Prop} {two : α → γ → Prop}
    {related : β → γ → Prop}
    (each : ∀ item here there, one item here → two item there → related here there)
    {items : List α} {first : List β} {second : List γ} (ones : List.Forall₂ one items first)
    (twos : List.Forall₂ two items second) : List.Forall₂ related first second := by
  induction ones generalizing second with
  | nil =>
      cases twos
      exact .nil
  | cons here _ ih =>
      cases twos with
      | cons there later => exact .cons (each _ _ _ here there) (ih later)

section
variable {plan : Plan} {graph : DependencyGraph} {subject : Subject}
variable {subjects others : List Subject}

/-- References from a name that is no source yet come behind those of all others. -/
theorem DependencyGraph.insert_append {edges : Table (List String)} {source : String}
    (fresh : Table.get? edges source = none) (own : Table (List String)) (target : String)
    : DependencyGraph.insert ⟨edges ++ own⟩ source target
      = ⟨edges ++ (DependencyGraph.insert ⟨own⟩ source target).edges⟩ := by
  have targets
      : DependencyGraph.targetsOf ⟨edges ++ own⟩ source
        = DependencyGraph.targetsOf ⟨own⟩ source := by
    unfold DependencyGraph.targetsOf
    rw [Table.get?_append, fresh, Option.none_or]
  unfold DependencyGraph.insert
  dsimp only
  rw [targets, Table.put_append fresh]

/-- The references of a type whose name is no source yet come behind those of all others. -/
theorem DependencyGraph.edges_after
    (fresh : Table.get? graph.edges subject.mapping.targetName = none)
    : (graph.after plan subject).edges
      = graph.edges ++ (DependencyGraph.empty.after plan subject).edges := by
  have general (contributions : List Contribution) (own : Table (List String))
      : (contributions.foldl (DependencyGraph.receive plan subject.mapping.targetName)
          ⟨graph.edges ++ own⟩).edges
        = graph.edges
          ++ (contributions.foldl (DependencyGraph.receive plan subject.mapping.targetName)
            ⟨own⟩).edges := by
    induction contributions generalizing own with
    | nil => rfl
    | cons contribution rest ih =>
        rw [List.foldl_cons, List.foldl_cons]
        cases tracked : contribution.tracked? plan with
        | none =>
            simp only [DependencyGraph.receive, tracked]
            exact ih own
        | some target =>
            simp only [DependencyGraph.receive, tracked]
            rw [DependencyGraph.insert_append fresh]
            exact ih _
  have whole := general (Contribution.script plan subject) []
  rwa [List.append_nil] at whole

theorem DependencyGraph.names_after_empty
    : ∀ name ∈ (DependencyGraph.empty.after plan subject).edges.names,
        name = subject.mapping.targetName := by
  have general (contributions : List Contribution) (own : DependencyGraph)
      (only : ∀ name ∈ own.edges.names, name = subject.mapping.targetName)
      : ∀ name ∈ (contributions.foldl (DependencyGraph.receive plan subject.mapping.targetName)
            own).edges.names,
          name = subject.mapping.targetName := by
    induction contributions generalizing own with
    | nil => exact only
    | cons contribution rest ih =>
        apply ih
        intro name member
        unfold DependencyGraph.receive at member
        split at member
        · unfold DependencyGraph.insert at member
          rw [Table.names_put] at member
          split at member
          · exact only name member
          · rcases List.mem_append.mp member with member | member
            · exact only name member
            · exact List.mem_singleton.mp member
        · exact only name member
  exact general _ _ fun name member => nomatch member

/-- The references of a run are those of each type, by induction on the types. -/
theorem Plan.edges_graphOf
    (apart : (subjects.map fun subject => subject.mapping.targetName).Nodup)
    : (plan.graphOf subjects).edges
      = subjects.flatMap fun subject => (DependencyGraph.empty.after plan subject).edges := by
  have general (graph : DependencyGraph)
      (fresh
        : ∀ subject ∈ subjects, Table.get? graph.edges subject.mapping.targetName = none)
      : (subjects.foldl (DependencyGraph.after plan) graph).edges
        = graph.edges
          ++ subjects.flatMap fun subject => (DependencyGraph.empty.after plan subject).edges := by
    induction subjects generalizing graph with
    | nil => simp
    | cons subject rest ih =>
        obtain ⟨alone, apart⟩ := List.nodup_cons.mp apart
        have here := fresh subject List.mem_cons_self
        rw [List.foldl_cons, ih apart, DependencyGraph.edges_after here, List.flatMap_cons,
          List.append_assoc]
        intro other member
        rw [DependencyGraph.edges_after here, Table.get?_append,
          fresh other (List.mem_cons_of_mem _ member), Option.none_or, Table.get?_eq_none_iff]
        intro known
        have same := DependencyGraph.names_after_empty _ known
        exact alone (List.mem_map.mpr ⟨other, member, same⟩)
  exact general DependencyGraph.empty fun _ _ => rfl

/-- The same types in another order make the same references. -/
theorem Plan.edges_graphOf_perm (perm : subjects.Perm others)
    (apart : (subjects.map fun subject => subject.mapping.targetName).Nodup)
    : (plan.graphOf subjects).edges.Perm (plan.graphOf others).edges := by
  rw [Plan.edges_graphOf apart, Plan.edges_graphOf ((perm.map _).nodup_iff.mp apart)]
  exact perm.flatMap_right _

theorem foldl_listAfter (contributions : List Contribution) (fieldList : Table (Option String))
    : contributions.foldl listAfter fieldList
      = (contributions.filterMap Contribution.listed?).foldl
        (fun table entry => Table.put table entry.1 entry.2) fieldList := by
  induction contributions generalizing fieldList with
  | nil => rfl
  | cons contribution rest ih =>
      rw [List.foldl_cons, ih, listAfter]
      cases listed : contribution.listed? with
      | none => rw [List.filterMap_cons_none listed]
      | some entry => rw [List.filterMap_cons_some listed, List.foldl_cons]

def Plan.listedBy (plan : Plan) (subject : Subject) : Table (Option String) :=
  (Contribution.script plan subject).filterMap Contribution.listed?

/-- A type lists fields under its own name. -/
theorem Plan.names_listedBy {name : String} (member : name ∈ (plan.listedBy subject).names)
    : ∃ field, name = subject.mapping.schemaName ++ "." ++ field := by
  obtain ⟨entry, listed, rfl⟩ := List.mem_map.mp member
  obtain ⟨contribution, made, same⟩ := List.mem_filterMap.mp listed
  cases contribution with
  | listed field arguments =>
      cases same
      exact (Contribution.isBodyOf_or_isClosing made).elim id False.elim
  | fragment | reference | declaration | closing => cases same

/-- A name of a field tells its type up to the first full stop. -/
theorem eq_of_append_stop {first second field other : String} (firstFree : '.' ∉ first.toList)
    (secondFree : '.' ∉ second.toList) (same : first ++ "." ++ field = second ++ "." ++ other)
    : first = second := by
  have lists : first.toList ++ '.' :: field.toList = second.toList ++ '.' :: other.toList := by
    simpa using congrArg String.toList same
  exact String.toList_injective (eq_of_append_cons firstFree secondFree lists)

/-- The same types in another order list the same fields, if no full stop stands in their names. -/
theorem Plan.fieldList_perm (perm : subjects.Perm others)
    (unique : (subjects.map fun subject => subject.mapping.schemaName).Nodup)
    (noStops : ∀ subject ∈ subjects, '.' ∉ subject.mapping.schemaName.toList) (name : String)
    : Table.get? ((subjects.flatMap (Contribution.script plan)).foldl listAfter []) name
      = Table.get? ((others.flatMap (Contribution.script plan)).foldl listAfter []) name := by
  have entries (subjects : List Subject)
      : (subjects.flatMap (Contribution.script plan)).foldl listAfter []
        = Table.ofEntries (subjects.flatMap plan.listedBy) := by
    rw [foldl_listAfter, List.filterMap_flatMap]
    rfl
  rw [entries, entries]
  apply Table.get?_ofEntries_flatMap_perm perm
  apply (List.pairwise_map.mp unique).imp_of_mem
  intro first second firstMember secondMember different name inFirst inSecond
  obtain ⟨field, rfl⟩ := Plan.names_listedBy inFirst
  obtain ⟨other, same⟩ := Plan.names_listedBy inSecond
  exact different
    (eq_of_append_stop (noStops first firstMember) (noStops second secondMember) same)

end

structure Artifacts.SameButForPreamble (first second : Artifacts) : Prop where
  targetName : first.targetName = second.targetName
  implementation : first.implementation = second.implementation
  spec : first.spec = second.spec
  schema : ∀ place, place ≠ .preamble → first.schema.fragments place = second.schema.fragments place

section
variable {first second : Plan} {subjects others : List Subject}

/-- Under plans that agree a type has the same documents, whatever came before it. -/
theorem Subject.documents_congr (agrees : first.Agrees second) (subject : Subject)
    (graph other : DependencyGraph)
    : (subject.documents first graph).SameButForPreamble (subject.documents second other) := by
  have named (plan : Plan) (graph : DependencyGraph)
      : (subject.documents plan graph).targetName = subject.mapping.targetName :=
    Artifacts.targetName_foldl_receive _
  have whole (kind : DocumentKind) (notSchema : kind ≠ .schema)
      : (subject.documents first graph).document? kind
        = (subject.documents second other).document? kind := by
    unfold Subject.documents
    rw [Artifacts.document?_foldl_receive, Artifacts.document?_foldl_receive,
      Contribution.script_congr agrees]
    cases found : (Artifacts.empty subject.mapping.targetName).document? kind with
    | none => rfl
    | some document =>
        have ofKind := (Artifacts.ready_empty subject.mapping.targetName).ofKind found
        exact congrArg some (Document.foldl_receive_of_ne_schema (ofKind ▸ notSchema))
  refine ⟨(named _ _).trans (named _ _).symm, whole .implementation (by decide),
    whole .spec (by decide), ?_⟩
  intro place notPreamble
  rw [Subject.schema_documents, Subject.schema_documents,
    Document.fragments_foldl_receive fun same => absurd same notPreamble,
    Document.fragments_foldl_receive fun same => absurd same notPreamble,
    Contribution.script_congr agrees]

/-- Under plans that agree the same types in another order have the same documents. -/
theorem Plan.documents_perm (agrees : first.Agrees second) (perm : subjects.Perm others)
    (apart : (subjects.map fun subject => subject.mapping.targetName).Nodup)
    (graph other : DependencyGraph) (target : String)
    : Option.Rel Artifacts.SameButForPreamble
        (Table.get? (first.documents graph subjects) target)
        (Table.get? (second.documents other others) target) := by
  have otherApart := (perm.map fun subject => subject.mapping.targetName).nodup_iff.mp apart
  by_cases known : target ∈ subjects.map fun subject => subject.mapping.targetName
  · obtain ⟨subject, member, rfl⟩ := List.mem_map.mp known
    obtain ⟨before, after, rfl⟩ := List.append_of_mem member
    obtain ⟨earlier, later, rfl⟩ := List.append_of_mem (perm.mem_iff.mp member)
    rw [Plan.get?_documents apart, Plan.get?_documents otherApart]
    exact .some (Subject.documents_congr agrees subject _ _)
  · have unknown := (perm.map fun subject => subject.mapping.targetName).mem_iff.not.mp known
    rw [Table.get?_eq_none_iff.mpr (Plan.names_documents ▸ known),
      Table.get?_eq_none_iff.mpr (Plan.names_documents ▸ unknown)]
    exact .none

/-- Types of a run and their documents stand side by side, by induction on the types. -/
theorem Plan.forall₂_documents (plan : Plan) (graph : DependencyGraph) (subjects : List Subject)
    : List.Forall₂ (fun subject artifacts => ∃ graph, artifacts = subject.documents plan graph)
        subjects (plan.documents graph subjects).values := by
  induction subjects generalizing graph with
  | nil => exact .nil
  | cons subject rest ih => exact .cons ⟨graph, rfl⟩ (ih _)

/-- Under plans that agree the same types in another order have their documents in that order. -/
theorem Plan.values_documents_perm (agrees : first.Agrees second) (perm : subjects.Perm others)
    (graph other : DependencyGraph)
    : ∃ reordered,
        List.Forall₂ Artifacts.SameButForPreamble (first.documents graph subjects).values reordered
        ∧ reordered.Perm (second.documents other others).values := by
  obtain ⟨reordered, beside, moved⟩ :=
    List.perm_comp_forall₂ perm (second.forall₂_documents other others)
  refine ⟨reordered, ?_, moved⟩
  refine forall₂_beside ?_ (first.forall₂_documents graph subjects) beside
  rintro subject _ _ ⟨_, rfl⟩ ⟨_, rfl⟩
  exact Subject.documents_congr agrees subject _ _

end

end RubySchema
