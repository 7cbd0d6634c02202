import RubySchema.Generation.Build
import RubySchema.Proofs.Outcome
import RubySchema.Proofs.Table

/-!
Documents filed under their names. Whatever the types of a run contribute, its table of documents
has one entry for each generated name, with the kinds of documents that the name has.
-/

namespace RubySchema

/-- The documents of a name: they bear it, and are of the kinds that it has. -/
structure Artifacts.IsFiled (name : String) (artifacts : Artifacts) : Prop where
  named : artifacts.targetName = name
  kinds : ∀ kind, (artifacts.document? kind).isSome = true ↔ kind ∈ Artifacts.kindsFor name

/-- An assembly has the documents of some names, each once, and none of fixed text. -/
structure Assembly.Holds (targets : List String) (assembly : Assembly) : Prop where
  unique : assembly.artifacts.names.Nodup
  filed : ∀ {name artifacts}, assembly.artifacts.get? name = some artifacts → artifacts.IsFiled name
  names : ∀ name, name ∈ assembly.artifacts.names ↔ name ∈ targets
  fixed : assembly.fixed = []

section
variable {target : String} {targets : List String} {assembly : Assembly} {progress next : Progress}
  {plan : Plan}

theorem Artifacts.isFiled_empty (target : String) : (Artifacts.empty target).IsFiled target := by
  refine ⟨rfl, fun kind => ?_⟩
  have schema : DocumentKind.schema ∈ kindsFor target := by
    unfold kindsFor
    split <;> simp
  cases kind with
  | schema => simp [empty, document?, schema]
  | implementation | spec => simp [empty, document?]

/-- A document in the place of another of its kind changes neither names nor kinds. -/
theorem Artifacts.IsFiled.withDocument {name : String} {artifacts : Artifacts}
    (filed : artifacts.IsFiled name) {kind : DocumentKind}
    (has : (artifacts.document? kind).isSome = true) (document : Document)
    : (artifacts.withDocument kind document).IsFiled name := by
  refine ⟨?_, fun other => ?_⟩
  · cases kind <;> exact filed.named
  · rw [← filed.kinds other]
    cases kind <;> cases other <;>
      simp_all [Artifacts.withDocument, Artifacts.document?]

namespace Assembly.Holds

theorem empty : Assembly.empty.Holds [] :=
  ⟨List.nodup_nil, fun found => (nomatch found), fun _ => Iff.rfl, rfl⟩

/-- Documents of a name may be put in the place of those that there are. -/
theorem store (holds : assembly.Holds targets) (member : target ∈ targets) {artifacts : Artifacts}
    (filed : artifacts.IsFiled target) : (assembly.store artifacts).Holds targets := by
  unfold Assembly.store
  rw [filed.named]
  refine ⟨Table.nodup_names_put holds.unique _ _, ?_, ?_, holds.fixed⟩
  · intro name other found
    rw [Table.get?_put] at found
    split at found
    case isTrue same =>
      cases found
      exact same ▸ filed
    case isFalse => exact holds.filed found
  · intro name
    rw [Table.names_put, if_pos ((holds.names target).mpr member)]
    exact holds.names name

/-- The documents of a name that has some are those, and nothing is opened. -/
theorem documentsFor (holds : assembly.Holds targets) (member : target ∈ targets)
    : ∃ artifacts,
        assembly.documentsFor target = (artifacts, assembly) ∧ artifacts.IsFiled target := by
  unfold Assembly.documentsFor
  cases found : Table.get? assembly.artifacts target with
  | none => exact absurd ((holds.names target).mpr member) (Table.get?_eq_none_iff.mp found)
  | some artifacts => exact ⟨artifacts, rfl, holds.filed found⟩

/-- Documents are opened for a name that has none. -/
theorem opened (holds : assembly.Holds targets) (target : String)
    : (assembly.documentsFor target).2.Holds (targets ++ [target]) := by
  unfold Assembly.documentsFor
  cases found : Table.get? assembly.artifacts target with
  | some artifacts =>
      have known : target ∈ targets := by
        rw [← holds.names]
        exact List.mem_map.mpr ⟨_, Table.mem_of_get? found, rfl⟩
      refine ⟨holds.unique, holds.filed, fun name => ?_, holds.fixed⟩
      rw [holds.names, List.mem_append, List.mem_singleton]
      exact ⟨.inl, fun either => either.elim id fun same => same ▸ known⟩
  | none =>
      refine ⟨Table.nodup_names_put holds.unique _ _, ?_, ?_, holds.fixed⟩
      · intro name artifacts here
        rw [Table.get?_put] at here
        split at here
        case isTrue same =>
          cases here
          exact same ▸ Artifacts.isFiled_empty target
        case isFalse => exact holds.filed here
      · intro name
        rw [Table.names_put, if_neg (Table.get?_eq_none_iff.mp found), List.mem_append,
          List.mem_append, holds.names]

end Assembly.Holds

namespace Progress

/-- A change of a document of a name leaves the names as they are. -/
theorem holds_onDocument {kind : DocumentKind} {change : Document → Except Error Document}
    (holds : progress.assembly.Holds targets) (member : target ∈ targets)
    (performed : progress.onDocument target kind change = .ok next)
    : next.assembly.Holds targets := by
  obtain ⟨artifacts, found, filed⟩ := holds.documentsFor member
  unfold onDocument at performed
  rw [found] at performed
  dsimp only at performed
  split at performed
  case h_1 =>
    cases performed
    exact holds
  case h_2 document has =>
    obtain ⟨changed, -, same⟩ := bind_eq_ok.mp performed
    cases same
    exact holds.store member (filed.withDocument (has ▸ rfl) changed)

theorem holds_onReference {other : String} (holds : progress.assembly.Holds targets)
    (member : target ∈ targets) (performed : progress.onReference plan target other = .ok next)
    : next.assembly.Holds targets := by
  obtain ⟨artifacts, found, filed⟩ := holds.documentsFor member
  unfold onReference at performed
  rw [found] at performed
  obtain ⟨changed, -, same⟩ := bind_eq_ok.mp performed
  cases same
  have has : (artifacts.document? .schema).isSome = true := rfl
  exact holds.store member (filed.withDocument has changed)

/-- A contribution leaves the names as they are. -/
theorem holds_perform {contribution : Contribution} (holds : progress.assembly.Holds targets)
    (member : target ∈ targets) (performed : progress.perform plan target contribution = .ok next)
    : next.assembly.Holds targets := by
  cases contribution with
  | fragment | declaration | closing =>
      unfold perform at performed
      exact holds_onDocument holds member performed
  | reference => exact holds_onReference holds member performed
  | listed =>
      cases performed
      exact holds

/-- Contributions leave the names as they are, by induction on the steps. -/
theorem holds_performAll {steps : Steps} (holds : progress.assembly.Holds targets)
    (member : target ∈ targets)
    : (progress.performAll plan target steps).1.assembly.Holds targets := by
  induction steps generalizing progress with
  | nil => exact holds
  | cons step rest ih =>
      cases step with
      | error cause => exact holds
      | ok contribution =>
          rw [performAll]
          split
          case h_1 next performed => exact ih (holds_perform holds member performed)
          case h_2 => exact holds

/-- Types that are carried out have documents, and no other names do, by induction on the types. -/
theorem holds_performSubjects {subjects : List Subject} (holds : progress.assembly.Holds targets)
    (performed : progress.performSubjects plan subjects = (next, none))
    : next.assembly.Holds
        (targets ++ subjects.map fun subject => subject.mapping.targetName) := by
  induction subjects generalizing progress targets with
  | nil =>
      cases performed
      rwa [List.map_nil, List.append_nil]
  | cons subject rest ih =>
      have opened := holds.opened subject.mapping.targetName
      have after :=
        @holds_performAll _ _ (progress.openFor subject.mapping.targetName) plan
          (Contribution.ofSubject plan subject) opened (List.mem_append_right _ List.mem_cons_self)
      rw [performSubjects] at performed
      split at performed
      case h_1 middle finished =>
        rw [finished] at after
        have whole := ih after performed
        rwa [List.append_assoc] at whole
      case h_2 => cases performed

end Progress

end

end RubySchema
