import RubySchema.Proofs.Generation.Script
import RubySchema.Proofs.Outcome
import RubySchema.Proofs.Table

/-!
Runs side by side. Contributions that are the same but for examples in specs, and for the arguments
of listed fields, are carried out together, and come to documents that are the same but for those
examples.
-/

namespace RubySchema

/-- Tables of the same names in the same order, with values that are related name by name. -/
def Table.Matches {α β : Type} (related : α → β → Prop) (first : Table α) (second : Table β)
    : Prop :=
  List.Forall₂ (fun entry other => entry.1 = other.1 ∧ related entry.2 other.2) first second

namespace Table.Matches

variable {α β : Type} {related : α → β → Prop} {first : Table α} {second : Table β}

theorem get? (matched : first.Matches related second) (name : String)
    : Option.Rel related (Table.get? first name) (Table.get? second name) := by
  induction matched with
  | nil => exact .none
  | @cons entry other _ _ here _ ih =>
      unfold Table.get?
      rw [← here.1]
      split
      · exact .some here.2
      · exact ih

theorem put (matched : first.Matches related second) (name : String) {value : α} {other : β}
    (here : related value other)
    : (Table.put first name value).Matches related (Table.put second name other) := by
  induction matched with
  | nil => exact .cons ⟨rfl, here⟩ .nil
  | @cons entry other _ _ head tail ih =>
      unfold Table.put
      rw [← head.1]
      split
      · exact .cons ⟨rfl, here⟩ tail
      · exact .cons head ih

theorem values (matched : first.Matches related second)
    : List.Forall₂ related first.values second.values :=
  List.forall₂_map_left_iff.mpr
    (List.forall₂_map_right_iff.mpr (matched.imp fun _ _ here => here.2))

end Table.Matches

-----------------------------------------------------------------------------------------
-- What is the same but for examples
-----------------------------------------------------------------------------------------

/-- Texts of a field in a spec that have the same comment and the same describing line, each around
an example of its own.
-/
inductive Page.SameButForExamples : String → String → Prop
  | same (text : String) : SameButForExamples text text
  | shown (page : FieldPage) (query result otherQuery otherResult : String)
    : SameButForExamples (Text.indent 2 (fieldSpecText page query result))
        (Text.indent 2 (fieldSpecText page otherQuery otherResult))

theorem Page.SameButForExamples.symm {text other : String} (alike : SameButForExamples text other)
    : SameButForExamples other text := by
  cases alike with
  | same => exact .same text
  | shown page query result otherQuery otherResult => exact .shown page _ _ _ _

/-- Contributions that are the same but for the example in a spec, or for the arguments of a listed
field.
-/
inductive Contribution.SameButForExamples : Contribution → Contribution → Prop
  | same (contribution : Contribution) : SameButForExamples contribution contribution
  | shown {text other : String} (alike : Page.SameButForExamples text other)
    : SameButForExamples (.fragment .spec .fields text) (.fragment .spec .fields other)
  | listed (field : String) (arguments other : Option String)
    : SameButForExamples (.listed field arguments) (.listed field other)

/-- Documents for a purpose that are the same, but for what the examples of a spec show. -/
structure Document.SameButForExamples (kind : DocumentKind) (first second : Document) : Prop where
  owner : first.owner = second.owner
  word : first.kind = second.kind
  closed : first.isClosed = second.isClosed
  fragments
    : ∀ place, ¬(kind = .spec ∧ place = .fields) → first.fragments place = second.fragments place
  examples
    : List.Forall₂ Page.SameButForExamples (first.fragments .fields) (second.fragments .fields)

/-- Documents of one name that are the same, but for what the examples of the spec show. -/
structure Artifacts.SameButForExamples (first second : Artifacts) : Prop where
  targetName : first.targetName = second.targetName
  documents
    : ∀ kind,
        Option.Rel (Document.SameButForExamples kind) (first.document? kind) (second.document? kind)

structure Assembly.SameButForExamples (first second : Assembly) : Prop where
  artifacts : first.artifacts.Matches Artifacts.SameButForExamples second.artifacts
  fixed : first.fixed = second.fixed

/-- Progress to documents that are the same but for examples, with the same references, and with the
same fields listed.
-/
structure Progress.SameButForExamples (first second : Progress) : Prop where
  assembly : first.assembly.SameButForExamples second.assembly
  graph : first.graph = second.graph
  total : first.total = second.total
  fields : first.fieldList.names = second.fieldList.names
  notes : first.notes = second.notes

/-- Where the one step is made, the other is made and is the same but for examples. -/
def Steps.IsFollowedBy (step other : Except Error Contribution) : Prop :=
  ∀ contribution, step = .ok contribution →
    ∃ following, other = .ok following ∧ contribution.SameButForExamples following

theorem Steps.isFollowedBy_refl (step : Except Error Contribution) : IsFollowedBy step step :=
  fun contribution made => ⟨contribution, made, .same contribution⟩

def Steps.AreFollowedBy (steps others : Steps) : Prop :=
  List.Forall₂ Steps.IsFollowedBy steps others

-----------------------------------------------------------------------------------------
-- Documents
-----------------------------------------------------------------------------------------

namespace Document

variable {kind : DocumentKind} {document other : Document}

theorem SameButForExamples.refl (kind : DocumentKind) (document : Document)
    : document.SameButForExamples kind document :=
  ⟨rfl, rfl, rfl, fun _ _ => rfl, List.forall₂_same.mpr fun text _ => .same text⟩

/-- Fragments of one place that may stand in documents that are the same but for examples. -/
def FitsAlike (kind : DocumentKind) (place : Section) (text other : String) : Prop :=
  text = other ∨ (kind = .spec ∧ place = .fields) ∧ Page.SameButForExamples text other

theorem FitsAlike.alike {place : Section} {text otherText : String}
    (fits : FitsAlike kind place text otherText) : Page.SameButForExamples text otherText := by
  rcases fits with rfl | ⟨-, alike⟩
  · exact .same text
  · exact alike

/-- The same fragment is placed, or examples of one field. -/
theorem SameButForExamples.place (same : document.SameButForExamples kind other) {area : Section}
    {text otherText : String} (fits : FitsAlike kind area text otherText)
    : (document.place area text).SameButForExamples kind (other.place area otherText) := by
  refine ⟨same.owner, same.word, same.closed, ?_, ?_⟩
  · intro here apart
    rw [fragments_place, fragments_place, same.fragments here apart]
    rcases fits with rfl | ⟨⟨spec, rfl⟩, -⟩
    · rfl
    · have elsewhere : ¬Section.fields = here := fun fields => apart ⟨spec, fields.symm⟩
      rw [if_neg elsewhere, if_neg elsewhere]
  · rw [fragments_place, fragments_place]
    apply List.rel_append same.examples
    split
    · exact .cons fits.alike .nil
    · exact .nil

theorem SameButForExamples.finish (same : document.SameButForExamples kind other) (text : String)
    : (document.finish text).SameButForExamples kind (other.finish text) := by
  have placed
      : (document.place .postamble text).SameButForExamples kind (other.place .postamble text) :=
    same.place (.inl rfl)
  exact ⟨placed.owner, placed.word, rfl, placed.fragments, placed.examples⟩

theorem SameButForExamples.placeOnce (same : document.SameButForExamples kind other)
    (text : String)
    : (document.placeOnce .preamble text).SameButForExamples kind
        (other.placeOnce .preamble text) := by
  unfold Document.placeOnce
  rw [same.fragments .preamble (by simp)]
  split
  · exact same
  · exact same.place (.inl rfl)

theorem isOpen_of_add {place : Section} {text : String} {changed : Document}
    (added : document.add place text = .ok changed) : document.isClosed = false := by
  unfold add at added
  split at added
  case isTrue => cases added
  case isFalse isOpen => exact Bool.eq_false_iff.mpr isOpen

/-- Changes that are made together, and leave documents the same but for examples. -/
def ChangeAlike (kind : DocumentKind) (change otherChange : Document → Except Error Document)
    : Prop :=
  ∀ {document other changed : Document},
    document.SameButForExamples kind other → change document = .ok changed →
      ∃ following, otherChange other = .ok following ∧ changed.SameButForExamples kind following

theorem changeAlike_add {place : Section} {text otherText : String}
    (fits : FitsAlike kind place text otherText)
    : ChangeAlike kind (·.add place text) (·.add place otherText) := by
  intro document other changed same added
  have isOpen := isOpen_of_add added
  obtain rfl := Except.ok.inj ((add_of_open isOpen).symm.trans added)
  exact ⟨_, add_of_open (same.closed ▸ isOpen), same.place fits⟩

theorem changeAlike_close (text : String) : ChangeAlike kind (·.close text) (·.close text) := by
  intro document other changed same closed
  obtain ⟨_, added, -⟩ := bind_eq_ok.mp closed
  have isOpen := isOpen_of_add added
  obtain rfl := Except.ok.inj ((close_of_open isOpen).symm.trans closed)
  exact ⟨_, close_of_open (same.closed ▸ isOpen), same.finish text⟩

theorem changeAlike_declare (classified : Classified) (schemaNamespace target : String)
    : ChangeAlike kind (ForwardDeclaration.declare classified schemaNamespace · target)
        (ForwardDeclaration.declare classified schemaNamespace · target) := by
  intro document other changed same declared
  have isOpen : document.isClosed = false := by
    obtain ⟨_, added, -⟩ := bind_eq_ok.mp declared
    unfold addOnce at added
    split at added
    case isTrue => cases added
    case isFalse isOpen => exact Bool.eq_false_iff.mpr isOpen
  obtain rfl := Except.ok.inj ((ForwardDeclaration.declare_of_open isOpen).symm.trans declared)
  exact ⟨_, ForwardDeclaration.declare_of_open (same.closed ▸ isOpen), same.placeOnce _⟩

end Document

-----------------------------------------------------------------------------------------
-- Contributions
-----------------------------------------------------------------------------------------

namespace Artifacts

variable {first second : Artifacts}

theorem SameButForExamples.refl (artifacts : Artifacts)
    : artifacts.SameButForExamples artifacts := by
  refine ⟨rfl, fun kind => ?_⟩
  cases artifacts.document? kind with
  | none => exact .none
  | some document => exact .some (.refl kind document)

theorem SameButForExamples.withDocument (same : first.SameButForExamples second)
    {kind : DocumentKind} {document other : Document}
    (here : document.SameButForExamples kind other)
    : (first.withDocument kind document).SameButForExamples (second.withDocument kind other) := by
  refine ⟨?_, fun place => ?_⟩
  · cases kind <;> exact same.targetName
  · rw [document?_withDocument, document?_withDocument]
    split
    case isTrue at_ =>
      exact at_ ▸ .some here
    case isFalse => exact same.documents place

end Artifacts

namespace Assembly.SameButForExamples

variable {first second : Assembly}

theorem store (same : first.SameButForExamples second) {artifacts others : Artifacts}
    (here : artifacts.SameButForExamples others)
    : (first.store artifacts).SameButForExamples (second.store others) := by
  refine ⟨?_, same.fixed⟩
  unfold Assembly.store
  rw [← here.targetName]
  exact same.artifacts.put artifacts.targetName here

/-- The documents of a name are the same but for examples, whether they were there or are new. -/
theorem documentsFor (same : first.SameButForExamples second) (target : String)
    : (first.documentsFor target).1.SameButForExamples (second.documentsFor target).1
      ∧ (first.documentsFor target).2.SameButForExamples (second.documentsFor target).2 := by
  unfold Assembly.documentsFor
  have found := same.artifacts.get? target
  revert found
  cases Table.get? first.artifacts target <;> cases Table.get? second.artifacts target
  · intro _
    exact ⟨.refl _, same.artifacts.put target (.refl _), same.fixed⟩
  · intro impossible
    cases impossible
  · intro impossible
    cases impossible
  · rintro (here | _)
    exact ⟨here, same⟩

end Assembly.SameButForExamples

namespace Progress

variable {progress other next : Progress} {plan : Plan} {target : String}

theorem SameButForExamples.openFor (same : progress.SameButForExamples other) (target : String)
    : (progress.openFor target).SameButForExamples (other.openFor target) :=
  ⟨(same.assembly.documentsFor target).2, same.graph, same.total, same.fields, same.notes⟩

theorem onDocument_eq (progress : Progress) (target : String) (kind : DocumentKind)
    (change : Document → Except Error Document)
    : progress.onDocument target kind change
      = match (progress.assembly.documentsFor target).1.document? kind with
        | none => .ok { progress with assembly := (progress.assembly.documentsFor target).2 }
        | some document => do
            return { progress with
              assembly := (progress.assembly.documentsFor target).2.store
                ((progress.assembly.documentsFor target).1.withDocument kind (← change document)) }
    :=
  rfl

/-- Changes that are alike are made together to the documents of a kind. -/
theorem SameButForExamples.onDocument (same : progress.SameButForExamples other)
    {kind : DocumentKind} {change otherChange : Document → Except Error Document}
    (alike : Document.ChangeAlike kind change otherChange)
    (performed : progress.onDocument target kind change = .ok next)
    : ∃ following,
        other.onDocument target kind otherChange = .ok following
        ∧ next.SameButForExamples following := by
  obtain ⟨documents, assembly⟩ := same.assembly.documentsFor target
  have paired := documents.documents kind
  rw [onDocument_eq] at performed ⊢
  cases found : (progress.assembly.documentsFor target).1.document? kind with
  | none =>
      rw [found] at performed paired
      cases performed
      cases otherFound : (other.assembly.documentsFor target).1.document? kind with
      | none => exact ⟨_, rfl, assembly, same.graph, same.total, same.fields, same.notes⟩
      | some document =>
          rw [otherFound] at paired
          cases paired
  | some document =>
      rw [found] at performed paired
      obtain ⟨changed, changes, performed⟩ := bind_eq_ok.mp performed
      cases performed
      cases otherFound : (other.assembly.documentsFor target).1.document? kind with
      | none =>
          rw [otherFound] at paired
          cases paired
      | some otherDocument =>
          rw [otherFound] at paired
          cases paired with
          | some here =>
              obtain ⟨following, follows, after⟩ := alike here changes
              exact ⟨_, bind_eq_ok.mpr ⟨following, follows, rfl⟩,
                assembly.store (documents.withDocument after), same.graph, same.total,
                same.fields, same.notes⟩

theorem onReference_eq (progress : Progress) (plan : Plan) (source target : String)
    : progress.onReference plan source target
      = let documents := progress.assembly.documentsFor source
        let referred :=
          progress.graph.refer plan.classified plan.modules.schemaNamespace documents.1.schema
            source target
        let closes :=
          plan.classified.isTracked target && referred.1.closes source target
        do return { progress with
          assembly := documents.2.store (documents.1.withDocument .schema (← referred.2))
          graph := referred.1
          notes := if closes then progress.notes ++ [cycleNote source target] else progress.notes }
    :=
  rfl

/-- A reference is made from documents that are the same but for examples, with the same outcome for
the graph.
-/
theorem refer_alike (graph : DependencyGraph) (classified : Classified)
    (schemaNamespace source target : String) {document otherDocument : Document}
    (same : document.SameButForExamples .schema otherDocument)
    : (graph.refer classified schemaNamespace document source target).1
          = (graph.refer classified schemaNamespace otherDocument source target).1
      ∧ ∀ changed,
          (graph.refer classified schemaNamespace document source target).2 = .ok changed →
            ∃ following,
              (graph.refer classified schemaNamespace otherDocument source target).2
                = .ok following
              ∧ changed.SameButForExamples .schema following := by
  unfold DependencyGraph.refer
  dsimp only
  split
  · refine ⟨rfl, ?_⟩
    rintro _ ⟨⟩
    exact ⟨_, rfl, same⟩
  split
  · exact ⟨rfl, fun _ => Document.changeAlike_declare classified schemaNamespace target same⟩
  · refine ⟨rfl, ?_⟩
    rintro _ ⟨⟩
    exact ⟨_, rfl, same⟩

section
variable {otherPlan : Plan} (classified : otherPlan.classified = plan.classified)
variable (modules : otherPlan.modules = plan.modules)
include classified modules

theorem SameButForExamples.onReference (same : progress.SameButForExamples other)
    {source : String} (performed : progress.onReference plan source target = .ok next)
    : ∃ following,
        other.onReference otherPlan source target = .ok following
        ∧ next.SameButForExamples following := by
  obtain ⟨documents, assembly⟩ := same.assembly.documentsFor source
  rcases documents.documents .schema with here | _
  rw [onReference_eq] at performed ⊢
  obtain ⟨graph, alike⟩ :=
    refer_alike progress.graph plan.classified plan.modules.schemaNamespace source target here
  dsimp only at performed ⊢
  obtain ⟨changed, changes, performed⟩ := bind_eq_ok.mp performed
  cases performed
  obtain ⟨following, follows, after⟩ := alike changed changes
  rw [classified, modules, ← same.graph, ← graph, ← same.notes]
  exact ⟨_, bind_eq_ok.mpr ⟨following, follows, rfl⟩,
    assembly.store (documents.withDocument after), rfl, same.total, same.fields, rfl⟩

/-- Contributions that are the same but for examples are made together, by cases on what they are.
-/
theorem SameButForExamples.perform (same : progress.SameButForExamples other)
    {contribution following : Contribution} (alike : contribution.SameButForExamples following)
    (performed : progress.perform plan target contribution = .ok next)
    : ∃ otherNext,
        other.perform otherPlan target following = .ok otherNext
        ∧ next.SameButForExamples otherNext := by
  have listed (field : String) (arguments otherArguments : Option String)
      : (Table.put progress.fieldList field arguments).names
        = (Table.put other.fieldList field otherArguments).names := by
    rw [Table.names_put, Table.names_put, same.fields]
  cases alike with
  | same =>
      cases contribution with
      | fragment kind place text =>
          exact same.onDocument (Document.changeAlike_add (.inl rfl)) performed
      | reference target => exact same.onReference classified modules performed
      | declaration target =>
          unfold Progress.perform at performed ⊢
          rw [classified, modules]
          exact same.onDocument (Document.changeAlike_declare _ _ target) performed
      | listed field arguments =>
          cases performed
          exact ⟨_, rfl, same.assembly, same.graph, congrArg (· + 1) same.total, listed _ _ _,
            same.notes⟩
      | closing kind text => exact same.onDocument (Document.changeAlike_close text) performed
  | shown alike =>
      exact same.onDocument (Document.changeAlike_add (.inr ⟨⟨rfl, rfl⟩, alike⟩)) performed
  | listed field arguments otherArguments =>
      cases performed
      exact ⟨_, rfl, same.assembly, same.graph, congrArg (· + 1) same.total, listed _ _ _,
        same.notes⟩

-----------------------------------------------------------------------------------------
-- Runs
-----------------------------------------------------------------------------------------

/-- Steps that follow others are made where these are, by induction on the steps. -/
theorem SameButForExamples.performAll {steps others : Steps} (follow : steps.AreFollowedBy others)
    (same : progress.SameButForExamples other)
    (performed : progress.performAll plan target steps = (next, none))
    : ∃ following,
        other.performAll otherPlan target others = (following, none)
        ∧ next.SameButForExamples following := by
  induction follow generalizing progress other with
  | nil =>
      cases performed
      exact ⟨other, rfl, same⟩
  | @cons step otherStep _ _ here _ ih =>
      cases step with
      | error cause => cases performed
      | ok contribution =>
          obtain ⟨following, rfl, alike⟩ := here contribution rfl
          rw [Progress.performAll] at performed
          split at performed
          case h_1 middle made =>
            obtain ⟨otherMiddle, otherMade, after⟩ := same.perform classified modules alike made
            rw [Progress.performAll, otherMade]
            exact ih after performed
          case h_2 => cases performed

/-- Types whose steps follow those of others are carried out where these are, by induction on the
types.
-/
theorem SameButForExamples.performSubjects {subjects others : List Subject}
    (follow
      : List.Forall₂
        (fun subject other =>
          subject.mapping = other.mapping
          ∧ (Contribution.ofSubject plan subject).AreFollowedBy
            (Contribution.ofSubject otherPlan other))
        subjects others)
    (same : progress.SameButForExamples other)
    (performed : progress.performSubjects plan subjects = (next, none))
    : ∃ following,
        other.performSubjects otherPlan others = (following, none)
        ∧ next.SameButForExamples following := by
  induction follow generalizing progress other with
  | nil =>
      cases performed
      exact ⟨other, rfl, same⟩
  | @cons subject otherSubject _ _ here _ ih =>
      obtain ⟨mapping, steps⟩ := here
      rw [Progress.performSubjects] at performed
      split at performed
      case h_1 middle made =>
        obtain ⟨otherMiddle, otherMade, after⟩ :=
          (same.openFor subject.mapping.targetName).performAll classified modules steps made
        rw [Progress.performSubjects, ← mapping, otherMade]
        exact ih after performed
      case h_2 => cases performed

end

end Progress

end RubySchema
