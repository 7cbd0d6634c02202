import RubySchema.Generation.Build
import RubySchema.Proofs.Dependency

/-!
What contributions come to when they are carried out. A document receives its fragments one after
another; which names it declares is decided by the references made before its type was begun.
-/

namespace RubySchema

-----------------------------------------------------------------------------------------
-- Documents that receive contributions
-----------------------------------------------------------------------------------------

namespace Document

/-- A document with one more fragment, whether it is open or not. -/
def place (document : Document) (place : Section) (fragment : String) : Document :=
  { document with placed := document.placed ++ [(place, fragment)] }

def placeOnce (document : Document) (place : Section) (fragment : String) : Document :=
  if fragment ∈ document.fragments place then document else document.place place fragment

def finish (document : Document) (fragment : String) : Document :=
  { document.place .postamble fragment with isClosed := true }

variable {document : Document} {place other : Section} {fragment : String}

theorem add_of_open (isOpen : document.isClosed = false)
    : document.add place fragment = .ok (document.place place fragment) := by
  simp [add, isOpen, Document.place]

theorem close_of_open (isOpen : document.isClosed = false)
    : document.close fragment = .ok (document.finish fragment) := by
  rw [close, add_of_open isOpen]
  rfl

@[simp]
theorem fragments_place
    : (document.place place fragment).fragments other
      = document.fragments other ++ (if place = other then [fragment] else []) := by
  by_cases same : place = other <;> simp [Document.place, fragments, same]

theorem isClosed_placeOnce
    : (document.placeOnce place fragment).isClosed = document.isClosed := by
  unfold placeOnce
  split <;> rfl

end Document

namespace ForwardDeclaration

/-- An open document takes a declaration that it does not have. -/
theorem declare_of_open {classified : Classified} {schemaNamespace target : String}
    {document : Document} (isOpen : document.isClosed = false)
    : declare classified schemaNamespace document target
      = .ok (document.placeOnce .preamble (text classified schemaNamespace target)) := by
  unfold declare Document.addOnce Document.placeOnce
  simp only [isOpen, Bool.false_eq_true, if_false]
  split
  · rfl
  · rw [Document.add_of_open isOpen]
    rfl

end ForwardDeclaration

namespace Contribution

/-- The name that a contribution refers to, if the reference counts. -/
def tracked? (plan : Plan) : Contribution → Option String
  | .reference target => if plan.classified.isTracked target then some target else none
  | _ => none

/-- The name that a contribution declares: that of a union's member, or of a type that already
refers back.
-/
def declared? (plan : Plan) (graph : DependencyGraph) (source : String)
    : Contribution → Option String
  | .reference target =>
      if plan.classified.isTracked target && graph.closes source target then some target else none
  | .declaration target => some target
  | _ => none

def placed? (kind : DocumentKind) (place : Section) : Contribution → Option String
  | .fragment own other text => if own = kind ∧ other = place then some text else none
  | .closing own text => if own = kind ∧ .postamble = place then some text else none
  | _ => none

/-- What places a text in a document is a fragment of it, or ends it. -/
theorem placed?_eq_some {contribution : Contribution} {kind : DocumentKind} {place : Section}
    {text : String} (placed : contribution.placed? kind place = some text)
    : contribution = .fragment kind place text
      ∨ contribution = .closing kind text ∧ place = .postamble := by
  cases contribution with
  | fragment own other shown =>
      simp only [placed?, Option.ite_none_right_eq_some, Option.some.injEq] at placed
      obtain ⟨⟨rfl, rfl⟩, rfl⟩ := placed
      exact .inl rfl
  | closing own shown =>
      simp only [placed?, Option.ite_none_right_eq_some, Option.some.injEq] at placed
      obtain ⟨⟨rfl, rfl⟩, rfl⟩ := placed
      exact .inr ⟨rfl, rfl⟩
  | reference | declaration | listed => cases placed

def listed? : Contribution → Option (String × Option String)
  | .listed field arguments => some (field, arguments)
  | _ => none

/-- A contribution can be made when some documents have been closed. -/
def IsAccepted (closed : List DocumentKind) : Contribution → Prop
  | .fragment kind _ _ => kind ∉ closed
  | .reference _ => .schema ∉ closed
  | .declaration _ => .schema ∉ closed
  | .listed _ _ => True
  | .closing kind _ => kind ∉ closed

def closedAfter (closed : List DocumentKind) : Contribution → List DocumentKind
  | .closing kind _ => kind :: closed
  | _ => closed

/-- Contributions in an order in which none comes to a document that has been closed. -/
def Orderly : List DocumentKind → List Contribution → Prop
  | _, [] => True
  | closed, contribution :: rest =>
      contribution.IsAccepted closed ∧ Orderly (contribution.closedAfter closed) rest

end Contribution

def Plan.declaration (plan : Plan) (target : String) : String :=
  ForwardDeclaration.text plan.classified plan.modules.schemaNamespace target

def DependencyGraph.receive (plan : Plan) (source : String) (graph : DependencyGraph)
    (contribution : Contribution) : DependencyGraph :=
  match contribution.tracked? plan with
  | some target => graph.insert source target
  | none => graph

def Document.receive (plan : Plan) (graph : DependencyGraph) (source : String)
    (document : Document) (contribution : Contribution) : Document :=
  match contribution with
  | .fragment kind place text =>
      if kind = document.kind then document.place place text else document
  | .closing kind text => if kind = document.kind then document.finish text else document
  | other =>
      match document.kind, other.declared? plan graph source with
      | .schema, some target => document.placeOnce .preamble (plan.declaration target)
      | _, _ => document

def Artifacts.receive (plan : Plan) (graph : DependencyGraph) (artifacts : Artifacts)
    (contribution : Contribution) : Artifacts :=
  let after (document : Document) : Document :=
    document.receive plan graph artifacts.targetName contribution
  {
    artifacts with
    schema := after artifacts.schema
    implementation := artifacts.implementation.map after
    spec := artifacts.spec.map after
  }

def listAfter (fieldList : Table (Option String)) (contribution : Contribution)
    : Table (Option String) :=
  match contribution.listed? with
  | some entry => Table.put fieldList entry.1 entry.2
  | none => fieldList

-----------------------------------------------------------------------------------------
-- One contribution
-----------------------------------------------------------------------------------------

/-- The documents of a name, each of its kind and all open but those that have been closed. -/
structure Artifacts.Ready (artifacts : Artifacts) (target : String) (closed : List DocumentKind)
    : Prop where
  named : artifacts.targetName = target
  ofKind : ∀ {kind document}, artifacts.document? kind = some document → document.kind = kind
  isOpen
    : ∀ {kind document},
        artifacts.document? kind = some document → kind ∉ closed → document.isClosed = false

/-- What a run has come to by contributions of one type, which was begun at the given graph. -/
structure Progress.Received (plan : Plan) (target : String) (graph : DependencyGraph)
    (contributions : List Contribution) (before after : Progress) : Prop where
  documents
    : ∀ {artifacts},
        Table.get? before.assembly.artifacts target = some artifacts
        → after.assembly.artifacts
          = Table.put before.assembly.artifacts target
            (contributions.foldl (Artifacts.receive plan graph) artifacts)
  fixed : after.assembly.fixed = before.assembly.fixed
  graph : after.graph = contributions.foldl (DependencyGraph.receive plan target) before.graph
  total : after.total = before.total + (contributions.filterMap Contribution.listed?).length
  fieldList : after.fieldList = contributions.foldl listAfter before.fieldList

section
variable {plan : Plan} {target : String} {graph : DependencyGraph} {contribution : Contribution}
variable {artifacts : Artifacts} {closed : List DocumentKind} {progress : Progress}

theorem Artifacts.document?_receive (artifacts : Artifacts) (kind : DocumentKind)
    : (artifacts.receive plan graph contribution).document? kind
      = (artifacts.document? kind).map fun document =>
        document.receive plan graph artifacts.targetName contribution := by
  cases kind <;> rfl

theorem Document.kind_receive (document : Document) (source : String)
    : (document.receive plan graph source contribution).kind = document.kind := by
  unfold Document.receive
  split
  · split <;> rfl
  · split <;> rfl
  · split
    · unfold Document.placeOnce
      split <;> rfl
    · rfl

/-- Documents of one name are the same when they are for every kind. -/
theorem Artifacts.eq_of_document? {first second : Artifacts}
    (named : first.targetName = second.targetName)
    (same : ∀ kind, first.document? kind = second.document? kind) : first = second := by
  have schema := Option.some.inj (same .schema)
  have implementation := same .implementation
  have spec := same .spec
  cases first
  cases second
  simp only [Artifacts.document?] at named schema implementation spec
  rw [named, schema, implementation, spec]

theorem Artifacts.document?_withDocument (artifacts : Artifacts) (kind other : DocumentKind)
    (document : Document)
    : (artifacts.withDocument kind document).document? other
      = if kind = other then some document else artifacts.document? other := by
  cases kind <;> cases other <;> rfl

/-- A contribution that changes one document of a type puts it in the place of the old one. -/
theorem Artifacts.receive_eq_withDocument {kind : DocumentKind} {document : Document}
    (found : artifacts.document? kind = some document)
    (others
      : ∀ {other unchanged},
          artifacts.document? other = some unchanged
          → other ≠ kind
          → unchanged.receive plan graph artifacts.targetName contribution = unchanged)
    : artifacts.receive plan graph contribution
      = artifacts.withDocument kind
        (document.receive plan graph artifacts.targetName contribution) := by
  apply Artifacts.eq_of_document?
  · cases kind <;> rfl
  intro other
  rw [Artifacts.document?_receive, Artifacts.document?_withDocument]
  by_cases same : kind = other
  · subst same
    rw [found, if_pos rfl, Option.map_some]
  · rw [if_neg same]
    cases place : artifacts.document? other with
    | none => rfl
    | some unchanged => exact congrArg some (others place (Ne.symm same))

theorem Artifacts.receive_eq_self
    (others
      : ∀ {other unchanged},
          artifacts.document? other = some unchanged
          → unchanged.receive plan graph artifacts.targetName contribution = unchanged)
    : artifacts.receive plan graph contribution = artifacts := by
  apply Artifacts.eq_of_document?
  · rfl
  intro other
  rw [Artifacts.document?_receive]
  cases place : artifacts.document? other with
  | none => rfl
  | some unchanged => exact congrArg some (others place)

theorem Progress.onDocument_of_get?
    (here : Table.get? progress.assembly.artifacts target = some artifacts)
    (named : artifacts.targetName = target) (kind : DocumentKind)
    (change : Document → Except Error Document)
    : progress.onDocument target kind change
      = match artifacts.document? kind with
        | none => .ok progress
        | some document => do
            let changed ← change document
            return { progress with
              assembly := { progress.assembly with
                artifacts := Table.put progress.assembly.artifacts target
                  (artifacts.withDocument kind changed) } } := by
  have sameName (document : Document)
      : (artifacts.withDocument kind document).targetName = target := by
    cases kind <;> exact named
  unfold Progress.onDocument Assembly.documentsFor
  rw [here]
  dsimp only
  cases artifacts.document? kind with
  | none => rfl
  | some document =>
      simp only [Assembly.store, sameName]

/-- A contribution that only changes documents leaves all else as it was. -/
theorem Progress.Received.of_documents {changed : Artifacts}
    (here : Table.get? progress.assembly.artifacts target = some artifacts)
    (received : artifacts.receive plan graph contribution = changed)
    (untracked : contribution.tracked? plan = none) (unlisted : contribution.listed? = none)
    : Progress.Received plan target graph [contribution] progress
        { progress with
          assembly := { progress.assembly with
            artifacts := Table.put progress.assembly.artifacts target changed } } := by
  refine ⟨?_, rfl, ?_, ?_, ?_⟩
  · intro found same
    obtain rfl : artifacts = found := Option.some.inj (here.symm.trans same)
    rw [List.foldl_cons, received, List.foldl_nil]
  · simp [DependencyGraph.receive, untracked]
  · simp [unlisted]
  · simp [listAfter, unlisted]

/-- A change of one document that the contribution makes to it alone is that contribution. -/
theorem Progress.onDocument_received {kind : DocumentKind}
    {change : Document → Except Error Document}
    (here : Table.get? progress.assembly.artifacts target = some artifacts)
    (ready : artifacts.Ready target closed) (notClosed : kind ∉ closed)
    (changes
      : ∀ {document : Document},
          document.kind = kind
          → document.isClosed = false
          → change document = .ok (document.receive plan graph target contribution))
    (others
      : ∀ {document : Document},
          document.kind ≠ kind → document.receive plan graph target contribution = document)
    (untracked : contribution.tracked? plan = none) (unlisted : contribution.listed? = none)
    : ∃ next,
        progress.onDocument target kind change = .ok next
        ∧ Progress.Received plan target graph [contribution] progress next := by
  have unchanged {other : DocumentKind} {document : Document}
      (found : artifacts.document? other = some document) (different : other ≠ kind)
      : document.receive plan graph artifacts.targetName contribution = document := by
    rw [ready.named]
    exact others (ready.ofKind found ▸ different)
  rw [Progress.onDocument_of_get? here ready.named]
  cases found : artifacts.document? kind with
  | none =>
      have received : artifacts.receive plan graph contribution = artifacts := by
        apply Artifacts.receive_eq_self
        intro other document place
        have different : other ≠ kind := by
          rintro rfl
          cases found.symm.trans place
        exact unchanged place different
      refine ⟨progress, rfl, ?_⟩
      have same := Progress.Received.of_documents here received untracked unlisted
      rwa [Table.put_of_get? here] at same
  | some document =>
      dsimp only
      rw [changes (ready.ofKind found) (ready.isOpen found notClosed)]
      refine ⟨_, rfl, ?_⟩
      apply Progress.Received.of_documents here _ untracked unlisted
      rw [Artifacts.receive_eq_withDocument found unchanged, ready.named]

/-- Whether a reference from a type closes a cycle was decided when the type was begun. -/
theorem DependencyGraph.closes_insert {current : DependencyGraph} {other : String}
    (begun : ∀ name, name ≠ target → current.targetsOf name = graph.targetsOf name)
    : (current.insert target other).closes target other = graph.closes target other := by
  by_cases same : target = other
  · simp [DependencyGraph.closes, same]
  · simp [DependencyGraph.closes, DependencyGraph.dependsOn, DependencyGraph.targetsOf_insert, same,
      begun other (Ne.symm same)]

/-- A reference from an open schema document extends the graph and the document. -/
theorem DependencyGraph.refer_received {current : DependencyGraph} {document : Document}
    {other : String} (ofKind : document.kind = .schema) (isOpen : document.isClosed = false)
    (begun : ∀ name, name ≠ target → current.targetsOf name = graph.targetsOf name)
    : current.refer plan.classified plan.modules.schemaNamespace document target other
      = (current.receive plan target (.reference other),
        .ok (document.receive plan graph target (.reference other))) := by
  unfold DependencyGraph.refer
  cases tracked : plan.classified.isTracked other with
  | false =>
      simp [DependencyGraph.receive, Document.receive, Contribution.tracked?,
        Contribution.declared?, tracked]
  | true =>
      simp only [DependencyGraph.closes_insert begun, ForwardDeclaration.declare_of_open isOpen]
      cases closes : graph.closes target other with
      | false =>
          simp [DependencyGraph.receive, Document.receive, Contribution.tracked?,
            Contribution.declared?, tracked, closes]
      | true =>
          simp [DependencyGraph.receive, Document.receive, Contribution.tracked?,
            Contribution.declared?, tracked, closes, ofKind, Plan.declaration]

/-- A reference from an open schema document is made, with a declaration if it closes a cycle. -/
theorem Progress.onReference_received {other : String}
    (here : Table.get? progress.assembly.artifacts target = some artifacts)
    (ready : artifacts.Ready target closed) (accepted : DocumentKind.schema ∉ closed)
    (begun : ∀ name, name ≠ target → progress.graph.targetsOf name = graph.targetsOf name)
    : ∃ next,
        progress.onReference plan target other = .ok next
        ∧ Progress.Received plan target graph [.reference other] progress next := by
  have found : artifacts.document? .schema = some artifacts.schema := rfl
  have isOpen := ready.isOpen found accepted
  have received : artifacts.receive plan graph (.reference other)
      = artifacts.withDocument .schema
        (artifacts.schema.receive plan graph target (.reference other)) := by
    rw [Artifacts.receive_eq_withDocument found, ready.named]
    intro kind document place different
    simp [Document.receive, ready.ofKind place, different]
  have stored (document : Document)
      : progress.assembly.store { artifacts with schema := document }
        = { progress.assembly with
            artifacts := Table.put progress.assembly.artifacts target
              (artifacts.withDocument .schema document) } := by
    rw [← ready.named]
    rfl
  unfold Progress.onReference Assembly.documentsFor
  rw [here]
  dsimp only
  rw [DependencyGraph.refer_received (ready.ofKind found) isOpen begun]
  refine ⟨_, rfl, ?_, rfl, rfl, rfl, rfl⟩
  intro again known
  obtain rfl : artifacts = again := Option.some.inj (here.symm.trans known)
  rw [List.foldl_cons, List.foldl_nil, received, stored]

/-- A contribution that can be made to the documents of a name is made: whichever it is, the one
document that it changes is open.
-/
theorem Progress.perform_received
    (here : Table.get? progress.assembly.artifacts target = some artifacts)
    (ready : artifacts.Ready target closed) (accepted : contribution.IsAccepted closed)
    (begun : ∀ other, other ≠ target → progress.graph.targetsOf other = graph.targetsOf other)
    : ∃ next,
        progress.perform plan target contribution = .ok next
        ∧ Progress.Received plan target graph [contribution] progress next := by
  cases contribution with
  | fragment kind place text =>
      rw [Progress.perform]
      apply Progress.onDocument_received here ready accepted
      · intro document ofKind isOpen
        rw [Document.add_of_open isOpen]
        simp [Document.receive, ofKind]
      · intro document different
        simp [Document.receive, Ne.symm different]
      · rfl
      · rfl
  | reference other => exact Progress.onReference_received here ready accepted begun
  | declaration other =>
      rw [Progress.perform]
      apply Progress.onDocument_received here ready accepted
      · intro document ofKind isOpen
        rw [ForwardDeclaration.declare_of_open isOpen]
        simp [Document.receive, ofKind, Contribution.declared?, Plan.declaration]
      · intro document different
        simp [Document.receive, different]
      · rfl
      · rfl
  | listed field arguments =>
      -- an entry of the list of fields changes no document
      have received
          : artifacts.receive plan graph (.listed field arguments) = artifacts := by
        apply Artifacts.receive_eq_self
        intro other document _
        simp [Document.receive, Contribution.declared?]
      refine ⟨_, rfl, ?_, rfl, rfl, rfl, rfl⟩
      intro found same
      obtain rfl : artifacts = found := Option.some.inj (here.symm.trans same)
      rw [List.foldl_cons, received, List.foldl_nil, Table.put_of_get? here]
  | closing kind text =>
      rw [Progress.perform]
      apply Progress.onDocument_received here ready accepted
      · intro document ofKind isOpen
        rw [Document.close_of_open isOpen]
        simp [Document.receive, ofKind]
      · intro document different
        simp [Document.receive, Ne.symm different]
      · rfl
      · rfl

-----------------------------------------------------------------------------------------
-- All contributions of a type
-----------------------------------------------------------------------------------------

/-- A document is closed by a contribution only if that closes documents of its kind. -/
theorem Document.isClosed_receive {document : Document} {source : String}
    (notClosing : ∀ text, contribution ≠ .closing document.kind text)
    : (document.receive plan graph source contribution).isClosed = document.isClosed := by
  cases contribution with
  | fragment own place text =>
      simp only [Document.receive]
      split <;> rfl
  | closing own text =>
      have different : own ≠ document.kind := by
        rintro rfl
        exact notClosing text rfl
      simp only [Document.receive, if_neg different]
  | reference other | declaration other | listed field arguments =>
      simp only [Document.receive]
      split
      · exact Document.isClosed_placeOnce
      · rfl

/-- Documents that can take a contribution are in their kinds and open as they were after it. -/
theorem Artifacts.Ready.receive (ready : artifacts.Ready target closed)
    : (artifacts.receive plan graph contribution).Ready target
        (contribution.closedAfter closed) := by
  refine ⟨ready.named, ?_, ?_⟩
  · intro kind document found
    rw [Artifacts.document?_receive] at found
    obtain ⟨earlier, known, rfl⟩ := Option.map_eq_some_iff.mp found
    rw [Document.kind_receive, ready.ofKind known]
  · intro kind document found notClosed
    rw [Artifacts.document?_receive] at found
    obtain ⟨earlier, known, rfl⟩ := Option.map_eq_some_iff.mp found
    have notClosing (text : String) : contribution ≠ .closing earlier.kind text := by
      rintro rfl
      exact notClosed (ready.ofKind known ▸ List.mem_cons_self)
    have stillNot : kind ∉ closed := by
      cases contribution with
      | closing own text => exact fun member => notClosed (List.mem_cons_of_mem own member)
      | fragment | reference | declaration | listed => exact notClosed
    rw [Document.isClosed_receive notClosing, ready.isOpen known stillNot]

theorem Progress.Received.append {first second : List Contribution}
    {before middle after : Progress}
    (earlier : Progress.Received plan target graph first before middle)
    (later : Progress.Received plan target graph second middle after)
    : Progress.Received plan target graph (first ++ second) before after := by
  refine ⟨?_, later.fixed.trans earlier.fixed, ?_, ?_, ?_⟩
  · intro found known
    have stored := earlier.documents known
    have next : Table.get? middle.assembly.artifacts target
        = some (first.foldl (Artifacts.receive plan graph) found) := by
      rw [stored, Table.get?_put, if_pos rfl]
    rw [later.documents next, stored, Table.put_put, List.foldl_append]
  · rw [later.graph, earlier.graph, List.foldl_append]
  · rw [later.total, earlier.total, List.filterMap_append, List.length_append, Nat.add_assoc]
  · rw [later.fieldList, earlier.fieldList, List.foldl_append]

/-- Contributions in an orderly list are all made, by induction on the list. -/
theorem Progress.performAll_received {contributions : List Contribution}
    (here : Table.get? progress.assembly.artifacts target = some artifacts)
    (ready : artifacts.Ready target closed)
    (orderly : Contribution.Orderly closed contributions)
    (begun : ∀ other, other ≠ target → progress.graph.targetsOf other = graph.targetsOf other)
    : ∃ next,
        progress.performAll plan target (contributions.map .ok) = (next, none)
        ∧ Progress.Received plan target graph contributions progress next := by
  induction contributions generalizing progress artifacts closed with
  | nil =>
      refine ⟨progress, rfl, ?_, rfl, rfl, rfl, rfl⟩
      intro found known
      exact (Table.put_of_get? known).symm
  | cons contribution rest ih =>
      obtain ⟨accepted, orderly⟩ := orderly
      obtain ⟨middle, performed, received⟩
          : ∃ middle,
              progress.perform plan target contribution = .ok middle
              ∧ Progress.Received plan target graph [contribution] progress middle :=
        Progress.perform_received here ready accepted begun
      have next : Table.get? middle.assembly.artifacts target
          = some (artifacts.receive plan graph contribution) := by
        rw [received.documents here, Table.get?_put, if_pos rfl]
        rfl
      have stillBegun
          : ∀ other, other ≠ target → middle.graph.targetsOf other = graph.targetsOf other := by
        intro other different
        rw [received.graph, List.foldl_cons, List.foldl_nil]
        unfold DependencyGraph.receive
        split
        · rw [DependencyGraph.targetsOf_insert, if_neg (Ne.symm different), begun other different]
        · exact begun other different
      obtain ⟨last, finished, more⟩ := ih next ready.receive orderly stillBegun
      refine ⟨last, ?_, received.append more⟩
      rw [List.map_cons, Progress.performAll, performed]
      exact finished

end

end RubySchema
