import RubySchema.Proofs.Generation.Cycles
import RubySchema.Proofs.Graph
import RubySchema.Proofs.Registry.Tracking

/-!
References in any order. A declaration is made at once, when the second reference of a pair comes;
the pairs are told afterwards, from all references. Whatever references are made from open
documents, the graph tells exactly those to generated types, of each pair one document declares the
other type, and no document is given any other declaration, as long as no built-in type shadows a
generated one.
-/

namespace RubySchema

namespace Document

/-- A document with declarations behind its fragments. -/
def declaring (document : Document) (declarations : List String) : Document :=
  { document with
    placed := document.placed ++ declarations.map fun text => (.preamble, text) }

@[simp]
theorem declaring_nil (document : Document) : document.declaring [] = document := by
  simp [declaring]

theorem place_declaring (document : Document) (declarations : List String) (text : String)
    : (document.declaring declarations).place .preamble text
      = document.declaring (declarations ++ [text]) := by
  simp [declaring, place]

theorem preamble_declaring (document : Document) (declarations : List String)
    : (document.declaring declarations).fragments .preamble
      = document.fragments .preamble ++ declarations := by
  simp [declaring, fragments, List.filterMap_map]

/-- A declaration that a document does not have comes behind those it has been given. -/
theorem placeOnce_declaring (document : Document) (declarations : List String) (text : String)
    : (document.declaring declarations).placeOnce .preamble text
      = if text ∈ document.fragments .preamble ++ declarations then
          document.declaring declarations
        else document.declaring (declarations ++ [text]) := by
  rw [placeOnce, preamble_declaring, place_declaring]

/-- A document keeps its fragments and has the new one. -/
theorem mem_preamble_placeOnce {document : Document} {text other : String}
    : other ∈ (document.placeOnce .preamble text).fragments .preamble
      ↔ other ∈ document.fragments .preamble ∨ other = text := by
  unfold placeOnce
  split
  case isTrue known =>
    constructor
    · exact .inl
    · rintro (member | rfl)
      · exact member
      · exact known
  case isFalse => simp

end Document

/-- The references made so far, and the documents they are made from, one for each name. -/
structure Referring where
  graph : DependencyGraph
  documents : String → Document

/-- A reference counts among others when it is one of them and leads to a generated type. -/
def Classified.Counts (classified : Classified) (references : List (String × String))
    (source target : String) : Prop :=
  (source, target) ∈ references ∧ classified.Generates target

namespace Referring

/-- A reference from the document of its source. Where that fails the document stays as it is. -/
def refer (classified : Classified) (schemaNamespace : String) (state : Referring)
    (reference : String × String) : Except Error Unit × Referring :=
  let (graph, outcome) :=
    state.graph.refer classified schemaNamespace (state.documents reference.1) reference.1
      reference.2
  match outcome with
  | .ok document =>
      (.ok (), { graph, documents := Function.update state.documents reference.1 document })
  | .error cause => (.error cause, { graph, documents := state.documents })

def afterReferences (classified : Classified) (schemaNamespace : String)
    (documents : String → Document) (references : List (String × String)) : Referring :=
  references.foldl (fun state reference => (state.refer classified schemaNamespace reference).2)
    { graph := .empty, documents }

section
variable {classified : Classified} {schemaNamespace : String} {documents : String → Document}
  {references : List (String × String)} {state : Referring} {source target : String}

/-- A reference that is not tracked changes nothing. -/
theorem refer_of_untracked (untracked : classified.isTracked target = false)
    : state.refer classified schemaNamespace (source, target) = (.ok (), state) := by
  simp [refer, DependencyGraph.refer, untracked]

/-- A tracked reference is recorded; from an open document the other type is declared when the
reference closes a cycle.
-/
theorem refer_of_tracked (isOpen : (state.documents source).isClosed = false)
    (tracked : classified.isTracked target = true)
    : state.refer classified schemaNamespace (source, target)
      = (.ok (),
          {
            graph := (state.graph.record source target).2
            documents :=
              if (state.graph.record source target).1 then
                Function.update state.documents source
                  ((state.documents source).placeOnce .preamble
                    (ForwardDeclaration.text classified schemaNamespace target))
              else state.documents
          }) := by
  unfold refer DependencyGraph.refer DependencyGraph.record
  cases closes : (state.graph.insert source target).closes source target
  · simp [tracked, closes]
  · simp [tracked, closes, ForwardDeclaration.declare_of_open isOpen]

/-- What holds once references have been made from open documents. -/
structure Holds (classified : Classified) (schemaNamespace : String)
    (documents : String → Document) (references : List (String × String)) (state : Referring)
    : Prop where
  sets : state.graph.IsOfSets
  dependsOn
    : ∀ source target,
        state.graph.dependsOn source target = true ↔ classified.Counts references source target
  /-- Of two types that refer to each other one document declares the other type. -/
  covers
    : ∀ first second,
        first ≠ second
        → state.graph.dependsOn first second = true
        → state.graph.dependsOn second first = true
        → ForwardDeclaration.text classified schemaNamespace second
              ∈ (state.documents first).fragments .preamble
          ∨ ForwardDeclaration.text classified schemaNamespace first
              ∈ (state.documents second).fragments .preamble
  /-- A document has been given declarations of such types only, and none that it had. -/
  declares
    : ∀ name,
        ∃ declarations : List String,
          state.documents name = (documents name).declaring declarations
          ∧ ((documents name).fragments .preamble).Disjoint declarations
          ∧ declarations.Nodup
          ∧ ∀ text ∈ declarations,
              ∃ other,
                text = ForwardDeclaration.text classified schemaNamespace other
                ∧ name ≠ other
                ∧ state.graph.dependsOn name other = true
                ∧ state.graph.dependsOn other name = true

theorem Holds.start (classified : Classified) (schemaNamespace : String)
    (documents : String → Document)
    : Holds classified schemaNamespace documents [] { graph := .empty, documents } where
  sets := DependencyGraph.isOfSets_empty
  dependsOn source target := by
    simp [Classified.Counts, DependencyGraph.dependsOn, DependencyGraph.targetsOf,
      DependencyGraph.empty, Table.get?]
  covers first second _ forth := by
    simp [DependencyGraph.dependsOn, DependencyGraph.targetsOf, DependencyGraph.empty,
      Table.get?] at forth
  declares name := ⟨[], by simp, by simp, .nil, by simp⟩

theorem Holds.isOpen (holds : Holds classified schemaNamespace documents references state)
    (isOpen : ∀ name, (documents name).isClosed = false) (name : String)
    : (state.documents name).isClosed = false := by
  obtain ⟨declarations, same, -⟩ := holds.declares name
  rw [same]
  exact isOpen name

theorem counts_concat {first second : String}
    : classified.Counts (references ++ [(source, target)]) first second
      ↔ classified.Counts references first second
        ∨ (first = source ∧ second = target) ∧ classified.Generates target := by
  unfold Classified.Counts
  rw [List.mem_append, List.mem_singleton, Prod.mk.injEq, or_and_right]
  refine or_congr_right ?_
  constructor
  · rintro ⟨⟨rfl, rfl⟩, generates⟩
    exact ⟨⟨rfl, rfl⟩, generates⟩
  · rintro ⟨⟨rfl, rfl⟩, generates⟩
    exact ⟨⟨rfl, rfl⟩, generates⟩

theorem Holds.refer_of_not_generates
    (holds : Holds classified schemaNamespace documents references state)
    (passes : ¬classified.Generates target)
    : Holds classified schemaNamespace documents (references ++ [(source, target)]) state where
  sets := holds.sets
  dependsOn first second := by
    rw [holds.dependsOn, counts_concat]
    simp [passes]
  covers := holds.covers
  declares := holds.declares

/-- Only the document of the source can change by a reference, when it closes a cycle. -/
theorem documents_refer (isOpen : (state.documents source).isClosed = false)
    (tracked : classified.isTracked target = true) (name : String)
    : (state.refer classified schemaNamespace (source, target)).2.documents name
      = if name = source ∧ (state.graph.record source target).1 = true then
          (state.documents source).placeOnce .preamble
            (ForwardDeclaration.text classified schemaNamespace target)
        else state.documents name := by
  rw [refer_of_tracked isOpen tracked]
  dsimp only
  cases (state.graph.record source target).1
  · simp
  · simp [Function.update_apply]

/-- A declaration stays in its document, and a reference that closes a cycle adds one. -/
theorem mem_preamble_refer (isOpen : (state.documents source).isClosed = false)
    (tracked : classified.isTracked target = true) {name text : String}
    : text
          ∈ ((state.refer classified schemaNamespace (source, target)).2.documents name).fragments
            .preamble
      ↔ text ∈ (state.documents name).fragments .preamble
        ∨ (name = source ∧ (state.graph.record source target).1 = true)
          ∧ text = ForwardDeclaration.text classified schemaNamespace target := by
  rw [documents_refer isOpen tracked]
  split
  case isTrue here =>
    rw [Document.mem_preamble_placeOnce, here.1]
    simp [here.2]
  case isFalse elsewhere => simp [elsewhere]

/-- One more tracked reference. When it is the second one of a pair, it closes a cycle, and its
source declares its target.
-/
theorem Holds.refer_of_tracked
    (holds : Holds classified schemaNamespace documents references state)
    (isOpen : ∀ name, (documents name).isClosed = false)
    (tracked : classified.isTracked target = true)
    : Holds classified schemaNamespace documents (references ++ [(source, target)])
        (state.refer classified schemaNamespace (source, target)).2 := by
  have openHere := holds.isOpen isOpen source
  have graph
      : (state.refer classified schemaNamespace (source, target)).2.graph
        = state.graph.insert source target := by
    rw [Referring.refer_of_tracked openHere tracked]
    rfl
  constructor
  case sets => exact graph ▸ holds.sets.insert source target
  case dependsOn =>
    intro first second
    rw [graph, DependencyGraph.dependsOn_insert, holds.dependsOn, counts_concat]
    simp [Classified.generates_of_isTracked tracked]
  case covers =>
    intro first second different forth back
    rw [graph, DependencyGraph.dependsOn_insert] at forth back
    rw [mem_preamble_refer openHere tracked, mem_preamble_refer openHere tracked,
      DependencyGraph.record_fst_iff]
    rcases forth with forth | ⟨rfl, rfl⟩
    · rcases back with back | ⟨rfl, rfl⟩
      · exact (holds.covers first second different forth back).imp .inl .inl
      · exact .inr (.inr ⟨⟨rfl, different.symm, forth⟩, rfl⟩)
    · rcases back with back | ⟨rfl, -⟩
      · exact .inl (.inr ⟨⟨rfl, different, back⟩, rfl⟩)
      · exact absurd rfl different
  case declares =>
    intro name
    obtain ⟨declarations, same, new, nodup, partners⟩ := holds.declares name
    rw [graph, documents_refer openHere tracked]
    have still : ∀ text ∈ declarations,
        ∃ other,
          text = ForwardDeclaration.text classified schemaNamespace other
          ∧ name ≠ other
          ∧ (state.graph.insert source target).dependsOn name other = true
          ∧ (state.graph.insert source target).dependsOn other name = true := by
      intro text member
      obtain ⟨other, shown, different, forth, back⟩ := partners text member
      exact ⟨other, shown, different, DependencyGraph.dependsOn_insert.mpr (.inl forth),
        DependencyGraph.dependsOn_insert.mpr (.inl back)⟩
    split
    case isFalse => exact ⟨declarations, same, new, nodup, still⟩
    case isTrue here =>
      obtain ⟨rfl, closes⟩ := here
      rw [same, Document.placeOnce_declaring]
      split
      case isTrue => exact ⟨declarations, rfl, new, nodup, still⟩
      case isFalse absent =>
        obtain ⟨notBefore, notGiven⟩ := not_or.mp fun member => absent (List.mem_append.mpr member)
        obtain ⟨different, back⟩ := DependencyGraph.record_fst_iff.mp closes
        refine ⟨_, rfl, ?_, ?_, ?_⟩
        · rw [List.disjoint_append_right, List.disjoint_singleton]
          exact ⟨new, notBefore⟩
        · rw [← List.concat_eq_append]
          exact nodup.concat notGiven
        · intro text member
          rcases List.mem_append.mp member with given | last
          · exact still text given
          · refine ⟨target, List.mem_singleton.mp last, different, ?_, ?_⟩
            · exact DependencyGraph.dependsOn_insert.mpr (.inr ⟨rfl, rfl⟩)
            · exact DependencyGraph.dependsOn_insert.mpr (.inl back)

/-- One more reference succeeds, and what holds still holds. -/
theorem Holds.refer (unshadowed : classified.IsUnshadowed)
    (holds : Holds classified schemaNamespace documents references state)
    (isOpen : ∀ name, (documents name).isClosed = false) (reference : String × String)
    : (state.refer classified schemaNamespace reference).1 = .ok ()
      ∧ Holds classified schemaNamespace documents (references ++ [reference])
          (state.refer classified schemaNamespace reference).2 := by
  obtain ⟨source, target⟩ := reference
  cases tracked : classified.isTracked target with
  | false =>
      rw [Referring.refer_of_untracked tracked]
      refine ⟨rfl, holds.refer_of_not_generates ?_⟩
      rw [← unshadowed.isTracked_iff_generates, tracked]
      exact Bool.false_ne_true
  | true =>
      refine ⟨?_, holds.refer_of_tracked isOpen tracked⟩
      rw [Referring.refer_of_tracked (holds.isOpen isOpen source) tracked]

/-- What references have come to, by induction on them from the last one. -/
theorem holds_afterReferences (unshadowed : classified.IsUnshadowed)
    (isOpen : ∀ name, (documents name).isClosed = false)
    : Holds classified schemaNamespace documents references
        (afterReferences classified schemaNamespace documents references) := by
  induction references using List.reverseRecOn with
  | nil => exact Holds.start classified schemaNamespace documents
  | append_singleton references reference ih =>
      rw [afterReferences, List.foldl_append]
      exact (Holds.refer unshadowed ih isOpen reference).2

structure IsExact (classified : Classified) (schemaNamespace : String)
    (documents : String → Document) (references : List (String × String)) : Prop where
  succeeds
    : ∀ earlier reference later,
        references = earlier ++ reference :: later
        → ((afterReferences classified schemaNamespace documents earlier).refer classified
            schemaNamespace reference).1
          = .ok ()
  /-- A reference to a generated type is recorded, and closes a cycle if the other one has been. -/
  records
    : ∀ earlier source target later,
        references = earlier ++ (source, target) :: later
        → classified.Generates target
        → (afterReferences classified schemaNamespace documents
                (earlier ++ [(source, target)])).graph
              = ((afterReferences classified schemaNamespace documents earlier).graph.record source
                  target).2
          ∧ (((afterReferences classified schemaNamespace documents earlier).graph.record source
                target).1
                = true
              ↔ source ≠ target ∧ classified.Counts earlier target source)
  /-- Any other reference changes nothing. -/
  passes
    : ∀ earlier source target later,
        references = earlier ++ (source, target) :: later
        → ¬classified.Generates target
        → afterReferences classified schemaNamespace documents (earlier ++ [(source, target)])
          = afterReferences classified schemaNamespace documents earlier
  tells
    : (afterReferences classified schemaNamespace documents references).graph.Tells
        (classified.Counts references)
  /-- Of a pair one document declares the other type. -/
  covers
    : ∀ first second,
        (first, second)
            ∈ (afterReferences classified schemaNamespace documents references).graph.mutualPairs
        → ForwardDeclaration.text classified schemaNamespace second
              ∈ ((afterReferences classified schemaNamespace documents references).documents
                  first).fragments .preamble
          ∨ ForwardDeclaration.text classified schemaNamespace first
              ∈ ((afterReferences classified schemaNamespace documents references).documents
                  second).fragments .preamble
  /-- A document that did not declare a type does so only if they are a pair. -/
  declares
    : ∀ name target,
        classified.Generates target ∨ ' ' ∉ target.toList
        → ForwardDeclaration.text classified schemaNamespace target
            ∈ ((afterReferences classified schemaNamespace documents references).documents
                name).fragments .preamble
        → ForwardDeclaration.text classified schemaNamespace target
            ∉ (documents name).fragments .preamble
        → DependencyGraph.sortPair name target
            ∈ (afterReferences classified schemaNamespace documents references).graph.mutualPairs
  /-- A document gets declarations, each once, and nothing else. -/
  once
    : ∀ name,
        ∃ declarations : List String,
          (afterReferences classified schemaNamespace documents references).documents name
              = (documents name).declaring declarations
          ∧ ((documents name).fragments .preamble).Disjoint declarations
          ∧ declarations.Nodup

/-- References in a registry whose generated names have no blanks. -/
theorem isExact_of_free (unshadowed : classified.IsUnshadowed)
    (isOpen : ∀ name, (documents name).isClosed = false)
    (free : ∀ target, classified.Generates target → ' ' ∉ target.toList)
    (references : List (String × String))
    : IsExact classified schemaNamespace documents references := by
  have held (made : List (String × String))
      : Holds classified schemaNamespace documents made
          (afterReferences classified schemaNamespace documents made) :=
    holds_afterReferences unshadowed isOpen
  have holds := held references
  constructor
  case succeeds =>
    exact fun earlier reference _ _ => ((held earlier).refer unshadowed isOpen reference).1
  case records =>
    intro earlier source target _ _ generates
    have tracked := unshadowed.isTracked_iff_generates.mpr generates
    refine ⟨?_, ?_⟩
    · rw [afterReferences, List.foldl_append]
      exact congrArg (fun result => result.2.graph)
        (refer_of_tracked ((held earlier).isOpen isOpen source) tracked)
    · rw [DependencyGraph.record_fst_iff, (held earlier).dependsOn]
  case passes =>
    intro earlier source target _ _ other
    rw [← unshadowed.isTracked_iff_generates, Bool.not_eq_true] at other
    rw [afterReferences, List.foldl_append]
    exact congrArg Prod.snd (refer_of_untracked other)
  case tells => exact holds.sets.tells.congr holds.dependsOn
  case covers =>
    intro first second pair
    obtain ⟨lt, forth, back⟩ := (holds.sets.tells.mutualPairs first second).mp pair
    exact holds.covers first second lt.2 forth back
  case declares =>
    intro name target usual member absent
    obtain ⟨declarations, same, -, -, partners⟩ := holds.declares name
    rw [same, Document.preamble_declaring, List.mem_append] at member
    obtain ⟨other, shown, different, forth, back⟩ := partners _ (member.resolve_left absent)
    have generates := ((holds.dependsOn name other).mp forth).2
    have targetFree : ' ' ∉ target.toList := usual.elim (free target) id
    obtain rfl := ForwardDeclaration.text_injective targetFree (free other generates) shown
    rw [DependencyGraph.mem_mutualPairs_iff holds.sets.sources]
    exact ⟨different, forth, back⟩
  case once =>
    intro name
    obtain ⟨declarations, same, new, nodup, -⟩ := holds.declares name
    exact ⟨declarations, same, new, nodup⟩

end

/-- References among the types of a registry, however its names have been registered: they are told
exactly, as long as the names of generated types are usual ones, and no built-in type stands behind
a generated type of the same generated name.
-/
theorem isExact_of_calls {builtinNamespace : String} {baseOverrides : Table String}
    {calls : List Registry.Call} {classified : Classified}
    (made
      : classified = ((Registry.empty builtinNamespace baseOverrides).afterCalls calls).finalize)
    (usual
      : ∀ entry ∈ classified.mappings,
          entry.2.isBuiltin = false → TypeName.IsGraphQL entry.1)
    (unshadowed : classified.IsUnshadowed) {documents : String → Document}
    (isOpen : ∀ name, (documents name).isClosed = false) (schemaNamespace : String)
    (references : List (String × String))
    : IsExact classified schemaNamespace documents references := by
  refine isExact_of_free unshadowed isOpen (fun target generates => ?_) references
  obtain ⟨entry, member, own, rfl⟩ := generates
  have graphQL := usual entry member own
  rw [made] at member
  obtain ⟨registry, type, same⟩ := Registry.exists_place_of_calls member own
  rw [same]
  exact Registry.place_free registry (Job.isGraphQL_free graphQL)

def twoCalls : List Registry.Call :=
  [
    .registerBuiltin "ID",
    .classify (Job.plainType "A" .object []),
    .classify (Job.plainType "B" .interface [])
  ]

def twoTypes : Classified :=
  ((Registry.empty "::GraphQL::Types" []).afterCalls twoCalls).finalize

def references : List (String × String) :=
  [
    ("Types::A", "Interfaces::B"), ("Types::A", "Types::A"), ("Types::A", "::GraphQL::Types::ID"),
    ("Interfaces::B", "Types::A"), ("Interfaces::B", "Types::A")
  ]

/-- The second of two types declares the first one, once. -/
theorem isExact_of_two_types
    : (∀ entry ∈ twoTypes.mappings,
          entry.2.isBuiltin = false → TypeName.IsGraphQL entry.1)
      ∧ twoTypes.IsUnshadowed
      ∧ (∀ name, (Document.empty name .schema).isClosed = false)
      ∧ IsExact twoTypes "M::Schema" (fun name => Document.empty name .schema) references
      ∧ ∃ state,
          state
            = afterReferences twoTypes "M::Schema" (fun name => Document.empty name .schema)
              references
          ∧ state.graph.dependsOn "Types::A" "Interfaces::B" = true
          ∧ state.graph.dependsOn "Interfaces::B" "Types::A" = true
          ∧ (state.documents "Types::A").fragments .preamble = []
          ∧ (state.documents "Interfaces::B").fragments .preamble
            = ["class M::Schema::Types::A < M::Schema::Types::BaseObject; end\n"] := by
  have usual
      : ∀ entry ∈ twoTypes.mappings,
          entry.2.isBuiltin = false → TypeName.IsGraphQL entry.1 := by
    decide +kernel
  have first : Registry.BuiltinsFirst twoCalls :=
    ⟨["ID"], [Job.plainType "A" .object [], Job.plainType "B" .interface []], rfl⟩
  have unshadowed : twoTypes.IsUnshadowed := first.isUnshadowed
  refine ⟨usual, unshadowed, fun _ => rfl,
    isExact_of_calls rfl usual unshadowed (fun _ => rfl) "M::Schema" references, _, rfl, ?_⟩
  decide +kernel

/-- A registry in which a built-in type has been registered behind a type of its generated name. -/
def shadowed : Classified :=
  ((Registry.empty "Inputs" []).afterCalls
    [
      .classify (Job.plainType "A" .object []),
      .classify (Job.plainType "IDInput" .inputObject []),
      .registerBuiltin "ID"
    ]).finalize

/-- A reference to a shadowed type is lost, and a declaration that a document held before is still
there when its type does not refer back.
-/
theorem loses_reference_of_shadowed
    : (¬∀ (builtinNamespace : String) (calls : List Registry.Call) (classified : Classified)
          (documents : String → Document) (references : List (String × String)),
        classified = ((Registry.empty builtinNamespace []).afterCalls calls).finalize
        → (∀ entry ∈ classified.mappings, TypeName.IsGraphQL entry.1)
        → (∀ name, (documents name).isClosed = false)
        → ∀ source target,
            (afterReferences classified "M::Schema" documents references).graph.dependsOn source
                  target
                = true
              ↔ classified.Counts references source target)
      ∧ ¬∀ (builtinNamespace : String) (calls : List Registry.Call) (classified : Classified)
            (documents : String → Document) (references : List (String × String)),
          classified = ((Registry.empty builtinNamespace []).afterCalls calls).finalize
          → (∀ entry ∈ classified.mappings, TypeName.IsGraphQL entry.1)
          → (∀ name, (documents name).isClosed = false)
          → ∀ source target,
              classified.Generates target
              → ForwardDeclaration.text classified "M::Schema" target
                ∈ ((afterReferences classified "M::Schema" documents references).documents
                    source).fragments .preamble
              → (afterReferences classified "M::Schema" documents references).graph.dependsOn target
                  source
                = true := by
  constructor
  · intro claim
    have recorded := (claim "Inputs" _ shadowed (fun name => Document.empty name .schema)
      [("Types::A", "Inputs::ID")] rfl (by decide +kernel) (fun _ => rfl) "Types::A"
      "Inputs::ID").mpr ⟨by decide, by unfold Classified.Generates; decide +kernel⟩
    revert recorded
    decide +kernel
  · intro claim
    let declared := ForwardDeclaration.text twoTypes "M::Schema" "Interfaces::B"
    have back := claim _ twoCalls twoTypes
      (fun name => (Document.empty name .schema).declaring [declared])
      [("Types::A", "Interfaces::B")] rfl (by decide +kernel) (fun _ => rfl) "Types::A"
      "Interfaces::B" (by unfold Classified.Generates; decide +kernel) (by decide +kernel)
    revert back
    decide +kernel

end Referring

end RubySchema
