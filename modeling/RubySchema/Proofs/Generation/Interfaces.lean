import RubySchema.Proofs.Generation.Coherence

/-!
Every interface of a type has its line in the schema document or is that of its base class, but for
that of nodes where another base class was chosen. The interface of nodes is left to the base class;
whether the base class is the one of nodes is decided elsewhere, by the settings, the category and
the kind of the type.
-/

namespace RubySchema

open Text

-----------------------------------------------------------------------------------------
-- What steps place
-----------------------------------------------------------------------------------------

namespace Steps

def placed (kind : DocumentKind) (place : Section) (steps : Steps) : List String :=
  (steps.filterMap Except.toOption).filterMap (Contribution.placed? kind place)

variable {kind own : DocumentKind} {place other : Section} {first second : Steps}
  {subject : Subject}

@[simp]
theorem placed_nil : placed kind place [] = [] :=
  rfl

@[simp]
theorem placed_append
    : placed kind place (first ++ second)
      = placed kind place first ++ placed kind place second := by
  unfold placed
  rw [List.filterMap_append, List.filterMap_append]

/-- A fragment of a document that the type has is placed in its section there. -/
theorem placed_fragment (has : subject.hasDocument own = true) (text : String)
    : placed kind place (subject.fragment own other (.ok text))
      = if own = kind ∧ other = place then [text] else [] := by
  rw [Subject.fragment, if_pos has]
  by_cases here : own = kind ∧ other = place <;>
    simp [here, placed, Except.map, Except.toOption, Contribution.placed?]

/-- A fragment of a schema document is placed in its section. -/
theorem placed_fragment_schema (text : String)
    : placed .schema place (subject.fragment .schema other (.ok text))
      = if other = place then [text] else [] := by
  simp [placed_fragment subject.hasDocument_schema]

/-- Steps place nothing where none of them places anything. -/
theorem All.placed_eq_nil (nowhere : All (fun made => made.placed? kind place = none) first)
    : placed kind place first = [] := by
  rw [placed, List.filterMap_eq_nil_iff]
  intro contribution member
  obtain ⟨step, among, same⟩ := List.mem_filterMap.mp member
  cases step with
  | error cause => cases same
  | ok made => exact Option.some.inj same ▸ nowhere made among

/-- A fragment of another section, or of documents of another kind, is placed elsewhere. -/
theorem placed_fragment_of_ne {text : Except Error String} (elsewhere : own = kind → other ≠ place)
    : placed kind place (subject.fragment own other text) = [] := by
  apply All.placed_eq_nil
  apply all_fragment
  intro shown
  exact if_neg fun here => elsewhere here.1 here.2

end Steps

-----------------------------------------------------------------------------------------
-- Interfaces and headers
-----------------------------------------------------------------------------------------

def Plan.implementsLine (plan : Plan) (target : String) : String :=
  indent 1 ("implements ::" ++ plan.modules.schemaNamespace ++ "::" ++ target)

def Plan.IsLineFor (plan : Plan) (mention : Mention) (line : String) : Prop :=
  ∃ mapping,
    plan.classified.lookupValue mention.name = .ok mapping
    ∧ line = plan.implementsLine mapping.targetName

namespace Contribution

def IsBelowInterfaces (contribution : Contribution) : Prop :=
  ∀ kind, contribution.placed? kind .header = none ∧ contribution.placed? kind .interfaces = none

variable {plan : Plan} {subject : Subject}

/-- The interface of nodes has no line, any other one has one line. -/
theorem placed_ofInterface {mention : Mention} (made : (ofInterface plan subject mention).AreMade)
    : (mention.name = .string nodeInterface
        ∧ Steps.placed .schema .interfaces (ofInterface plan subject mention) = [])
      ∨ mention.name ≠ .string nodeInterface
        ∧ ∃ line,
            plan.IsLineFor mention line
            ∧ Steps.placed .schema .interfaces (ofInterface plan subject mention) = [line] := by
  rcases ofInterface_of_areMade made with ⟨node, nothing⟩ | ⟨other, mapping, found, lines⟩
  · exact .inl ⟨node, by rw [nothing]; rfl⟩
  · refine .inr ⟨other, _, ⟨mapping, found, rfl⟩, ?_⟩
    rw [lines, Steps.placed_append, Steps.placed_fragment_schema, if_pos rfl,
      Steps.placed_fragment_of_ne (by simp)]
    rfl

/-- Lines stand side by side with the interfaces other than that of nodes, by induction on the
interfaces.
-/
theorem placed_interfaces {mentions : List Mention}
    (made : Steps.AreMade (mentions.flatMap (ofInterface plan subject)))
    : List.Forall₂ plan.IsLineFor
        (mentions.filter fun mention => mention.name != .string nodeInterface)
        (Steps.placed .schema .interfaces (mentions.flatMap (ofInterface plan subject))) := by
  induction mentions with
  | nil => exact .nil
  | cons mention rest ih =>
      rw [List.flatMap_cons] at made ⊢
      obtain ⟨here, later⟩ := List.forall_mem_append.mp made
      rw [Steps.placed_append]
      rcases placed_ofInterface here with ⟨node, nothing⟩ | ⟨other, line, isLine, placed⟩
      · rw [nothing, List.filter_cons_of_neg (by simp [node])]
        exact ih later
      · rw [placed, List.filter_cons_of_pos (by simp [other])]
        exact .cons isLine (ih later)

/-- Interfaces place something in their own section only. -/
theorem placed_interfaces_of_ne {kind : DocumentKind} {place : Section}
    (other : place ≠ .interfaces) (mentions : List Mention)
    : Steps.placed kind place (mentions.flatMap (ofInterface plan subject)) = [] := by
  have elsewhere {own : DocumentKind} {text : String}
      : (Contribution.fragment own .interfaces text).placed? kind place = none :=
    if_neg fun here => other here.2.symm
  apply Steps.All.placed_eq_nil
  apply Steps.all_flatMap
  intro mention _ contribution made
  cases isOfInterface contribution made with
  | implements | includes => exact elsewhere

/-- Headers place nothing behind the sections that open a document. -/
theorem placed_ofHeaders_of_ne {kind : DocumentKind} {place : Section}
    (other : place ≠ .header ∧ place ≠ .includes ∧ place ≠ .defMethods)
    : Steps.placed kind place (ofHeaders plan subject) = [] := by
  obtain ⟨notHeader, notIncludes, notMethods⟩ := other
  have elsewhere {own : DocumentKind} {opening : Section} {text : Except Error String}
      (other : place ≠ opening)
      : Steps.placed kind place (subject.fragment own opening text) = [] :=
    Steps.placed_fragment_of_ne fun _ => other.symm
  unfold ofHeaders
  simp only [Steps.placed_append]
  rw [elsewhere notHeader, elsewhere notHeader, elsewhere notHeader]
  split <;> split <;> simp [elsewhere notIncludes, elsewhere notMethods]

/-- The header of a document is one page. -/
theorem placed_header_ofHeaders {kind : DocumentKind} (has : subject.hasDocument kind = true)
    (made : (ofHeaders plan subject).AreMade)
    : ∃ page,
        plan.render (headerPage plan subject kind) = .ok page
        ∧ Steps.placed kind .header (ofHeaders plan subject) = [page] := by
  have elsewhere {own : DocumentKind} {place : Section} {text : Except Error String}
      (other : own = kind → place ≠ .header)
      : Steps.placed kind .header (subject.fragment own place text) = [] :=
    Steps.placed_fragment_of_ne other
  have optional {present : Bool} {place : Section} {text : Except Error String}
      (other : place ≠ .header)
      : Steps.placed kind .header (if present then subject.fragment .schema place text else [])
        = [] := by
    split
    · exact elsewhere fun _ => other
    · rfl
  have opening {text : Except Error String} (made : (subject.fragment kind .header text).AreMade)
      : ∃ page,
          text = .ok page
          ∧ Steps.placed kind .header (subject.fragment kind .header text) = [page] := by
    obtain ⟨page, rfl⟩ := made.exists_text has
    refine ⟨page, rfl, ?_⟩
    rw [Steps.placed_fragment has, if_pos ⟨rfl, rfl⟩]
  unfold ofHeaders at made ⊢
  simp only [List.forall_mem_append, Steps.AreMade] at made
  obtain ⟨⟨⟨⟨schema, -⟩, -⟩, stub⟩, spec⟩ := made
  simp only [Steps.placed_append]
  rw [optional (by simp), optional (by simp)]
  cases kind with
  | schema =>
      obtain ⟨page, rendered, placed⟩ := opening schema
      exact ⟨page, rendered, by rw [placed, elsewhere (by simp), elsewhere (by simp)]; rfl⟩
  | implementation =>
      obtain ⟨page, rendered, placed⟩ := opening stub
      exact ⟨page, rendered, by rw [placed, elsewhere (by simp), elsewhere (by simp)]; rfl⟩
  | spec =>
      obtain ⟨page, rendered, placed⟩ := opening spec
      exact ⟨page, rendered, by rw [placed, elsewhere (by simp), elsewhere (by simp)]; rfl⟩

/-- A contribution comes between the opening and the end of a document if it comes into a document.
-/
def IsInside : Contribution → Prop
  | .fragment _ place _ => place = .possibleTypes ∨ place = .fields
  | .closing _ _ => False
  | _ => True

theorem IsInFields.isInside {contribution : Contribution} (inFields : contribution.IsInFields)
    : contribution.IsInside := by
  cases contribution with
  | fragment => exact .inr inFields
  | closing => exact inFields.elim
  | reference | declaration | listed => trivial

theorem IsInside.placed?_eq_none {contribution : Contribution} (inside : contribution.IsInside)
    {place : Section} (outside : place ≠ .possibleTypes ∧ place ≠ .fields) (kind : DocumentKind)
    : contribution.placed? kind place = none := by
  cases contribution with
  | fragment own other text =>
      refine if_neg fun here => ?_
      rcases inside with same | same
      · exact outside.1 (here.2.symm.trans same)
      · exact outside.2 (here.2.symm.trans same)
  | closing => exact inside.elim
  | reference | declaration | listed => rfl

theorem isInside_ofMembers : Steps.All IsInside (ofMembers plan subject) := by
  intro contribution made
  cases isOfMembers contribution made with
  | declaration => trivial
  | list => exact .inl rfl

def ofInside (plan : Plan) (subject : Subject) : Steps :=
  ofFields plan subject ++ ofMembers plan subject
    ++ subject.type.enumValues.flatMap (ofEnumValue subject)
    ++ (subject.type.inputFields.getD []).flatMap (ofArgument plan subject 1 false)

theorem ofSubject_eq_parts
    : ofSubject plan subject
      = subject.type.interfaces.flatMap (ofInterface plan subject)
          ++ ofHeaders plan subject
          ++ (ofInside plan subject ++ ofClosing subject) := by
  unfold ofSubject ofInside ofFields
  simp only [List.append_assoc]

theorem isInside_ofInside : Steps.All IsInside (ofInside plan subject) := by
  refine ((Steps.All.append ?_ isInside_ofMembers).append ?_).append ?_
  · exact Steps.all_flatMap fun entry _ contribution made =>
      (isInFields_ofField entry.1 entry.2 contribution made).isInside
  · apply Steps.all_flatMap
    intro value _ contribution made
    cases isOfEnumValue contribution made with
    | line => exact .inr rfl
  · exact Steps.all_flatMap fun input _ contribution made =>
      (isLine_ofArgument 1 false input contribution made).isInFields.isInside

/-- Between openings and ends nothing is placed outside the two sections there. -/
theorem placed_ofInside_of_ne {kind : DocumentKind} {place : Section}
    (outside : place ≠ .possibleTypes ∧ place ≠ .fields)
    : Steps.placed kind place (ofInside plan subject) = [] :=
  Steps.All.placed_eq_nil fun contribution made =>
    (isInside_ofInside contribution made).placed?_eq_none outside kind

theorem isBelowInterfaces_ofClosing : Steps.All IsBelowInterfaces (ofClosing subject) := by
  intro contribution made kind
  cases isOfClosing contribution made with
  | schema | implementation | spec => simp [placed?]

/-- Behind the headers no step places a line for an interface, or a header. -/
theorem isBelowInterfaces_behind
    : Steps.All IsBelowInterfaces (ofInside plan subject ++ ofClosing subject) := by
  refine Steps.All.append (fun contribution made kind => ?_) isBelowInterfaces_ofClosing
  have inside := isInside_ofInside contribution made
  exact ⟨inside.placed?_eq_none (by simp) kind, inside.placed?_eq_none (by simp) kind⟩

end Contribution

-----------------------------------------------------------------------------------------
-- Schema documents
-----------------------------------------------------------------------------------------

section
variable {plan : Plan} {subject : Subject} {graph : DependencyGraph}

/-- Among interfaces and in its header a document holds what the first steps of its type place. -/
theorem Subject.fragments_opening {kind : DocumentKind} {document : Document} {place : Section}
    (found : (subject.documents plan graph).document? kind = some document)
    (first : place = .header ∨ place = .interfaces)
    : document.fragments place
      = Steps.placed kind place
            (subject.type.interfaces.flatMap (Contribution.ofInterface plan subject))
          ++ Steps.placed kind place (Contribution.ofHeaders plan subject) := by
  have behind : Steps.placed kind place
        (Contribution.ofInside plan subject ++ Contribution.ofClosing subject)
      = [] := by
    apply Steps.All.placed_eq_nil
    intro contribution made
    obtain ⟨header, interfaces⟩ := Contribution.isBelowInterfaces_behind contribution made kind
    rcases first with rfl | rfl
    · exact header
    · exact interfaces
  rw [Subject.fragments_of_document? found fun same => by simp [same] at first]
  show Steps.placed kind place (Contribution.ofSubject plan subject) = _
  rw [Contribution.ofSubject_eq_parts, Steps.placed_append, behind, List.append_nil,
    Steps.placed_append]

theorem Subject.fragments_schema {place : Section} (first : place = .header ∨ place = .interfaces)
    : (subject.documents plan graph).schema.fragments place
      = Steps.placed .schema place
            (subject.type.interfaces.flatMap (Contribution.ofInterface plan subject))
          ++ Steps.placed .schema place (Contribution.ofHeaders plan subject) :=
  Subject.fragments_opening rfl first

/-- The header of a document of a whole type is one page. -/
theorem Contribution.IsWhole.exists_header {kind : DocumentKind} {document : Document}
    (whole : Contribution.IsWhole plan subject)
    (found : (subject.documents plan graph).document? kind = some document)
    : ∃ page,
        plan.render (Contribution.headerPage plan subject kind) = .ok page
        ∧ document.fragments .header = [page] := by
  unfold Contribution.IsWhole at whole
  rw [Contribution.ofSubject_eq_parts] at whole
  simp only [List.forall_mem_append] at whole
  obtain ⟨⟨-, headers⟩, -⟩ := whole
  obtain ⟨page, rendered, placed⟩ :=
    Contribution.placed_header_ofHeaders (Subject.hasDocument_of_document? found) headers
  refine ⟨page, rendered, ?_⟩
  rw [Subject.fragments_opening found (.inl rfl),
    Contribution.placed_interfaces_of_ne (by simp), placed, List.nil_append]

-----------------------------------------------------------------------------------------
-- Bases
-----------------------------------------------------------------------------------------

/-- A type becomes a class with the base of nodes if it mentions their interface: the settings name
that base for it, or they name none, and neither its category nor its kind has a base of its own.
-/
def Plan.GivesNodeBase (plan : Plan) (subject : Subject) : Prop :=
  subject.type.kind ≠ .interface
  ∧ match plan.settings.baseTypeOverrides.get? subject.mapping.targetName with
    | some base => base = BaseType.objectNode
    | none =>
        subject.mapping.category ≠ .payloads ∧ BaseType.ofKind? subject.type.kind = none

theorem TypeName.categorize_eq_interfaces (kind : TypeKind) (name : String)
    : (categorize kind name).1 = .interfaces ↔ kind = .interface := by
  unfold categorize
  dsimp only
  repeat' split
  all_goals simp_all

/-- No kind has the base of nodes for its own. -/
theorem BaseType.ofKind?_ne_objectNode (kind : TypeKind) : ofKind? kind ≠ some objectNode := by
  cases kind <;> decide

/-- A type that mentions the interface of nodes implements it. -/
theorem TypeDef.implements_node {type : TypeDef}
    (node : ∃ mention ∈ type.interfaces, mention.name = .string nodeInterface)
    : type.implements (.string nodeInterface) = true := by
  obtain ⟨mention, member, named⟩ := node
  refine List.any_eq_true.mpr ⟨mention, member, ?_⟩
  rw [named]
  decide

/-- The base that is chosen for the place of a type that mentions the interface of nodes is theirs
exactly if the type becomes such a class.
-/
theorem Registry.baseType_place {start : Registry} {entry : String × TypeDef}
    (overrides : start.baseOverrides = plan.settings.baseTypeOverrides)
    (typeSame : subject.type = entry.2) (mappingSame : subject.mapping = start.place entry)
    (node : ∃ mention ∈ subject.type.interfaces, mention.name = .string nodeInterface)
    : subject.mapping.isInterface = false
          ∧ subject.mapping.baseType = some BaseType.objectNode
        ↔ plan.GivesNodeBase subject := by
  have isClass : subject.mapping.isInterface = false ↔ subject.type.kind ≠ .interface := by
    rw [mappingSame, typeSame, ne_eq, ← TypeName.categorize_eq_interfaces _ entry.1]
    exact beq_eq_false_iff_ne
  have based : subject.mapping.baseType
      = some (start.baseType subject.type subject.mapping.category subject.mapping.targetName) := by
    rw [mappingSame, typeSame]
    rfl
  rw [Plan.GivesNodeBase, isClass, based, Registry.baseType, overrides]
  refine and_congr_right fun _ => ?_
  cases plan.settings.baseTypeOverrides.get? subject.mapping.targetName with
  | some base => simp
  | none =>
      by_cases payload : subject.mapping.category = .payloads
      · simp [payload, BaseType.payload, BaseType.objectNode]
      · cases own : BaseType.ofKind? subject.type.kind with
        | some base =>
            have other := BaseType.ofKind?_ne_objectNode subject.type.kind
            rw [own] at other
            simpa [payload] using other
        | none => simp [payload, TypeDef.implements_node node]

end

/-- A document opens a class of a generated name with a base class. -/
def Document.OpensClass (document : Document) (modules : Modules) (target base : String) : Prop :=
  ∃ text ∈ document.fragments .header,
    startsWith text
        ("class " ++ modules.schemaNamespace ++ "::" ++ target ++ " < "
          ++ modules.schemaNamespace ++ "::" ++ base ++ "\n")
      = true

/-- An interface that a type mentions is not lost in its schema document: it has a line there, or it
is that of nodes and the document opens a class with the base of nodes.
-/
def Plan.KeepsInterface (plan : Plan) (subject : Subject) (document : Document) (mention : Mention)
    : Prop :=
  (∃ line ∈ document.fragments .interfaces, plan.IsLineFor mention line)
  ∨ mention.name = .string nodeInterface
    ∧ document.OpensClass plan.modules subject.mapping.targetName BaseType.objectNode

instance (plan : Plan) (mention : Mention) (line : String)
    : Decidable (plan.IsLineFor mention line) :=
  inferInstanceAs
    (Decidable (∃ mapping,
      plan.classified.lookupValue mention.name = .ok mapping
      ∧ line = plan.implementsLine mapping.targetName))

instance (document : Document) (modules : Modules) (target base : String)
    : Decidable (document.OpensClass modules target base) :=
  inferInstanceAs (Decidable (∃ text ∈ document.fragments .header, _ = true))

instance (plan : Plan) (subject : Subject) (document : Document) (mention : Mention)
    : Decidable (plan.KeepsInterface subject document mention) :=
  inferInstanceAs (Decidable (_ ∨ _ ∧ _))

structure Plan.StatesInterfaces (plan : Plan) (subject : Subject) (document : Document)
    : Prop where
  /-- There is a line for each but that of nodes, in order, and no other line. -/
  lines
    : List.Forall₂ plan.IsLineFor
        (subject.type.interfaces.filter fun mention => mention.name != .string nodeInterface)
        (document.fragments .interfaces)
  /-- The base class is the one of the mapping. -/
  header
    : ∃ description,
        document.fragments .header
          = [Page.schemaHeaderText plan.modules subject.mapping description]
  /-- Of a type that mentions the interface of nodes it is theirs exactly under these conditions. -/
  base
    : (∃ mention ∈ subject.type.interfaces, mention.name = .string nodeInterface) →
        (subject.mapping.isInterface = false
            ∧ subject.mapping.baseType = some BaseType.objectNode
          ↔ plan.GivesNodeBase subject)
  /-- No interface is lost, but for that of nodes when another base class was chosen. -/
  kept
    : ∀ mention ∈ subject.type.interfaces,
        (mention.name = .string nodeInterface → plan.GivesNodeBase subject)
          → plan.KeepsInterface subject document mention

/-- The header of a class begins with its name and its base. -/
theorem Page.startsWith_schemaHeaderText {modules : Modules} {mapping : NameMapping}
    {base : String} (isClass : mapping.isInterface = false) (based : mapping.baseType = some base)
    (description : String)
    : startsWith (Page.schemaHeaderText modules mapping description)
        ("class " ++ modules.schemaNamespace ++ "::" ++ mapping.targetName ++ " < "
          ++ modules.schemaNamespace ++ "::" ++ base ++ "\n")
      = true := by
  rw [startsWith, List.isPrefixOf_iff_prefix, Page.schemaHeaderText, isClass, based]
  simp only [Option.getD_some, Bool.false_eq_true, if_false, String.toList_append,
    List.append_assoc]
  simp

/-- What stands beside an item stands among the others, by induction on the items. -/
theorem exists_of_forall₂ {α β : Type} {beside : α → β → Prop} {items : List α} {others : List β}
    {item : α} (all : List.Forall₂ beside items others) (member : item ∈ items)
    : ∃ other ∈ others, beside item other := by
  induction all with
  | nil => cases member
  | cons here _ ih =>
      rcases List.mem_cons.mp member with rfl | later
      · exact ⟨_, List.mem_cons_self, here⟩
      · obtain ⟨other, among, found⟩ := ih later
        exact ⟨other, List.mem_cons_of_mem _ among, found⟩

namespace Job

variable {job : Job} {draft : Draft} {generation : Generation}

/-- The header of a type's schema document is one page, made for the mapping of the type. -/
theorem Stages.exists_header (stages : job.Stages draft) {subject : Subject}
    (member : subject ∈ job.subjects draft.plan) (graph : DependencyGraph)
    : ∃ page,
        draft.plan.render (.schemaHeader subject.mapping subject.type.description) = .ok page
        ∧ (subject.documents draft.plan graph).schema.fragments .header = [page] := by
  have whole := Progress.isWhole_of_performSubjects (congrArg Prod.snd stages.performed) _ member
  have found : (subject.documents draft.plan graph).document? .schema
      = some (subject.documents draft.plan graph).schema := rfl
  exact whole.exists_header found

/-- Without templates of one's own that page is the opening, with the base class in the mapping. -/
theorem Stages.exists_standardHeader (stages : job.Stages draft) (standard : job.templates = [])
    {subject : Subject} (member : subject ∈ job.subjects draft.plan) (graph : DependencyGraph)
    : ∃ description,
        subject.type.description.asTextIfAny = .ok description
        ∧ (subject.documents draft.plan graph).schema.fragments .header
          = [Page.schemaHeaderText draft.plan.modules subject.mapping
              (Ruby.description description)] := by
  obtain ⟨page, rendered, opened⟩ := stages.exists_header member graph
  rw [Contribution.render_eq_standardText (stages.templates.trans standard)] at rendered
  obtain ⟨description, described, same⟩ := bind_eq_ok.mp rendered
  cases same
  exact ⟨description, described, opened⟩

/-- A schema document says of the interfaces of its type what has been placed by it. -/
theorem Stages.statesInterfaces (stages : job.Stages draft) (standard : job.templates = [])
    {subject : Subject} (member : subject ∈ job.subjects draft.plan) (graph : DependencyGraph)
    : draft.plan.StatesInterfaces subject (subject.documents draft.plan graph).schema := by
  have whole := Progress.isWhole_of_performSubjects (congrArg Prod.snd stages.performed) _ member
  unfold Contribution.IsWhole Contribution.ofSubject at whole
  simp only [List.forall_mem_append] at whole
  obtain ⟨⟨⟨⟨⟨⟨interfaces, -⟩, -⟩, -⟩, -⟩, -⟩, -⟩ := whole
  obtain ⟨description, -, opened⟩ := stages.exists_standardHeader standard member graph
  have base : (∃ mention ∈ subject.type.interfaces, mention.name = .string nodeInterface) →
      (subject.mapping.isInterface = false
          ∧ subject.mapping.baseType = some BaseType.objectNode
        ↔ draft.plan.GivesNodeBase subject) := by
    obtain ⟨builtins, -, placed⟩ := stages.exists_placed
    obtain ⟨entry, -, typeSame, mappingSame⟩ := placed.exists_of_mem member
    have overrides := (startRegistry_start job.settings builtins).2
    exact Registry.baseType_place (stages.settings ▸ overrides) typeSame mappingSame
  have lines := Contribution.placed_interfaces interfaces
  have shown : (subject.documents draft.plan graph).schema.fragments .interfaces
      = Steps.placed .schema .interfaces
        (subject.type.interfaces.flatMap (Contribution.ofInterface draft.plan subject)) := by
    rw [Subject.fragments_schema (.inr rfl), Contribution.placed_ofHeaders_of_ne (by simp),
      List.append_nil]
  refine ⟨shown ▸ lines, ⟨_, opened⟩, base, fun mention mentioned given => ?_⟩
  by_cases node : mention.name = .string nodeInterface
  · obtain ⟨isClass, based⟩ := (base ⟨mention, mentioned, node⟩).mpr (given node)
    refine .inr ⟨node, _, opened ▸ List.mem_singleton_self _, ?_⟩
    exact Page.startsWith_schemaHeaderText isClass based _
  · obtain ⟨line, among, isLine⟩ := exists_of_forall₂ lines
      (List.mem_filter.mpr ⟨mentioned, bne_iff_ne.mpr node⟩)
    exact .inl ⟨line, shown ▸ among, isLine⟩

/-- The schema document of a type is the content of a file of the run. -/
theorem exists_file_of_subject (drafted : job.draft.outcome = .ok draft)
    (built : job.build.outcome = .ok generation) {earlier later : List Subject} {subject : Subject}
    (split : job.subjects draft.plan = earlier ++ subject :: later)
    : ∃ file ∈ generation.files,
        file.path
            = job.settings.libDir ++ "/schema/" ++ Naming.filePath subject.mapping.targetName
              ++ ".rb"
          ∧ file.content
            = job.hooks.applyHeaders file.path
              (subject.documents draft.plan (draft.plan.graphOf earlier)).schema.render := by
  obtain ⟨other, files, otherDrafted, made, rfl⟩ := build_eq_ok_iff.mp built
  obtain rfl := Except.ok.inj (drafted.symm.trans otherDrafted)
  have stages := draft_eq_ok_iff.mp drafted
  have among
      : subject.documents draft.plan (draft.plan.graphOf earlier)
        ∈ draft.assembly.artifacts.values := by
    have apart := stages.nodup_targets
    rw [(stages.artifacts_eq apart).1, split]
    rw [split] at apart
    exact List.mem_map.mpr ⟨_, Table.mem_of_get? (Plan.get?_documents apart), rfl⟩
  unfold Job.files at made
  obtain ⟨fileList, -, made⟩ := bind_eq_ok.mp made
  obtain ⟨fieldList, -, made⟩ := bind_eq_ok.mp made
  obtain rfl := Except.ok.inj made
  refine ⟨_, List.mem_map.mpr ⟨_, List.mem_append_left _ (List.mem_append_left _
    (List.mem_flatMap.mpr ⟨_, among, List.mem_cons_self⟩)), rfl⟩, ?_, rfl⟩
  rw [stages.settings, Subject.isFiled_documents.named]

/-- Interfaces in a run that comes to files, without templates of one's own: the schema document of
each type is among the files and has, in order, a line for every interface that the type mentions
but that of nodes. The interface of nodes is implemented by the base class of the document if the
settings name that base for the type, or name none and the type is neither a payload nor of a kind
with a base of its own; and otherwise it is lost.
-/
theorem interfaces_of_build (standard : job.templates = [])
    (built : job.build.outcome = .ok generation)
    : ∃ draft,
        job.draft.outcome = .ok draft
        ∧ ∀ subject ∈ job.subjects draft.plan,
            ∃ document,
              draft.schemaDocument? subject.mapping.targetName = some document
              ∧ draft.plan.StatesInterfaces subject document
              ∧ ∃ file ∈ generation.files,
                  file.path
                      = job.settings.libDir ++ "/schema/"
                        ++ Naming.filePath subject.mapping.targetName ++ ".rb"
                    ∧ file.content = job.hooks.applyHeaders file.path document.render := by
  obtain ⟨draft, files, drafted, -⟩ := build_eq_ok_iff.mp built
  have stages := draft_eq_ok_iff.mp drafted
  refine ⟨draft, drafted, fun subject member => ?_⟩
  obtain ⟨earlier, later, split⟩ := List.append_of_mem member
  exact ⟨_, stages.schemaDocument?_eq stages.nodup_targets split,
    stages.statesInterfaces standard member _, exists_file_of_subject drafted built split⟩

/-- A product is a node and has a name; the payload of an import is a node. -/
def importing : Job :=
  let product : TypeDef :=
    {
      plainType "Product" .object [plainField "id" "ID" []] with
      interfaces :=
        [⟨.string "Node", .string "INTERFACE", false⟩, ⟨.string "Named", .string "INTERFACE", false⟩]
    }
  let payload : TypeDef :=
    {
      plainType "ImportPayload" .object [plainField "id" "ID" []] with
      interfaces := [⟨.string "Node", .string "INTERFACE", false⟩]
    }
  smallJob "Query" "Query"
    [
      plainType "Query" .object
        [plainField "product" "Product" [], plainField "import" "ImportPayload" []],
      plainType "Node" .interface [plainField "id" "ID" []],
      plainType "Named" .interface [plainField "name" "ID" []],
      product, payload
    ]

theorem succeeds_importing : Succeeds importing.build.outcome := by
  decide +kernel

/-- The interfaces in the run on imports are stated as in every run. -/
theorem interfaces_of_importing
    : importing.templates = []
      ∧ ∃ generation,
          importing.build.outcome = .ok generation
          ∧ ∃ draft,
              importing.draft.outcome = .ok draft
              ∧ ∀ subject ∈ importing.subjects draft.plan,
                  ∃ document,
                    draft.schemaDocument? subject.mapping.targetName = some document
                    ∧ draft.plan.StatesInterfaces subject document
                    ∧ ∃ file ∈ generation.files,
                        file.path
                            = importing.settings.libDir ++ "/schema/"
                              ++ Naming.filePath subject.mapping.targetName ++ ".rb"
                          ∧ file.content
                            = importing.hooks.applyHeaders file.path document.render := by
  obtain ⟨generation, built⟩ := succeeds_importing
  exact ⟨rfl, generation, built, interfaces_of_build rfl built⟩

/-- A payload that is a node has neither a line for that interface nor the base class of nodes. -/
theorem loses_node_of_payload
    : ¬∀ (job : Job) (draft : Draft),
        Succeeds job.build.outcome
        → job.draft.outcome = .ok draft
        → ∀ subject ∈ job.subjects draft.plan,
            ∀ mention ∈ subject.type.interfaces,
              ∀ document,
                draft.schemaDocument? subject.mapping.targetName = some document
                → draft.plan.KeepsInterface subject document mention := by
  intro claim
  obtain ⟨draft, drafted, subject, member, -, mention, mentioned, document, found, lost⟩
      : ∃ draft,
          importing.draft.outcome = .ok draft
          ∧ ∃ subject ∈ importing.subjects draft.plan,
              subject.type.name = .string "ImportPayload"
              ∧ ∃ mention ∈ subject.type.interfaces,
                  ∃ document ∈ draft.schemaDocument? subject.mapping.targetName,
                    ¬draft.plan.KeepsInterface subject document mention := by
    decide +kernel
  exact lost (claim importing draft succeeds_importing drafted subject member mention mentioned
    document found)

end Job

end RubySchema
