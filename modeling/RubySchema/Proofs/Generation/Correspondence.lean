import RubySchema.Proofs.Generation.Declarations
import RubySchema.Proofs.Generation.Filing
import RubySchema.Proofs.Generation.Headers
import RubySchema.Proofs.Generation.Signatures

/-!
What each of the documents of a type states is told by the signatures of the fields that are kept,
in order. The schema document, the stub and the spec get their fragments side by side, one field
after another; what comes from elsewhere states nothing.
-/

namespace RubySchema

open Text

/-- What a document of a kind states of a field. -/
def Signature.stated (signature : Signature) : DocumentKind → List Statement
  | .schema => signature.declared
  | .implementation => signature.defined
  | .spec => signature.exemplified

def Subject.signatures (subject : Subject) : List Signature :=
  subject.keptFields.map Field.signature

def Contribution.statements (kind : DocumentKind) (contribution : Contribution)
    : List Statement :=
  ((contribution.placed? kind .fields).map fun text => Statement.ofText text.toList).getD []

-----------------------------------------------------------------------------------------
-- What steps state
-----------------------------------------------------------------------------------------

namespace Steps

def statements (kind : DocumentKind) (steps : Steps) : List Statement :=
  (steps.filterMap Except.toOption).flatMap (Contribution.statements kind)

variable {kind own : DocumentKind} {first second : Steps} {subject : Subject} {place : Section}

@[simp]
theorem statements_append
    : statements kind (first ++ second) = statements kind first ++ statements kind second := by
  unfold statements
  rw [List.filterMap_append, List.flatMap_append]

theorem statements_reference (target : String)
    : statements kind (.ok (.reference target) :: first) = statements kind first :=
  rfl

/-- A fragment of the section of fields states its text in documents of its kind. -/
theorem statements_fragment {shown : String} (has : subject.hasDocument own = true)
    : statements kind (subject.fragment own .fields (.ok shown))
      = if own = kind then Statement.ofText shown.toList else [] := by
  unfold Subject.fragment
  rw [if_pos has]
  by_cases same : own = kind
  · simp [statements, Except.map, Except.toOption, Contribution.statements, Contribution.placed?,
      same]
  · simp [statements, Except.map, Except.toOption, Contribution.statements, Contribution.placed?,
      same]

/-- A fragment for another kind of documents states nothing. -/
theorem statements_fragment_of_ne {text : Except Error String} (other : own ≠ kind)
    : statements kind (subject.fragment own place text) = [] := by
  unfold Subject.fragment
  split
  · cases text <;>
      simp [statements, Except.map, Except.toOption, Contribution.statements,
        Contribution.placed?, other]
  · rfl

end Steps

-----------------------------------------------------------------------------------------
-- Quiet contributions
-----------------------------------------------------------------------------------------

namespace Contribution

/-- A contribution lists and states nothing, in a header when the settings stay in their lines. -/
def IsQuiet (settings : Settings) : Contribution → Prop
  | .fragment _ place text =>
      (place = .header → settings.StaysInLines) → Statement.ofText text.toList = []
  | .closing _ text => Statement.ofText text.toList = []
  | .listed _ _ => False
  | _ => True

/-- A contribution comes into the section of fields if it comes into a document. -/
def IsInFields : Contribution → Prop
  | .fragment _ place _ => place = .fields
  | .closing _ _ => False
  | _ => True

def IsLine : Contribution → Prop
  | .fragment _ place _ => place = .fields
  | .reference _ => True
  | _ => False

theorem IsLine.isInFields {contribution : Contribution} (line : contribution.IsLine)
    : contribution.IsInFields := by
  cases contribution with
  | fragment => exact line
  | reference => trivial
  | declaration | listed | closing => exact line.elim

theorem IsLine.listed?_eq_none {contribution : Contribution} (line : contribution.IsLine)
    : contribution.listed? = none := by
  cases contribution with
  | listed => exact line.elim
  | fragment | reference | declaration | closing => rfl

theorem IsQuiet.statements_eq {settings : Settings} {contribution : Contribution}
    (quiet : contribution.IsQuiet settings) (kind : DocumentKind)
    : contribution.statements kind = [] := by
  cases contribution with
  | fragment own place text =>
      simp only [statements, placed?]
      split
      case isTrue here =>
        obtain ⟨-, rfl⟩ := here
        refine quiet fun impossible => ?_
        cases impossible
      case isFalse => rfl
  | closing own text => simp [statements, placed?]
  | listed => exact quiet.elim
  | reference | declaration => rfl

theorem IsQuiet.listed?_eq_none {settings : Settings} {contribution : Contribution}
    (quiet : contribution.IsQuiet settings) : contribution.listed? = none := by
  cases contribution with
  | listed => exact quiet.elim
  | fragment | reference | declaration | closing => rfl

end Contribution

theorem Steps.All.statements_eq {settings : Settings} {steps : Steps}
    (quiet : Steps.All (Contribution.IsQuiet settings) steps) (kind : DocumentKind)
    : statements kind steps = [] := by
  unfold statements
  rw [List.flatMap_eq_nil_iff]
  intro contribution member
  obtain ⟨step, among, same⟩ := List.mem_filterMap.mp member
  cases step with
  | error cause => cases same
  | ok made => exact Option.some.inj same ▸ (quiet made among).statements_eq kind

structure Subject.IsPlain (settings : Settings) (subject : Subject) : Prop where
  name : TypeName.IsGraphQL subject.mapping.schemaName
  target : Continues subject.mapping.targetName
  base : settings.StaysInLines → Continues (subject.mapping.baseType.getD "None")
  description : subject.type.description.IsUnbroken
  fields
    : ∀ field ∈ subject.type.fields.getD [],
        field.IsPlain ∧ ∀ argument ∈ field.arguments, argument.IsPlain
  inputs : ∀ input ∈ subject.type.inputFields.getD [], input.IsPlain
  values
    : ∀ value ∈ subject.type.enumValues, value.name.IsName ∧ value.description.IsUnbroken

namespace Contribution

variable {plan : Plan} {subject : Subject} {contribution : Contribution}

/-- The line that includes a module of the user states nothing. -/
theorem ofText_include (paths : plan.HasPaths) {target : String} (continues : Continues target)
    : Statement.ofText
        (indent 1 ("include ::" ++ plan.modules.namespaceName ++ "::" ++ target)).toList
      = [] := by
  rw [String.append_assoc, String.append_assoc,
    Statement.ofText_indent_of_continues (.append (by decide) (paths.own continues))]
  simp only [String.toList_append]
  rfl

/-- The lines for an interface state nothing. -/
theorem IsOfInterface.isQuiet (paths : plan.HasPaths) {mention : Mention}
    (made : IsOfInterface plan mention contribution) : contribution.IsQuiet plan.settings := by
  cases made with
  | implements found =>
      obtain ⟨name, -, known⟩ := Classified.lookupValue_eq_ok.mp found
      intro _
      rw [String.append_assoc, String.append_assoc,
        Statement.ofText_indent_of_continues
          (.append (by decide) (paths.schema (paths.targets known)))]
      simp only [String.toList_append]
      rfl
  | includes found =>
      obtain ⟨name, -, known⟩ := Classified.lookupValue_eq_ok.mp found
      exact fun _ => ofText_include paths (paths.targets known)

/-- The openings of documents state nothing. -/
theorem IsOfHeaders.isQuiet (standard : plan.templates = []) (paths : plan.HasPaths)
    (plain : subject.IsPlain plan.settings) (made : IsOfHeaders plan subject contribution)
    : contribution.IsQuiet plan.settings := by
  cases made with
  | @page kind text rendered =>
      intro stays
      rw [render_eq_standardText standard] at rendered
      cases kind with
      | schema =>
          obtain ⟨description, described, same⟩ := bind_eq_ok.mp rendered
          obtain rfl := Except.ok.inj same
          exact Page.ofText_schemaHeaderText paths plain.target (plain.base (stays rfl)) plain.name
            (Ruby.isUnbroken_description (plain.description.of_asTextIfAny described))
      | implementation =>
          obtain rfl := Except.ok.inj rendered
          exact Page.ofText_implementationHeader paths plain.target
      | spec =>
          obtain rfl := Except.ok.inj rendered
          exact Page.ofText_specHeaderText paths (stays rfl) plain.target plain.name
  | userModule => exact fun _ => ofText_include paths plain.target
  | methods =>
      intro _
      decide +kernel

/-- The list of a union's members states nothing. -/
theorem IsOfMembers.isQuiet (paths : plan.HasPaths) (made : IsOfMembers plan subject contribution)
    : contribution.IsQuiet plan.settings := by
  cases made with
  | declaration => trivial
  | list areMembers =>
      intro _
      apply Page.ofText_members
      intro target member
      obtain ⟨-, mention, -, mapping, known, rfl⟩ := areMembers target member
      obtain ⟨name, -, known⟩ := Classified.lookupValue_eq_ok.mp known
      exact paths.schema (paths.targets known)

/-- The value of an enumeration states nothing. -/
theorem IsOfEnumValue.isQuiet {value : EnumValue} (named : value.name.IsName)
    (described : value.description.IsUnbroken) (made : IsOfEnumValue value contribution)
    : contribution.IsQuiet plan.settings := by
  cases made with
  | line found =>
      intro _
      obtain ⟨name, same, graphQL⟩ := named.exists_eq
      rw [same]
      exact Page.ofText_valueLine graphQL
        (Ruby.isUnbroken_description (described.of_asTextIfAny found))

/-- An input field states nothing. -/
theorem IsOfArgument.isQuiet (paths : plan.HasPaths) {argument : Field} (plain : argument.IsPlain)
    (made : IsOfArgument plan 1 argument contribution) : contribution.IsQuiet plan.settings := by
  cases made with
  | reference => trivial
  | line resolves made =>
      intro _
      exact ofText_argumentLine paths (.inl rfl) plain resolves made

theorem IsOfClosing.isQuiet (made : IsOfClosing contribution)
    : contribution.IsQuiet plan.settings := by
  cases made with
  | schema | implementation | spec => show Statement.ofText _ = []; decide +kernel

/-- An argument refers to its type and has a line. -/
theorem isLine_ofArgument (level : Nat) (isConnection : Bool) (argument : Field)
    : Steps.All IsLine (ofArgument plan subject level isConnection argument) := by
  intro contribution member
  cases isOfArgument contribution member with
  | reference => trivial
  | line => rfl

/-- A field comes into the section of fields only. -/
theorem isInFields_ofField (field : Field) (position : Nat)
    : Steps.All IsInFields (ofField plan subject field position) := by
  intro contribution member
  cases isOfField contribution member with
  | reference => trivial
  | opening | ending | method | spec => rfl
  | argument _ inner => exact (isLine_ofArgument 2 _ _ contribution inner).isInFields
  | listed made =>
      obtain ⟨name, arguments, -, rfl⟩ := exists_of_listing made
      trivial

-----------------------------------------------------------------------------------------
-- Fields
-----------------------------------------------------------------------------------------

section
variable {kind own : DocumentKind} {field argument : Field} {isShown : Bool}

/-- An argument that is kept is declared in the schema document. -/
theorem statements_ofArgument (paths : plan.HasPaths) (plain : argument.IsPlain)
    {isConnection : Bool}
    (made : (ofArgument plan subject 2 isConnection argument).AreMade)
    : (ofArgument plan subject 2 isConnection argument).statements kind
      = if kind = .schema ∧ argument.isKeptArgument isConnection = true then
          [.argument (Naming.snakeCase argument.name.display)]
        else [] := by
  unfold ofArgument at made ⊢
  rw [isLeftOut_eq plain.name] at made ⊢
  cases kept : argument.isKeptArgument isConnection with
  | false => simp [Steps.statements]
  | true =>
      rw [kept] at made
      change (ofKeptArgument plan subject 2 argument).AreMade at made
      show (ofKeptArgument plan subject 2 argument).statements kind = _
      obtain ⟨resolved, text, resolves, shown, parts⟩ := ofKeptArgument_of_areMade made
      rw [parts, Steps.statements_reference,
        Steps.statements_fragment subject.hasDocument_schema,
        ofText_argumentLine paths (.inr rfl) plain resolves shown]
      by_cases schema : kind = .schema
      · simp [schema]
      · simp [schema, Ne.symm schema]

/-- The arguments that are kept are declared in order, by induction on the arguments. -/
theorem statements_arguments (paths : plan.HasPaths) {arguments : List Field}
    (plain : ∀ argument ∈ arguments, argument.IsPlain) {isConnection : Bool}
    (made : Steps.AreMade (arguments.flatMap (ofArgument plan subject 2 isConnection)))
    : Steps.statements kind (arguments.flatMap (ofArgument plan subject 2 isConnection))
      = if kind = .schema then
          (arguments.filter (Field.isKeptArgument isConnection)).map fun argument =>
            .argument (Naming.snakeCase argument.name.display)
        else [] := by
  induction arguments with
  | nil => split <;> rfl
  | cons argument rest ih =>
      rw [List.flatMap_cons] at made ⊢
      obtain ⟨here, later⟩ := List.forall_mem_append.mp made
      obtain ⟨plainHere, plainLater⟩ := List.forall_mem_cons.mp plain
      rw [Steps.statements_append, statements_ofArgument paths plainHere here,
        ih plainLater later]
      by_cases schema : kind = .schema
      · cases kept : argument.isKeptArgument isConnection <;> simp [schema, kept]
      · simp [schema]

/-- A field that is kept states its signature in each document of its type. -/
theorem statements_ofKeptField (standard : plan.templates = []) (paths : plan.HasPaths)
    (usual : TypeName.IsGraphQL subject.mapping.schemaName) (plain : field.IsPlain)
    (arguments : ∀ argument ∈ field.arguments, argument.IsPlain)
    (has : subject.hasDocument kind = true)
    (made : (ofKeptField plan subject isShown field).AreMade)
    : (ofKeptField plan subject isShown field).statements kind = field.signature.stated kind := by
  obtain ⟨resolved, text, name, names, resolves, lines, -, parts⟩ := ofKeptField_of_areMade made
  rw [parts] at made ⊢
  simp only [Steps.AreMade, List.forall_mem_append] at made
  obtain ⟨⟨⟨⟨⟨-, inner⟩, -⟩, method⟩, spec⟩, -⟩ := made
  have ended : Statement.ofText (indent 1 "end\n").toList = [] := by decide +kernel
  have entry : Steps.statements kind [.ok (.listed name names)] = [] := rfl
  obtain ⟨-, -, -, named⟩ := Resolved.exists_of_ofField resolves
  have connection : resolved.isConnection = _ := congrArg Prod.snd named
  have declares := ofText_fieldLines paths plain resolves lines
  rw [connection] at inner
  simp only [Steps.statements_append, Steps.statements_reference, entry,
    Steps.statements_fragment subject.hasDocument_schema, ended, declares, connection,
    statements_arguments paths arguments inner]
  cases kind with
  | schema =>
      rw [Steps.statements_fragment_of_ne (by decide),
        Steps.statements_fragment_of_ne (by decide)]
      simp [Signature.stated, Signature.declared, Field.signature, Field.keptArguments,
        Field.returnsConnection]
  | implementation =>
      obtain ⟨text, defines⟩ := Steps.AreMade.exists_text method has
      have states := ofText_methodText paths standard plain arguments resolves defines
      rw [defines, Steps.statements_fragment has, Steps.statements_fragment_of_ne (by decide),
        states]
      simp [Signature.stated]
  | spec =>
      obtain ⟨text, shows⟩ := Steps.AreMade.exists_text spec has
      have states := ofText_specText paths standard usual plain arguments resolves shows
      rw [shows, Steps.statements_fragment has, Steps.statements_fragment_of_ne (by decide),
        states]
      simp [Signature.stated]

/-- The fields that are kept state their signatures in order. -/
theorem statements_fields (standard : plan.templates = []) (paths : plan.HasPaths)
    (usual : TypeName.IsGraphQL subject.mapping.schemaName) (has : subject.hasDocument kind = true)
    {fields : List Field} {start : Nat}
    (plain : ∀ field ∈ fields, field.IsPlain ∧ ∀ argument ∈ field.arguments, argument.IsPlain)
    (made
      : Steps.AreMade ((fields.zipIdx start).flatMap fun entry =>
          ofField plan subject entry.1 entry.2))
    : Steps.statements kind
          ((fields.zipIdx start).flatMap fun entry => ofField plan subject entry.1 entry.2)
        = ((fields.filter fun field => !isFieldLeftOut subject field).map Field.signature).flatMap
          fun signature => signature.stated kind := by
  rw [List.flatMap_map]
  refine read_fields rfl (fun _ _ => Steps.statements_append) ?_ made
  intro field member isShown here
  obtain ⟨plainHere, arguments⟩ := plain field member
  exact statements_ofKeptField standard paths usual plainHere arguments has here

end

-----------------------------------------------------------------------------------------
-- Types
-----------------------------------------------------------------------------------------

def ofFields (plan : Plan) (subject : Subject) : Steps :=
  (subject.type.fields.getD []).zipIdx.flatMap fun entry => ofField plan subject entry.1 entry.2

section
variable (standard : plan.templates = []) (paths : plan.HasPaths)
variable (plain : subject.IsPlain plan.settings)
include standard paths plain

/-- Before and behind its fields a type lists and states nothing. -/
theorem exists_quiet_around_fields
    : ∃ front back,
        ofSubject plan subject = front ++ ofFields plan subject ++ back
        ∧ Steps.All (IsQuiet plan.settings) front
        ∧ Steps.All (IsQuiet plan.settings) back := by
  refine ⟨subject.type.interfaces.flatMap (ofInterface plan subject) ++ ofHeaders plan subject,
    ofMembers plan subject ++ (subject.type.enumValues.flatMap (ofEnumValue subject)
      ++ ((subject.type.inputFields.getD []).flatMap (ofArgument plan subject 1 false)
        ++ ofClosing subject)),
    ?_, ?_, ?_⟩
  · unfold ofSubject ofFields
    simp only [List.append_assoc]
  · refine Steps.All.append ?_ fun _ made => (isOfHeaders _ made).isQuiet standard paths plain
    exact Steps.all_flatMap fun _ _ _ made => (isOfInterface _ made).isQuiet paths
  · refine Steps.All.append (fun _ made => (isOfMembers _ made).isQuiet paths)
      (.append ?_ (.append ?_ fun _ made => (isOfClosing _ made).isQuiet))
    · exact Steps.all_flatMap fun value member _ made =>
        (isOfEnumValue _ made).isQuiet (plain.values value member).1 (plain.values value member).2
    · exact Steps.all_flatMap fun input member _ made =>
        (isOfArgument _ made).isQuiet paths (plain.inputs input member)

/-- A type states the signatures of its fields in each of its documents. -/
theorem statements_ofSubject {kind : DocumentKind} (whole : IsWhole plan subject)
    (has : subject.hasDocument kind = true)
    : (ofSubject plan subject).statements kind
      = subject.signatures.flatMap fun signature => signature.stated kind := by
  obtain ⟨front, back, parts, quietFront, quietBack⟩ :=
    exists_quiet_around_fields standard paths plain
  unfold IsWhole at whole
  rw [parts] at whole ⊢
  obtain ⟨made, -⟩ := List.forall_mem_append.mp whole
  obtain ⟨-, made⟩ := List.forall_mem_append.mp made
  rw [Steps.statements_append, Steps.statements_append, quietFront.statements_eq,
    quietBack.statements_eq, List.nil_append, List.append_nil, Subject.signatures,
    subject.keptFields_eq]
  exact statements_fields standard paths plain.name has plain.fields made

/-- Outside the section of fields a type states nothing, but for headers when the settings do not
stay in their lines.
-/
theorem ofText_of_placed? {contribution : Contribution} (made : contribution ∈ script plan subject)
    {kind : DocumentKind} {place : Section} {text : String}
    (placed : contribution.placed? kind place = some text)
    (outside : place ≠ .fields) (stays : place = .header → plan.settings.StaysInLines)
    : Statement.ofText text.toList = [] := by
  obtain ⟨front, back, parts, quietFront, quietBack⟩ :=
    exists_quiet_around_fields standard paths plain
  have quiet (here : contribution.IsQuiet plan.settings) : Statement.ofText text.toList = [] := by
    rcases placed?_eq_some placed with rfl | ⟨rfl, -⟩
    · exact here stays
    · exact here
  have member := mem_script.mp made
  rw [parts, List.mem_append, List.mem_append] at member
  rcases member with (before | field) | behind
  · exact quiet (quietFront contribution before)
  · -- fields come into the section of fields only
    have inFields : contribution.IsInFields :=
      Steps.all_flatMap (fun entry _ => isInFields_ofField entry.1 entry.2) contribution field
    rcases placed?_eq_some placed with rfl | ⟨rfl, -⟩
    · exact absurd inFields outside
    · exact inFields.elim
  · exact quiet (quietBack contribution behind)

end

end Contribution

-----------------------------------------------------------------------------------------
-- Documents
-----------------------------------------------------------------------------------------

namespace Document

def textOf (document : Document) (places : List Section) : String :=
  let shown := (places.flatMap document.fragments).filter fun text => !text.isEmpty
  "\n".intercalate shown

/-- A document up to its header. -/
def opening (document : Document) : String :=
  document.textOf [.preamble, .header]

def body (document : Document) : String :=
  document.textOf [.interfaces, .possibleTypes, .includes, .defMethods, .fields, .postamble]

/-- What some sections of a document state is stated by their fragments in order. -/
theorem ofText_textOf (document : Document) (places : List Section)
    : Statement.ofText (document.textOf places).toList
      = places.flatMap fun place =>
          (document.fragments place).flatMap fun text => Statement.ofText text.toList := by
  have shown (texts : List String)
      : ((texts.filter fun text => !text.isEmpty).map String.toList).flatMap Statement.ofText
        = texts.flatMap fun text => Statement.ofText text.toList := by
    induction texts with
    | nil => rfl
    | cons text rest ih =>
        rw [List.flatMap_cons, ← ih]
        cases empty : text.isEmpty with
        | true =>
            obtain rfl := String.isEmpty_iff.mp empty
            rfl
        | false => simp [empty]
  have feed : "\n".toList = ['\n'] := rfl
  unfold textOf
  dsimp only
  rw [String.toList_intercalate, feed, Statement.ofText_intercalate, shown, List.flatMap_assoc]

/-- A document states what its opening and its body state. -/
theorem ofText_render (document : Document)
    : Statement.ofText document.render.toList
      = Statement.ofText document.opening.toList ++ Statement.ofText document.body.toList := by
  have whole := document.ofText_textOf Section.inOrder
  unfold opening body
  rw [ofText_textOf, ofText_textOf, ← List.flatMap_append]
  exact whole

end Document

namespace Subject

variable {plan : Plan} {graph : DependencyGraph} {subject : Subject} {kind : DocumentKind}
variable {document : Document}

/-- The documents of a type are those of its generated name. -/
theorem isFiled_documents : (subject.documents plan graph).IsFiled subject.mapping.targetName := by
  have empty := Artifacts.isFiled_empty subject.mapping.targetName
  unfold documents
  refine ⟨(Artifacts.targetName_foldl_receive _).trans empty.named, fun kind => ?_⟩
  rw [Artifacts.document?_foldl_receive, Option.isSome_map]
  exact empty.kinds kind

theorem hasDocument_of_document?
    (found : (subject.documents plan graph).document? kind = some document)
    : subject.hasDocument kind = true := by
  have has : ((subject.documents plan graph).document? kind).isSome = true := by rw [found]; rfl
  exact decide_eq_true ((isFiled_documents.kinds kind).mp has)

section
variable (standard : plan.templates = []) (paths : plan.HasPaths)
variable (plain : subject.IsPlain plan.settings)
include standard paths plain

/-- The body of a document of a type states the signatures of the type's fields. -/
theorem ofText_body (whole : Contribution.IsWhole plan subject)
    (found : (subject.documents plan graph).document? kind = some document)
    : Statement.ofText document.body.toList
      = subject.signatures.flatMap fun signature => signature.stated kind := by
  have quiet (place : Section) (other : place ∉ [.preamble, .header, .fields])
      : ((document.fragments place).flatMap fun text => Statement.ofText text.toList) = [] := by
    simp only [List.mem_cons, List.not_mem_nil, or_false, not_or] at other
    obtain ⟨notPreamble, notHeader, outside⟩ := other
    rw [fragments_of_document? found fun same => absurd same notPreamble,
      List.flatMap_eq_nil_iff]
    intro text member
    obtain ⟨contribution, made, placed⟩ := List.mem_filterMap.mp member
    exact Contribution.ofText_of_placed? standard paths plain made placed outside
      fun same => absurd same notHeader
  have states (contributions : List Contribution)
      : ((contributions.filterMap (Contribution.placed? kind .fields)).flatMap fun text =>
            Statement.ofText text.toList)
        = contributions.flatMap (Contribution.statements kind) := by
    induction contributions with
    | nil => rfl
    | cons contribution rest ih =>
        rw [List.flatMap_cons, ← ih, Contribution.statements]
        cases placed : contribution.placed? kind .fields with
        | none => rw [List.filterMap_cons_none placed]; rfl
        | some text => rw [List.filterMap_cons_some placed]; rfl
  have placed
      : document.fragments .fields
        = (Contribution.script plan subject).filterMap (Contribution.placed? kind .fields) :=
    fragments_of_document? found fun same => nomatch same
  have fields := Contribution.statements_ofSubject standard paths plain whole
    (hasDocument_of_document? found)
  unfold Document.body
  rw [Document.ofText_textOf]
  simp only [List.flatMap_cons, List.flatMap_nil]
  rw [quiet .interfaces (by decide), quiet .possibleTypes (by decide), quiet .includes (by decide),
    quiet .defMethods (by decide), quiet .postamble (by decide),
    placed, states, ← fields]
  simp only [List.nil_append, List.append_nil]
  rfl

/-- The opening of a document of a type states nothing when the settings stay in their lines. -/
theorem ofText_opening (stays : plan.settings.StaysInLines)
    (bases
      : ∀ target mapping,
          plan.classified.byTarget? target = some mapping →
            Continues target ∧ Continues (mapping.baseType.getD "None"))
    (found : (subject.documents plan graph).document? kind = some document)
    : Statement.ofText document.opening.toList = [] := by
  have placed {place : Section} (outside : place = .preamble → kind ≠ .schema)
      (notFields : place ≠ .fields)
      : ((document.fragments place).flatMap fun text => Statement.ofText text.toList) = [] := by
    rw [fragments_of_document? found outside, List.flatMap_eq_nil_iff]
    intro text member
    obtain ⟨contribution, made, placed⟩ := List.mem_filterMap.mp member
    exact Contribution.ofText_of_placed? standard paths plain made placed notFields fun _ => stays
  have preamble
      : ((document.fragments .preamble).flatMap fun text => Statement.ofText text.toList) = [] := by
    by_cases schema : kind = .schema
    · subst schema
      rw [← Option.some.inj found, List.flatMap_eq_nil_iff]
      intro text member
      obtain ⟨contribution, made, target, declared, rfl⟩ := mem_preamble.mp member
      apply Plan.ofText_declaration paths
      · rcases Contribution.declared?_eq_some.mp declared with ⟨tracked, -⟩ | rfl
        · cases contribution with
          | reference other =>
              simp only [Contribution.tracked?, Option.ite_none_right_eq_some,
                Option.some.injEq] at tracked
              obtain ⟨tracked, rfl⟩ := tracked
              unfold Classified.isTracked at tracked
              split at tracked
              case h_1 => cases tracked
              case h_2 mapping known => exact (bases other mapping known).1
          | _ => cases tracked
        · obtain ⟨-, mention, -, mapping, known, rfl⟩ :=
            (Contribution.isBodyOf_or_isClosing made).resolve_right id
          obtain ⟨name, -, known⟩ := Classified.lookupValue_eq_ok.mp known
          exact paths.targets known
      · exact fun mapping known => (bases target mapping known).2
    · exact placed (fun _ => schema) (by decide)
  unfold Document.opening
  rw [Document.ofText_textOf]
  simp only [List.flatMap_cons, List.flatMap_nil]
  rw [preamble, placed (by simp) (by decide)]
  rfl

end

end Subject

end RubySchema
