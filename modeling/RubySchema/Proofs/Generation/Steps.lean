import RubySchema.Generation.Contribution
import RubySchema.Proofs.Outcome

/-!
The steps of a type: all that can be made of them, with what it was made from, and what they are
when none fails. The closings of its documents come last, and until then nothing but its references
and the members of a union declares a name.
-/

namespace RubySchema

open Text

def Steps.All (holds : Contribution → Prop) (steps : Steps) : Prop :=
  ∀ contribution, .ok contribution ∈ steps → holds contribution

namespace Steps

variable {holds : Contribution → Prop} {first second : Steps}

theorem all_nil : All holds [] :=
  fun _ member => (nomatch member)

theorem all_cons {contribution : Contribution} (here : holds contribution)
    (later : All holds second) : All holds (.ok contribution :: second) := by
  intro other member
  rcases List.mem_cons.mp member with same | member
  · cases same
    exact here
  · exact later other member

theorem all_error (cause : Error) : All holds [.error cause] := by
  intro other member
  cases List.mem_singleton.mp member

theorem All.append (earlier : All holds first) (later : All holds second)
    : All holds (first ++ second) := by
  intro other member
  rcases List.mem_append.mp member with member | member
  · exact earlier other member
  · exact later other member

theorem all_flatMap {α : Type} {items : List α} {steps : α → Steps}
    (each : ∀ item ∈ items, All holds (steps item)) : All holds (items.flatMap steps) := by
  intro other member
  obtain ⟨item, member, made⟩ := List.mem_flatMap.mp member
  exact each item member other made

/-- What is made of a text has a property when it has for the text that comes out. -/
theorem all_fragment_of_ok {subject : Subject} {kind : DocumentKind} {place : Section}
    {text : Except Error String}
    (here : ∀ shown, text = .ok shown → holds (.fragment kind place shown))
    : All holds (subject.fragment kind place text) := by
  unfold Subject.fragment
  split
  · cases made : text with
    | ok shown => exact all_cons (here shown made) all_nil
    | error cause => exact all_error cause
  · exact all_nil

theorem all_fragment {subject : Subject} {kind : DocumentKind} {place : Section}
    {text : Except Error String} (here : ∀ shown, holds (.fragment kind place shown))
    : All holds (subject.fragment kind place text) :=
  all_fragment_of_ok fun shown _ => here shown

theorem all_fragment_ok {subject : Subject} {kind : DocumentKind} {place : Section}
    {shown : String} (here : holds (.fragment kind place shown))
    : All holds (subject.fragment kind place (.ok shown)) :=
  all_fragment_of_ok fun _ same => Except.ok.inj same ▸ here

end Steps

def Steps.AreMade (steps : Steps) : Prop :=
  ∀ step ∈ steps, Succeeds step

namespace Steps

variable {first second : Steps}

theorem areMade_nil : AreMade [] :=
  fun _ member => (nomatch member)

theorem not_areMade_error (cause : Error) : ¬AreMade [.error cause] :=
  fun made => nomatch made _ (List.mem_singleton_self _)

theorem AreMade.cons (later : second.AreMade) (contribution : Contribution)
    : AreMade (.ok contribution :: second) := by
  intro step member
  rcases List.mem_cons.mp member with rfl | member
  · exact succeeds_ok contribution
  · exact later step member

theorem AreMade.append (earlier : first.AreMade) (later : second.AreMade)
    : AreMade (first ++ second) := by
  intro step member
  rcases List.mem_append.mp member with member | member
  · exact earlier step member
  · exact later step member

theorem areMade_flatMap {α : Type} {items : List α} {steps : α → Steps}
    (each : ∀ item ∈ items, (steps item).AreMade) : AreMade (items.flatMap steps) := by
  intro step member
  obtain ⟨item, among, made⟩ := List.mem_flatMap.mp member
  exact each item among step made

theorem areMade_fragment (subject : Subject) (kind : DocumentKind) (place : Section)
    {text : Except Error String} (made : Succeeds text)
    : AreMade (subject.fragment kind place text) := by
  unfold Subject.fragment
  split
  · intro step member
    rw [List.mem_singleton.mp member]
    exact succeeds_map_iff.mpr made
  · exact areMade_nil

/-- A fragment that is made has a text. -/
theorem AreMade.exists_text {subject : Subject} {kind : DocumentKind} {place : Section}
    {text : Except Error String} (made : (subject.fragment kind place text).AreMade)
    (has : subject.hasDocument kind = true) : ∃ shown, text = .ok shown := by
  unfold Subject.fragment at made
  rw [if_pos has] at made
  exact succeeds_map_iff.mp (made _ List.mem_cons_self)

end Steps

/-- Every type has a schema document. -/
theorem Subject.hasDocument_schema (subject : Subject) : subject.hasDocument .schema = true := by
  unfold Subject.hasDocument Artifacts.kindsFor
  split <;> rfl

theorem Subject.fragment_schema (subject : Subject) (place : Section) (text : Except Error String)
    : subject.fragment .schema place text = [text.map (Contribution.fragment .schema place)] :=
  if_pos subject.hasDocument_schema

namespace Contribution

/-- A contribution in front of the ends of a type's documents that declares no name by itself. What
it lists is a field of the type.
-/
def IsNoDeclaration (subject : Subject) : Contribution → Prop
  | .fragment _ place _ => place ≠ .preamble
  | .reference _ => True
  | .declaration _ => False
  | .listed field _ => ∃ name, field = subject.mapping.schemaName ++ "." ++ name
  | .closing _ _ => False

/-- The name is that of a member of a union. -/
def IsMemberTarget (plan : Plan) (subject : Subject) (target : String) : Prop :=
  subject.type.kind = .union
    ∧ ∃ mention ∈ subject.type.possibleTypes,
        ∃ mapping,
          plan.classified.lookupValue mention.name = .ok mapping ∧ mapping.targetName = target

/-- A contribution in front of the ends of a type's documents, which declares members of a union
only.
-/
def IsBodyOf (plan : Plan) (subject : Subject) : Contribution → Prop
  | .declaration target => IsMemberTarget plan subject target
  | other => other.IsNoDeclaration subject

def IsClosing : Contribution → Prop
  | .closing _ _ => True
  | _ => False

def IsWhole (plan : Plan) (subject : Subject) : Prop :=
  ∀ step ∈ ofSubject plan subject, Succeeds step

def script (plan : Plan) (subject : Subject) : List Contribution :=
  (ofSubject plan subject).filterMap Except.toOption

variable {plan : Plan} {subject : Subject}

-----------------------------------------------------------------------------------------
-- What can be made
-----------------------------------------------------------------------------------------

def headerPage (plan : Plan) (subject : Subject) : DocumentKind → Page
  | .schema => .schemaHeader subject.mapping subject.type.description
  | .implementation => .implementationHeader subject.mapping
  | .spec =>
      .specHeader subject.mapping.targetName
        (Plan.factoryLine plan.settings subject.mapping.schemaName)

inductive IsOfInterface (plan : Plan) (mention : Mention) : Contribution → Prop where
  | implements {mapping : NameMapping}
      (found : plan.classified.lookupValue mention.name = .ok mapping)
    : IsOfInterface plan mention
        (.fragment .schema .interfaces
          (indent 1
            ("implements ::" ++ plan.modules.schemaNamespace ++ "::" ++ mapping.targetName)))
  | includes {mapping : NameMapping}
      (found : plan.classified.lookupValue mention.name = .ok mapping)
    : IsOfInterface plan mention
        (.fragment .implementation .interfaces
          (indent 1 ("include ::" ++ plan.modules.namespaceName ++ "::" ++ mapping.targetName)))

inductive IsOfHeaders (plan : Plan) (subject : Subject) : Contribution → Prop where
  | page {kind : DocumentKind} {text : String}
      (rendered : plan.render (headerPage plan subject kind) = .ok text)
    : IsOfHeaders plan subject (.fragment kind .header text)
  | userModule (has : subject.mapping.hasImplementation = true)
    : IsOfHeaders plan subject
        (.fragment .schema .includes
          (indent 1
            ("include ::" ++ plan.modules.namespaceName ++ "::" ++ subject.mapping.targetName)))
  | methods
    : IsOfHeaders plan subject
        (.fragment .schema .defMethods (indent 1 "definition_methods do\nend\n"))

inductive IsOfArgument (plan : Plan) (level : Nat) (argument : Field) : Contribution → Prop where
  | reference {resolved : Resolved}
      (resolves : Resolved.ofField plan.classified argument = .ok resolved)
    : IsOfArgument plan level argument (.reference resolved.targetName)
  | line {resolved : Resolved} {text : String}
      (resolves : Resolved.ofField plan.classified argument = .ok resolved)
      (made : argumentLine plan level argument resolved = .ok text)
    : IsOfArgument plan level argument (.fragment .schema .fields text)

inductive IsOfField (plan : Plan) (subject : Subject) (field : Field) : Contribution → Prop where
  | reference {resolved : Resolved}
      (resolves : Resolved.ofField plan.classified field = .ok resolved)
    : IsOfField plan subject field (.reference resolved.targetName)
  | opening {resolved : Resolved} {text : String}
      (resolves : Resolved.ofField plan.classified field = .ok resolved)
      (made : fieldLines plan field resolved = .ok text)
    : IsOfField plan subject field (.fragment .schema .fields text)
  | argument {argument : Field} {isConnection : Bool} {contribution : Contribution}
      (member : argument ∈ field.arguments)
      (made : .ok contribution ∈ ofArgument plan subject 2 isConnection argument)
    : IsOfField plan subject field contribution
  | ending : IsOfField plan subject field (.fragment .schema .fields (indent 1 "end\n"))
  | method {isShown : Bool} {resolved : Resolved} {text : String}
      (resolves : Resolved.ofField plan.classified field = .ok resolved)
      (made : methodText plan isShown field resolved = .ok text)
    : IsOfField plan subject field (.fragment .implementation .fields text)
  | spec {resolved : Resolved} {text : String}
      (resolves : Resolved.ofField plan.classified field = .ok resolved)
      (made : specText plan subject field resolved = .ok text)
    : IsOfField plan subject field (.fragment .spec .fields text)
  | listed {contribution : Contribution} (made : listing subject field = .ok contribution)
    : IsOfField plan subject field contribution

inductive IsOfMembers (plan : Plan) (subject : Subject) : Contribution → Prop where
  | declaration {target : String} (isMember : IsMemberTarget plan subject target)
    : IsOfMembers plan subject (.declaration target)
  | list {targets : List String}
      (areMembers : ∀ target ∈ targets, IsMemberTarget plan subject target)
    : IsOfMembers plan subject
        (.fragment .schema .possibleTypes
          (indent 1
            ("possible_types \\\n"
              ++ ",\n".intercalate (targets.map fun target =>
                "  ::" ++ plan.modules.schemaNamespace ++ "::" ++ target))))

inductive IsOfEnumValue (value : EnumValue) : Contribution → Prop where
  | line {description : Option String}
      (described : value.description.asTextIfAny = .ok description)
    : IsOfEnumValue value
        (.fragment .schema .fields
          (indent 1 ("value '" ++ value.name.display ++ "', ") ++ Ruby.description description))

inductive IsOfClosing : Contribution → Prop where
  | schema : IsOfClosing (.closing .schema "end\n")
  | implementation : IsOfClosing (.closing .implementation "end\n")
  | spec : IsOfClosing (.closing .spec "  end\nend\n")

inductive IsOfSubject (plan : Plan) (subject : Subject) (contribution : Contribution) : Prop where
  | interface {mention : Mention} (member : mention ∈ subject.type.interfaces)
      (made : IsOfInterface plan mention contribution)
    : IsOfSubject plan subject contribution
  | header (made : IsOfHeaders plan subject contribution)
    : IsOfSubject plan subject contribution
  | field {field : Field} (member : field ∈ subject.type.fields.getD [])
      (made : IsOfField plan subject field contribution)
    : IsOfSubject plan subject contribution
  | members (made : IsOfMembers plan subject contribution)
    : IsOfSubject plan subject contribution
  | value {value : EnumValue} (member : value ∈ subject.type.enumValues)
      (made : IsOfEnumValue value contribution)
    : IsOfSubject plan subject contribution
  | input {input : Field} (member : input ∈ subject.type.inputFields.getD [])
      (made : IsOfArgument plan 1 input contribution)
    : IsOfSubject plan subject contribution
  | closing (made : IsOfClosing contribution) : IsOfSubject plan subject contribution

theorem isOfInterface {mention : Mention}
    : Steps.All (IsOfInterface plan mention) (ofInterface plan subject mention) := by
  unfold ofInterface
  split
  · exact Steps.all_error _
  split
  · exact Steps.all_nil
  split
  case h_1 => exact Steps.all_error _
  case h_2 mapping found =>
    exact (Steps.all_fragment_ok (.implements found)).append
      (Steps.all_fragment_ok (.includes found))

theorem isOfHeaders : Steps.All (IsOfHeaders plan subject) (ofHeaders plan subject) := by
  have opening (kind : DocumentKind)
      : Steps.All (IsOfHeaders plan subject)
          (subject.fragment kind .header (plan.render (headerPage plan subject kind))) :=
    Steps.all_fragment_of_ok fun _ rendered => .page rendered
  unfold ofHeaders
  refine (((Steps.All.append (opening .schema) ?_).append ?_).append (opening .implementation)).append
    (opening .spec)
  · split
    case isTrue has => exact Steps.all_fragment_ok (.userModule has)
    case isFalse => exact Steps.all_nil
  · split
    · exact Steps.all_fragment_ok .methods
    · exact Steps.all_nil

theorem isOfArgument {level : Nat} {isConnection : Bool} {argument : Field}
    : Steps.All (IsOfArgument plan level argument)
        (ofArgument plan subject level isConnection argument) := by
  unfold ofArgument
  split
  · exact Steps.all_error _
  · exact Steps.all_nil
  unfold ofKeptArgument
  split
  case h_1 => exact Steps.all_error _
  case h_2 resolved resolves =>
    apply Steps.All.append
    · exact Steps.all_cons (.reference resolves)
        (Steps.all_fragment_of_ok fun _ made => .line resolves made)
    · split
      · exact Steps.all_nil
      · exact Steps.all_error _

theorem isOfField {field : Field} {position : Nat}
    : Steps.All (IsOfField plan subject field) (ofField plan subject field position) := by
  unfold ofField
  split
  · exact Steps.all_nil
  unfold ofKeptField
  split
  case h_1 => exact Steps.all_error _
  case h_2 resolved resolves =>
    refine ((((Steps.All.append ?_ ?_).append ?_).append ?_).append ?_).append ?_
    · exact Steps.all_cons (.reference resolves)
        (Steps.all_fragment_of_ok fun _ made => .opening resolves made)
    · exact Steps.all_flatMap fun argument member _ made => .argument member made
    · exact Steps.all_fragment_of_ok fun _ same => Except.ok.inj same ▸ .ending
    · exact Steps.all_fragment_of_ok fun _ made => .method resolves made
    · exact Steps.all_fragment_of_ok fun _ made => .spec resolves made
    · cases made : listing subject field with
      | error cause => exact Steps.all_error cause
      | ok contribution => exact Steps.all_cons (.listed made) Steps.all_nil

/-- The members of a union that are declared are those that are listed. -/
theorem isOfMembers : Steps.All (IsOfMembers plan subject) (ofMembers plan subject) := by
  unfold ofMembers
  dsimp only
  split
  case isTrue => exact Steps.all_nil
  case isFalse listed =>
    split
    case h_1 => exact Steps.all_error _
    case h_2 targets found =>
      have areMembers : ∀ target ∈ targets, IsMemberTarget plan subject target := by
        intro target member
        obtain ⟨mention, mentioned, found⟩ := exists_of_mem_mapM found member
        have isUnion : subject.type.kind = .union := by
          simp only [Bool.or_eq_true, not_or, bne_iff_ne, ne_eq, Decidable.not_not] at listed
          exact listed.1
        unfold memberTarget at found
        split at found
        · cases found
        · obtain ⟨mapping, known, same⟩ := bind_eq_ok.mp found
          exact ⟨isUnion, mention, mentioned, mapping, known, Except.ok.inj same⟩
      apply Steps.All.append
      · intro contribution made
        obtain ⟨target, member, same⟩ := List.mem_map.mp made
        cases same
        exact .declaration (areMembers target member)
      · exact Steps.all_fragment_ok (.list areMembers)

theorem isOfEnumValue {value : EnumValue}
    : Steps.All (IsOfEnumValue value) (ofEnumValue subject value) := by
  unfold ofEnumValue
  split
  · exact Steps.all_nil
  · apply Steps.all_fragment_of_ok
    intro text made
    obtain ⟨description, described, same⟩ := bind_eq_ok.mp made
    obtain rfl := Except.ok.inj same
    exact .line described

theorem isOfClosing : Steps.All IsOfClosing (ofClosing subject) := by
  unfold ofClosing
  refine ((Steps.all_cons .schema Steps.all_nil).append ?_).append ?_
  · split
    · exact Steps.all_cons .implementation Steps.all_nil
    · exact Steps.all_nil
  · split
    · exact Steps.all_cons .spec Steps.all_nil
    · exact Steps.all_nil

/-- What is made of the steps of a type is known by its parts. -/
theorem isOfSubject : Steps.All (IsOfSubject plan subject) (ofSubject plan subject) := by
  unfold ofSubject
  refine ((((((Steps.All.append ?_ ?_).append ?_).append ?_).append ?_)).append ?_).append ?_
  · exact Steps.all_flatMap fun mention member contribution made =>
      .interface member (isOfInterface contribution made)
  · exact fun contribution made => .header (isOfHeaders contribution made)
  · exact Steps.all_flatMap fun entry member contribution made =>
      .field (List.fst_mem_of_mem_zipIdx member) (isOfField contribution made)
  · exact fun contribution made => .members (isOfMembers contribution made)
  · exact Steps.all_flatMap fun value member contribution made =>
      .value member (isOfEnumValue contribution made)
  · exact Steps.all_flatMap fun input member contribution made =>
      .input member (isOfArgument contribution made)
  · exact fun contribution made => .closing (isOfClosing contribution made)

/-- A field is listed under its name behind that of its type. -/
theorem exists_of_listing {field : Field} {contribution : Contribution}
    (listed : listing subject field = .ok contribution)
    : ∃ name arguments,
        field.name.asText = .ok name
        ∧ contribution = .listed (subject.mapping.schemaName ++ "." ++ name) arguments := by
  unfold listing at listed
  obtain ⟨name, named, listed⟩ := bind_eq_ok.mp listed
  split at listed
  · exact ⟨name, none, named, (Except.ok.inj listed).symm⟩
  · obtain ⟨names, -, listed⟩ := bind_eq_ok.mp listed
    exact ⟨name, _, named, (Except.ok.inj listed).symm⟩

-----------------------------------------------------------------------------------------
-- What is made when no step fails
-----------------------------------------------------------------------------------------

/-- An interface that does not fail is that of nodes, or has a line in each of two documents. -/
theorem ofInterface_of_areMade {mention : Mention}
    (made : (ofInterface plan subject mention).AreMade)
    : (mention.name = .string nodeInterface ∧ ofInterface plan subject mention = [])
      ∨ mention.name ≠ .string nodeInterface
        ∧ ∃ mapping,
            plan.classified.lookupValue mention.name = .ok mapping
            ∧ ofInterface plan subject mention
              = subject.fragment .schema .interfaces
                    (.ok (indent 1
                      ("implements ::" ++ plan.modules.schemaNamespace ++ "::"
                        ++ mapping.targetName)))
                  ++ subject.fragment .implementation .interfaces
                    (.ok (indent 1
                      ("include ::" ++ plan.modules.namespaceName ++ "::"
                        ++ mapping.targetName))) := by
  unfold ofInterface at made ⊢
  split
  case isTrue stray =>
    rw [if_pos stray] at made
    exact absurd made (Steps.not_areMade_error _)
  case isFalse proper =>
    rw [if_neg proper] at made
    split
    case isTrue node => exact .inl ⟨beq_iff_eq.mp node, rfl⟩
    case isFalse other =>
      rw [if_neg other] at made
      refine .inr ⟨fun same => other (beq_iff_eq.mpr same), ?_⟩
      cases found : plan.classified.lookupValue mention.name with
      | error cause =>
          rw [found] at made
          exact absurd made (Steps.not_areMade_error _)
      | ok mapping => exact ⟨mapping, rfl, rfl⟩

/-- An argument that is kept and does not fail is a reference and a line. What is made of its
parameter is only checked.
-/
theorem ofKeptArgument_of_areMade {level : Nat} {argument : Field}
    (made : (ofKeptArgument plan subject level argument).AreMade)
    : ∃ resolved text,
        Resolved.ofField plan.classified argument = .ok resolved
        ∧ argumentLine plan level argument resolved = .ok text
        ∧ ofKeptArgument plan subject level argument
          = .ok (.reference resolved.targetName) :: subject.fragment .schema .fields (.ok text) := by
  unfold ofKeptArgument at made ⊢
  cases resolves : Resolved.ofField plan.classified argument with
  | error cause =>
      rw [resolves] at made
      exact absurd made (Steps.not_areMade_error _)
  | ok resolved =>
      rw [resolves] at made
      obtain ⟨line, checked⟩ := List.forall_mem_append.mp made
      obtain ⟨text, shown⟩ :=
        Steps.AreMade.exists_text (List.forall_mem_cons.mp line).2 subject.hasDocument_schema
      refine ⟨resolved, text, rfl, shown, ?_⟩
      dsimp only
      rw [shown]
      split at checked
      case h_1 => rw [List.append_nil]
      case h_2 => exact absurd checked (Steps.not_areMade_error _)

/-- A field that is kept and does not fail opens with a text and is listed. -/
theorem ofKeptField_of_areMade {isShown : Bool} {field : Field}
    (made : (ofKeptField plan subject isShown field).AreMade)
    : ∃ resolved text name arguments,
        Resolved.ofField plan.classified field = .ok resolved
        ∧ fieldLines plan field resolved = .ok text
        ∧ listing subject field = .ok (.listed name arguments)
        ∧ ofKeptField plan subject isShown field
          = .ok (.reference resolved.targetName) :: subject.fragment .schema .fields (.ok text)
              ++ field.arguments.flatMap (ofArgument plan subject 2 resolved.isConnection)
              ++ subject.fragment .schema .fields (.ok (indent 1 "end\n"))
              ++ subject.fragment .implementation .fields (methodText plan isShown field resolved)
              ++ subject.fragment .spec .fields (specText plan subject field resolved)
              ++ [.ok (.listed name arguments)] := by
  unfold ofKeptField at made ⊢
  cases resolves : Resolved.ofField plan.classified field with
  | error cause =>
      rw [resolves] at made
      exact absurd made (Steps.not_areMade_error _)
  | ok resolved =>
      rw [resolves] at made
      simp only [Steps.AreMade, List.forall_mem_append] at made
      obtain ⟨⟨⟨⟨⟨opening, -⟩, -⟩, -⟩, -⟩, last⟩ := made
      obtain ⟨text, shown⟩ :=
        Steps.AreMade.exists_text (List.forall_mem_cons.mp opening).2 subject.hasDocument_schema
      obtain ⟨contribution, listed⟩ := last _ (List.mem_singleton_self _)
      obtain ⟨name, arguments, -, rfl⟩ := exists_of_listing listed
      exact ⟨resolved, text, _, arguments, rfl, shown, listed, by dsimp only; rw [shown, listed]⟩

/-- What is read of the steps of fields one after another is read of those that are kept, by
induction on the fields.
-/
theorem read_fields {α : Type} {read : Steps → List α} {value : Field → List α}
    (nothing : read [] = [])
    (append : ∀ first second : Steps, read (first ++ second) = read first ++ read second)
    {fields : List Field} {start : Nat}
    (each
      : ∀ field ∈ fields, ∀ isShown,
          (ofKeptField plan subject isShown field).AreMade
          → read (ofKeptField plan subject isShown field) = value field)
    (made
      : Steps.AreMade ((fields.zipIdx start).flatMap fun entry =>
          ofField plan subject entry.1 entry.2))
    : read ((fields.zipIdx start).flatMap fun entry => ofField plan subject entry.1 entry.2)
      = (fields.filter fun field => !isFieldLeftOut subject field).flatMap value := by
  induction fields generalizing start with
  | nil => exact nothing
  | cons field rest ih =>
      rw [List.zipIdx_cons, List.flatMap_cons] at made ⊢
      obtain ⟨here, later⟩ := List.forall_mem_append.mp made
      obtain ⟨eachHere, eachLater⟩ := List.forall_mem_cons.mp each
      rw [append, ih eachLater later]
      unfold ofField at here ⊢
      cases out : isFieldLeftOut subject field with
      | true => simp [out, nothing]
      | false =>
          rw [out] at here
          simp [out, eachHere _ here]

-----------------------------------------------------------------------------------------
-- Bodies and ends
-----------------------------------------------------------------------------------------

theorem IsOfInterface.isBodyOf {mention : Mention} {contribution : Contribution}
    (made : IsOfInterface plan mention contribution) : contribution.IsBodyOf plan subject := by
  cases made <;> simp [IsBodyOf, IsNoDeclaration]

theorem IsOfHeaders.isBodyOf {contribution : Contribution}
    (made : IsOfHeaders plan subject contribution) : contribution.IsBodyOf plan subject := by
  cases made <;> simp [IsBodyOf, IsNoDeclaration]

/-- An argument refers to its type and has a line. -/
theorem IsOfArgument.isBodyOf {level : Nat} {argument : Field} {contribution : Contribution}
    (made : IsOfArgument plan level argument contribution) : contribution.IsBodyOf plan subject := by
  cases made <;> simp [IsBodyOf, IsNoDeclaration]

/-- A field refers to its type and to those of its arguments, and has texts. -/
theorem IsOfField.isBodyOf {field : Field} {contribution : Contribution}
    (made : IsOfField plan subject field contribution) : contribution.IsBodyOf plan subject := by
  cases made with
  | reference => trivial
  | opening | ending | method | spec => simp [IsBodyOf, IsNoDeclaration]
  | argument _ inner => exact (isOfArgument contribution inner).isBodyOf
  | listed listed =>
      -- a field is listed under the name of its type
      obtain ⟨name, arguments, -, rfl⟩ := exists_of_listing listed
      exact ⟨name, rfl⟩

/-- The members of a union are declared, and nothing else is. -/
theorem IsOfMembers.isBodyOf {contribution : Contribution}
    (made : IsOfMembers plan subject contribution) : contribution.IsBodyOf plan subject := by
  cases made with
  | declaration isMember => exact isMember
  | list => simp [IsBodyOf, IsNoDeclaration]

theorem IsOfEnumValue.isBodyOf {value : EnumValue} {contribution : Contribution}
    (made : IsOfEnumValue value contribution) : contribution.IsBodyOf plan subject := by
  cases made
  simp [IsBodyOf, IsNoDeclaration]

theorem IsOfClosing.isClosing {contribution : Contribution} (made : IsOfClosing contribution)
    : contribution.IsClosing := by
  cases made <;> trivial

def ofBody (plan : Plan) (subject : Subject) : Steps :=
  subject.type.interfaces.flatMap (ofInterface plan subject)
    ++ ofHeaders plan subject
    ++ (subject.type.fields.getD []).zipIdx.flatMap (fun (field, position) =>
      ofField plan subject field position)
    ++ ofMembers plan subject
    ++ subject.type.enumValues.flatMap (ofEnumValue subject)
    ++ (subject.type.inputFields.getD []).flatMap (ofArgument plan subject 1 false)

/-- The ends of its documents are the last that a type contributes. -/
theorem ofSubject_eq : ofSubject plan subject = ofBody plan subject ++ ofClosing subject :=
  rfl

/-- In front of the ends of its documents, a type declares members of a union only. -/
theorem all_ofBody : Steps.All (IsBodyOf plan subject) (ofBody plan subject) := by
  unfold ofBody
  refine (((((Steps.All.append ?_ ?_).append ?_).append ?_).append ?_)).append ?_
  · exact Steps.all_flatMap fun _ _ _ made => (isOfInterface _ made).isBodyOf
  · exact fun _ made => (isOfHeaders _ made).isBodyOf
  · exact Steps.all_flatMap fun _ _ _ made => (isOfField _ made).isBodyOf
  · exact fun _ made => (isOfMembers _ made).isBodyOf
  · exact Steps.all_flatMap fun _ _ _ made => (isOfEnumValue _ made).isBodyOf
  · exact Steps.all_flatMap fun _ _ _ made => (isOfArgument _ made).isBodyOf

/-- The steps of a whole type are what it contributes. -/
theorem IsWhole.ofSubject_eq (whole : IsWhole plan subject)
    : ofSubject plan subject = (script plan subject).map .ok :=
  eq_map_ok_of_succeeds whole

/-- What a type contributes is what its steps make. -/
theorem mem_script {contribution : Contribution}
    : contribution ∈ script plan subject ↔ .ok contribution ∈ ofSubject plan subject := by
  unfold script
  rw [List.mem_filterMap]
  constructor
  · rintro ⟨step, member, same⟩
    cases step with
    | error cause => cases same
    | ok value => exact Option.some.inj same ▸ member
  · intro member
    exact ⟨.ok contribution, member, rfl⟩

/-- A type contributes to the bodies of its documents, declares members of a union, and ends its
documents.
-/
theorem isBodyOf_or_isClosing {contribution : Contribution}
    (member : contribution ∈ script plan subject)
    : contribution.IsBodyOf plan subject ∨ contribution.IsClosing := by
  have made := mem_script.mp member
  rw [ofSubject_eq] at made
  rcases List.mem_append.mp made with made | made
  · exact .inl (all_ofBody contribution made)
  · exact .inr (isOfClosing contribution made).isClosing

end Contribution

end RubySchema
