import RubySchema.Proofs.Example.Current
import RubySchema.Proofs.Generation.Parallel
import RubySchema.Proofs.Generation.Totality

/-!
What deprecated members leave behind. A type contributes the same without its deprecated members,
but for the examples of specs, which show them, and for the arguments of listed fields.
-/

namespace RubySchema

def Plan.current (plan : Plan) : Plan :=
  { plan with schema := plan.schema.current }

def Subject.current (subject : Subject) : Subject :=
  { subject with type := subject.type.current }

namespace Contribution

variable {plan : Plan} {subject : Subject} {field argument : Field} {resolved : Resolved}

-----------------------------------------------------------------------------------------
-- Arguments
-----------------------------------------------------------------------------------------

theorem isLeftOut_current (isConnection : Bool) (argument : Field)
    : isLeftOut isConnection argument.current = isLeftOut isConnection argument := by
  unfold isLeftOut
  rw [Field.isDeprecated_current, Field.name_current]

theorem defaultLiteral_current (argument : Field) (resolved : Resolved)
    : defaultLiteral argument.current resolved = defaultLiteral argument resolved := by
  unfold defaultLiteral
  rw [Field.defaultValue_current]

theorem parameter_current (plan : Plan) (argument : Field) (resolved : Resolved)
    : parameter plan.current argument.current resolved = parameter plan argument resolved := by
  unfold parameter
  rw [defaultLiteral_current, Field.name_current, Field.description_current]
  rfl

theorem ofArgument_current (plan : Plan) (subject : Subject) (level : Nat) (isConnection : Bool)
    (argument : Field)
    : ofArgument plan.current subject.current level isConnection argument.current
      = ofArgument plan subject level isConnection argument := by
  have line (resolved : Resolved)
      : argumentLine plan.current level argument.current resolved
        = argumentLine plan level argument resolved := by
    unfold argumentLine
    rw [defaultLiteral_current, Field.name_current, Field.description_current]
    rfl
  unfold ofArgument ofKeptArgument
  rw [isLeftOut_current, Resolved.ofField_current]
  simp only [line, parameter_current]
  rfl

/-- Arguments contribute the same without the deprecated ones, by induction on the arguments. -/
theorem flatMap_ofArgument_current (plan : Plan) (subject : Subject) (level : Nat)
    (isConnection : Bool) (arguments : List Field)
    : (Field.currents arguments).flatMap
          (ofArgument plan.current subject.current level isConnection)
      = arguments.flatMap (ofArgument plan subject level isConnection) := by
  induction arguments with
  | nil => rfl
  | cons argument rest ih =>
      rw [List.flatMap_cons]
      cases deprecated : argument.isDeprecated with
      | true =>
          have none : ofArgument plan subject level isConnection argument = [] := by
            unfold ofArgument isLeftOut
            rw [if_pos deprecated]
          rw [Field.currents_of_deprecated deprecated, none, ih]
          rfl
      | false =>
          rw [Field.currents_of_not_deprecated deprecated, List.flatMap_cons, ofArgument_current,
            ih]

/-- Tests that no deprecated field passes keep the same fields when those are left out before, by
induction on the fields.
-/
theorem filterM_currents {test otherTest : Field → Except Error Bool}
    (same : ∀ field, otherTest field.current = test field)
    (out : ∀ field, field.isDeprecated = true → test field = .ok false) (fields : List Field)
    : (Field.currents fields).filterM otherTest = (fields.filterM test).map (List.map Field.current)
    := by
  have backwards (kept : List Field)
      : (Field.currents fields).filterAuxM otherTest (kept.map Field.current)
        = (fields.filterAuxM test kept).map (List.map Field.current) := by
    induction fields generalizing kept with
    | nil => rfl
    | cons field rest ih =>
        cases deprecated : field.isDeprecated with
        | true =>
            rw [Field.currents_of_deprecated deprecated, ih, List.filterAuxM, out field deprecated]
            rfl
        | false =>
            rw [Field.currents_of_not_deprecated deprecated, List.filterAuxM, List.filterAuxM,
              same field]
            cases test field with
            | error cause => rfl
            | ok passes =>
                cases passes with
                | true => exact ih (field :: kept)
                | false => exact ih kept
  have whole := backwards []
  rw [List.map_nil] at whole
  rw [List.filterM, List.filterM, whole]
  cases fields.filterAuxM test [] with
  | error cause => rfl
  | ok kept => exact congrArg Except.ok List.map_reverse.symm

theorem parameters_current (plan : Plan) (isConnection : Bool) (arguments : List Field)
    : parameters plan.current isConnection (Field.currents arguments)
      = parameters plan isConnection arguments := by
  let test (argument : Field) : Except Error Bool := do
    return !(← isLeftOut isConnection argument)
  have same (argument : Field) : test argument.current = test argument := by
    simp only [test, isLeftOut_current]
  have out (argument : Field) (deprecated : argument.isDeprecated = true)
      : test argument = .ok false := by
    simp only [test, isLeftOut, if_pos deprecated]
    rfl
  unfold parameters
  rw [filterM_currents same out]
  show ((arguments.filterM test).map _ >>= _) = (arguments.filterM test >>= _)
  cases arguments.filterM test with
  | error cause => rfl
  | ok kept =>
      show (kept.map Field.current).mapM _ = kept.mapM _
      rw [List.mapM_map]
      congr 1
      funext argument
      show (Resolved.ofField plan.classified argument.current >>= _) = _
      rw [Resolved.ofField_current]
      simp only [parameter_current]

-----------------------------------------------------------------------------------------
-- Pages
-----------------------------------------------------------------------------------------

/-- The page of a field with what standard texts show of it: neither marks nor arguments. -/
def plainPage (plan : Plan) (field : Field) (resolved : Resolved) : Except Error FieldPage := do
  return {
    field := default
    name := ← field.name.asText
    parameters := ← parameters plan resolved.isConnection field.arguments
    description := ← onelineValue field.description
    returns := Notation.short plan.modules.schemaNamespace resolved
    marks := Marks.none
    argumentMarks := []
  }

/-- Once an example has shown the arguments, all of them have marks, and a page is made when its
texts are.
-/
theorem fieldPage_eq (plan : Plan) (field : Field) (resolved : Resolved)
    : fieldPage plan true field resolved
      = (plainPage plan field resolved).map fun page =>
        { page with
          field
          marks := { isArray := resolved.isArray, isConnection := resolved.isConnection }
          argumentMarks :=
            field.arguments.map fun argument =>
              Marks.none.after (Resolved.ofField plan.classified argument) } := by
  unfold fieldPage plainPage
  cases field.name.asText with
  | error cause => rfl
  | ok name =>
  show (parameters plan resolved.isConnection field.arguments >>= _)
    = Except.map _ (parameters plan resolved.isConnection field.arguments >>= _)
  cases made : parameters plan resolved.isConnection field.arguments with
  | error cause => rfl
  | ok parameters =>
  have marks
      : field.arguments.mapM (argumentMarks plan true resolved.isConnection)
        = .ok (field.arguments.map fun argument =>
          Marks.none.after (Resolved.ofField plan.classified argument)) := by
    obtain ⟨kept, kepts, -⟩ := bind_eq_ok.mp made
    apply mapM_eq_ok
    intro argument member
    obtain ⟨passes, tested⟩ := succeeds_of_filterM ⟨kept, kepts⟩ argument member
    obtain ⟨out, left, -⟩ := bind_eq_ok.mp tested
    unfold argumentMarks
    rw [left]
    rfl
  show (onelineValue field.description >>= _) = Except.map _ (onelineValue field.description >>= _)
  rw [marks]
  cases onelineValue field.description <;> rfl

theorem plainPage_current (plan : Plan) (field : Field) (resolved : Resolved)
    : plainPage plan.current field.current resolved = plainPage plan field resolved := by
  unfold plainPage
  rw [Field.name_current, Field.arguments_current, Field.description_current, parameters_current]
  rfl

theorem succeeds_fieldPage_current
    : Succeeds (fieldPage plan.current true field.current resolved)
      ↔ Succeeds (fieldPage plan true field resolved) := by
  rw [fieldPage_eq, fieldPage_eq, succeeds_map_iff, succeeds_map_iff, plainPage_current]

theorem methodText_current (none : plan.templates = []) (field : Field) (resolved : Resolved)
    : methodText plan.current true field.current resolved
      = methodText plan true field resolved := by
  have otherNone : plan.current.templates = [] := none
  unfold methodText
  rw [fieldPage_eq, fieldPage_eq, plainPage_current]
  cases plainPage plan field resolved with
  | error cause => rfl
  | ok page =>
      show (plan.current.render _ >>= _) = (plan.render _ >>= _)
      rw [render_eq_standardText none, render_eq_standardText otherNone]
      rfl

-----------------------------------------------------------------------------------------
-- Fields
-----------------------------------------------------------------------------------------

/-- The example of a field is made from those of its type and of its arguments, below no ancestors.
-/
theorem fieldExample_eq (plan : Plan) (field : Field)
    : fieldExample plan field
      = do
        let expander : Expander := { schema := plan.schema, classified := plan.classified }
        let exampleOf := expander.exampleBelow plan.settings.maxDepth 0 Guard.empty.names
        let value ← expander.fieldExample exampleOf field
        let arguments ← expander.argumentExamples exampleOf field.arguments
        return .cons field.name value arguments .nil := by
  unfold fieldExample
  dsimp only
  rw [Expander.fromEmpty_of_ofExcept (Expander.fieldValue_eq (Expander.expandIn_eq _ _ 0 _) field),
    Expander.fromEmpty_of_ofExcept
      (Expander.argumentEntries_eq (Expander.expandIn_eq _ _ 0 _) field.arguments)]

/-- A field that has an example has one without deprecated members, which is a part of it. -/
theorem fieldExample_current
    (single : ∀ type ∈ plan.schema.types, type.HasOneKindOfMembers) {entries : Entries}
    (made : fieldExample plan field = .ok entries)
    : ∃ shown,
        fieldExample plan.current field.current = .ok shown
        ∧ shown.outlines.ArePartOf entries.outlines := by
  rw [fieldExample_eq] at made ⊢
  have below :=
    @Expander.isShownInPart_of_single ⟨plan.schema, plan.classified⟩ single plan.settings.maxDepth
      0 Guard.empty.names
  obtain ⟨value, valued, made⟩ := bind_eq_ok.mp made
  obtain ⟨arguments, given, made⟩ := bind_eq_ok.mp made
  cases made
  obtain ⟨part, parted, isPart⟩ :=
    Expander.isShownInPart_fieldExample below field value valued
  obtain ⟨passed, passes, arePassed⟩ :=
    Expander.areShownInPart_argumentExamples below field.arguments arguments given
  rw [Field.arguments_current, Field.name_current]
  exact ⟨_, bind_eq_ok.mpr ⟨part, parted, bind_eq_ok.mpr ⟨passed, passes, rfl⟩⟩,
    .cons _ isPart arePassed .nil⟩

/-- The example of a field can be shown in a spec, and its arguments can be listed. -/
structure IsPresented (plan : Plan) (subject : Subject) (field : Field) : Prop where
  shown
    : subject.hasDocument .spec = true →
        ∃ entries,
          fieldExample plan field = .ok entries
          ∧ Succeeds (entries.selection plan.settings.maxDepth)
  listed : ∀ argument ∈ field.arguments, Succeeds argument.name.asText

/-- The last steps of a kept field: its example and its entry in the list. -/
def ofPresentation (plan : Plan) (subject : Subject) (field : Field) (resolved : Resolved)
    : Steps :=
  subject.fragment .spec .fields (specText plan subject field resolved) ++ [listing subject field]

/-- The spec of a field has the same comment without deprecated members, and describes the same. -/
theorem specText_current_alike (none : plan.templates = []) {text other : String}
    (made : specText plan subject field resolved = .ok text)
    (otherMade : specText plan.current subject.current field.current resolved = .ok other)
    : Page.SameButForExamples text other := by
  have otherNone : plan.current.templates = [] := none
  obtain ⟨_, _, _, -, paged, -, rfl⟩ := exists_page_of_specText none made
  obtain ⟨_, _, _, -, otherPaged, -, rfl⟩ := exists_page_of_specText otherNone otherMade
  rw [fieldPage_eq] at paged otherPaged
  rw [plainPage_current] at otherPaged
  cases plain : plainPage plan field resolved with
  | error cause =>
      rw [plain] at paged
      cases paged
  | ok page =>
      rw [plain] at paged otherPaged
      obtain rfl := Except.ok.inj paged
      obtain rfl := Except.ok.inj otherPaged
      exact .shown page _ _ _ _

/-- A step of a spec's example is followed by one that is made where it is made. -/
theorem areFollowedBy_fragment {text otherText : Except Error String}
    (made : subject.hasDocument .spec = true → Succeeds text → Succeeds otherText)
    (alike
      : ∀ value other, text = .ok value → otherText = .ok other →
          Page.SameButForExamples value other)
    : Steps.AreFollowedBy (subject.fragment .spec .fields text)
        (subject.fragment .spec .fields otherText) := by
  unfold Subject.fragment
  split
  case isTrue has =>
    refine .cons ?_ .nil
    intro contribution shown
    cases text with
    | error cause => cases shown
    | ok value =>
        cases shown
        obtain ⟨other, rfl⟩ := made has (succeeds_ok value)
        exact ⟨_, rfl, .shown (alike value other rfl rfl)⟩
  case isFalse => exact .nil

theorem isFollowedBy_listing {other : Subject} {otherField : Field}
    (mapping : other.mapping = subject.mapping) (named : otherField.name = field.name)
    (made : Succeeds (listing subject field) → Succeeds (listing other otherField))
    : Steps.IsFollowedBy (listing subject field) (listing other otherField) := by
  intro contribution listed
  obtain ⟨following, otherListed⟩ := made ⟨contribution, listed⟩
  obtain ⟨name, arguments, here, rfl⟩ := exists_of_listing listed
  obtain ⟨otherName, otherArguments, there, rfl⟩ := exists_of_listing otherListed
  rw [named, here] at there
  cases there
  rw [mapping] at otherListed
  exact ⟨_, otherListed, .listed _ arguments otherArguments⟩

/-- What a field presents it presents without deprecated members too. -/
theorem ofPresentation_followed (none : plan.templates = [])
    (single : ∀ type ∈ plan.schema.types, type.HasOneKindOfMembers)
    : (ofPresentation plan subject field resolved).AreFollowedBy
        (ofPresentation plan.current subject.current field.current resolved) := by
  have otherNone : plan.current.templates = [] := none
  apply List.rel_append
  · refine areFollowedBy_fragment ?_ fun _ _ => specText_current_alike none
    rintro - made
    obtain ⟨⟨entries, shown, selected⟩, page⟩ := (succeeds_specText_iff none).mp made
    obtain ⟨part, parted, isPart⟩ := fieldExample_current single shown
    rw [succeeds_specText_iff otherNone, succeeds_fieldPage_current]
    exact ⟨⟨part, parted, Outlines.ArePartOf.selection _ isPart selected⟩, page⟩
  · refine .cons (isFollowedBy_listing rfl (Field.name_current field) ?_) .nil
    rw [succeeds_listing_iff, succeeds_listing_iff, Field.name_current, Field.arguments_current]
    rintro ⟨named, texts⟩
    refine ⟨named, fun argument member => ?_⟩
    obtain ⟨given, among, -, rfl⟩ := Field.mem_currents.mp member
    rw [Field.name_current]
    exact texts given among

/-- What a field presents without deprecated members it presents with them, if its example can be
shown and its arguments can be listed.
-/
theorem ofPresentation_follows (none : plan.templates = [])
    (presented : IsPresented plan subject field)
    : (ofPresentation plan.current subject.current field.current resolved).AreFollowedBy
        (ofPresentation plan subject field resolved) := by
  have otherNone : plan.current.templates = [] := none
  apply List.rel_append
  · refine areFollowedBy_fragment ?_ fun _ _ shown otherShown =>
      (specText_current_alike none otherShown shown).symm
    intro has made
    obtain ⟨-, page⟩ := (succeeds_specText_iff otherNone).mp made
    exact (succeeds_specText_iff none).mpr
      ⟨presented.shown has, succeeds_fieldPage_current.mp page⟩
  · refine .cons (isFollowedBy_listing rfl (Field.name_current field).symm ?_) .nil
    rw [succeeds_listing_iff, succeeds_listing_iff, Field.name_current]
    exact fun listed => ⟨listed.1, presented.listed⟩

/-- A field is presented when its last steps are made. -/
theorem isPresented_of_succeeds (none : plan.templates = [])
    (made : ∀ step ∈ ofPresentation plan subject field resolved, Succeeds step)
    : IsPresented plan subject field := by
  refine ⟨?_, ?_⟩
  · intro has
    have member
        : (specText plan subject field resolved).map (Contribution.fragment .spec .fields)
          ∈ ofPresentation plan subject field resolved := by
      unfold ofPresentation Subject.fragment
      rw [if_pos has]
      exact List.mem_append_left _ List.mem_cons_self
    have shown := succeeds_map_iff.mp (made _ member)
    exact ((succeeds_specText_iff none).mp shown).1
  · have listed := made (listing subject field) (List.mem_append_right _ List.mem_cons_self)
    exact (succeeds_listing_iff.mp listed).2

/-- The first steps of a kept field: its reference, its declaration and its method. -/
def ofDeclaration (plan : Plan) (subject : Subject) (field : Field) (resolved : Resolved) : Steps :=
  .ok (.reference resolved.targetName)
    :: subject.fragment .schema .fields (fieldLines plan field resolved)
    ++ field.arguments.flatMap (ofArgument plan subject 2 resolved.isConnection)
    ++ subject.fragment .schema .fields (.ok (Text.indent 1 "end\n"))
    ++ subject.fragment .implementation .fields (methodText plan true field resolved)

theorem ofKeptField_eq (resolves : Resolved.ofField plan.classified field = .ok resolved)
    : ofKeptField plan subject true field
      = ofDeclaration plan subject field resolved
        ++ ofPresentation plan subject field resolved := by
  unfold ofKeptField ofDeclaration ofPresentation
  rw [resolves]
  simp only [List.append_assoc]

/-- A field is declared the same without its deprecated arguments. -/
theorem ofDeclaration_current (none : plan.templates = []) (field : Field) (resolved : Resolved)
    : ofDeclaration plan.current subject.current field.current resolved
      = ofDeclaration plan subject field resolved := by
  have lines : fieldLines plan.current field.current resolved = fieldLines plan field resolved := by
    unfold fieldLines
    rw [Field.name_current, Field.description_current]
    rfl
  unfold ofDeclaration
  rw [lines, Field.arguments_current, flatMap_ofArgument_current, methodText_current none]
  rfl

section
variable {related : Except Error Contribution → Except Error Contribution → Prop}
variable (refl : ∀ step, related step step)
include refl

/-- A field is related to itself without deprecated members if its example and its entry in the list
are.
-/
theorem ofField_related (none : plan.templates = []) (unshown : subject.unshown = 0)
    (presented
      : isFieldLeftOut subject field = false → ∀ resolved,
          List.Forall₂ related (ofPresentation plan subject field resolved)
            (ofPresentation plan.current subject.current field.current resolved))
    (position otherPosition : Nat)
    : List.Forall₂ related (ofField plan subject field position)
        (ofField plan.current subject.current field.current otherPosition) := by
  have left : isFieldLeftOut subject.current field.current = isFieldLeftOut subject field := by
    unfold isFieldLeftOut
    rw [Field.isDeprecated_current, Field.name_current]
    rfl
  have first (position : Nat) : decide (subject.unshown ≤ position) = true := by simp [unshown]
  have otherFirst (position : Nat) : decide (subject.current.unshown ≤ position) = true :=
    first position
  unfold ofField
  rw [left, first, otherFirst]
  cases out : isFieldLeftOut subject field with
  | true => exact .nil
  | false =>
      have otherResolves
          : Resolved.ofField plan.current.classified field.current
            = Resolved.ofField plan.classified field :=
        Resolved.ofField_current plan.classified field
      cases resolves : Resolved.ofField plan.classified field with
      | error cause =>
          unfold ofKeptField
          rw [otherResolves, resolves]
          exact .cons (refl _) .nil
      | ok resolved =>
          rw [resolves] at otherResolves
          show List.Forall₂ related (ofKeptField plan subject true field)
            (ofKeptField plan.current subject.current true field.current)
          rw [ofKeptField_eq resolves, ofKeptField_eq otherResolves, ofDeclaration_current none]
          exact List.rel_append (List.forall₂_same.mpr fun step _ => refl step)
            (presented out resolved)

/-- Fields are related to those that are not deprecated: the others contribute nothing. By induction
on the fields.
-/
theorem flatMap_ofField_related (none : plan.templates = []) (unshown : subject.unshown = 0)
    (fields : List Field)
    (presented
      : ∀ field ∈ fields, isFieldLeftOut subject field = false → ∀ resolved,
          List.Forall₂ related (ofPresentation plan subject field resolved)
            (ofPresentation plan.current subject.current field.current resolved))
    (position otherPosition : Nat)
    : List.Forall₂ related
        ((fields.zipIdx position).flatMap fun (field, position) =>
          ofField plan subject field position)
        (((Field.currents fields).zipIdx otherPosition).flatMap fun (field, position) =>
          ofField plan.current subject.current field position) := by
  induction fields generalizing position otherPosition with
  | nil => exact .nil
  | cons field rest ih =>
      have later := ih fun other member => presented other (List.mem_cons_of_mem field member)
      rw [List.zipIdx_cons, List.flatMap_cons]
      dsimp only
      cases deprecated : field.isDeprecated with
      | true =>
          have out : ofField plan subject field position = [] := by
            unfold ofField isFieldLeftOut
            rw [deprecated]
            rfl
          rw [Field.currents_of_deprecated deprecated, out]
          exact later _ _
      | false =>
          rw [Field.currents_of_not_deprecated deprecated, List.zipIdx_cons, List.flatMap_cons]
          exact List.rel_append
            (ofField_related refl none unshown (presented field List.mem_cons_self) _ _)
            (later _ _)

/-- A type is related to itself without deprecated members if the examples of its fields and their
entries in the list are.
-/
theorem ofSubject_related (none : plan.templates = []) (unshown : subject.unshown = 0)
    (presented
      : ∀ field ∈ subject.type.fields.getD [], isFieldLeftOut subject field = false → ∀ resolved,
          List.Forall₂ related (ofPresentation plan subject field resolved)
            (ofPresentation plan.current subject.current field.current resolved))
    : List.Forall₂ related (ofSubject plan subject) (ofSubject plan.current subject.current) := by
  have same (steps : Steps) : List.Forall₂ related steps steps :=
    List.forall₂_same.mpr fun step _ => refl step
  have values
      : subject.current.type.enumValues.flatMap (ofEnumValue subject.current)
        = subject.type.enumValues.flatMap (ofEnumValue subject) := by
    show (subject.type.enumValues.filter fun value => !value.isDeprecated).flatMap
      (ofEnumValue subject) = _
    induction subject.type.enumValues with
    | nil => rfl
    | cons value rest ih =>
        cases deprecated : value.isDeprecated with
        | true =>
            have out : ofEnumValue subject value = [] := by
              unfold ofEnumValue
              rw [if_pos deprecated]
            simp [deprecated, out, ih]
        | false => simp [deprecated, ih]
  have inputs
      : (subject.current.type.inputFields.getD []).flatMap
          (ofArgument plan.current subject.current 1 false)
        = (subject.type.inputFields.getD []).flatMap (ofArgument plan subject 1 false) := by
    show (subject.type.current.inputFields.getD []).flatMap _ = _
    rw [TypeDef.getD_inputFields_current, flatMap_ofArgument_current]
  have fields
      : subject.current.type.fields.getD [] = Field.currents (subject.type.fields.getD []) :=
    TypeDef.getD_fields_current subject.type
  unfold ofSubject
  rw [values, inputs, fields]
  refine List.rel_append (List.rel_append (List.rel_append (List.rel_append (List.rel_append
    (List.rel_append ?_ ?_) ?_) ?_) ?_) ?_) ?_
  · exact same _
  · exact same _
  · exact flatMap_ofField_related refl none unshown _ presented 0 0
  · exact same _
  · exact same _
  · exact same _
  · exact same _

end

/-- A type is followed by itself without its deprecated members. -/
theorem ofSubject_followed (none : plan.templates = [])
    (single : ∀ type ∈ plan.schema.types, type.HasOneKindOfMembers)
    (unshown : subject.unshown = 0)
    : (ofSubject plan subject).AreFollowedBy (ofSubject plan.current subject.current) :=
  ofSubject_related Steps.isFollowedBy_refl none unshown fun _ _ _ _ =>
    ofPresentation_followed none single

/-- A type follows itself without its deprecated members, if its fields can be presented with them.
-/
theorem ofSubject_follows (none : plan.templates = []) (unshown : subject.unshown = 0)
    (presented
      : ∀ field ∈ subject.type.fields.getD [], isFieldLeftOut subject field = false →
          IsPresented plan subject field)
    : (ofSubject plan.current subject.current).AreFollowedBy (ofSubject plan subject) := by
  have refl (step : Except Error Contribution) : flip Steps.IsFollowedBy step step :=
    Steps.isFollowedBy_refl step
  apply List.Forall₂.flip
  apply ofSubject_related refl none unshown
  intro field member kept resolved
  exact List.Forall₂.flip (ofPresentation_follows none (presented field member kept))

/-- The fields of a whole type are presented. -/
theorem IsWhole.isPresented (whole : IsWhole plan subject) (none : plan.templates = [])
    (unshown : subject.unshown = 0) {field : Field} (member : field ∈ subject.type.fields.getD [])
    (kept : isFieldLeftOut subject field = false) : IsPresented plan subject field := by
  have among : field ∈ (subject.type.fields.getD []).zipIdx.map Prod.fst := by
    rwa [List.zipIdx_map_fst]
  obtain ⟨⟨other, position⟩, placed, same⟩ := List.mem_map.mp among
  obtain rfl : other = field := same
  have steps : ∀ step ∈ ofField plan subject other position, Succeeds step := by
    intro step made
    apply whole
    unfold ofSubject
    simp only [List.mem_append]
    exact .inl (.inl (.inl (.inl (.inr (List.mem_flatMap.mpr ⟨_, placed, made⟩)))))
  have first : decide (subject.unshown ≤ position) = true := by simp [unshown]
  unfold ofField at steps
  rw [kept, first] at steps
  change ∀ step ∈ ofKeptField plan subject true other, Succeeds step at steps
  cases resolves : Resolved.ofField plan.classified other with
  | error cause =>
      unfold ofKeptField at steps
      rw [resolves] at steps
      obtain ⟨_, impossible⟩ := steps _ List.mem_cons_self
      cases impossible
  | ok resolved =>
      rw [ofKeptField_eq resolves] at steps
      exact isPresented_of_succeeds none fun step made =>
        steps step (List.mem_append_right _ made)

end Contribution

end RubySchema
