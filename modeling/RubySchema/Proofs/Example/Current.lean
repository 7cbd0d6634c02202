import RubySchema.Proofs.Example.Ancestors
import RubySchema.Proofs.Example.Texts
import RubySchema.Proofs.Schema.Current

/-!
Examples without deprecated members. Whatever has an example has one in the schema without its
deprecated members too: a part of the one, whose selection can be written if that of the one can.
-/

namespace RubySchema

mutual

/-- An outline shows no more than another. Entries may be missing, and a text may stand for another.
-/
inductive Outline.IsPartOf : Outline → Outline → Prop
  | leaf (value : Json) : Outline.IsPartOf (.leaf value) (.leaf value)
  | text (text other : String) : Outline.IsPartOf (.ofText text) (.ofText other)
  | cut : Outline.IsPartOf .cut .cut
  | object {entries whole : Outlines} (parts : Outlines.ArePartOf entries whole)
    : Outline.IsPartOf (.object entries) (.object whole)
  | list {item whole : Outline} (part : Outline.IsPartOf item whole)
    : Outline.IsPartOf (.list item) (.list whole)

inductive Outlines.ArePartOf : Outlines → Outlines → Prop
  | nil : Outlines.ArePartOf .nil .nil
  | cons (name : Json) {value wholeValue : Outline} {arguments wholeArguments rest whole : Outlines}
      (part : Outline.IsPartOf value wholeValue)
      (given : Outlines.ArePartOf arguments wholeArguments)
      (later : Outlines.ArePartOf rest whole)
    : Outlines.ArePartOf (.cons name value arguments rest)
        (.cons name wholeValue wholeArguments whole)
  | skip (name : Json) (value : Outline) (arguments : Outlines) {outlines whole : Outlines}
      (later : Outlines.ArePartOf outlines whole)
    : Outlines.ArePartOf outlines (.cons name value arguments whole)

end

-----------------------------------------------------------------------------------------
-- Texts of parts
-----------------------------------------------------------------------------------------

theorem Outlines.ArePartOf.isEmpty {part whole : Outlines} (parts : part.ArePartOf whole)
    (filled : part.isEmpty = false) : whole.isEmpty = false := by
  cases parts with
  | nil => exact filled
  | cons => rfl
  | skip => rfl

mutual

/-- A part of what can be passed can be passed. -/
theorem Outline.IsPartOf.argument
    : (whole : Outline) → {part : Outline} → part.IsPartOf whole → Succeeds whole.argument
      → Succeeds part.argument
  | .leaf _, .leaf value, _, _ => succeeds_ok value.display
  | .cut, .cut, _, _ => succeeds_ok _
  | .object whole, .object _, .object parts, passed =>
      Outline.succeeds_argument_object.mpr
        (Outlines.ArePartOf.arguments whole parts (Outline.succeeds_argument_object.mp passed))
  | .list (.leaf _), _, .list (.leaf _), passed => passed
  | .list (.leaf _), _, .list (.text _ _), _ => succeeds_ok _
  | .list .cut, _, .list .cut, passed => passed
  | .list (.object whole), _, .list (.object parts), passed => by
      rw [Outline.succeeds_argument_list (.object _) nofun] at passed ⊢
      exact Outline.IsPartOf.argument (.object whole) (.object parts) passed
  | .list (.list whole), _, .list (.list part), passed => by
      rw [Outline.succeeds_argument_list (.list _) nofun] at passed ⊢
      exact Outline.IsPartOf.argument (.list whole) (.list part) passed

/-- A part of arguments that can be passed can be passed. -/
theorem Outlines.ArePartOf.arguments
    : (whole : Outlines) → {part : Outlines} → part.ArePartOf whole → Succeeds whole.arguments
      → Succeeds part.arguments
  | .nil, _, .nil, passed => passed
  | .cons _ value arguments whole, _, parts, passed => by
      obtain ⟨inner, named, shown, more⟩ := Outlines.succeeds_arguments_cons.mp passed
      cases parts with
      | cons _ part given later =>
          exact Outlines.succeeds_arguments_cons.mpr
            ⟨Outlines.ArePartOf.arguments arguments given inner,
              fun filled => named (given.isEmpty filled),
              Outline.IsPartOf.argument value part shown,
              Outlines.ArePartOf.arguments whole later more⟩
      | skip _ _ _ later => exact Outlines.ArePartOf.arguments whole later more

end

mutual

/-- A part of what can be selected can be selected. -/
theorem Outline.IsPartOf.selectionBody? {limit : Int}
    : (whole : Outline) → {part : Outline} → {level : Int} → part.IsPartOf whole
      → Succeeds (whole.selectionBody? limit level) → Succeeds (part.selectionBody? limit level)
  | .leaf _, .leaf _, _, _, _ => succeeds_ok none
  | .cut, .cut, _, _, _ => succeeds_ok _
  | .object whole, .object _, _, .object parts, selected =>
      Outline.succeeds_selectionBody?_object.mpr fun inside =>
        Outlines.ArePartOf.selection whole parts
          (Outline.succeeds_selectionBody?_object.mp selected inside)
  | .list (.leaf _), .list (.leaf _), _, _, _ => succeeds_ok none
  | .list .cut, _, _, .list .cut, selected => selected
  | .list (.object whole), _, _, .list (.object parts), selected =>
      Outline.succeeds_selectionBody?_object.mpr fun inside =>
        Outlines.ArePartOf.selection whole parts
          (Outline.succeeds_selectionBody?_object.mp selected inside)
  | .list (.list _), _, _, .list (.list _), _ => succeeds_ok _

/-- A part of fields that can be selected can be selected. -/
theorem Outlines.ArePartOf.selection {limit : Int}
    : (whole : Outlines) → {part : Outlines} → {level : Int} → part.ArePartOf whole
      → Succeeds (whole.selection limit level) → Succeeds (part.selection limit level)
  | .nil, _, _, .nil, selected => selected
  | .cons _ value arguments whole, _, _, parts, selected => by
      obtain ⟨named, passed, body, more⟩ := Outlines.succeeds_selection_cons.mp selected
      cases parts with
      | cons _ part given later =>
          exact Outlines.succeeds_selection_cons.mpr
            ⟨named, Outlines.ArePartOf.arguments arguments given passed,
              Outline.IsPartOf.selectionBody? value part body,
              Outlines.ArePartOf.selection whole later more⟩
      | skip _ _ _ later => exact Outlines.ArePartOf.selection whole later more

end

-----------------------------------------------------------------------------------------
-- Examples of current members
-----------------------------------------------------------------------------------------

theorem Resolved.ofField_current (classified : Classified) (field : Field)
    : ofField classified field.current = ofField classified field := by
  unfold ofField
  rw [Field.name_current, Field.type_current]

namespace Expander

def current (expander : Expander) : Expander :=
  { expander with schema := expander.schema.current }

def IsShownInPart (whole part : Except Error Example) : Prop :=
  ∀ value, whole = .ok value → ∃ shown, part = .ok shown ∧ shown.outline.IsPartOf value.outline

def AreShownInPart (whole part : Except Error Entries) : Prop :=
  ∀ entries, whole = .ok entries →
    ∃ shown, part = .ok shown ∧ shown.outlines.ArePartOf entries.outlines

variable {expander : Expander} {exampleOf currentOf : String → Except Error Example}

theorem isPartOf_listed {part whole : Example} (here : part.outline.IsPartOf whole.outline)
    (isArray : Bool)
    : (if isArray then Example.list part else part).outline.IsPartOf
        (if isArray then Example.list whole else whole).outline := by
  cases isArray with
  | true => exact .list here
  | false => exact here

/-- A connection to a part is a part of the connection: its own entries are the same. -/
theorem isPartOf_connected {part whole : Example} (here : part.outline.IsPartOf whole.outline)
    (isConnection : Bool)
    : (if isConnection then Example.connection part else part).outline.IsPartOf
        (if isConnection then Example.connection whole else whole).outline := by
  cases isConnection with
  | true =>
      have node : (Outlines.single "node" part.outline).ArePartOf (.single "node" whole.outline) :=
        .cons _ here .nil .nil
      exact .object (.cons _ (.list (.object node)) .nil
        (.cons _ (.object (.cons _ (.leaf _) .nil (.cons _ (.leaf _) .nil .nil))) .nil .nil))
  | false => exact here

theorem isShownInPart_argumentExample
    (below : ∀ name, IsShownInPart (exampleOf name) (currentOf name)) (base : String)
    (argument : Field)
    : IsShownInPart (argumentExample exampleOf base argument)
        (argumentExample currentOf base argument.current) := by
  unfold argumentExample
  rw [Field.defaultValue_current]
  split
  · rintro _ ⟨⟩
    exact ⟨_, rfl, .leaf _⟩
  split
  · rintro _ ⟨⟩
    exact ⟨_, rfl, .leaf _⟩
  split
  · rintro _ ⟨⟩
    exact ⟨_, rfl, .leaf _⟩
  · exact below base

/-- The arguments that are not deprecated are shown where all are, by induction on the arguments. -/
theorem areShownInPart_argumentExamples
    (below : ∀ name, IsShownInPart (exampleOf name) (currentOf name)) (arguments : List Field)
    : AreShownInPart (expander.argumentExamples exampleOf arguments)
        (expander.current.argumentExamples currentOf (Field.currents arguments)) := by
  induction arguments with
  | nil =>
      rintro _ ⟨⟩
      exact ⟨.nil, rfl, .nil⟩
  | cons argument rest ih =>
      intro entries made
      rw [argumentExamples] at made
      obtain ⟨base, based, made⟩ := bind_eq_ok.mp made
      obtain ⟨resolved, resolves, made⟩ := bind_eq_ok.mp made
      obtain ⟨value, valued, made⟩ := bind_eq_ok.mp made
      obtain ⟨more, later, made⟩ := bind_eq_ok.mp made
      cases made
      obtain ⟨shown, shows, parts⟩ := ih more later
      cases deprecated : argument.isDeprecated with
      | true =>
          rw [Field.currents_of_deprecated deprecated]
          exact ⟨shown, shows, .skip _ _ _ parts⟩
      | false =>
          obtain ⟨part, parted, isPart⟩ :=
            isShownInPart_argumentExample below _ argument value valued
          rw [Field.currents_of_not_deprecated deprecated, argumentExamples, Field.type_current,
            based, Resolved.ofField_current, Field.name_current]
          show ∃ shown, (Resolved.ofField expander.classified argument >>= _) = .ok shown ∧ _
          rw [resolves]
          show ∃ shown, (argumentExample currentOf _ argument.current >>= _) = .ok shown ∧ _
          rw [parted, shows]
          exact ⟨_, rfl, .cons _ (isPartOf_listed isPart resolved.isArray) .nil parts⟩

theorem isShownInPart_fieldExample
    (below : ∀ name, IsShownInPart (exampleOf name) (currentOf name)) (field : Field)
    : IsShownInPart (expander.fieldExample exampleOf field)
        (expander.current.fieldExample currentOf field.current) := by
  intro whole made
  unfold fieldExample at made ⊢
  obtain ⟨resolved, resolves, made⟩ := bind_eq_ok.mp made
  obtain ⟨value, valued, made⟩ := bind_eq_ok.mp made
  cases made
  obtain ⟨part, parted, isPart⟩ := below resolved.name value valued
  rw [Resolved.ofField_current]
  show ∃ shown, (Resolved.ofField expander.classified field >>= _) = .ok shown ∧ _
  rw [resolves]
  show ∃ shown, (currentOf resolved.name >>= _) = .ok shown ∧ _
  rw [parted]
  exact ⟨_, rfl, isPartOf_listed (isPartOf_connected isPart resolved.isConnection) resolved.isArray⟩

/-- The members that are not deprecated are shown where all are, by induction on the members. -/
theorem areShownInPart_memberExamples
    (below : ∀ name, IsShownInPart (exampleOf name) (currentOf name)) (members : List Field)
    : AreShownInPart (expander.memberExamples exampleOf members)
        (expander.current.memberExamples currentOf (Field.currents members)) := by
  induction members with
  | nil =>
      rintro _ ⟨⟩
      exact ⟨.nil, rfl, .nil⟩
  | cons member rest ih =>
      intro entries made
      rw [memberExamples] at made
      obtain ⟨value, valued, made⟩ := bind_eq_ok.mp made
      obtain ⟨arguments, given, made⟩ := bind_eq_ok.mp made
      obtain ⟨more, later, made⟩ := bind_eq_ok.mp made
      cases made
      obtain ⟨shown, shows, parts⟩ := ih more later
      cases deprecated : member.isDeprecated with
      | true =>
          rw [Field.currents_of_deprecated deprecated]
          exact ⟨shown, shows, .skip _ _ _ parts⟩
      | false =>
          obtain ⟨part, parted, isPart⟩ := isShownInPart_fieldExample below member value valued
          obtain ⟨passed, passes, arePassed⟩ :=
            areShownInPart_argumentExamples below member.arguments arguments given
          rw [Field.currents_of_not_deprecated deprecated, memberExamples, parted,
            Field.arguments_current, passes, shows, Field.name_current]
          exact ⟨_, rfl, .cons _ isPart arePassed parts⟩

/-- A leaf of a type is a leaf of the type without its deprecated values, with another text if
there are some.
-/
theorem leaf?_current {type : TypeDef} {name : String} {leaf : Option Example}
    (found : leaf? type name = .ok leaf)
    : ∃ shown,
        leaf? type.current name = .ok shown
        ∧ Option.Rel (fun part whole : Example => part.outline.IsPartOf whole.outline) shown leaf
      := by
  have sameKind : type.current.kind = type.kind := rfl
  have sameMembers : type.current.possibleTypes = type.possibleTypes := rfl
  unfold leaf? at found ⊢
  rw [sameKind, sameMembers]
  cases kind : type.kind with
  | enum =>
      rw [kind] at found
      obtain ⟨values, made, same⟩ := bind_eq_ok.mp found
      cases same
      obtain ⟨kept, keptMade⟩
          : Succeeds (type.current.enumValues.mapM fun value => value.name.asText) :=
        succeeds_mapM fun value member =>
          succeeds_of_mapM ⟨values, made⟩ value (List.mem_filter.mp member).1
      exact ⟨_, bind_eq_ok.mpr ⟨kept, keptMade, rfl⟩, .some (.text _ _)⟩
  | union =>
      rw [kind] at found
      obtain ⟨members, made, same⟩ := bind_eq_ok.mp found
      cases same
      exact ⟨_, bind_eq_ok.mpr ⟨members, made, rfl⟩, .some (.leaf _)⟩
  | scalar =>
      rw [kind] at found
      cases found
      exact ⟨_, rfl, .some (.leaf _)⟩
  | object | interface | inputObject | list | nonNull =>
      rw [kind] at found
      cases found
      exact ⟨none, rfl, .none⟩

theorem definition_current (expander : Expander) (name : String)
    : expander.current.definition name
      = (expander.definition name).map (Option.map TypeDef.current) := by
  have named := expander.schema.typeNamed?_current (.string name)
  change expander.current.schema.typeNamed? (.string name) = _ at named
  unfold definition
  rw [named]
  cases expander.schema.typeNamed? (.string name) with
  | some type => rfl
  | none =>
      show (if expander.classified.isBuiltin name then _ else _) = Except.map _ (ite _ _ _)
      split <;> rfl

/-- A name is shown at a depth without deprecated members if names are below it, as far as the limit
leaves room there.
-/
theorem isShownInPart_exampleBelow
    (single : ∀ type ∈ expander.schema.types, type.HasOneKindOfMembers) {limit depth : Int}
    {ancestors : Finset String} (name : String)
    (below
      : ¬limit ≤ depth → ∀ inner,
          IsShownInPart (expander.exampleBelow limit (depth + 1) (insert name ancestors) inner)
            (expander.current.exampleBelow limit (depth + 1) (insert name ancestors) inner))
    : IsShownInPart (expander.exampleBelow limit depth ancestors name)
        (expander.current.exampleBelow limit depth ancestors name) := by
  intro value made
  rw [exampleBelow] at made ⊢
  obtain ⟨defined, found, made⟩ := bind_eq_ok.mp made
  rw [definition_current, found]
  cases defined with
  | none =>
      cases made
      exact ⟨_, rfl, .leaf _⟩
  | some type =>
      change (if name ∈ ancestors then _ else _) = Except.ok value at made
      show ∃ shown, (if name ∈ ancestors then _ else _) = Except.ok shown ∧ _
      split at made
      case isTrue ancestor =>
        cases made
        rw [if_pos ancestor]
        exact ⟨_, rfl, .leaf _⟩
      case isFalse free =>
        rw [if_neg free]
        obtain ⟨leaf, leafFound, made⟩ := bind_eq_ok.mp made
        obtain ⟨shown, shows, isPart⟩ := leaf?_current leafFound
        rw [shows]
        cases isPart with
        | some isPart =>
            cases made
            exact ⟨_, rfl, isPart⟩
        | none =>
            change dite (limit ≤ depth) _ _ = Except.ok value at made
            show ∃ shown, dite (limit ≤ depth) _ _ = Except.ok shown ∧ _
            split at made
            case isTrue cut =>
              cases made
              rw [dif_pos cut]
              exact ⟨_, rfl, .cut⟩
            case isFalse inside =>
              obtain ⟨entries, entriesMade, made⟩ := bind_eq_ok.mp made
              cases made
              have member : type ∈ expander.schema.types :=
                (Schema.typeNamed?_eq_some (typeNamed?_of_definition found)).1
              obtain ⟨parts, partsMade, areParts⟩ :=
                areShownInPart_memberExamples (below inside) type.members entries entriesMade
              rw [dif_neg inside, TypeDef.members_current (single type member), partsMade]
              exact ⟨_, rfl, .object areParts⟩

/-- Every name that is shown is shown without deprecated members too, at any depth and below any
ancestors. By induction on the room that the limit leaves.
-/
theorem isShownInPart_of_single
    (single : ∀ type ∈ expander.schema.types, type.HasOneKindOfMembers) (limit depth : Int)
    (ancestors : Finset String) (name : String)
    : IsShownInPart (expander.exampleBelow limit depth ancestors name)
        (expander.current.exampleBelow limit depth ancestors name) := by
  induction room : roomAt limit depth generalizing depth ancestors name with
  | zero =>
      apply isShownInPart_exampleBelow single name
      intro inside
      unfold roomAt at room
      omega
  | succ size ih =>
      apply isShownInPart_exampleBelow single name
      intro inside inner
      apply ih
      unfold roomAt at room ⊢
      omega

end Expander

end RubySchema
