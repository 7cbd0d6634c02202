import RubySchema.Proofs.Example.Totality
import RubySchema.Proofs.Generation.Run
import RubySchema.Proofs.Generation.Stages

/-!
Well-formed schemas are generated. Every step of a well-formed type succeeds, so a run on a
well-formed schema comes to files unless a directive cannot be looked up.
-/

namespace RubySchema

structure Plan.IsWellFormed (plan : Plan) : Prop where
  expander
    : Expander.IsWellFormed { schema := plan.schema, classified := plan.classified }
  templates : plan.templates = []

namespace Contribution

variable {plan : Plan} {subject : Subject}

-----------------------------------------------------------------------------------------
-- Interfaces, headers, members and values
-----------------------------------------------------------------------------------------

/-- Without templates of one's own a page has its standard text. -/
theorem render_eq_standardText (none : plan.templates = []) (page : Page)
    : plan.render page = page.standardText plan.modules := by
  unfold Plan.render Page.render
  rw [none]
  rfl

/-- Without templates of one's own the method of a field is that of its page, one level in. -/
theorem exists_page_of_methodText (standard : plan.templates = []) {isShown : Bool} {field : Field}
    {resolved : Resolved} {text : String}
    (made : methodText plan isShown field resolved = .ok text)
    : ∃ page,
        fieldPage plan isShown field resolved = .ok page
        ∧ text
          = Text.indent 1
            (Page.fieldMethodText plan.modules page (Naming.snakeCase page.name)
              ("(" ++ ", ".intercalate (page.parameters.map fun parameter => parameter.name ++ ":")
                ++ ")")) := by
  obtain ⟨page, paged, made⟩ := bind_eq_ok.mp made
  obtain ⟨shown, rendered, same⟩ := bind_eq_ok.mp made
  rw [render_eq_standardText standard] at rendered
  obtain rfl := Except.ok.inj rendered
  exact ⟨page, paged, (Except.ok.inj same).symm⟩

/-- Without templates of one's own the spec of a field is that of its page, two levels in. -/
theorem exists_page_of_specText (standard : plan.templates = []) {field : Field}
    {resolved : Resolved} {text : String}
    (made : specText plan subject field resolved = .ok text)
    : ∃ entries page query,
        fieldExample plan field = .ok entries
        ∧ fieldPage plan true field resolved = .ok page
        ∧ queryText plan subject.mapping.schemaName entries = .ok query
        ∧ text
          = Text.indent 2
            (Page.fieldSpecText page query
              (resultText plan subject.mapping.schemaName entries)) := by
  obtain ⟨entries, shown, made⟩ := bind_eq_ok.mp made
  obtain ⟨page, paged, made⟩ := bind_eq_ok.mp made
  obtain ⟨query, queried, made⟩ := bind_eq_ok.mp made
  obtain ⟨spec, rendered, same⟩ := bind_eq_ok.mp made
  rw [render_eq_standardText standard] at rendered
  obtain rfl := Except.ok.inj rendered
  exact ⟨entries, page, query, shown, paged, queried, (Except.ok.inj same).symm⟩

theorem succeeds_lookupValue {classified : Classified} {name : Json}
    (known : classified.Knows name) : Succeeds (classified.lookupValue name) := by
  obtain ⟨text, named, mapped⟩ := known
  obtain ⟨mapping, found⟩ := Option.isSome_iff_exists.mp mapped
  exact ⟨mapping, Classified.lookupValue_eq_ok.mpr ⟨text, named, found⟩⟩

/-- The line for an interface is made when the interface is that of nodes or has a mapping. -/
theorem areMade_ofInterface {mention : Mention} (of : mention.IsOf .interface)
    (known
      : mention.name = .string nodeInterface ∨ plan.classified.Knows mention.name)
    : (ofInterface plan subject mention).AreMade := by
  have plain
      : (mention.hasOfType || mention.kind != .string TypeKind.interface.word) = false := by
    simp [of.direct, of.kind_eq]
  unfold ofInterface
  rw [plain]
  show Steps.AreMade (if mention.name == .string nodeInterface then [] else _)
  split
  · exact Steps.areMade_nil
  case isFalse other =>
    rcases known with node | known
    · exact absurd (beq_iff_eq.mpr node) other
    obtain ⟨mapping, found⟩ := succeeds_lookupValue known
    rw [found]
    exact (Steps.areMade_fragment subject _ _ (succeeds_ok _)).append
      (Steps.areMade_fragment subject _ _ (succeeds_ok _))

theorem areMade_ofHeaders (none : plan.templates = [])
    (described : subject.type.description.IsTextOrNull)
    : (ofHeaders plan subject).AreMade := by
  unfold ofHeaders
  dsimp only
  simp only [render_eq_standardText none]
  have opening
      : Succeeds
        (Page.standardText plan.modules
          (.schemaHeader subject.mapping subject.type.description)) := by
    obtain ⟨text, shown⟩ := described.asTextIfAny
    rw [Page.standardText, shown]
    exact succeeds_ok _
  refine (((Steps.AreMade.append ?_ ?_).append ?_).append ?_).append ?_
  · exact Steps.areMade_fragment subject _ _ opening
  · split
    · exact Steps.areMade_fragment subject _ _ (succeeds_ok _)
    · exact Steps.areMade_nil
  · split
    · exact Steps.areMade_fragment subject _ _ (succeeds_ok _)
    · exact Steps.areMade_nil
  · exact Steps.areMade_fragment subject _ _ (succeeds_ok _)
  · exact Steps.areMade_fragment subject _ _ (succeeds_ok _)

theorem areMade_ofMembers
    (members
      : subject.type.kind = .union → ∀ mention ∈ subject.type.possibleTypes,
          mention.IsOf .object ∧ plan.classified.Knows mention.name)
    : (ofMembers plan subject).AreMade := by
  unfold ofMembers
  dsimp only
  split
  case isTrue => exact Steps.areMade_nil
  case isFalse listed =>
    have isUnion : subject.type.kind = .union := by
      simp only [Bool.or_eq_true, not_or, bne_iff_ne, ne_eq, Decidable.not_not] at listed
      exact listed.1
    have each
        : ∀ mention ∈ subject.type.possibleTypes,
            Succeeds (memberTarget plan subject mention) := by
      intro mention member
      obtain ⟨of, known⟩ := members isUnion mention member
      obtain ⟨mapping, found⟩ := succeeds_lookupValue known
      unfold memberTarget
      rw [of.direct, of.kind_eq, found]
      exact succeeds_ok _
    obtain ⟨targets, found⟩ := succeeds_mapM each
    rw [found]
    apply Steps.AreMade.append
    · intro step member
      obtain ⟨target, -, rfl⟩ := List.mem_map.mp member
      exact succeeds_ok _
    · exact Steps.areMade_fragment subject _ _ (succeeds_ok _)

theorem areMade_ofEnumValue {value : EnumValue} (described : value.description.IsTextOrNull)
    : (ofEnumValue subject value).AreMade := by
  unfold ofEnumValue
  split
  · exact Steps.areMade_nil
  · obtain ⟨text, shown⟩ := described.asTextIfAny
    rw [shown]
    exact Steps.areMade_fragment subject _ _ (succeeds_ok _)

theorem areMade_ofClosing : (ofClosing subject).AreMade := by
  unfold ofClosing
  refine ((Steps.areMade_nil.cons _).append ?_).append ?_
  · split
    · exact Steps.areMade_nil.cons _
    · exact Steps.areMade_nil
  · split
    · exact Steps.areMade_nil.cons _
    · exact Steps.areMade_nil

-----------------------------------------------------------------------------------------
-- Arguments
-----------------------------------------------------------------------------------------

theorem succeeds_isLeftOut {argument : Field} (named : argument.name.IsText) (isConnection : Bool)
    : Succeeds (isLeftOut isConnection argument) := by
  obtain ⟨name, named⟩ := named
  unfold isLeftOut
  rw [named]
  split
  · exact succeeds_ok true
  split
  · exact succeeds_ok false
  · exact succeeds_ok _

theorem succeeds_defaultLiteral {argument : Field}
    (default : argument.defaultValue.IsTextOrNull) (resolved : Resolved)
    : Succeeds (defaultLiteral argument resolved) := by
  unfold defaultLiteral
  split
  · exact succeeds_ok none
  · obtain ⟨text, shown⟩ := default.asTextIfAny
    rw [shown]
    exact succeeds_ok _

theorem succeeds_onelineValue {description : Json} (described : description.IsTextOrNull)
    : Succeeds (onelineValue description) := by
  unfold onelineValue
  cases filled : description.isVoid with
  | true => exact succeeds_ok ""
  | false =>
      obtain ⟨text, rfl⟩ := described.isText filled
      exact succeeds_ok _

section
variable {argument : Field} {resolved : Resolved}

theorem succeeds_parameter (passable : argument.IsPassable plan.classified)
    : Succeeds (parameter plan argument resolved) := by
  obtain ⟨name, named⟩ := passable.named.asText
  obtain ⟨description, described⟩ := succeeds_onelineValue passable.described
  obtain ⟨default, literal⟩ := succeeds_defaultLiteral passable.default resolved
  unfold parameter
  rw [named, described, literal]
  exact succeeds_ok _

theorem succeeds_argumentLine (passable : argument.IsPassable plan.classified)
    (plain : resolved.isConnection = false) (level : Nat)
    : Succeeds (argumentLine plan level argument resolved) := by
  obtain ⟨default, literal⟩ := succeeds_defaultLiteral passable.default resolved
  obtain ⟨name, named⟩ := passable.named.asText
  obtain ⟨description, described⟩ := passable.described.asTextIfAny
  unfold argumentLine Notation.argument
  rw [literal, named, described, plain]
  exact succeeds_ok _

/-- What an argument contributes is made when the argument can be passed and is no connection. -/
theorem areMade_ofArgument (passable : argument.IsPassable plan.classified)
    (plain : ¬argument.type.IsConnection) (level : Nat) (isConnection : Bool)
    : (ofArgument plan subject level isConnection argument).AreMade := by
  obtain ⟨out, left⟩ := succeeds_isLeftOut passable.named isConnection
  obtain ⟨resolved, resolves, -, connected⟩ := passable.resolved
  have bare : resolved.isConnection = false := by
    cases isConnection : resolved.isConnection with
    | false => rfl
    | true => exact absurd (connected isConnection) plain
  obtain ⟨shown, made⟩ : Succeeds (parameter plan argument resolved) := succeeds_parameter passable
  unfold ofArgument
  rw [left]
  cases out with
  | true => exact Steps.areMade_nil
  | false =>
      unfold ofKeptArgument
      rw [resolves]
      dsimp only
      rw [made]
      apply Steps.AreMade.append
      · exact (Steps.areMade_fragment subject _ _
          (succeeds_argumentLine passable bare level)).cons _
      · exact Steps.areMade_nil

end

theorem succeeds_parameters {arguments : List Field}
    (passable : ∀ argument ∈ arguments, argument.IsPassable plan.classified)
    (isConnection : Bool) : Succeeds (parameters plan isConnection arguments) := by
  have tested
      : ∀ argument ∈ arguments,
          (do return !(← isLeftOut isConnection argument) : Except Error Bool)
            = .ok (isLeftOut isConnection argument == .ok false) := by
    intro argument member
    obtain ⟨out, left⟩ := succeeds_isLeftOut (passable argument member).named isConnection
    rw [left]
    cases out with
    | true => rfl
    | false => rfl
  unfold parameters
  rw [filterM_eq_ok tested]
  apply succeeds_mapM
  intro argument member
  have given := passable argument (List.mem_filter.mp member).1
  obtain ⟨resolved, resolves, -⟩ := given.resolved
  rw [resolves]
  exact succeeds_parameter given

-----------------------------------------------------------------------------------------
-- Fields
-----------------------------------------------------------------------------------------

section
variable {field : Field} {resolved : Resolved}

theorem succeeds_fieldPage (usable : field.IsUsable plan.classified)
    (passable : ∀ argument ∈ field.arguments, argument.IsPassable plan.classified)
    (isShown : Bool) : Succeeds (fieldPage plan isShown field resolved) := by
  have marked
      : ∀ argument ∈ field.arguments,
          Succeeds (argumentMarks plan isShown resolved.isConnection argument) := by
    intro argument member
    obtain ⟨out, left⟩ :=
      succeeds_isLeftOut (passable argument member).named resolved.isConnection
    unfold argumentMarks
    rw [left]
    cases isShown <;> cases out <;> exact succeeds_ok _
  obtain ⟨name, named⟩ := usable.named.asText
  obtain ⟨shown, made⟩ := succeeds_parameters passable resolved.isConnection
  obtain ⟨description, described⟩ := succeeds_onelineValue usable.described
  obtain ⟨marks, marksMade⟩ := succeeds_mapM marked
  unfold fieldPage
  rw [named, made, described, marksMade]
  exact succeeds_ok _

theorem succeeds_methodText (none : plan.templates = []) (usable : field.IsUsable plan.classified)
    (passable : ∀ argument ∈ field.arguments, argument.IsPassable plan.classified)
    (isShown : Bool) : Succeeds (methodText plan isShown field resolved) := by
  obtain ⟨page, made⟩ := succeeds_fieldPage usable passable isShown
  unfold methodText
  rw [made]
  show Succeeds (plan.render _ >>= _)
  rw [render_eq_standardText none]
  exact succeeds_ok _

/-- In a well-formed schema, a usable field has an example whose selection can be written. -/
theorem exists_fieldExample (wellFormed : plan.IsWellFormed)
    (usable : field.IsUsable plan.classified)
    (passable : ∀ argument ∈ field.arguments, argument.IsPassable plan.classified)
    : ∃ entries,
        fieldExample plan field = .ok entries
        ∧ Succeeds (entries.selection plan.settings.maxDepth) := by
  obtain ⟨value, valued, textual⟩ :=
    wellFormed.expander.isShown_fieldValue plan.settings.maxDepth usable
  obtain ⟨arguments, given, textuals⟩ :=
    wellFormed.expander.areShown_argumentEntries plan.settings.maxDepth passable
  refine ⟨.cons field.name value arguments .nil, ?_, ?_⟩
  · unfold fieldExample
    dsimp only
    rw [valued, given]
    rfl
  · exact Outlines.AreTextual.selection _ _ _ ⟨usable.named, textual, textuals, trivial⟩

theorem succeeds_queryText_iff {typeName : String} {entries : Entries}
    : Succeeds (queryText plan typeName entries)
      ↔ Succeeds (entries.selection plan.settings.maxDepth) :=
  succeeds_bind_iff fun _ => (succeeds_ok _).ite (succeeds_ok _)

/-- A spec shows a field that has a page and an example whose selection can be written. -/
theorem succeeds_specText_iff (none : plan.templates = [])
    : Succeeds (specText plan subject field resolved)
      ↔ (∃ entries,
            fieldExample plan field = .ok entries
            ∧ Succeeds (entries.selection plan.settings.maxDepth))
        ∧ Succeeds (fieldPage plan true field resolved) := by
  unfold specText
  constructor
  · rintro ⟨text, made⟩
    obtain ⟨entries, shown, made⟩ := bind_eq_ok.mp made
    obtain ⟨page, paged, made⟩ := bind_eq_ok.mp made
    obtain ⟨query, asked, -⟩ := bind_eq_ok.mp made
    exact ⟨⟨entries, shown, succeeds_queryText_iff.mp ⟨query, asked⟩⟩, page, paged⟩
  · rintro ⟨⟨entries, shown, selected⟩, page, paged⟩
    rw [shown, paged]
    apply (succeeds_queryText_iff.mpr selected).bind
    intro query _
    rw [render_eq_standardText none]
    exact succeeds_ok _

/-- A field is listed when its name and those of its arguments are texts. -/
theorem succeeds_listing_iff
    : Succeeds (listing subject field)
      ↔ Succeeds field.name.asText
        ∧ ∀ argument ∈ field.arguments, Succeeds argument.name.asText := by
  unfold listing
  constructor
  · rintro ⟨contribution, made⟩
    obtain ⟨name, named, made⟩ := bind_eq_ok.mp made
    refine ⟨⟨name, named⟩, ?_⟩
    split at made
    case isTrue empty =>
      rw [List.isEmpty_iff.mp empty]
      exact fun _ member => (nomatch member)
    case isFalse =>
      obtain ⟨names, made, -⟩ := bind_eq_ok.mp made
      exact succeeds_of_mapM ⟨names, made⟩
  · rintro ⟨named, texts⟩
    apply named.bind
    intro name _
    exact (succeeds_ok _).ite ((succeeds_mapM texts).bind fun names _ => succeeds_ok _)

/-- In a well-formed schema, all that a usable field contributes is made. -/
theorem areMade_ofField (wellFormed : plan.IsWellFormed) (usable : field.IsUsable plan.classified)
    (arguments
      : ∀ argument ∈ field.arguments,
          argument.IsPassable plan.classified ∧ ¬argument.type.IsConnection)
    (position : Nat) : (ofField plan subject field position).AreMade := by
  have passable : ∀ argument ∈ field.arguments, argument.IsPassable plan.classified :=
    fun argument member => (arguments argument member).1
  obtain ⟨resolved, resolves, -⟩ := usable.resolved
  obtain ⟨name, named⟩ := usable.named.asText
  obtain ⟨description, described⟩ := usable.described.asTextIfAny
  have opened : Succeeds (fieldLines plan field resolved) := by
    unfold fieldLines
    rw [named, described]
    exact succeeds_ok _
  obtain ⟨entry, listed⟩ : Succeeds (listing subject field) :=
    succeeds_listing_iff.mpr
      ⟨usable.named.asText, fun argument member => (passable argument member).named.asText⟩
  unfold ofField
  split
  · exact Steps.areMade_nil
  unfold ofKeptField
  rw [resolves]
  dsimp only
  rw [listed]
  refine ((((Steps.AreMade.append ?_ ?_).append ?_).append ?_).append ?_).append ?_
  · exact (Steps.areMade_fragment subject _ _ opened).cons _
  · apply Steps.areMade_flatMap
    intro argument member
    exact areMade_ofArgument (passable argument member) (arguments argument member).2 2 _
  · exact Steps.areMade_fragment subject _ _ (succeeds_ok _)
  · exact Steps.areMade_fragment subject _ _
      (succeeds_methodText wellFormed.templates usable passable _)
  · exact Steps.areMade_fragment subject _ _
      ((succeeds_specText_iff wellFormed.templates).mpr
        ⟨exists_fieldExample wellFormed usable passable, succeeds_fieldPage usable passable true⟩)
  · exact Steps.areMade_nil.cons entry

end

-----------------------------------------------------------------------------------------
-- Types
-----------------------------------------------------------------------------------------

/-- In a well-formed schema, no step of a well-formed type fails. -/
theorem isWhole_of_isWellFormed (wellFormed : plan.IsWellFormed)
    (type : subject.type.IsWellFormed plan.classified) : IsWhole plan subject := by
  show Steps.AreMade (ofSubject plan subject)
  unfold ofSubject
  refine (((((Steps.AreMade.append ?_ ?_).append ?_).append ?_).append ?_).append ?_).append ?_
  · apply Steps.areMade_flatMap
    intro mention member
    obtain ⟨of, known⟩ := type.interfaces mention member
    exact areMade_ofInterface of known
  · exact areMade_ofHeaders wellFormed.templates type.described
  · apply Steps.areMade_flatMap
    rintro ⟨field, position⟩ member
    have among : field ∈ subject.type.fields.getD [] := List.fst_mem_of_mem_zipIdx member
    exact areMade_ofField wellFormed (type.fields field among) (type.arguments field among) position
  · exact areMade_ofMembers type.members
  · apply Steps.areMade_flatMap
    intro value member
    exact areMade_ofEnumValue (type.values value member).2
  · apply Steps.areMade_flatMap
    intro field member
    obtain ⟨passable, plain⟩ := type.inputFields field member
    exact areMade_ofArgument passable plain 1 false
  · exact areMade_ofClosing

end Contribution

end RubySchema
