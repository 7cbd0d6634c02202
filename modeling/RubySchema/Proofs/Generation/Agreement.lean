import RubySchema.Proofs.Generation.Documents

/-!
Plans that agree. What a type contributes depends on the mappings and the types that names lead to,
not on the order in which the plan holds them.
-/

namespace RubySchema

namespace Classified

structure Agrees (first second : Classified) : Prop where
  get? : ∀ name, first.get? name = second.get? name
  byTarget? : ∀ target, first.byTarget? target = second.byTarget? target

variable {first second : Classified} (agrees : first.Agrees second)
include agrees

theorem Agrees.lookup_eq (name : String) : first.lookup name = second.lookup name := by
  unfold lookup
  rw [agrees.get?]

theorem Agrees.lookupValue_eq (value : Json)
    : first.lookupValue value = second.lookupValue value := by
  unfold lookupValue
  split
  · exact agrees.lookup_eq _
  · rfl

theorem Agrees.isBuiltin_eq (name : String) : first.isBuiltin name = second.isBuiltin name := by
  unfold isBuiltin
  rw [agrees.get?]

theorem Agrees.isTracked_eq (target : String)
    : first.isTracked target = second.isTracked target := by
  unfold isTracked
  rw [agrees.byTarget?]

theorem Agrees.ofName_eq (name : Json)
    : Resolved.ofName first name = Resolved.ofName second name := by
  unfold Resolved.ofName
  simp only [agrees.lookup_eq]

/-- A use of a type is resolved alike, by induction on its wrappers. -/
theorem Agrees.ofTypeRef_eq (owner : Json) (type : TypeRef)
    : Resolved.ofTypeRef first owner type = Resolved.ofTypeRef second owner type := by
  induction type with
  | named name kind => exact agrees.ofName_eq name
  | list item ih =>
      unfold Resolved.ofTypeRef
      rw [ih]
  | nonNull inner ih =>
      unfold Resolved.ofTypeRef
      rw [ih]

theorem Agrees.ofField_eq (field : Field)
    : Resolved.ofField first field = Resolved.ofField second field := by
  unfold Resolved.ofField
  rw [agrees.ofTypeRef_eq]

end Classified

namespace Expander

structure Agrees (first second : Expander) : Prop where
  typeNamed?
    : ∀ name, first.schema.typeNamed? (.string name) = second.schema.typeNamed? (.string name)
  classified : first.classified.Agrees second.classified

variable {first second : Expander} (agrees : first.Agrees second)
include agrees

theorem Agrees.definition_eq (name : String) : first.definition name = second.definition name := by
  unfold definition
  rw [agrees.typeNamed?, agrees.classified.isBuiltin_eq]

/-- Arguments are expanded alike, by induction on the arguments. -/
theorem Agrees.argumentEntries_eq (expand : String → Expansion Example) (arguments : List Field)
    : first.argumentEntries expand arguments = second.argumentEntries expand arguments := by
  induction arguments with
  | nil => rfl
  | cons argument rest ih =>
      unfold argumentEntries
      simp only [agrees.classified.ofField_eq, ih]

theorem Agrees.fieldValue_eq (expand : String → Expansion Example) (field : Field)
    : first.fieldValue expand field = second.fieldValue expand field := by
  unfold fieldValue
  simp only [agrees.classified.ofField_eq]

/-- Members are expanded alike, by induction on the members. -/
theorem Agrees.memberEntries_eq (expand : String → Expansion Example) (members : List Field)
    : first.memberEntries expand members = second.memberEntries expand members := by
  induction members with
  | nil => rfl
  | cons member rest ih =>
      unfold memberEntries
      simp only [agrees.fieldValue_eq, agrees.argumentEntries_eq, ih]

/-- Types are expanded alike, by induction on the room. -/
theorem Agrees.expandIn_eq (room : Nat) : first.expandIn room = second.expandIn room := by
  induction room with
  | zero =>
      funext name
      unfold expandIn
      simp only [agrees.definition_eq]
  | succ room ih =>
      funext name
      unfold expandIn
      simp only [agrees.definition_eq, ih, agrees.memberEntries_eq]

end Expander

namespace Plan

/-- Plans with the same roots, settings and templates, in which every name leads to the same. -/
structure Agrees (first second : Plan) : Prop where
  queryType : first.schema.queryType = second.schema.queryType
  mutationType : first.schema.mutationType = second.schema.mutationType
  typeNamed?
    : ∀ name, first.schema.typeNamed? (.string name) = second.schema.typeNamed? (.string name)
  classified : first.classified.Agrees second.classified
  settings : first.settings = second.settings
  templates : first.templates = second.templates

variable {first second : Plan} (agrees : first.Agrees second)
include agrees

theorem Agrees.render_eq (page : Page) : first.render page = second.render page := by
  unfold render modules
  rw [agrees.settings, agrees.templates]

theorem Agrees.modules_eq : first.modules = second.modules := by
  unfold modules
  rw [agrees.settings]

/-- The expanders of the plans agree. -/
theorem Agrees.expander
    : ({ schema := first.schema, classified := first.classified } : Expander).Agrees
        { schema := second.schema, classified := second.classified } :=
  ⟨agrees.typeNamed?, agrees.classified⟩

end Plan

namespace Contribution

variable {first second : Plan} (agrees : first.Agrees second) (subject : Subject)
include agrees

theorem argumentLine_congr (level : Nat) (argument : Field) (resolved : Resolved)
    : argumentLine first level argument resolved = argumentLine second level argument resolved := by
  unfold argumentLine
  rw [agrees.modules_eq]

theorem parameter_congr (argument : Field) (resolved : Resolved)
    : parameter first argument resolved = parameter second argument resolved := by
  unfold parameter
  rw [agrees.modules_eq]

theorem ofArgument_congr (level : Nat) (isConnection : Bool)
    : ofArgument first subject level isConnection
      = ofArgument second subject level isConnection := by
  funext argument
  unfold ofArgument ofKeptArgument
  simp only [agrees.classified.ofField_eq, argumentLine_congr agrees, parameter_congr agrees]

theorem fieldPage_congr (isShown : Bool) (field : Field) (resolved : Resolved)
    : fieldPage first isShown field resolved = fieldPage second isShown field resolved := by
  have marks (isConnection : Bool)
      : argumentMarks first isShown isConnection = argumentMarks second isShown isConnection := by
    funext argument
    unfold argumentMarks
    simp only [agrees.classified.ofField_eq]
  unfold fieldPage parameters
  simp only [agrees.classified.ofField_eq, parameter_congr agrees, agrees.modules_eq, marks]

theorem methodText_congr (isShown : Bool) (field : Field) (resolved : Resolved)
    : methodText first isShown field resolved = methodText second isShown field resolved := by
  unfold methodText
  simp only [fieldPage_congr agrees, agrees.render_eq]

theorem fieldExample_congr (field : Field)
    : fieldExample first field = fieldExample second field := by
  unfold fieldExample
  simp only [agrees.expander.expandIn_eq, agrees.expander.fieldValue_eq,
    agrees.expander.argumentEntries_eq, agrees.settings]

theorem specText_congr (field : Field) (resolved : Resolved)
    : specText first subject field resolved = specText second subject field resolved := by
  have query (typeName : String) (entries : Entries)
      : queryText first typeName entries = queryText second typeName entries := by
    unfold queryText Schema.operationFor
    simp only [agrees.settings, agrees.mutationType]
  have result (typeName : String) (entries : Entries)
      : resultText first typeName entries = resultText second typeName entries := by
    unfold resultText
    simp only [agrees.settings, agrees.mutationType]
  unfold specText
  simp only [fieldExample_congr agrees, fieldPage_congr agrees, query, result, agrees.render_eq]

theorem ofField_congr (field : Field) (position : Nat)
    : ofField first subject field position = ofField second subject field position := by
  have lines (resolved : Resolved)
      : fieldLines first field resolved = fieldLines second field resolved := by
    unfold fieldLines
    rw [agrees.modules_eq]
  unfold ofField ofKeptField
  simp only [agrees.classified.ofField_eq, lines, ofArgument_congr agrees, methodText_congr agrees,
    specText_congr agrees]

/-- Types contribute the same. -/
theorem ofSubject_congr : ofSubject first subject = ofSubject second subject := by
  have interfaces (mention : Mention)
      : ofInterface first subject mention = ofInterface second subject mention := by
    unfold ofInterface
    simp only [agrees.classified.lookupValue_eq, agrees.modules_eq]
  have headers : ofHeaders first subject = ofHeaders second subject := by
    unfold ofHeaders
    simp only [agrees.render_eq, agrees.modules_eq, agrees.settings]
  have members : ofMembers first subject = ofMembers second subject := by
    have target (mention : Mention)
        : memberTarget first subject mention = memberTarget second subject mention := by
      unfold memberTarget
      simp only [agrees.classified.lookupValue_eq]
    unfold ofMembers
    simp only [funext target, agrees.modules_eq]
  unfold ofSubject
  simp only [funext interfaces, headers, members, ofField_congr agrees, ofArgument_congr agrees]

/-- Types contribute the same when nothing fails. -/
theorem script_congr : script first subject = script second subject := by
  unfold script
  rw [ofSubject_congr agrees]

end Contribution

theorem DependencyGraph.after_congr {first second : Plan} (agrees : first.Agrees second)
    (graph : DependencyGraph) (subject : Subject)
    : graph.after first subject = graph.after second subject := by
  have receive (graph : DependencyGraph) (contribution : Contribution)
      : DependencyGraph.receive first subject.mapping.targetName graph contribution
        = DependencyGraph.receive second subject.mapping.targetName graph contribution := by
    have tracked : contribution.tracked? first = contribution.tracked? second := by
      unfold Contribution.tracked?
      simp only [agrees.classified.isTracked_eq]
    unfold DependencyGraph.receive
    rw [tracked]
  unfold DependencyGraph.after
  rw [Contribution.script_congr agrees]
  congr 1
  funext graph contribution
  exact receive graph contribution

end RubySchema
