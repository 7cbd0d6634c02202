import RubySchema.Proofs.Generation.Single
import RubySchema.Proofs.Generation.Totality

/-!
The pieces of a type name what its mapping and its mentions come to. Without templates of one's own
each fragment of a schema document or of a stub is one of a few pieces of Ruby, which name generated
types and include modules of the user.
-/

namespace RubySchema

open Text

-----------------------------------------------------------------------------------------
-- Pieces
-----------------------------------------------------------------------------------------

/-- What a fragment of a schema document says. A type stands there by its generated name, and a
description or a default value by its literal.
-/
inductive SchemaPiece where
  | declaredClass (target base : String)
  | declaredModule (target : String)
  | openedClass (target base name description : String)
  | openedModule (target base name description : String)
  | implements (target : String)
  | userModule (target : String)
  | definitionMethods
  | possibleTypes (targets : List String)
  | field (name : String) (use : Resolved) (description : String)
  | argument (level : Nat) (name : String) (use : Resolved) (default description : String)
  | fieldEnd
  | value (name description : String)
  | documentEnd

namespace SchemaPiece

def text (modules : Modules) (piece : SchemaPiece) : String :=
  let constant (target : String) : String := modules.schemaNamespace ++ "::" ++ target
  let naming (name description : String) : String :=
    "  graphql_name '" ++ name ++ "'\n  description " ++ description
  match piece with
  | .declaredClass target base =>
      "class " ++ constant target ++ " < " ++ constant base ++ "; end\n"
  | .declaredModule target => "module " ++ constant target ++ "; end\n"
  | .openedClass target base name description =>
      "class " ++ constant target ++ " < " ++ constant base ++ "\n" ++ naming name description
  | .openedModule target base name description =>
      "module " ++ constant target ++ "\n  include ::" ++ constant base ++ "\n"
        ++ naming name description
  | .implements target => indent 1 ("implements ::" ++ constant target)
  | .userModule target => indent 1 ("include ::" ++ modules.namespaceName ++ "::" ++ target)
  | .definitionMethods => indent 1 "definition_methods do\nend\n"
  | .possibleTypes targets =>
      indent 1 ("possible_types \\\n"
        ++ ",\n".intercalate (targets.map fun target => "  ::" ++ constant target))
  | .field name use description =>
      indent 1 ("field :" ++ name ++ ", " ++ Notation.field modules.schemaNamespace use
          ++ " do\n  description ")
        ++ description
  | .argument level name use default description =>
      let reference := Notation.qualify modules.schemaNamespace use.targetName
      let type := if use.isArray then "[" ++ reference ++ "]" else reference
      indent level ("argument :" ++ name ++ ", "
          ++ (type ++ ", required: " ++ Notation.truth use.isRequired) ++ ","
          ++ Page.around " default_value: " default "," ++ " description: ")
        ++ description
  | .fieldEnd => indent 1 "end\n"
  | .value name description => indent 1 ("value '" ++ name ++ "', ") ++ description
  | .documentEnd => "end\n"

def targets : SchemaPiece → List String
  | .declaredClass target base => [target, base]
  | .declaredModule target => [target]
  | .openedClass target base _ _ => [target, base]
  | .openedModule target base _ _ => [target, base]
  | .implements target => [target]
  | .possibleTypes targets => targets
  | .field _ use _ => [use.targetName]
  | .argument _ _ use _ _ => [use.targetName]
  | _ => []

def included? : SchemaPiece → Option String
  | .userModule target => some target
  | _ => none

end SchemaPiece

inductive StubPiece where
  | opened (target : String)
  | userModule (target : String)
  | method (page : FieldPage) (name signature : String)
  | documentEnd

namespace StubPiece

def text (modules : Modules) : StubPiece → String
  | .opened target =>
      "# frozen_string_literal: true\nmodule " ++ modules.namespaceName ++ "::" ++ target
  | .userModule target => indent 1 ("include ::" ++ modules.namespaceName ++ "::" ++ target)
  | .method page name signature => indent 1 (Page.fieldMethodText modules page name signature)
  | .documentEnd => "end\n"

def included? : StubPiece → Option String
  | .userModule target => some target
  | _ => none

end StubPiece

-----------------------------------------------------------------------------------------
-- Fragments that are pieces
-----------------------------------------------------------------------------------------

def IsPiece (modules : Modules) (isThere isModule : String → Prop) (text : String) : Prop :=
  ∃ piece : SchemaPiece,
    text = piece.text modules
    ∧ (∀ target ∈ piece.targets, isThere target)
    ∧ ∀ target ∈ piece.included?, isModule target

def IsStubPiece (modules : Modules) (isModule : String → Prop) (text : String) : Prop :=
  ∃ piece : StubPiece,
    text = piece.text modules ∧ ∀ target ∈ piece.included?, isModule target

def Contribution.WritesPieces (modules : Modules) (isThere isModule : String → Prop)
    : Contribution → Prop
  | .fragment .schema _ text => IsPiece modules isThere isModule text
  | .closing .schema text => IsPiece modules isThere isModule text
  | .fragment .implementation _ text => IsStubPiece modules isModule text
  | .closing .implementation text => IsStubPiece modules isModule text
  | _ => True

/-- What a subject refers to is there: the types that have mappings, its base, the modules of the
user for its interfaces and for itself.
-/
structure Subject.HasReferences (plan : Plan) (isThere isModule : String → Prop)
    (subject : Subject) : Prop where
  mapped
    : ∀ {name mapping}, plan.classified.get? name = some mapping → isThere mapping.targetName
  self : isThere subject.mapping.targetName
  base : ∃ base, subject.mapping.baseType = some base ∧ isThere base
  own : subject.mapping.hasImplementation = true → isModule subject.mapping.targetName
  interfaces
    : ∀ mention ∈ subject.type.interfaces,
        ∀ mapping,
          plan.classified.lookupValue mention.name = .ok mapping → isModule mapping.targetName

namespace Resolved

variable {classified : Classified} {resolved : Resolved}

/-- What a use of a type resolves to is told by its named type: by that name whether it is a
connection, and by a mapping the generated name. By induction on the wrappers.
-/
theorem exists_of_ofTypeRef {owner : Json} {use : TypeRef}
    (resolves : ofTypeRef classified owner use = .ok resolved)
    : ∃ mapping,
        classified.get? resolved.name = some mapping
        ∧ mapping.targetName = resolved.targetName
        ∧ (resolved.name, resolved.isConnection) = Naming.stripConnection use.name.display := by
  induction use generalizing resolved with
  | named name kind =>
      obtain ⟨text, named, resolves⟩ := bind_eq_ok.mp resolves
      obtain ⟨mapping, known, same⟩ := bind_eq_ok.mp resolves
      cases same
      refine ⟨mapping, Classified.lookup_eq_ok.mp known, rfl, ?_⟩
      cases name with
      | string name => cases named; rfl
      | _ => cases named
  | nonNull inner ih =>
      obtain ⟨within, made, same⟩ := bind_eq_ok.mp resolves
      cases same
      obtain ⟨mapping, known⟩ := ih made
      exact ⟨mapping, known⟩
  | list item ih =>
      obtain ⟨within, made, same⟩ := bind_eq_ok.mp resolves
      split at same
      · cases same
      · cases same
        obtain ⟨mapping, known⟩ := ih made
        exact ⟨mapping, known⟩

theorem exists_of_ofField {field : Field} (resolves : ofField classified field = .ok resolved)
    : ∃ mapping,
        classified.get? resolved.name = some mapping
        ∧ mapping.targetName = resolved.targetName
        ∧ (resolved.name, resolved.isConnection)
          = Naming.stripConnection field.type.name.display := by
  obtain ⟨use, made, same⟩ := bind_eq_ok.mp resolves
  split at same
  · cases same
  · cases same
    exact exists_of_ofTypeRef made

end Resolved

namespace Contribution

variable {plan : Plan} {subject : Subject} {contribution : Contribution}
variable {isThere isModule : String → Prop}

section
variable (references : subject.HasReferences plan isThere isModule)
include references

theorem isThere_lookupValue {name : Json} {mapping : NameMapping}
    (found : plan.classified.lookupValue name = .ok mapping) : isThere mapping.targetName := by
  obtain ⟨text, -, known⟩ := Classified.lookupValue_eq_ok.mp found
  exact references.mapped known

theorem isThere_ofField {field : Field} {resolved : Resolved}
    (resolves : Resolved.ofField plan.classified field = .ok resolved)
    : isThere resolved.targetName := by
  obtain ⟨mapping, known, same, -⟩ := Resolved.exists_of_ofField resolves
  exact same ▸ references.mapped known

/-- An interface is implemented by its generated name, and its user module is included. -/
theorem IsOfInterface.writesPieces {mention : Mention} (member : mention ∈ subject.type.interfaces)
    (made : IsOfInterface plan mention contribution)
    : contribution.WritesPieces plan.modules isThere isModule := by
  cases made with
  | @implements mapping found =>
      refine ⟨.implements mapping.targetName, ?_, ?_, by simp [SchemaPiece.included?]⟩
      · simp only [SchemaPiece.text, String.append_assoc]
      · simpa [SchemaPiece.targets] using isThere_lookupValue references found
  | @includes mapping found =>
      refine ⟨.userModule mapping.targetName, rfl, ?_⟩
      simpa [StubPiece.included?] using references.interfaces mention member mapping found

/-- The schema document of a type is opened under its own name and its base. -/
theorem isPiece_schemaHeader (standard : plan.templates = []) {text : String}
    (rendered : plan.render (headerPage plan subject .schema) = .ok text)
    : IsPiece plan.modules isThere isModule text := by
  obtain ⟨base, based, baseThere⟩ := references.base
  rw [render_eq_standardText standard] at rendered
  obtain ⟨description, -, same⟩ := bind_eq_ok.mp rendered
  obtain rfl := Except.ok.inj same
  have both : ∀ target ∈ [subject.mapping.targetName, base], isThere target := by
    simpa using ⟨references.self, baseThere⟩
  cases isInterface : subject.mapping.isInterface with
  | true =>
      refine ⟨.openedModule subject.mapping.targetName base subject.mapping.schemaName
        (Ruby.description description), ?_, both, by simp [SchemaPiece.included?]⟩
      simp only [Page.schemaHeaderText, isInterface, based, if_true, Option.getD_some,
        SchemaPiece.text, String.append_assoc]
  | false =>
      refine ⟨.openedClass subject.mapping.targetName base subject.mapping.schemaName
        (Ruby.description description), ?_, both, by simp [SchemaPiece.included?]⟩
      simp only [Page.schemaHeaderText, isInterface, based, Bool.false_eq_true, if_false,
        Option.getD_some, SchemaPiece.text, String.append_assoc]

theorem IsOfHeaders.writesPieces (standard : plan.templates = [])
    (made : IsOfHeaders plan subject contribution)
    : contribution.WritesPieces plan.modules isThere isModule := by
  cases made with
  | @page kind text rendered =>
      cases kind with
      | schema => exact isPiece_schemaHeader references standard rendered
      | implementation =>
          rw [render_eq_standardText standard] at rendered
          obtain rfl := Except.ok.inj rendered
          exact ⟨.opened subject.mapping.targetName, rfl, by simp [StubPiece.included?]⟩
      | spec => trivial
  | userModule own =>
      refine ⟨.userModule subject.mapping.targetName, rfl, by simp [SchemaPiece.targets], ?_⟩
      simpa [SchemaPiece.included?] using references.own own
  | methods =>
      exact ⟨.definitionMethods, rfl, by simp [SchemaPiece.targets],
        by simp [SchemaPiece.included?]⟩

/-- The line of an argument is that of its name and its type. -/
theorem IsOfArgument.writesPieces {level : Nat} {argument : Field}
    (made : IsOfArgument plan level argument contribution)
    : contribution.WritesPieces plan.modules isThere isModule := by
  cases made with
  | reference => trivial
  | @line resolved text resolves made =>
      obtain ⟨default, -, made⟩ := bind_eq_ok.mp made
      obtain ⟨name, -, made⟩ := bind_eq_ok.mp made
      obtain ⟨type, typed, made⟩ := bind_eq_ok.mp made
      obtain ⟨description, -, same⟩ := bind_eq_ok.mp made
      obtain rfl := Except.ok.inj same
      unfold Notation.argument at typed
      split at typed
      case isTrue => cases typed
      case isFalse =>
        cases typed
        refine ⟨.argument level (Naming.snakeCase name) resolved (default.getD "")
          (Ruby.description description), rfl, ?_, by simp [SchemaPiece.included?]⟩
        simpa [SchemaPiece.targets] using isThere_ofField references resolves

/-- The lines of a field are that of its name and its type, those of its arguments, and an end. -/
theorem IsOfField.writesPieces (standard : plan.templates = []) {field : Field}
    (made : IsOfField plan subject field contribution)
    : contribution.WritesPieces plan.modules isThere isModule := by
  cases made with
  | reference | spec => trivial
  | @opening resolved text resolves made =>
      obtain ⟨name, -, made⟩ := bind_eq_ok.mp made
      obtain ⟨description, -, same⟩ := bind_eq_ok.mp made
      obtain rfl := Except.ok.inj same
      refine ⟨.field (Naming.snakeCase name) resolved (Ruby.description description), rfl, ?_,
        by simp [SchemaPiece.included?]⟩
      simpa [SchemaPiece.targets] using isThere_ofField references resolves
  | argument _ inner => exact (isOfArgument contribution inner).writesPieces references
  | ending =>
      exact ⟨.fieldEnd, rfl, by simp [SchemaPiece.targets], by simp [SchemaPiece.included?]⟩
  | method resolves made =>
      obtain ⟨page, -, rfl⟩ := exists_page_of_methodText standard made
      exact ⟨.method page _ _, rfl, by simp [StubPiece.included?]⟩
  | listed made =>
      obtain ⟨name, arguments, -, rfl⟩ := exists_of_listing made
      trivial

/-- The members of a union are listed by their generated names. -/
theorem IsOfMembers.writesPieces (made : IsOfMembers plan subject contribution)
    : contribution.WritesPieces plan.modules isThere isModule := by
  cases made with
  | declaration => trivial
  | @list targets areMembers =>
      refine ⟨.possibleTypes targets, ?_, ?_, by simp [SchemaPiece.included?]⟩
      · simp only [SchemaPiece.text, String.append_assoc]
      · intro target member
        obtain ⟨-, mention, -, mapping, known, rfl⟩ := areMembers target member
        exact isThere_lookupValue references known

end

theorem IsOfEnumValue.writesPieces {value : EnumValue} (made : IsOfEnumValue value contribution)
    : contribution.WritesPieces plan.modules isThere isModule := by
  cases made with
  | @line description =>
      exact ⟨.value value.name.display (Ruby.description description), rfl,
        by simp [SchemaPiece.targets], by simp [SchemaPiece.included?]⟩

theorem IsOfClosing.writesPieces (made : IsOfClosing contribution)
    : contribution.WritesPieces plan.modules isThere isModule := by
  cases made with
  | schema =>
      exact ⟨.documentEnd, rfl, by simp [SchemaPiece.targets], by simp [SchemaPiece.included?]⟩
  | implementation => exact ⟨.documentEnd, rfl, by simp [StubPiece.included?]⟩
  | spec => trivial

/-- A type whose references are there writes pieces whose names are there. -/
theorem writesPieces_of_mem_script (standard : plan.templates = [])
    (references : subject.HasReferences plan isThere isModule)
    (member : contribution ∈ script plan subject)
    : contribution.WritesPieces plan.modules isThere isModule := by
  cases isOfSubject contribution (mem_script.mp member) with
  | interface among made => exact made.writesPieces references among
  | header made => exact made.writesPieces references standard
  | field _ made => exact made.writesPieces references standard
  | members made => exact made.writesPieces references
  | value _ made => exact made.writesPieces
  | input _ made => exact made.writesPieces references
  | closing made => exact made.writesPieces

end Contribution

end RubySchema
