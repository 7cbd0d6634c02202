import RubySchema.Artifacts
import RubySchema.Dependency
import RubySchema.Example.Expansion
import RubySchema.Example.Query
import RubySchema.Generation.Page
import RubySchema.Settings.Basic

/-!
What a type contributes to the generated code: fragments of its documents, references to other
types, and the fields to be listed. Contributions are made one after another, and the first that
cannot be made is the last. What a type contributes does not depend on the types before it, but for
marks that only templates of one's own can show.
-/

namespace RubySchema

open Text

/-- What contributions are made from: the schema, the mappings of its types, and the settings. -/
structure Plan where
  schema : Schema
  classified : Classified
  settings : Settings
  templates : Table String
  deriving Inhabited

namespace Plan

/-- The modules that generated constants lie in. -/
def modules (plan : Plan) : Modules :=
  {
    namespaceName := plan.settings.namespaceName
    schemaNamespace := plan.settings.schemaNamespace
  }

def render (plan : Plan) (page : Page) : Except Error String :=
  page.render plan.templates plan.modules

/-- The spec factory of a type: by the settings if they name one, otherwise the type's own name. -/
def factoryName (settings : Settings) (typeName : String) : Option String :=
  let name := Naming.snakeCase typeName
  (Table.get? settings.factories name).getD (some name)

/-- The line of a spec that creates a record; it is a comment when there is no factory. -/
def factoryLine (settings : Settings) (typeName : String) : String :=
  let name := Naming.snakeCase typeName
  let (start, factory) : String × String :=
    match factoryName settings typeName with
    | none => ("#", name)
    | some factory => if factory.isEmpty then ("#", name) else ("", factory)
  start ++ "let!(:" ++ name ++ ") \x7b create(:" ++ factory ++ ") \x7d"

end Plan

/-- A single contribution of a type. -/
inductive Contribution where
  | fragment (kind : DocumentKind) (place : Section) (text : String)
  | reference (target : String)
  | declaration (target : String)
  | listed (field : String) (arguments : Option String)
  | closing (kind : DocumentKind) (text : String)
  deriving DecidableEq, Repr, Inhabited

/-- Contributions in order; nothing after a failure counts. -/
abbrev Steps :=
  List (Except Error Contribution)

/-- A type under generation. Its first fields come before any example that shows the members of the
type: `unshown` is how many.
-/
structure Subject where
  type : TypeDef
  mapping : NameMapping
  unshown : Nat
  deriving Inhabited

namespace Subject

/-- The type's documents include one of a kind. -/
def hasDocument (subject : Subject) (kind : DocumentKind) : Bool :=
  kind ∈ Artifacts.kindsFor subject.mapping.targetName

/-- A fragment for a document, if the type has the document. -/
def fragment (subject : Subject) (kind : DocumentKind) (place : Section)
    (text : Except Error String) : Steps :=
  if subject.hasDocument kind then [text.map (Contribution.fragment kind place)] else []

end Subject

namespace Contribution

/-- Arguments that connection fields have without being declared. -/
def paginationArguments : List String :=
  ["first", "last", "before", "after", "pageInfo"]

-----------------------------------------------------------------------------------------
-- Interfaces and headers
-----------------------------------------------------------------------------------------

/-- The line for an interface in the schema definition, and in the stub if there is one. The
interface of nodes is left to the base class.
-/
def ofInterface (plan : Plan) (subject : Subject) (mention : Mention) : Steps :=
  if mention.hasOfType || mention.kind != .string TypeKind.interface.word then
    [.error (.strayInterface subject.type.name mention.name)]
  else if mention.name == .string nodeInterface then []
  else
    match plan.classified.lookupValue mention.name with
    | .error cause => [.error cause]
    | .ok mapping =>
        subject.fragment .schema .interfaces
            (.ok (indent 1
              ("implements ::" ++ plan.modules.schemaNamespace ++ "::" ++ mapping.targetName)))
          ++ subject.fragment .implementation .interfaces
            (.ok (indent 1
              ("include ::" ++ plan.modules.namespaceName ++ "::" ++ mapping.targetName)))

/-- The openings of the documents. -/
def ofHeaders (plan : Plan) (subject : Subject) : Steps :=
  let mapping := subject.mapping
  subject.fragment .schema .header
      (plan.render (.schemaHeader mapping subject.type.description))
    ++ (if mapping.hasImplementation then
        subject.fragment .schema .includes
          (.ok (indent 1
            ("include ::" ++ plan.modules.namespaceName ++ "::" ++ mapping.targetName)))
      else [])
    ++ (if mapping.isInterface then
        subject.fragment .schema .defMethods (.ok (indent 1 "definition_methods do\nend\n"))
      else [])
    ++ subject.fragment .implementation .header (plan.render (.implementationHeader mapping))
    ++ subject.fragment .spec .header
      (plan.render
        (.specHeader mapping.targetName (Plan.factoryLine plan.settings mapping.schemaName)))

-----------------------------------------------------------------------------------------
-- Arguments and input fields
-----------------------------------------------------------------------------------------

/-- An argument is left out when it is deprecated, or when its field has it without being declared.
-/
def isLeftOut (isConnection : Bool) (argument : Field) : Except Error Bool :=
  if argument.isDeprecated then .ok true
  else if !isConnection then .ok false
  else if !argument.name.isKey then .error .illTyped
  else .ok ((paginationArguments.map Json.string).contains argument.name)

/-- The default of an argument as a literal. An argument that need not be given has a default in any
case.
-/
def defaultLiteral (argument : Field) (resolved : Resolved) : Except Error (Option String) :=
  if argument.defaultValue == .null && resolved.isRequired then .ok none
  else do return some (Ruby.defaultValue (← argument.defaultValue.asTextIfAny))

def onelineValue (description : Json) : Except Error String :=
  if description.isVoid then .ok "" else do return oneline (← description.asText)

def argumentLine (plan : Plan) (level : Nat) (argument : Field) (resolved : Resolved)
    : Except Error String := do
  let default ← defaultLiteral argument resolved
  let name := Naming.snakeCase (← argument.name.asText)
  let type ← Notation.argument plan.modules.schemaNamespace resolved
  let line :=
    "argument :" ++ name ++ ", " ++ type ++ ","
      ++ Page.around " default_value: " (default.getD "") "," ++ " description: "
  return indent level line ++ Ruby.description (← argument.description.asTextIfAny)

def parameter (plan : Plan) (argument : Field) (resolved : Resolved) : Except Error Parameter := do
  return {
    name := Naming.snakeCase (← argument.name.asText)
    short := Notation.short plan.modules.schemaNamespace resolved
    description := ← onelineValue argument.description
    default := ← defaultLiteral argument resolved
  }

/-- What a kept argument contributes: its reference and its line. -/
def ofKeptArgument (plan : Plan) (subject : Subject) (level : Nat) (argument : Field) : Steps :=
  match Resolved.ofField plan.classified argument with
  | .error cause => [.error cause]
  | .ok resolved =>
      .ok (.reference resolved.targetName)
        :: subject.fragment .schema .fields (argumentLine plan level argument resolved)
        ++ (match parameter plan argument resolved with
          | .ok _ => []
          | .error cause => [.error cause])

/-- What an argument or input field contributes. -/
def ofArgument (plan : Plan) (subject : Subject) (level : Nat) (isConnection : Bool)
    (argument : Field) : Steps :=
  match isLeftOut isConnection argument with
  | .error cause => [.error cause]
  | .ok true => []
  | .ok false => ofKeptArgument plan subject level argument

/-- The parameters for the arguments that are kept. -/
def parameters (plan : Plan) (isConnection : Bool) (arguments : List Field)
    : Except Error (List Parameter) := do
  let kept ← arguments.filterM fun argument => do return !(← isLeftOut isConnection argument)
  kept.mapM fun argument => do
    parameter plan argument (← Resolved.ofField plan.classified argument)

-----------------------------------------------------------------------------------------
-- Fields
-----------------------------------------------------------------------------------------

/-- The lines that open the declaration of a field. -/
def fieldLines (plan : Plan) (field : Field) (resolved : Resolved) : Except Error String := do
  let name := Naming.snakeCase (← field.name.asText)
  let type := Notation.field plan.modules.schemaNamespace resolved
  let lines := indent 1 ("field :" ++ name ++ ", " ++ type ++ " do\n  description ")
  return lines ++ Ruby.description (← field.description.asTextIfAny)

/-- The marks of an argument. One that is left out has none before an example has shown it. -/
def argumentMarks (plan : Plan) (isShown isConnection : Bool) (argument : Field)
    : Except Error Marks := do
  if !isShown && (← isLeftOut isConnection argument) then return Marks.none
  else return Marks.none.after (Resolved.ofField plan.classified argument)

/-- The content of a field's pages, before or after an example has shown its arguments. -/
def fieldPage (plan : Plan) (isShown : Bool) (field : Field) (resolved : Resolved)
    : Except Error FieldPage := do
  return {
    field
    name := ← field.name.asText
    parameters := ← parameters plan resolved.isConnection field.arguments
    description := ← onelineValue field.description
    returns := Notation.short plan.modules.schemaNamespace resolved
    marks := { isArray := resolved.isArray, isConnection := resolved.isConnection }
    argumentMarks :=
      ← field.arguments.mapM (argumentMarks plan isShown resolved.isConnection)
  }

/-- The method of a field in the stub. -/
def methodText (plan : Plan) (isShown : Bool) (field : Field) (resolved : Resolved)
    : Except Error String := do
  let page ← fieldPage plan isShown field resolved
  let names := page.parameters.map fun parameter => parameter.name ++ ":"
  let signature := "(" ++ ", ".intercalate names ++ ")"
  return indent 1 (← plan.render (.fieldMethod page (Naming.snakeCase page.name) signature))

/-- The example of a field, with those of its arguments. -/
def fieldExample (plan : Plan) (field : Field) : Except Error Entries := do
  let expander : Expander := { schema := plan.schema, classified := plan.classified }
  let expand := expander.expandIn (Expander.roomAt plan.settings.maxDepth 0)
  let value ← Expansion.fromEmpty (expander.fieldValue expand field)
  let arguments ← Expansion.fromEmpty (expander.argumentEntries expand field.arguments)
  return .cons field.name value arguments .nil

/-- The query of a field's example. Fields of the mutation root stand at the top of the query. -/
def queryText (plan : Plan) (typeName : String) (entries : Entries) : Except Error String := do
  let root := Naming.camelLower typeName
  let selection ← entries.selection plan.settings.maxDepth
  if Json.string typeName == plan.schema.mutationType then
    return "      " ++ root ++ " \x7b" ++ indent 4 selection ++ "\n      \x7d"
  else
    let operation := plan.schema.operationFor (.string typeName)
    return "      " ++ operation ++ " \x7b\n        " ++ root ++ " \x7b" ++ indent 5 selection
      ++ "\n        \x7d\n      \x7d"

/-- The response that the query of a field's example expects. -/
def resultText (plan : Plan) (typeName : String) (entries : Entries) : String :=
  let result := entries.result plan.settings.maxDepth
  let text :=
    if Json.string typeName == plan.schema.mutationType then indent 4 result
    else
      "        " ++ Naming.camelLower typeName ++ ": \x7b\n" ++ indent 5 result ++ "\n        \x7d"
  String.ofList (text.toList.map fun c => if c == '"' then '\x27' else c)

/-- The example of a field in the spec. -/
def specText (plan : Plan) (subject : Subject) (field : Field) (resolved : Resolved)
    : Except Error String := do
  let entries ← fieldExample plan field
  let page ← fieldPage plan true field resolved
  let typeName := subject.mapping.schemaName
  let query ← queryText plan typeName entries
  return indent 2 (← plan.render (.fieldSpec page query (resultText plan typeName entries)))

/-- The entry of a field in the list of fields, with the names of all its arguments. -/
def listing (subject : Subject) (field : Field) : Except Error Contribution := do
  let key := subject.mapping.schemaName ++ "." ++ (← field.name.asText)
  if field.arguments.isEmpty then return .listed key none
  else
    let names ← field.arguments.mapM fun argument => argument.name.asText
    return .listed key (some ("(" ++ ", ".intercalate names ++ ")"))

/-- A field is left out when it is deprecated, or when it is the id that the base class of nodes
declares.
-/
def isFieldLeftOut (subject : Subject) (field : Field) : Bool :=
  field.isDeprecated
    || (field.name == .string "id" && subject.mapping.baseType == some BaseType.objectNode)

/-- What a kept field contributes: its reference, its declaration around those of its arguments, its
method, its example, and its entry in the list.
-/
def ofKeptField (plan : Plan) (subject : Subject) (isShown : Bool) (field : Field) : Steps :=
  match Resolved.ofField plan.classified field with
  | .error cause => [.error cause]
  | .ok resolved =>
      .ok (.reference resolved.targetName)
        :: subject.fragment .schema .fields (fieldLines plan field resolved)
        ++ field.arguments.flatMap (ofArgument plan subject 2 resolved.isConnection)
        ++ subject.fragment .schema .fields (.ok (indent 1 "end\n"))
        ++ subject.fragment .implementation .fields (methodText plan isShown field resolved)
        ++ subject.fragment .spec .fields (specText plan subject field resolved)
        ++ [listing subject field]

/-- What a field at a position of its type contributes. -/
def ofField (plan : Plan) (subject : Subject) (field : Field) (position : Nat) : Steps :=
  if isFieldLeftOut subject field then []
  else ofKeptField plan subject (subject.unshown ≤ position) field

-----------------------------------------------------------------------------------------
-- Unions and enumerations
-----------------------------------------------------------------------------------------

/-- The generated name of a union's member. -/
def memberTarget (plan : Plan) (subject : Subject) (mention : Mention) : Except Error String :=
  if mention.hasOfType || mention.kind != .string TypeKind.object.word then
    .error (.strayMember subject.type.name mention.name)
  else do return (← plan.classified.lookupValue mention.name).targetName

/-- The members of a union, each declared in front of the definition. -/
def ofMembers (plan : Plan) (subject : Subject) : Steps :=
  let members := subject.type.possibleTypes
  if subject.type.kind != .union || members.isEmpty then []
  else
    match members.mapM (memberTarget plan subject) with
    | .error cause => [.error cause]
    | .ok targets =>
        let lines := targets.map fun target =>
          "  ::" ++ plan.modules.schemaNamespace ++ "::" ++ target
        targets.map (fun target => .ok (.declaration target))
          ++ subject.fragment .schema .possibleTypes
            (.ok (indent 1 ("possible_types \\\n" ++ ",\n".intercalate lines)))

/-- A value of an enumeration, unless it is deprecated. -/
def ofEnumValue (subject : Subject) (value : EnumValue) : Steps :=
  if value.isDeprecated then []
  else
    subject.fragment .schema .fields do
      return indent 1 ("value '" ++ value.name.display ++ "', ")
        ++ Ruby.description (← value.description.asTextIfAny)

-----------------------------------------------------------------------------------------
-- Types
-----------------------------------------------------------------------------------------

/-- The ends of the documents. -/
def ofClosing (subject : Subject) : Steps :=
  [.ok (.closing .schema "end\n")]
    ++ (if subject.hasDocument .implementation then
        [.ok (.closing .implementation "end\n")]
      else [])
    ++ (if subject.hasDocument .spec then [.ok (.closing .spec "  end\nend\n")] else [])

/-- What a type contributes. -/
def ofSubject (plan : Plan) (subject : Subject) : Steps :=
  subject.type.interfaces.flatMap (ofInterface plan subject)
    ++ ofHeaders plan subject
    ++ (subject.type.fields.getD []).zipIdx.flatMap (fun (field, position) =>
      ofField plan subject field position)
    ++ ofMembers plan subject
    ++ subject.type.enumValues.flatMap (ofEnumValue subject)
    ++ (subject.type.inputFields.getD []).flatMap (ofArgument plan subject 1 false)
    ++ ofClosing subject

end Contribution

namespace Plan

/-- The types whose members the example of a field shows. -/
def shownBy (plan : Plan) (field : Field) : List String :=
  let expander : Expander := { schema := plan.schema, classified := plan.classified }
  (Expander.expandedBy field).flatMap
    (expander.shownIn (Expander.roomAt plan.settings.maxDepth 0) [])

/-- How many of the first fields come before an example that shows the members of the subject, and
all types shown when the fields are done.
-/
def countUnshown (plan : Plan) (subject : Subject) (shown : List String)
    : List Field → Nat × List String
  | [] => (0, shown)
  | field :: rest =>
      let isDone := shown.contains subject.mapping.schemaName
      let hasExample := subject.hasDocument .spec && !Contribution.isFieldLeftOut subject field
      let next := if hasExample then (shown ++ plan.shownBy field).eraseDups else shown
      let (count, final) := plan.countUnshown subject next rest
      (if isDone then 0 else count + 1, final)

/-- Subjects with the number of fields that come before an example shows the members of their type.
-/
def withUnshown (plan : Plan) (shown : List String) : List Subject → List Subject
  | [] => []
  | subject :: rest =>
      let (unshown, next) := plan.countUnshown subject shown (subject.type.fields.getD [])
      { subject with unshown } :: plan.withUnshown next rest

/-- Subjects in order. What examples have shown counts only where a template can show it. -/
def subjectsOf (plan : Plan) (subjects : List Subject) : List Subject :=
  if Table.has plan.templates Page.methodTemplate then plan.withUnshown [] subjects else subjects

end Plan

end RubySchema
