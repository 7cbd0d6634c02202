import RubySchema.Generation.Contribution
import RubySchema.Hooks
import RubySchema.Journal
import RubySchema.Reference

/-!
A run: the schema is filtered, its roots and directives are checked, its types get their places, and
the contributions of the types are carried out into documents. The documents, together with those of
fixed text and two lists, are the files of the run.
-/

namespace RubySchema

open Text

/-- What a run works on. An earlier run on the same schema has shown all its types. -/
structure Job where
  schema : Schema
  reference : Reference
  settings : Settings
  hooks : Hooks
  templates : Table String
  isRepeated : Bool := false
  deriving Inhabited

/-- A file of a run. Users may edit stubs and specs. -/
structure GeneratedFile where
  path : String
  content : String
  isEditable : Bool
  deriving DecidableEq, Repr, Inhabited

/-- The result of a run. The names of unsupported directives are those of the schema document, which
need not be texts.
-/
structure Generation where
  files : List GeneratedFile
  unsupported : List Json
  graph : DependencyGraph
  fieldList : Table (Option String)
  total : Nat
  deriving Inhabited

-----------------------------------------------------------------------------------------
-- Carrying out contributions
-----------------------------------------------------------------------------------------

/-- The documents, references and fields of the contributions carried out so far. -/
structure Progress where
  assembly : Assembly
  graph : DependencyGraph
  total : Nat
  fieldList : Table (Option String)
  notes : List Note
  deriving Inhabited

namespace Progress

/-- Nothing has been carried out. -/
def empty : Progress :=
  {
    assembly := Assembly.empty
    graph := DependencyGraph.empty
    total := 0
    fieldList := []
    notes := []
  }

/-- The note on a reference that closes a cycle. -/
def cycleNote (source target : String) : Note :=
  {
    level := .info
    text := "Class " ++ source ++ " depends on " ++ target
      ++ " and vice-versa. Will handle accordingly."
  }

/-- A change of one document of a type. -/
def onDocument (progress : Progress) (target : String) (kind : DocumentKind)
    (change : Document → Except Error Document) : Except Error Progress :=
  let (artifacts, assembly) := progress.assembly.documentsFor target
  match artifacts.document? kind with
  | none => .ok { progress with assembly }
  | some document => do
      return { progress with
        assembly := assembly.store (artifacts.withDocument kind (← change document)) }

/-- A reference from a type to another. -/
def onReference (progress : Progress) (plan : Plan) (source target : String)
    : Except Error Progress :=
  let (artifacts, assembly) := progress.assembly.documentsFor source
  let (graph, document) :=
    progress.graph.refer plan.classified plan.modules.schemaNamespace artifacts.schema source target
  let closes := plan.classified.isTracked target && graph.closes source target
  let notes := if closes then progress.notes ++ [cycleNote source target] else progress.notes
  do return { progress with
    assembly := assembly.store { artifacts with schema := ← document }
    graph
    notes }

/-- One contribution of a type, carried out. -/
def perform (progress : Progress) (plan : Plan) (target : String)
    : Contribution → Except Error Progress
  | .fragment kind place text => progress.onDocument target kind (·.add place text)
  | .reference other => progress.onReference plan target other
  | .declaration other =>
      progress.onDocument target .schema
        (ForwardDeclaration.declare plan.classified plan.modules.schemaNamespace · other)
  | .listed field arguments =>
      .ok { progress with
        total := progress.total + 1
        fieldList := Table.put progress.fieldList field arguments }
  | .closing kind text => progress.onDocument target kind (·.close text)

/-- Contributions of a type carried out in order: what has been reached, and the failure that
stopped it if there was one.
-/
def performAll (progress : Progress) (plan : Plan) (target : String)
    : Steps → Progress × Option Error
  | [] => (progress, none)
  | .error cause :: _ => (progress, some cause)
  | .ok contribution :: rest =>
      match progress.perform plan target contribution with
      | .ok next => next.performAll plan target rest
      | .error cause => (progress, some cause)

/-- Documents for a generated name at hand, new ones if it has none. -/
def openFor (progress : Progress) (target : String) : Progress :=
  { progress with assembly := (progress.assembly.documentsFor target).2 }

/-- The contributions of all subjects carried out in order. -/
def performSubjects (progress : Progress) (plan : Plan) : List Subject → Progress × Option Error
  | [] => (progress, none)
  | subject :: rest =>
      match (progress.openFor subject.mapping.targetName).performAll plan
          subject.mapping.targetName (Contribution.ofSubject plan subject) with
      | (next, none) => next.performSubjects plan rest
      | (next, some cause) => (next, some cause)

end Progress

-----------------------------------------------------------------------------------------
-- Checks and places
-----------------------------------------------------------------------------------------

/-- A type as it is generated: it has a mapping of its own. -/
def Classified.subject? (classified : Classified) (type : TypeDef) : Option Subject :=
  match type.name with
  | .string name =>
      match classified.get? name with
      | some mapping => if mapping.isBuiltin then none else some { type, mapping, unshown := 0 }
      | none => none
  | _ => none

/-- The types that are generated, in the order of the schema. -/
def Classified.subjects (classified : Classified) (types : List TypeDef) : List Subject :=
  types.filterMap classified.subject?

namespace Job

def detail (text : String) : Note :=
  { level := .debug, text }

def info (text : String) : Note :=
  { level := .info, text }

/-- A schema must have roots for queries and mutations, and none for subscriptions. -/
def checkRoots (schema : Schema) : Except Error Unit :=
  if schema.queryType.isVoid then .error (.missingRoot "query")
  else if schema.mutationType.isVoid then .error (.missingRoot "mutation")
  else if !schema.subscriptionType.isVoid then
    .error (.subscriptionRoot schema.subscriptionType)
  else .ok ()

/-- The directives without an implementation. Deprecated ones are passed over. -/
def checkDirectives (reference : Reference) : List Directive → Noted (List Json)
  | [] => pure []
  | directive :: rest => do
      if directive.isDeprecated then checkDirectives reference rest
      else
        let name := directive.name.display
        if ← Noted.ofExcept (reference.supportsDirective directive.name) then
          Noted.note [detail ("Skipping directive '" ++ name
            ++ "' which is a built-in supported by graphql-ruby.")]
          checkDirectives reference rest
        else
          Noted.note [detail ("Directive '" ++ name ++ "' is not supported by graphql-ruby.")]
          if !directive.name.isKey then Noted.ofExcept (.error .illTyped)
          return directive.name :: (← checkDirectives reference rest)

/-- A registry that knows the built-in types. -/
def startRegistry (settings : Settings) (builtins : List String) : Registry :=
  builtins.foldl Registry.registerBuiltin
    (Registry.empty settings.builtinNamespace settings.baseTypeOverrides)

/-- The mappings of a schema's types, with those of the built-in types. -/
def classify (reference : Reference) (settings : Settings) (schema : Schema)
    : Noted Classified := do
  let builtins ← Noted.ofExcept reference.builtinNames
  Noted.note (builtins.map fun name =>
    detail ("Registering type '" ++ name ++ "' as built-in type."))
  let start := startRegistry settings builtins
  Noted.note ((start.mappingsMet schema.types).map fun mapping =>
    detail ("Mapped " ++ mapping.schemaName ++ " to " ++ mapping.targetName ++ "."))
  return (← Noted.ofExcept (start.classifyAll schema.types)).finalize

-----------------------------------------------------------------------------------------
-- Files
-----------------------------------------------------------------------------------------

/-- A base class of the generated code: its name, its superclass unless it is a module, the lines of
its body, and the user module it includes.
-/
structure Base where
  name : String
  superclass : Option String
  body : List String
  userModule : Option String

def bases : List Base :=
  [
    ⟨BaseType.object, some "GraphQL::Schema::Object", [], some BaseType.object⟩,
    ⟨BaseType.objectNode, some "GraphQL::Schema::Object",
      ["global_id_field :id", "implements ::GraphQL::Relay::Node.interface"],
      some BaseType.object⟩,
    ⟨BaseType.enum, some "GraphQL::Schema::Enum", [], some BaseType.enum⟩,
    ⟨BaseType.scalar, some "GraphQL::Schema::Scalar", [], some BaseType.scalar⟩,
    ⟨BaseType.interface, none, ["include ::GraphQL::Schema::Interface"], none⟩,
    ⟨BaseType.union, some "GraphQL::Schema::Union", [], some BaseType.union⟩,
    ⟨BaseType.input, some "GraphQL::Schema::InputObject", [], none⟩,
    ⟨BaseType.payload, some "GraphQL::Schema::Object", [], none⟩
  ]

def userModules : List String :=
  [BaseType.object, BaseType.enum, BaseType.scalar, BaseType.interface, BaseType.union]

/-- The documents of fixed text: the root of the schema, the base classes and the user modules. -/
def addFixedDocuments (plan : Plan) (assembly : Assembly) : Except Error Assembly := do
  let query ← plan.classified.lookupValue plan.schema.queryType
  let mutation ← plan.classified.lookupValue plan.schema.mutationType
  let root ← plan.render (.schemaRoot query.targetName mutation.targetName)
  let withRoot := assembly.addFixed "schema/schema" (root ++ "\n")
  let withBases ← bases.foldlM (fun (current : Assembly) base => do
    let text ← plan.render (.baseType base.name base.superclass base.body base.userModule)
    return current.addFixed ("schema/" ++ Naming.filePath base.name) (text ++ "\n")) withRoot
  userModules.foldlM (fun (current : Assembly) name => do
    return current.addFixed (Naming.filePath name) ((← plan.render (.userModule name)) ++ "\n"))
    withBases

/-- The files of a type: its definition, its stub, its spec. -/
def artifactFiles (settings : Settings) (artifacts : Artifacts) : List GeneratedFile :=
  let path := Naming.filePath artifacts.targetName
  let editable (place : String) (document : Option Document) : List GeneratedFile :=
    (document.map fun document =>
      { path := place, content := document.render, isEditable := true : GeneratedFile }).toList
  { path := settings.libDir ++ "/schema/" ++ path ++ ".rb", content := artifacts.schema.render,
    isEditable := false }
    :: editable (settings.libDir ++ "/" ++ path ++ ".rb") artifacts.implementation
    ++ editable (settings.specDir ++ "/" ++ path ++ "_spec.rb") artifacts.spec

/-- A path within the directory of schema definitions; none for another path. -/
def schemaPath? (path : String) : Option String :=
  (afterStart? "schema/".toList path.toList).map String.ofList

/-- The file of a document of fixed text. Outside the directory of schema definitions it is a user
module.
-/
def fixedFile (settings : Settings) (document : String × String) : GeneratedFile :=
  {
    path := settings.libDir ++ "/" ++ document.1 ++ ".rb"
    content := document.2
    isEditable := (schemaPath? document.1).isNone
  }

/-- The paths in the list of files: those of stubs and user modules. -/
def implementationPaths (assembly : Assembly) : List String :=
  ((assembly.artifacts.values.filter fun artifacts => artifacts.implementation.isSome).map
      fun artifacts => Naming.filePath artifacts.targetName)
    ++ assembly.fixed.names.filter fun path => (schemaPath? path).isNone

/-- The paths in the list of files: those of schema definitions. -/
def schemaPaths (assembly : Assembly) : List String :=
  (assembly.artifacts.values.map fun artifacts => Naming.filePath artifacts.targetName)
    ++ assembly.fixed.names.filterMap schemaPath?

/-- All files of a run before headers are put on them. -/
def files (plan : Plan) (assembly : Assembly) (fieldList : Table (Option String))
    : Except Error (List GeneratedFile) := do
  let fileList ← plan.render (.fileList (implementationPaths assembly) (schemaPaths assembly))
  let fieldListText ← plan.render (.fieldList fieldList)
  let libDir := plan.settings.libDir
  return assembly.artifacts.values.flatMap (artifactFiles plan.settings)
    ++ assembly.fixed.map (fixedFile plan.settings)
    ++ [
      { path := libDir ++ "/file_list.rb", content := fileList, isEditable := false },
      { path := libDir ++ "/field_list.md", content := fieldListText, isEditable := false }
    ]

-----------------------------------------------------------------------------------------
-- The run
-----------------------------------------------------------------------------------------

/-- Contributions of subjects carried out from the start, with their notes. -/
def carryOut (plan : Plan) (subjects : List Subject) : Noted Progress :=
  let (progress, failure) := Progress.empty.performSubjects plan subjects
  {
    notes := progress.notes
    outcome := match failure with
      | none => .ok progress
      | some cause => .error cause
  }

/-- What a run has made when all documents are there: its plan, the directives that are not
supported, what its types have come to, and the documents of types together with those of fixed
text.
-/
structure Draft where
  plan : Plan
  unsupported : List Json
  progress : Progress
  assembly : Assembly
  deriving Inhabited

/-- The documents of a run. -/
def draft (job : Job) : Noted Draft := do
  let schema ← Noted.ofExcept (job.hooks.applyFilters job.schema)
  Noted.ofExcept (checkRoots schema)
  Noted.note [info ("Found " ++ toString schema.directives.length ++ " directives.")]
  let unsupported ← checkDirectives job.reference schema.directives
  let classified ← classify job.reference job.settings schema
  let plan : Plan := { schema, classified, settings := job.settings, templates := job.templates }
  Noted.note [info ("Found total " ++ toString schema.types.length ++ " types.")]
  let subjects := classified.subjects schema.types
  let progress ← carryOut plan (if job.isRepeated then subjects else plan.subjectsOf subjects)
  let assembly ← Noted.ofExcept (addFixedDocuments plan progress.assembly)
  return { plan, unsupported, progress, assembly }

/-- A run, in memory. -/
def build (job : Job) : Noted Generation := do
  let draft ← job.draft
  let files ← Noted.ofExcept (Job.files draft.plan draft.assembly draft.progress.fieldList)
  Noted.note [info ("Done. Methods: " ++ toString draft.progress.total ++ ".")]
  return {
    files := files.map fun file =>
      { file with content := job.hooks.applyHeaders file.path file.content }
    unsupported := draft.unsupported
    graph := draft.progress.graph
    fieldList := draft.progress.fieldList
    total := draft.progress.total
  }

end Job

end RubySchema
