import RubySchema.Json.Access

/-!
A schema as a schema document gives it. Names, descriptions and default values are kept as the
document has them, whatever their form; whoever uses one asks for the form that the use needs.
-/

namespace RubySchema

inductive TypeKind where
  | scalar
  | object
  | interface
  | union
  | enum
  | inputObject
  | list
  | nonNull
  deriving DecidableEq, Repr, Inhabited

namespace TypeKind

/-- The word for a kind in a document. -/
def word : TypeKind → String
  | .scalar => "SCALAR"
  | .object => "OBJECT"
  | .interface => "INTERFACE"
  | .union => "UNION"
  | .enum => "ENUM"
  | .inputObject => "INPUT_OBJECT"
  | .list => "LIST"
  | .nonNull => "NON_NULL"

def all : List TypeKind :=
  [.scalar, .object, .interface, .union, .enum, .inputObject, .list, .nonNull]

def ofWord? (word : String) : Option TypeKind :=
  all.find? fun kind => kind.word == word

/-- Kinds that wrap another type and name none. -/
def isWrapper (kind : TypeKind) : Bool :=
  kind == .list || kind == .nonNull

end TypeKind

/-- A use of a type: a named type, or a wrapper around a use. -/
inductive TypeRef where
  | named (name : Json) (kind : Option TypeKind)
  | list (item : TypeRef)
  | nonNull (inner : TypeRef)
  deriving DecidableEq, Inhabited

namespace TypeRef

/-- The name inside all wrappers. -/
def name : TypeRef → Json
  | .named name _ => name
  | .list item => item.name
  | .nonNull inner => inner.name

end TypeRef

/-- A field of a type, an argument of a field, or an input field. -/
structure Field where
  name : Json
  type : TypeRef
  arguments : List Field
  description : Json
  isDeprecated : Bool
  defaultValue : Json
  deriving Inhabited

/-- A mention of an interface or of a member of a union. -/
structure Mention where
  name : Json
  kind : Json
  hasOfType : Bool
  deriving DecidableEq, Inhabited

structure EnumValue where
  name : Json
  description : Json
  isDeprecated : Bool
  deriving DecidableEq, Inhabited

structure TypeDef where
  name : Json
  kind : TypeKind
  fields : Option (List Field)
  inputFields : Option (List Field)
  interfaces : List Mention
  possibleTypes : List Mention
  enumValues : List EnumValue
  description : Json
  isDeprecated : Bool
  deriving Inhabited

namespace TypeDef

/-- The fields, or the input fields when there are no fields. -/
def members (type : TypeDef) : List Field :=
  match type.fields.getD [] with
  | [] => type.inputFields.getD []
  | fields => fields

/-- The type mentions an interface of that name. -/
def implements (type : TypeDef) (interface : Json) : Bool :=
  type.interfaces.any fun mention => mention.name.isEqual interface

/-- The first member of a name. -/
def member? (type : TypeDef) (name : Json) : Option Field :=
  type.members.find? fun member => member.name.isEqual name

end TypeDef

/-- A directive that a schema declares. -/
structure Directive where
  name : Json
  description : Json
  locations : List Json
  isDeprecated : Bool
  deriving DecidableEq, Inhabited

/-- A schema: its roots, directives and types, in the order of the document. A root that is missing
is null, and so is the schema's own description.
-/
structure Schema where
  queryType : Json
  mutationType : Json
  subscriptionType : Json
  directives : List Directive
  types : List TypeDef
  description : Json
  deriving Inhabited

namespace Schema

/-- The first type of a name. -/
def firstNamed? (schema : Schema) (name : Json) : Option TypeDef :=
  schema.types.find? fun type => type.name.isEqual name

/-- The last type of a name: later definitions stand for earlier ones. -/
def typeNamed? (schema : Schema) (name : Json) : Option TypeDef :=
  schema.types.reverse.find? fun type => type.name.isSame name

/-- The types under their names, which all have to be keys. -/
def byName (schema : Schema) : Except Error (Keyed TypeDef) :=
  if schema.types.all fun type => type.name.isKey then
    .ok (Keyed.ofEntries (schema.types.map fun type => (type.name, type)))
  else .error .illTyped

/-- The names of the types, each where it first occurs. -/
def typeNames (schema : Schema) : Except Error (List Json) := do
  return (← schema.byName).map Prod.fst

/-- The type of a name among types that are under their names; none is not allowed. -/
def typeUnder (schema : Schema) (name : Json) : Except Error TypeDef := do
  let _ ← schema.byName
  if !name.isKey then throw .illTyped
  match schema.typeNamed? name with
  | some type => return type
  | none => throw (.missingKey name.display)

/-- The operation that reaches a root of a name. -/
def operationFor (schema : Schema) (name : Json) : String :=
  if name.isEqual schema.mutationType then "mutation" else "query"

end Schema

end RubySchema
