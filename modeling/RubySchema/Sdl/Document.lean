import RubySchema.Schema.Basic
import RubySchema.Sdl.Literal

/-!
Documents of the schema definition language: definitions and extensions of schemas, types and
directives, and operations, which have no place in a schema but may stand in the text.
-/

namespace RubySchema.Sdl

/-- A use of a type in the text. -/
inductive Use where
  | named (name : String)
  | list (item : Use)
  | nonNull (inner : Use)
  deriving DecidableEq, Inhabited, Repr

/-- The name inside all wrappers. -/
def Use.name : Use → String
  | .named name => name
  | .list item => item.name
  | .nonNull inner => inner.name

/-- A value must be given. -/
def Use.isNonNull : Use → Bool
  | .nonNull _ => true
  | _ => false

structure Application where
  name : String
  arguments : List (String × Literal)
  deriving Inhabited

/-- An argument or an input field. -/
structure InputValue where
  name : String
  description : Option String
  type : Use
  default : Option Literal
  applications : List Application
  deriving Inhabited

/-- A value must be given, and nothing stands in for it. -/
def InputValue.isRequired (value : InputValue) : Bool :=
  value.type.isNonNull && value.default.isNone

structure FieldDef where
  name : String
  description : Option String
  arguments : List InputValue
  type : Use
  applications : List Application
  deriving Inhabited

structure ValueDef where
  name : String
  description : Option String
  applications : List Application
  deriving Inhabited

/-- A definition or an extension of a type. -/
structure TypeBlock where
  kind : TypeKind
  isExtension : Bool
  name : String
  description : Option String
  applications : List Application
  interfaces : List String
  fields : List FieldDef
  members : List String
  values : List ValueDef
  inputFields : List InputValue
  deriving Inhabited

/-- The definition or an extension of the schema. -/
structure SchemaBlock where
  isExtension : Bool
  description : Option String
  applications : List Application
  roots : List (String × String)
  deriving Inhabited

/-- The places where a directive may be applied. -/
def directiveLocations : List String :=
  [
    "QUERY", "MUTATION", "SUBSCRIPTION", "FIELD", "FRAGMENT_DEFINITION", "FRAGMENT_SPREAD",
    "INLINE_FRAGMENT", "VARIABLE_DEFINITION", "FRAGMENT_VARIABLE_DEFINITION", "SCHEMA", "SCALAR",
    "OBJECT", "FIELD_DEFINITION", "ARGUMENT_DEFINITION", "INTERFACE", "UNION", "ENUM", "ENUM_VALUE",
    "INPUT_OBJECT", "INPUT_FIELD_DEFINITION", "DIRECTIVE_DEFINITION"
  ]

structure DirectiveDef where
  name : String
  description : Option String
  arguments : List InputValue
  applications : List Application
  isRepeatable : Bool
  locations : List String
  deriving Inhabited

/-- An extension of a directive, which does no more than apply other directives to it. -/
structure DirectiveExtension where
  name : String
  applications : List Application
  deriving Inhabited

/-- What an operation or a fragment uses: types, and directives where they are applied. -/
structure Operation where
  typeNames : List String
  uses : List (String × List Application)
  argumentLists : List (List (String × Literal))
  deriving Inhabited

/-- A part of a document. -/
inductive Definition where
  | schema (block : SchemaBlock)
  | type (block : TypeBlock)
  | directive (definition : DirectiveDef)
  | directiveExtension (extension : DirectiveExtension)
  | operation (operation : Operation)
  deriving Inhabited

abbrev Document :=
  List Definition

namespace Document

/-- Definitions and extensions of types, in order. -/
def typeBlocks (document : Document) : List TypeBlock :=
  document.filterMap fun | .type block => some block | _ => none

/-- Definitions and extensions of the schema, in order. -/
def schemaBlocks (document : Document) : List SchemaBlock :=
  document.filterMap fun | .schema block => some block | _ => none

/-- Definitions of directives, in order. -/
def directives (document : Document) : List DirectiveDef :=
  document.filterMap fun | .directive definition => some definition | _ => none

def directiveExtensions (document : Document) : List DirectiveExtension :=
  document.filterMap fun | .directiveExtension extension => some extension | _ => none

/-- Operations and fragments, in order. -/
def operations (document : Document) : List Operation :=
  document.filterMap fun | .operation operation => some operation | _ => none

end Document

end RubySchema.Sdl
