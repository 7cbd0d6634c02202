import RubySchema.Sdl.Document

/-!
What a document declares: types with their extensions, directives, and the roots of the schema. Five
scalars and five directives are there without being declared.
-/

namespace RubySchema.Sdl

/-- A declared type with everything that its extensions add. -/
structure Declared where
  kind : TypeKind
  name : String
  description : Option String
  applications : List Application
  interfaces : List String
  fields : List FieldDef
  members : List String
  values : List ValueDef
  inputFields : List InputValue
  deriving Inhabited

/-- The scalars that are always there, with their descriptions. -/
def standardScalars : List (String × String) :=
  [
    ("Int", "The `Int` scalar type represents non-fractional signed whole numeric values. "
      ++ "Int can represent values between -(2^31) and 2^31 - 1."),
    ("Float", "The `Float` scalar type represents signed double-precision fractional values "
      ++ "as specified by [IEEE 754](https://en.wikipedia.org/wiki/IEEE_floating_point)."),
    ("String", "The `String` scalar type represents textual data, represented as UTF-8 "
      ++ "character sequences. The String type is most often used by GraphQL to represent free-form "
      ++ "human-readable text."),
    ("Boolean", "The `Boolean` scalar type represents `true` or `false`."),
    ("ID", "The `ID` scalar type represents a unique identifier, often used to refetch an "
      ++ "object or as key for a cache. The ID type appears in a JSON response as a String; "
      ++ "however, it is not intended to be human-readable. When expected as an input type, any string (such as "
      ++ "`\"4\"`) or integer (such as `4`) input value will be accepted as an ID.")
  ]

/-- A type without parts. -/
def Declared.bare (kind : TypeKind) (name : String) (description : Option String) : Declared :=
  {
    kind
    name
    description
    applications := []
    interfaces := []
    fields := []
    members := []
    values := []
    inputFields := []
  }

def standardScalar? (name : String) : Option Declared :=
  (standardScalars.find? fun scalar => scalar.1 == name).map fun scalar =>
    Declared.bare .scalar name (some scalar.2)

def Declared.enumeration (name : String) (values : List String) : Declared :=
  {
    Declared.bare .enum name none with
    values := values.map fun value => { name := value, description := none, applications := [] }
  }

/-- The types through which a schema describes itself; of the objects only the names count. -/
def selfDescribing : List Declared :=
  [
    Declared.bare .object "__Schema" none,
    Declared.bare .object "__Type" none,
    Declared.enumeration "__TypeKind" (TypeKind.all.map TypeKind.word),
    Declared.bare .object "__Field" none,
    Declared.bare .object "__InputValue" none,
    Declared.bare .object "__EnumValue" none,
    Declared.bare .object "__Directive" none,
    Declared.enumeration "__DirectiveLocation" directiveLocations
  ]

/-- A type that is there without being declared; a declaration of its name changes nothing. -/
def standardType? (name : String) : Option Declared :=
  match standardScalar? name with
  | some scalar => some scalar
  | none => selfDescribing.find? fun type => type.name == name

def standardArgument (name type : String) (isRequired : Bool) : InputValue :=
  {
    name
    description := none
    type := if isRequired then .nonNull (.named type) else .named type
    default := none
    applications := []
  }

/-- The directives that are always there. -/
def standardDirectives : List DirectiveDef :=
  [
    {
      name := "include"
      description :=
        some ("Directs the executor to include this field or fragment only when the "
          ++ "`if` argument is true.")
      arguments := [standardArgument "if" "Boolean" true]
      applications := []
      isRepeatable := false
      locations := ["FIELD", "FRAGMENT_SPREAD", "INLINE_FRAGMENT"]
    },
    {
      name := "skip"
      description :=
        some ("Directs the executor to skip this field or fragment when the `if` "
          ++ "argument is true.")
      arguments := [standardArgument "if" "Boolean" true]
      applications := []
      isRepeatable := false
      locations := ["FIELD", "FRAGMENT_SPREAD", "INLINE_FRAGMENT"]
    },
    {
      name := "deprecated"
      description := some "Marks an element of a GraphQL schema as no longer supported."
      arguments := [standardArgument "reason" "String" false]
      applications := []
      isRepeatable := false
      locations :=
        [
          "FIELD_DEFINITION", "ARGUMENT_DEFINITION", "INPUT_FIELD_DEFINITION", "ENUM_VALUE",
          "DIRECTIVE_DEFINITION"
        ]
    },
    {
      name := "specifiedBy"
      description := some "Exposes a URL that specifies the behavior of this scalar."
      arguments := [standardArgument "url" "String" true]
      applications := []
      isRepeatable := false
      locations := ["SCALAR"]
    },
    {
      name := "oneOf"
      description :=
        some ("Indicates exactly one field must be supplied and this field must not "
          ++ "be `null`.")
      arguments := []
      applications := []
      isRepeatable := false
      locations := ["INPUT_OBJECT"]
    }
  ]

namespace Document

/-- A declared type with everything that its extensions add. -/
def withExtensions (document : Document) (block : TypeBlock) : Declared :=
  let blocks := document.typeBlocks.filter fun other =>
    other.isExtension && other.name == block.name
  let all := block :: blocks
  {
    kind := block.kind
    name := block.name
    description := block.description
    applications := block.applications
    interfaces := all.flatMap TypeBlock.interfaces
    fields := all.flatMap TypeBlock.fields
    members := all.flatMap TypeBlock.members
    values := all.flatMap TypeBlock.values
    inputFields := all.flatMap TypeBlock.inputFields
  }

/-- The declared types, in the order of the text. -/
def types (document : Document) : List Declared :=
  (document.typeBlocks.filter fun block => !block.isExtension).map fun block =>
    match standardType? block.name with
    | some standard => standard
    | none => document.withExtensions block

/-- The type of a name, declared or standard. -/
def type? (document : Document) (name : String) : Option Declared :=
  match standardType? name with
  | some standard => some standard
  | none =>
      (document.typeBlocks.find? fun block => !block.isExtension && block.name == name).map
        document.withExtensions

/-- All directives: the declared ones, then the standard ones that are not declared anew. -/
def allDirectives (document : Document) : List DirectiveDef :=
  let declared := document.directives
  declared ++ standardDirectives.filter fun standard =>
    !declared.any fun other => other.name == standard.name

/-- The root of a kind of operation: by the schema's definition and extensions, or by the usual name
where the schema is not defined.
-/
def root? (document : Document) (operation usual : String) : Option String :=
  let blocks := document.schemaBlocks
  let given := (blocks.flatMap SchemaBlock.roots).find? fun root => root.1 == operation
  let isDefined := blocks.any fun block => !block.isExtension
  let hasUsual := document.types.any fun type => type.name == usual
  if !isDefined && hasUsual then some usual else given.map Prod.snd

/-- What is applied to a declared directive by its definition and its extensions, each by itself. -/
def appliedTo (document : Document) (directive : DirectiveDef) : List (List Application) :=
  directive.applications
    :: (document.directiveExtensions.filter fun extension =>
      extension.name == directive.name).map DirectiveExtension.applications

end Document

/-- Something is deprecated by the directive of that name. -/
def isDeprecated (applications : List Application) : Bool :=
  applications.any fun application => application.name == "deprecated"

end RubySchema.Sdl
