import RubySchema.Sdl.Declared

/-!
Rules that a document follows by itself: nothing is declared twice, everything that is named is
there, and directives are applied where and as they may be.
-/

namespace RubySchema.Sdl

/-- A place where directives are applied. Places of one group take a directive that is not
repeatable once between them.
-/
structure Site where
  location : String
  group : Option String
  applications : List Application
  deriving Inhabited

namespace Document

/-- The declared definitions of types, without extensions. -/
def typeDefinitions (document : Document) : List TypeBlock :=
  document.typeBlocks.filter fun block => !block.isExtension

/-- All arguments and input fields of a type's block. -/
def inputValuesOf (block : TypeBlock) : List InputValue :=
  block.fields.flatMap FieldDef.arguments ++ block.inputFields

/-- The location of a type of a kind. -/
def locationOf : TypeKind → String
  | .inputObject => "INPUT_OBJECT"
  | kind => kind.word

def argumentSite (argument : InputValue) : Site :=
  { location := "ARGUMENT_DEFINITION", group := none, applications := argument.applications }

/-- The sites of a field and its arguments. -/
def fieldSites (field : FieldDef) : List Site :=
  { location := "FIELD_DEFINITION", group := none, applications := field.applications }
    :: field.arguments.map argumentSite

/-- The site of a directive, which its definition and its extensions share. -/
def directiveSite (name : String) (applications : List Application) : Site :=
  { location := "DIRECTIVE_DEFINITION", group := some ("directive " ++ name), applications }

def typeSites (block : TypeBlock) : List Site :=
  {
    location := locationOf block.kind
    group := some ("type " ++ block.name)
    applications := block.applications
  }
    :: block.fields.flatMap fieldSites
    ++ block.values.map (fun value =>
      { location := "ENUM_VALUE", group := none, applications := value.applications : Site })
    ++ block.inputFields.map fun field =>
      {
        location := "INPUT_FIELD_DEFINITION"
        group := none
        applications := field.applications
        : Site
      }

def sites (document : Document) : List Site :=
  document.flatMap fun
    | .schema block =>
        [{ location := "SCHEMA", group := some "schema", applications := block.applications }]
    | .type block => typeSites block
    | .directive definition =>
        directiveSite definition.name definition.applications
          :: definition.arguments.map argumentSite
    | .directiveExtension extension => [directiveSite extension.name extension.applications]
    | .operation operation =>
        operation.uses.map fun use =>
          { location := use.1, group := none, applications := use.2 : Site }

/-- No name occurs twice. -/
def isUnique (names : List String) : Bool :=
  names.Nodup

/-- What the blocks of each type name between them is named once. -/
def isUniqueByType (document : Document) (names : TypeBlock → List String) : Bool :=
  document.typeBlocks.all fun block =>
    isUnique ((document.typeBlocks.filter fun other => other.name == block.name).flatMap names)

/-- The schema is defined once, and has one root of each kind; types, their parts, directives and
arguments are declared once.
-/
def declaresOnce (document : Document) : Bool :=
  (document.schemaBlocks.filter fun block => !block.isExtension).length ≤ 1
    && isUnique ((document.schemaBlocks.flatMap SchemaBlock.roots).map Prod.fst)
    && isUnique (document.typeDefinitions.map TypeBlock.name)
    && document.isUniqueByType (fun block => block.values.map ValueDef.name)
    && document.isUniqueByType (fun block =>
      block.fields.map FieldDef.name ++ block.inputFields.map InputValue.name)
    && (document.typeBlocks.flatMap TypeBlock.fields).all (fun field =>
      isUnique (field.arguments.map InputValue.name))
    && document.directives.all (fun directive =>
      isUnique (directive.arguments.map InputValue.name))
    && isUnique (document.directives.map DirectiveDef.name)

/-- The types that the definitions of a document name. -/
def namedTypes (document : Document) : List String :=
  document.flatMap fun
    | .schema block => block.roots.map Prod.snd
    | .type block =>
        block.interfaces ++ block.fields.map (fun field => field.type.name) ++ block.members
          ++ (inputValuesOf block).map fun value => value.type.name
    | .directive definition => definition.arguments.map fun argument => argument.type.name
    | .directiveExtension _ => []
    | .operation _ => []

/-- Every type that is named is declared, or is always there; operations name declared types only.
-/
def knowsTypes (document : Document) : Bool :=
  let declared := document.typeDefinitions.map TypeBlock.name
  (document.namedTypes.all fun name => declared.contains name || (standardType? name).isSome)
    && document.operations.all fun operation => operation.typeNames.all declared.contains

/-- An extension extends a declared type of its kind. -/
def extendsKnown (document : Document) : Bool :=
  (document.typeBlocks.filter TypeBlock.isExtension).all fun block =>
    document.typeDefinitions.any fun definition =>
      definition.name == block.name && definition.kind == block.kind

def directive? (document : Document) (name : String) : Option DirectiveDef :=
  document.allDirectives.find? fun directive => directive.name == name

/-- A directive is applied at a location, with arguments that it has and all that it needs. -/
def isApplicable (document : Document) (location : String) (application : Application) : Bool :=
  match document.directive? application.name with
  | none => false
  | some directive =>
      let names := directive.arguments.map InputValue.name
      let given := application.arguments.map Prod.fst
      directive.locations.contains location
        && given.all names.contains
        && isUnique given
        && (directive.arguments.filter InputValue.isRequired).all fun argument =>
          given.contains argument.name

/-- The directives applied to sites that may not be applied again. -/
def onceOnly (document : Document) (sites : List Site) : List String :=
  (sites.flatMap fun site => site.applications.map Application.name).filter fun name =>
    match document.directive? name with
    | some directive => !directive.isRepeatable
    | none => false

/-- Every directive is applied as it may be. -/
def appliesDirectives (document : Document) : Bool :=
  let sites := document.sites
  (sites.all fun site => site.applications.all (document.isApplicable site.location))
    && sites.all fun site =>
      match site.group with
      | none => isUnique (document.onceOnly [site])
      | some group =>
          isUnique (document.onceOnly (sites.filter fun other => other.group == some group))

def literals (document : Document) : List Literal :=
  let defaults (values : List InputValue) : List Literal := values.filterMap InputValue.default
  (document.sites.flatMap fun site =>
    site.applications.flatMap fun application => application.arguments.map Prod.snd)
    ++ document.typeBlocks.flatMap (fun block => defaults (inputValuesOf block))
    ++ document.directives.flatMap (fun directive => defaults directive.arguments)
    ++ document.operations.flatMap fun operation =>
      operation.argumentLists.flatMap fun arguments => arguments.map Prod.snd

/-- Objects have each field once, and fields of operations are passed each argument once. -/
def hasUniqueLiterals (document : Document) : Bool :=
  document.literals.all Literal.hasUniqueFields
    && document.operations.all fun operation =>
      operation.argumentLists.all fun arguments => isUnique (arguments.map Prod.fst)

def followsRules (document : Document) : Bool :=
  document.declaresOnce && document.knowsTypes && document.extendsKnown
    && document.appliesDirectives && document.hasUniqueLiterals

/-- A text is passed under a name; or nothing is, where that is allowed. -/
def passesText (mayLack : Bool) (name : String) (application : Application) : Bool :=
  match application.arguments.find? fun argument => argument.1 == name with
  | some (_, .string _ _) => true
  | some _ => false
  | none => mayLack

/-- The first deprecation of several has a text as its reason, or none. -/
def hasReadableReason (applications : List Application) : Bool :=
  (applications.find? fun application => application.name == "deprecated").all
    (passesText true "reason")

/-- The first address of a specification is a text. -/
def hasReadableAddress (applications : List Application) : Bool :=
  (applications.find? fun application => application.name == "specifiedBy").all
    (passesText false "url")

/-- The blocks that make up types other than the standard ones. -/
def ownBlocks (document : Document) : List TypeBlock :=
  document.typeBlocks.filter fun block => (standardType? block.name).isNone

/-- The reasons of deprecations and the addresses of specifications can be read; values of
enumerations apart. Of a directive, the definition and its extensions are read together.
-/
def readsDirectives (document : Document) : Bool :=
  let blocks := document.ownBlocks
  let fields := blocks.flatMap TypeBlock.fields
  let inputs :=
    blocks.flatMap inputValuesOf ++ document.directives.flatMap DirectiveDef.arguments
  (fields.map FieldDef.applications ++ inputs.map InputValue.applications
      ++ document.directives.map fun directive =>
        (document.appliedTo directive).flatten).all hasReadableReason
    && ((blocks.filter fun block => block.kind == .scalar).map TypeBlock.applications).all
      hasReadableAddress

end Document

end RubySchema.Sdl
