import RubySchema.Error
import RubySchema.Sdl.Grammar
import RubySchema.Sdl.Rules
import RubySchema.Sdl.Validity

/-!
The schema document of a text: what introspection answers about the schema that the text declares. A
standard scalar follows the first declared type that mentions it.
-/

namespace RubySchema.Sdl.Document

/-- The types that a type mentions, in the order in which they count. A self-describing type stands
for what it mentions.
-/
def mentionsOf (type : Declared) : List String :=
  (if selfDescribing.any fun known => known.name == type.name then [type.name] else [])
    ++ type.members ++ type.interfaces
    ++ type.fields.flatMap (fun field =>
      field.type.name :: field.arguments.map fun argument => argument.type.name)
    ++ type.inputFields.map fun field => field.type.name

/-- A mentioned type brings the standard scalars that it mentions itself. A self-describing object
mentions texts, then truth values.
-/
def bringsAlong (name : String) : List String :=
  match selfDescribing.find? fun type => type.name == name with
  | some type => if type.kind == .object then ["String", "Boolean"] else []
  | none => [name]

/-- The standard scalars among mentioned types. -/
def scalarsAmong (names : List String) : List String :=
  (names.flatMap bringsAlong).filter fun name => (standardScalar? name).isSome

/-- Names of the types, each where it first counts. -/
def withScalars (declared : List String) (names : List String) (mentioned : List String)
    : List String :=
  (scalarsAmong mentioned).foldl (fun names scalar =>
    if names.contains scalar || declared.contains scalar then names else names ++ [scalar]) names

/-- The types of the schema in order: declared ones, each followed by the scalars that it mentions
first; scalars of roots and directives; scalars of the self-describing types, and these.
-/
def orderedTypes (document : Document) : List Declared :=
  let declared := document.types.map Declared.name
  let names := document.types.foldl (fun names type =>
    withScalars declared (names ++ [type.name]) (mentionsOf type)) []
  let roots :=
    [
      document.root? "query" "Query",
      document.root? "mutation" "Mutation",
      document.root? "subscription" "Subscription"
    ].filterMap id
  let arguments := document.allDirectives.flatMap DirectiveDef.arguments
  let argumentTypes := arguments.map fun argument => argument.type.name
  let names := withScalars declared names (roots ++ argumentTypes)
  let names := withScalars declared names ["String", "Boolean"]
  names.filterMap document.type?
    ++ selfDescribing.filter fun type => !declared.contains type.name

/-- The most wrappers of a use that a schema document shows. -/
def maxWrappers : Nat := 9

/-- The entry of a use of a type; wrappers beyond the most that are shown are left out with all
inside.
-/
def useEntry (document : Document) (left : Nat) : Use → Json
  | .named name =>
      .object (
        [
          ("kind", .ofText? ((document.type? name).map fun type => type.kind.word)),
          ("name", .string name)
        ] ++ if left = 0 then [] else [("ofType", .null)])
  | .list item => wrapper "LIST" left item
  | .nonNull inner => wrapper "NON_NULL" left inner
where
  /-- The entry of a wrapper. -/
  wrapper (kind : String) (left : Nat) (inner : Use) : Json :=
    .object (
      [("kind", .string kind), ("name", .null)]
        ++ match left with
          | 0 => []
          | left + 1 => [("ofType", useEntry document left inner)])

/-- The entry of a mention of a type. -/
def mentionEntry (document : Document) (name : String) : Json :=
  document.useEntry maxWrappers (.named name)

/-- The entry of an argument or an input field. -/
def inputEntry (document : Document) (value : InputValue) : Json :=
  .object [
    ("name", .string value.name),
    ("description", .ofText? value.description),
    ("type", document.useEntry maxWrappers value.type),
    ("defaultValue", .ofText? (value.default.map Literal.text)),
    ("isDeprecated", .bool (isDeprecated value.applications))
  ]

def fieldEntry (document : Document) (field : FieldDef) : Json :=
  .object [
    ("name", .string field.name),
    ("description", .ofText? field.description),
    ("args", .array (field.arguments.map document.inputEntry)),
    ("type", document.useEntry maxWrappers field.type),
    ("isDeprecated", .bool (isDeprecated field.applications))
  ]

/-- The entry of a value of an enumeration. -/
def valueEntry (value : ValueDef) : Json :=
  .object [
    ("name", .string value.name),
    ("description", .ofText? value.description),
    ("isDeprecated", .bool (isDeprecated value.applications))
  ]

def implementers (document : Document) (interface : String) : List String :=
  (document.types.filter fun type =>
    type.kind == .object && type.interfaces.contains interface).map Declared.name

/-- The entry of a type. Parts that types of its kind do not have are null. -/
def typeEntry (document : Document) (type : Declared) : Json :=
  let only (kinds : List TypeKind) (items : List Json) : Json :=
    if kinds.contains type.kind then .array items else .null
  let possible :=
    if type.kind == .interface then document.implementers type.name else type.members
  .object [
    ("kind", .string type.kind.word),
    ("name", .string type.name),
    ("description", .ofText? type.description),
    ("fields", only [.object, .interface] (type.fields.map document.fieldEntry)),
    ("inputFields", only [.inputObject] (type.inputFields.map document.inputEntry)),
    ("interfaces", only [.object, .interface] (type.interfaces.map document.mentionEntry)),
    ("enumValues", only [.enum] (type.values.map valueEntry)),
    ("possibleTypes", only [.interface, .union] (possible.map document.mentionEntry))
  ]

/-- A directive is deprecated by its definition or by an extension; a standard one never is. -/
def isDeprecatedDirective (document : Document) (directive : DirectiveDef) : Bool :=
  document.directives.any (fun declared => declared.name == directive.name)
    && (document.appliedTo directive).any isDeprecated

def directiveEntry (document : Document) (directive : DirectiveDef) : Json :=
  .object [
    ("name", .string directive.name),
    ("description", .ofText? directive.description),
    ("locations", .array (directive.locations.map Json.string)),
    ("args", .array (directive.arguments.map document.inputEntry)),
    ("isDeprecated", .bool (document.isDeprecatedDirective directive))
  ]

def rootEntry (document : Document) (operation usual : String) : Json :=
  match document.root? operation usual with
  | some name => .object [("name", .string name)]
  | none => .null

/-- The description of the schema, which only its definition has. -/
def schemaDescription (document : Document) : Option String :=
  (document.schemaBlocks.find? fun block => !block.isExtension).bind SchemaBlock.description

/-- The schema document that describes what the text declares. -/
def describe (document : Document) : Json :=
  .object [("__schema", .object [
    ("description", .ofText? document.schemaDescription),
    ("queryType", document.rootEntry "query" "Query"),
    ("mutationType", document.rootEntry "mutation" "Mutation"),
    ("subscriptionType", document.rootEntry "subscription" "Subscription"),
    ("types", .array (document.orderedTypes.map document.typeEntry)),
    ("directives", .array (document.allDirectives.map document.directiveEntry))
  ])]

/-- The schema document of a text. The text has to follow the grammar and the rules, and declare a
schema.
-/
def described (text : String) : Except Error Json :=
  match ofText? text with
  | none => .error .unreadableSdl
  | some document =>
      if !document.followsRules then .error .invalidSdl
      else if !document.readsDirectives then .error .unreadableSdl
      else
        match document.interruption? with
        | some cause => .error cause
        | none => if document.isSchema then .ok document.describe else .error .invalidSdl

end RubySchema.Sdl.Document
