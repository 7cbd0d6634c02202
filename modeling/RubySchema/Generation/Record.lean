import RubySchema.Generation.Value
import RubySchema.Resolution

/-!
Records for templates: a mapping, a field, or a parameter as a whole, with its parts under their
names.
-/

namespace RubySchema

/-- A parameter of a generated method. -/
structure Parameter where
  name : String
  short : String
  description : String
  default : Option String
  deriving DecidableEq, Repr, Inhabited

namespace Record

def ofParameter (parameter : Parameter) : Value :=
  .record "_Param"
    [
      ("name", .ofText parameter.name),
      ("short", .ofText parameter.short),
      ("description", .ofText parameter.description),
      ("default", .ofText? parameter.default)
    ]
    []

/-- The name of a category among the choices. -/
def categoryName : Category → String
  | .interfaces => "INTERFACES"
  | .inputs => "INPUTS"
  | .payloads => "PAYLOADS"
  | .types => "TYPES"
  | .builtIn => "BUILTIN"

def ofMapping (mapping : NameMapping) : Value :=
  .record "NameMapping"
    [
      ("original_name", .ofText mapping.schemaName),
      ("target_name", .ofText mapping.targetName),
      ("category",
        .choice "Category" (categoryName mapping.category) mapping.category.word true),
      ("base_type", .ofText? mapping.baseType)
    ]
    [
      ("is_builtin", .ofBool mapping.isBuiltin),
      ("is_interface", .ofBool mapping.isInterface),
      ("has_implementation", .ofBool mapping.hasImplementation)
    ]

/-- The text of a kind of type among the choices. -/
def kindText : TypeKind → String
  | .scalar => "scalar"
  | .object => "object"
  | .interface => "interface"
  | .union => "union"
  | .enum => "enum"
  | .inputObject => "input object"
  | .list => "list"
  | .nonNull => "non-null"

/-- A link of a use of a type. -/
def link (form : String) (name : Json) (kind : Option TypeKind) : Value :=
  let shownKind :=
    match kind with
    | some kind => .choice "TypeKind" kind.word (kindText kind) false
    | none => .data .null
  .record "TypeChainNode"
    [("kind", .choice "ChainKind" form form false), ("name", .data name), ("type_kind", shownKind)]
    []

/-- The links of a use of a type, from the outermost on. -/
def chain : TypeRef → List Value
  | .named name kind => [link "NAMED" name kind]
  | .list item => link "LIST" .null none :: chain item
  | .nonNull inner => link "NON_NULL" .null none :: chain inner

def ofField (field : Field) (marks : Marks) (arguments : List Value) : Value :=
  .record "IRField"
    [
      ("name", .data field.name),
      ("type_chain", .list (chain field.type)),
      ("arguments", .list arguments),
      ("description", .data field.description),
      ("is_deprecated", .ofBool field.isDeprecated),
      ("default_value", .data field.defaultValue),
      ("is_array", .ofBool marks.isArray),
      ("is_connection", .ofBool marks.isConnection)
    ]
    [("named_type", .data field.type.name)]

/-- Fields without marks, around their arguments without marks. -/
def ofFields : List Field → List Value
  | [] => []
  | .mk name type arguments description isDeprecated defaultValue :: rest =>
      let field : Field := { name, type, arguments, description, isDeprecated, defaultValue }
      ofField field Marks.none (ofFields arguments) :: ofFields rest

end Record

end RubySchema
