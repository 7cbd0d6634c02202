import RubySchema.Generation.Record
import RubySchema.Generation.Template
import RubySchema.Json.Access
import RubySchema.Ruby.Literal

/-!
Pages: the pieces of text that generated files are made of. A page has a standard text; a user may
put a template of one's own in its place, which sees the page's content as values.
-/

namespace RubySchema

open Text

/-- The modules that generated constants lie in. -/
structure Modules where
  namespaceName : String
  schemaNamespace : String
  deriving DecidableEq, Repr, Inhabited

/-- A field as the pages of its method and its spec show it. The marks are those of the field and of
its arguments in order.
-/
structure FieldPage where
  field : Field
  name : String
  description : String
  parameters : List Parameter
  returns : String
  marks : Marks
  argumentMarks : List Marks
  deriving Inhabited

/-- A piece of a generated file. -/
inductive Page where
  | schemaRoot (query mutation : String)
  | baseType (name : String) (superclass : Option String) (body : List String)
      (included : Option String)
  | userModule (name : String)
  | schemaHeader (mapping : NameMapping) (description : Json)
  | implementationHeader (mapping : NameMapping)
  | specHeader (target factoryLine : String)
  | fieldMethod (page : FieldPage) (methodName signature : String)
  | fieldSpec (page : FieldPage) (query result : String)
  | fileList (implementations schemas : List String)
  | fieldList (fields : Table (Option String))
  deriving Inhabited

namespace Page

/-- The file of a template for the method of a field. -/
def methodTemplate : String := "field_method.rb.j2"

/-- The file that a template of one's own for a page has to have. -/
def templateName : Page → String
  | .schemaRoot .. => "schema.rb.j2"
  | .baseType .. => "base_type.rb.j2"
  | .userModule .. => "user_module.rb.j2"
  | .schemaHeader .. => "schema_header.rb.j2"
  | .implementationHeader .. => "implementation_header.rb.j2"
  | .specHeader .. => "spec_header.rb.j2"
  | .fieldMethod .. => methodTemplate
  | .fieldSpec .. => "field_spec.rb.j2"
  | .fileList .. => "file_list.rb.j2"
  | .fieldList .. => "field_list.md.j2"

/-- A text between two others, or nothing when it is empty. -/
def around (before text after : String) : String :=
  if text.isEmpty then "" else before ++ text ++ after

/-- The texts of a list one after another. -/
def concat (texts : List String) : String :=
  texts.foldr (· ++ ·) ""

/-- The comment lines at the top of a field's page. A method also shows what its parameters are for.
-/
def fieldComment (page : FieldPage) (showsDescriptions : Bool) : String :=
  let line (parameter : Parameter) : String :=
    "# @param " ++ parameter.name ++ " [" ++ parameter.short ++ "]"
      ++ around " (" (parameter.default.getD "") ")"
      ++ (if showsDescriptions then around " " parameter.description "" else "") ++ "\n"
  "\n# " ++ page.name ++ around ": " page.description "" ++ "\n"
    ++ concat (page.parameters.map line) ++ "# @return [" ++ page.returns ++ "]\n"

/-- The text of the schema's root class. -/
def schemaRootText (modules : Modules) (query mutation : String) : String :=
  "class " ++ modules.schemaNamespace ++ "::Schema < GraphQL::Schema\n"
    ++ "  query ::" ++ modules.schemaNamespace ++ "::" ++ query ++ "\n"
    ++ "  mutation ::" ++ modules.schemaNamespace ++ "::" ++ mutation ++ "\n"
    ++ "\n"
    ++ "  def self.id_from_object(object, type_definition = nil, query_context = nil)\n"
    ++ "    ::GraphQL::Schema::UniqueWithinType.encode(object.class.name, object.id)\n"
    ++ "  end\n"
    ++ "\n"
    ++ "  def self.object_from_id(id, query_context = nil)\n"
    ++ "    class_name, item_id = ::GraphQL::Schema::UniqueWithinType.decode(id)\n"
    ++ "    ::Object.const_get(class_name).find(item_id)\n"
    ++ "  end\n"
    ++ "end"

/-- The text of a base class, or of a base module when there is no superclass. -/
def baseTypeText (modules : Modules) (name : String) (superclass : Option String)
    (body : List String) (included : Option String) : String :=
  let constant := modules.schemaNamespace ++ "::" ++ name
  let opening :=
    match superclass with
    | some superclass => "class " ++ constant ++ " < " ++ superclass ++ "\n"
    | none => "module " ++ constant ++ "\n"
  opening ++ concat (body.map fun line => "  " ++ line ++ "\n")
    ++ around ("  include ::" ++ modules.namespaceName ++ "::") (included.getD "") "\n" ++ "end"

/-- The opening of a schema definition. -/
def schemaHeaderText (modules : Modules) (mapping : NameMapping) (description : String) : String :=
  let constant := modules.schemaNamespace ++ "::" ++ mapping.targetName
  let base := modules.schemaNamespace ++ "::" ++ mapping.baseType.getD "None"
  let opening :=
    if mapping.isInterface then "module " ++ constant ++ "\n  include ::" ++ base ++ "\n"
    else "class " ++ constant ++ " < " ++ base ++ "\n"
  opening ++ "  graphql_name '" ++ mapping.schemaName ++ "'\n  description " ++ description

def specHeaderText (modules : Modules) (target factoryLine : String) : String :=
  "# frozen_string_literal: true\nrequire 'spec_helper'\n\nmodule " ++ modules.namespaceName
    ++ "\n  describe '" ++ target ++ "' do\n    " ++ factoryLine
    ++ "\n    let!(:ctx) \x7b \x7b current_store: current_store \x7d \x7d"
    ++ "\n    let!(:variables) \x7b \x7d"

def fieldMethodText (modules : Modules) (page : FieldPage) (methodName signature : String)
    : String :=
  fieldComment page true ++ "def " ++ methodName ++ signature ++ "\n  raise ::"
    ++ modules.namespaceName ++ "::NotImplementedError.new\nend"

def fieldSpecText (page : FieldPage) (query result : String) : String :=
  fieldComment page false ++ "describe '" ++ page.name
    ++ "' do\n  let!(:query) \x7b\n    %q\x7b\n" ++ query
    ++ "\n    \x7d\n  \x7d\n  let!(:result) \x7b\n    \x7b\n      data: \x7b\n" ++ result
    ++ "\n      \x7d,\n      #errors: \x7b\x7d,\n    \x7d\n  \x7d\n  #it 'succeeds' do\n"
    ++ "  #  execute\n  #  expect(response_hash).to eq(result_hash)\n  #end\nend"

/-- The list of generated files. -/
def fileListText (implementations schemas : List String) : String :=
  "# This file lists all the files that were auto-generated.\n"
    ++ "# It cannot be used as-is because the order of includes\n"
    ++ "# does not represent actual dependencies between files.\n"
    ++ "#\n"
    ++ "# Use it only for convenience to easily spot additions\n"
    ++ "# or removals in the list of files and to then update file\n"
    ++ "# all.rb manually, taking the necessary order of includes\n"
    ++ "# into account.\n"
    ++ concat (implementations.map fun path => "require_relative \"./" ++ path ++ "\"\n")
    ++ "\n"
    ++ concat (schemas.map fun path => "require_relative \"./schema/" ++ path ++ "\"\n")

def fieldListText (fields : Table (Option String)) : String :=
  concat (fields.map fun field => "1. [ ] " ++ field.1 ++ field.2.getD "" ++ "\n")

def standardText (modules : Modules) : Page → Except Error String
  | .schemaRoot query mutation => .ok (schemaRootText modules query mutation)
  | .baseType name superclass body included =>
      .ok (baseTypeText modules name superclass body included)
  | .userModule name => .ok ("module " ++ modules.namespaceName ++ "::" ++ name ++ "\nend")
  | .schemaHeader mapping description => do
      return schemaHeaderText modules mapping (Ruby.description (← description.asTextIfAny))
  | .implementationHeader mapping =>
      .ok ("# frozen_string_literal: true\nmodule " ++ modules.namespaceName ++ "::"
        ++ mapping.targetName)
  | .specHeader target factoryLine => .ok (specHeaderText modules target factoryLine)
  | .fieldMethod page methodName signature =>
      .ok (fieldMethodText modules page methodName signature)
  | .fieldSpec page query result => .ok (fieldSpecText page query result)
  | .fileList implementations schemas => .ok (fileListText implementations schemas)
  | .fieldList fields => .ok (fieldListText fields)

/-- The field of a page with its marks. -/
def fieldValue (page : FieldPage) : Value :=
  let arguments := (page.field.arguments.zip page.argumentMarks).map fun (argument, marks) =>
    Record.ofField argument marks (Record.ofFields argument.arguments)
  Record.ofField page.field page.marks arguments

/-- What a template for a field's page sees. -/
def fieldBindings (page : FieldPage) : Table Value :=
  [
    ("field", fieldValue page),
    ("description", .ofText page.description),
    ("params", .list (page.parameters.map Record.ofParameter)),
    ("returns", .ofText page.returns)
  ]

/-- What a template of one's own for a page sees. -/
def bindings (modules : Modules) (page : Page) : Table Value :=
  let own : Table Value :=
    match page with
    | .schemaRoot query mutation =>
        [("query_type", .ofText query), ("mutation_type", .ofText mutation)]
    | .baseType name superclass body included =>
        [
          ("name", .ofText name), ("superclass", .ofText? superclass),
          ("body", .ofTexts body), ("user_module", .ofText? included)
        ]
    | .userModule name => [("name", .ofText name)]
    | .schemaHeader mapping description =>
        [("mapping", Record.ofMapping mapping), ("description", .data description)]
    | .implementationHeader mapping => [("mapping", Record.ofMapping mapping)]
    | .specHeader target factoryLine =>
        [("target_name", .ofText target), ("factory_line", .ofText factoryLine)]
    | .fieldMethod page methodName signature =>
        fieldBindings page
          ++ [("method_name", .ofText methodName), ("signature", .ofText signature)]
    | .fieldSpec page query result =>
        fieldBindings page ++ [("query", .ofText query), ("result", .ofText result)]
    | .fileList implementations schemas =>
        [("implementation_paths", .ofTexts implementations), ("schema_paths", .ofTexts schemas)]
    | .fieldList fields =>
        let entries := fields.map fun field => (field.1, Json.ofText? field.2)
        [("fields", .data (.object entries))]
  [
    ("namespace", .ofText modules.namespaceName),
    ("schema_namespace", .ofText modules.schemaNamespace)
  ] ++ own

/-- The text of a page: by a template of one's own if there is one. -/
def render (templates : Table String) (modules : Modules) (page : Page) : Except Error String :=
  match Table.get? templates page.templateName with
  | some template => Template.fill (page.bindings modules) template
  | none => page.standardText modules

end Page

end RubySchema
