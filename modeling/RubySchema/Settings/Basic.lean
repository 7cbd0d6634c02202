import RubySchema.Files
import RubySchema.Json.Basic

/-!
Settings of a run: names, places of files, the nesting limit of examples, and exceptions to the
rules for factories and base classes.
-/

namespace RubySchema

structure Settings where
  namespaceName : String
  builtinNamespace : String
  maxDepth : Int
  overwrite : Bool
  libDir : String
  specDir : String
  factories : Table (Option String)
  baseTypeOverrides : Table String
  templateDir : Option String
  deriving DecidableEq, Repr, Inhabited

namespace Settings

/-- The settings of a run that asks for nothing special. -/
def standard : Settings :=
  {
    namespaceName := "Spree::GraphQL"
    builtinNamespace := "::GraphQL::Types"
    maxDepth := 5
    overwrite := true
    libDir := "lib/solidus_graphql_api/graphql"
    specDir := "spec/graphql"
    factories := [("shop", some "store"), ("mutation", none)]
    baseTypeOverrides := []
    templateDir := none
  }

/-- The module of the generated schema definitions. -/
def schemaNamespace (settings : Settings) : String :=
  settings.namespaceName ++ "::Schema"

def entries (settings : Settings) : Table Json :=
  [
    ("namespace", .string settings.namespaceName),
    ("builtin_namespace", .string settings.builtinNamespace),
    ("max_depth", .number (.integer settings.maxDepth)),
    ("overwrite", .bool settings.overwrite),
    ("lib_dir", .string settings.libDir),
    ("spec_dir", .string settings.specDir),
    ("factories", .object (settings.factories.map fun entry => (entry.1, Json.ofText? entry.2))),
    ("base_type_overrides",
      .object (settings.baseTypeOverrides.map fun entry => (entry.1, .string entry.2))),
    ("template_dir", Json.ofText? settings.templateDir)
  ]

end Settings

end RubySchema
