import RubySchema.Naming
import RubySchema.Schema.Basic
import RubySchema.Text.Lines

/-!
Classification. Each type of a schema gets a place in the generated code: a category, a name within
it, and a base class. No two types of different names share a place.
-/

namespace RubySchema

open Text

/-- The categories of generated constants, and the one of types that need no generating. -/
inductive Category where
  | interfaces
  | inputs
  | payloads
  | types
  | builtIn
  deriving DecidableEq, Repr, Inhabited

/-- The module that holds a category. -/
def Category.word : Category → String
  | .interfaces => "Interfaces"
  | .inputs => "Inputs"
  | .payloads => "Payloads"
  | .types => "Types"
  | .builtIn => "BuiltIn"

/-- Where a type of the schema lands in the generated code. A built-in type has no base. -/
structure NameMapping where
  schemaName : String
  targetName : String
  category : Category
  baseType : Option String
  deriving DecidableEq, Repr, Inhabited

namespace NameMapping

/-- The reference library provides the type. -/
def isBuiltin (mapping : NameMapping) : Bool :=
  mapping.category == .builtIn

/-- The type is generated as a module. -/
def isInterface (mapping : NameMapping) : Bool :=
  mapping.category == .interfaces

/-- Users get a stub and a spec for the type. -/
def hasImplementation (mapping : NameMapping) : Bool :=
  mapping.category == .types || mapping.category == .interfaces

end NameMapping

namespace BaseType

def object : String := "Types::BaseObject"
def objectNode : String := "Types::BaseObjectNode"
def enum : String := "Types::BaseEnum"
def scalar : String := "Types::BaseScalar"
def union : String := "Types::BaseUnion"
def input : String := "Inputs::BaseInput"
def interface : String := "Interfaces::BaseInterface"
def payload : String := "Payloads::BasePayload"

/-- The base of the kinds that have one of their own. -/
def ofKind? : TypeKind → Option String
  | .enum => some enum
  | .scalar => some scalar
  | .inputObject => some input
  | .interface => some interface
  | .union => some union
  | _ => none

end BaseType

/-- The interface whose implementers have a base of their own. -/
def nodeInterface : String := "Node"

namespace TypeName

/-- A name and the line feed at its end, if it has one. -/
def splitFinalBreak (name : List Char) : List Char × List Char :=
  match beforeEnd? ['\n'] name with
  | some rest => (rest, ['\n'])
  | none => (name, [])

/-- A name and the version at its end: a `V` and decimal digits, or nothing. -/
def splitVersion (name : List Char) : List Char × List Char :=
  let digits := (name.reverse.takeWhile isDecimal).reverse
  let rest := trimEnd isDecimal name
  match digits, beforeEnd? ['V'] rest with
  | [], _ => (name, [])
  | _, some stem => (stem, 'V' :: digits)
  | _, none => (name, [])

/-- A name without a word at its end; a version after the word is kept. None when the name does not
end so.
-/
def withoutWord? (word name : List Char) : Option (List Char) :=
  let (body, final) := splitFinalBreak name
  match beforeEnd? word body with
  | some stem => some (stem ++ final)
  | none =>
      let (stem, version) := splitVersion body
      (beforeEnd? word stem).map (· ++ version ++ final)

/-- A name without an `Interface` at its end. -/
def withoutInterface (name : List Char) : List Char :=
  let (body, final) := splitFinalBreak name
  match beforeEnd? "Interface".toList body with
  | some stem => stem ++ final
  | none => name

/-- The category of a type, and its name within it. Interfaces and input objects are known by their
kind; inputs and payloads also by the word at the end of their names.
-/
def categorize (kind : TypeKind) (name : String) : Category × String :=
  let chars := name.toList
  if kind == .interface then (.interfaces, String.ofList (withoutInterface chars))
  else
    match withoutWord? "Input".toList chars with
    | some stem => (.inputs, String.ofList stem)
    | none =>
        if kind == .inputObject then (.inputs, name)
        else
          match withoutWord? "Payload".toList chars with
          | some stem => (.payloads, String.ofList stem)
          | none => (.types, (Naming.stripConnection name).1)

end TypeName

/-- The mappings made so far, by name in the schema, and the name behind each generated one. -/
structure Registry where
  builtinNamespace : String
  baseOverrides : Table String
  mappings : Table NameMapping
  targets : Table String
  deriving Inhabited

namespace Registry

/-- A registry without mappings. -/
def empty (builtinNamespace : String) (baseOverrides : Table String) : Registry :=
  { builtinNamespace, baseOverrides, mappings := [], targets := [] }

def get? (registry : Registry) (name : String) : Option NameMapping :=
  Table.get? registry.mappings name

/-- The name is that of a built-in type. -/
def isBuiltin (registry : Registry) (name : String) : Bool :=
  ((registry.get? name).map NameMapping.isBuiltin).getD false

/-- The mapping of a type that the reference library provides. -/
def builtinMapping (registry : Registry) (name : String) : NameMapping :=
  {
    schemaName := name
    targetName := registry.builtinNamespace ++ "::" ++ name
    category := .builtIn
    baseType := none
  }

/-- A built-in type takes its name over from whatever had it. -/
def registerBuiltin (registry : Registry) (name : String) : Registry :=
  { registry with mappings := Table.put registry.mappings name (registry.builtinMapping name) }

/-- Types whose names end like those of a connection or an edge, or begin with two underscores. -/
def isSkippedName (name : String) : Bool :=
  endsWith name "Connection" || endsWith name "Edge" || startsWith name "__"

/-- The type is left out of the generated code. -/
def shouldSkip (registry : Registry) (type : TypeDef) : Except Error Bool := do
  let name ← type.name.asText
  return isSkippedName name || registry.isBuiltin name || type.isDeprecated

/-- The base of a type that lands at a place. -/
def baseType (registry : Registry) (type : TypeDef) (category : Category) (target : String)
    : String :=
  match Table.get? registry.baseOverrides target with
  | some base => base
  | none =>
      if category == .payloads then BaseType.payload
      else
        match BaseType.ofKind? type.kind with
        | some base => base
        | none =>
            if type.implements (.string nodeInterface) then BaseType.objectNode
            else BaseType.object

/-- The mapping that a type gets under its name. -/
def mappingFor (registry : Registry) (type : TypeDef) (name : String) : NameMapping :=
  let (category, stem) := TypeName.categorize type.kind name
  let target := category.word ++ "::" ++ stem
  {
    schemaName := name
    targetName := target
    category
    baseType := some (registry.baseType type category target)
  }

/-- A registry with one more mapping, which takes its place. -/
def extend (registry : Registry) (mapping : NameMapping) : Registry :=
  {
    registry with
    mappings := Table.put registry.mappings mapping.schemaName mapping
    targets := Table.put registry.targets mapping.targetName mapping.schemaName
  }

/-- The mapping of a type, and the registry that holds it. A name that has a mapping keeps it; a
place that a type of another name has taken is an error.
-/
def classify (registry : Registry) (type : TypeDef)
    : Except Error (NameMapping × Registry) := do
  let name ← type.name.asText
  match registry.get? name with
  | some mapping => return (mapping, registry)
  | none =>
      let mapping := registry.mappingFor type name
      match Table.get? registry.targets mapping.targetName with
      | some previous =>
          if previous == name then return (mapping, registry.extend mapping)
          else throw (.duplicateTarget mapping.targetName previous name)
      | none => return (mapping, registry.extend mapping)

end Registry

/-- The mappings of a schema, once every type has its place. -/
structure Classified where
  mappings : Table NameMapping
  deriving Inhabited

namespace Classified

/-- The mapping of a name in the schema. -/
def get? (classified : Classified) (name : String) : Option NameMapping :=
  Table.get? classified.mappings name

/-- The mapping that a name in the schema must have. -/
def lookup (classified : Classified) (name : String) : Except Error NameMapping :=
  match classified.get? name with
  | some mapping => .ok mapping
  | none => .error (.unknownType name)

/-- The mapping of a name as a document gives it. -/
def lookupValue (classified : Classified) (name : Json) : Except Error NameMapping :=
  match name with
  | .string text => classified.lookup text
  | other => if other.isKey then .error (.unknownType other.display) else .error .illTyped

/-- The latest mapping to a generated name. -/
def byTarget? (classified : Classified) (target : String) : Option NameMapping :=
  classified.mappings.values.reverse.find? fun mapping => mapping.targetName == target

/-- The name is that of a built-in type. -/
def isBuiltin (classified : Classified) (name : String) : Bool :=
  ((classified.get? name).map NameMapping.isBuiltin).getD false

end Classified

namespace Registry

/-- The mappings that are final once every type has been classified. -/
def finalize (registry : Registry) : Classified :=
  { mappings := registry.mappings }

/-- Classification of one type, unless it is left out. -/
def classifyKept (registry : Registry) (type : TypeDef)
    : Except Error (Option NameMapping × Registry) := do
  if ← registry.shouldSkip type then return (none, registry)
  else
    let (mapping, extended) ← registry.classify type
    return (some mapping, extended)

def classifyAll (registry : Registry) (types : List TypeDef) : Except Error Registry :=
  types.foldlM (fun current type => do return (← current.classifyKept type).2) registry

/-- The mappings that classification of types comes by, in order, up to the first that fails. -/
def mappingsMet (registry : Registry) : List TypeDef → List NameMapping
  | [] => []
  | type :: rest =>
      match registry.classifyKept type with
      | .ok (mapping, extended) => mapping.toList ++ extended.mappingsMet rest
      | .error _ => []

end Registry

end RubySchema
