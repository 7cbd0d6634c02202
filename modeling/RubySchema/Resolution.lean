import RubySchema.Registry

/-!
Uses of types in generated code. The wrappers of a use are read from the named type outwards; the
result is written as the type of a field, as the type of an argument, or in a short form.
-/

namespace RubySchema

open Text

/-- A use of a type that can be generated. `name` lacks a `Connection` at its end; only the item of
a list is nullable apart from the list.
-/
structure Resolved where
  name : String
  targetName : String
  isNullable : Bool
  isArray : Bool
  isItemNullable : Bool
  isConnection : Bool
  deriving DecidableEq, Repr, Inhabited

namespace Resolved

/-- A value must be given. -/
def isRequired (resolved : Resolved) : Bool :=
  !resolved.isNullable

/-- The use of a type by its name alone. -/
def ofName (classified : Classified) (name : Json) : Except Error Resolved := do
  let (stem, isConnection) := Naming.stripConnection (← name.asText)
  let mapping ← classified.lookup stem
  return {
    name := stem
    targetName := mapping.targetName
    isNullable := true
    isArray := false
    isItemNullable := true
    isConnection
  }

/-- The use of a type by name and wrappers; a list of lists has none. -/
def ofTypeRef (classified : Classified) (owner : Json) : TypeRef → Except Error Resolved
  | .named name _ => ofName classified name
  | .nonNull inner => do
      return { ← ofTypeRef classified owner inner with isNullable := false }
  | .list item => do
      let inner ← ofTypeRef classified owner item
      if inner.isArray then throw (.listOfLists owner)
      else
        return {
          inner with
          isArray := true
          isItemNullable := inner.isNullable
          isNullable := true
        }

/-- The use of a type by a field; a list of connections has none. -/
def ofField (classified : Classified) (field : Field) : Except Error Resolved := do
  let resolved ← ofTypeRef classified field.name field.type
  if resolved.isConnection && resolved.isArray then throw (.listOfConnections field.name)
  else return resolved

end Resolved

/-- What resolution notes on a field. -/
structure Marks where
  isArray : Bool
  isConnection : Bool
  deriving DecidableEq, Repr, Inhabited

/-- Nothing has been noted. -/
def Marks.none : Marks :=
  { isArray := false, isConnection := false }

/-- A field that resolves is marked anew; one that does not keeps its marks. -/
def Marks.after (marks : Marks) : Except Error Resolved → Marks
  | .ok resolved => { isArray := resolved.isArray, isConnection := resolved.isConnection }
  | .error _ => marks

namespace Notation

/-- An absolute constant path; a generated name lies in the namespace of the schema. -/
def qualify (schemaNamespace target : String) : String :=
  if startsWith target "::" then target else "::" ++ schemaNamespace ++ "::" ++ target

/-- The constant that a use of a type refers to. -/
def reference (schemaNamespace : String) (resolved : Resolved) : String :=
  qualify schemaNamespace resolved.targetName
    ++ (if resolved.isConnection then ".connection_type" else "")

def truth (value : Bool) : String :=
  if value then "true" else "false"

def field (schemaNamespace : String) (resolved : Resolved) : String :=
  let reference := Notation.reference schemaNamespace resolved
  let null := truth resolved.isNullable
  if !resolved.isArray then reference ++ ", null: " ++ null
  else if resolved.isItemNullable then "[" ++ reference ++ ", null: true], null: " ++ null
  else "[" ++ reference ++ "], null: " ++ null

/-- The type of an argument, which is no connection. Of a list, only the outer level says whether a
value is required.
-/
def argument (schemaNamespace : String) (resolved : Resolved) : Except Error String :=
  if resolved.isConnection then .error (.connectionArgument resolved.name)
  else
    let reference := qualify schemaNamespace resolved.targetName
    let inner := if resolved.isArray then "[" ++ reference ++ "]" else reference
    .ok (inner ++ ", required: " ++ truth resolved.isRequired)

/-- A constant path without the namespace of the schema or of the reference library. -/
def withoutNamespace (schemaNamespace reference : String) : String :=
  match afterStart? ("::" ++ schemaNamespace ++ "::").toList reference.toList with
  | some rest => String.ofList rest
  | none =>
      match afterStart? "::GraphQL::".toList reference.toList with
      | some rest => String.ofList rest
      | none => reference

/-- The short form of a type, with brackets around an item and a mark where null is not allowed. -/
def short (schemaNamespace : String) (resolved : Resolved) : String :=
  let reference := withoutNamespace schemaNamespace (Notation.reference schemaNamespace resolved)
  let inner :=
    if resolved.isArray then
      "[" ++ reference ++ (if resolved.isItemNullable then "" else "!") ++ "]"
    else reference
  inner ++ (if resolved.isNullable then "" else "!")

end Notation

end RubySchema
