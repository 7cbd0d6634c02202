import RubySchema.Example.Basic
import RubySchema.Resolution

/-!
Expansion of types into examples. A guard holds the types that are being shown on the way down; a
type that it holds is shown as a sentinel, and an object below the depth limit is cut off.
-/

namespace RubySchema

/-- The names of the types being shown. -/
structure Guard where
  held : List String
  deriving DecidableEq, Repr, Inhabited

namespace Guard

/-- A guard that holds nothing. -/
def empty : Guard :=
  { held := [] }

/-- The guard holds a name. -/
def isActive (guard : Guard) (name : String) : Bool :=
  name ∈ guard.held

/-- A guard that holds a name, once. -/
def hold (guard : Guard) (name : String) : Guard :=
  if name ∈ guard.held then guard else { held := name :: guard.held }

/-- A guard that no longer holds a name, however often it was held. -/
def release (guard : Guard) (name : String) : Guard :=
  { held := guard.held.filter fun held => held != name }

end Guard

/-- A step of an expansion: it sees the guard, may change it, and may fail. -/
abbrev Expansion (α : Type) :=
  EStateM Error Guard α

namespace Expansion

/-- A step that leaves the guard alone. -/
def ofExcept {α : Type} : Except Error α → Expansion α
  | .ok value => fun guard => .ok value guard
  | .error cause => fun guard => .error cause guard

/-- A step during which the guard holds a name; it is released however the step ends. -/
def holding {α : Type} (name : String) (step : Expansion α) : Expansion α := fun guard =>
  match step (guard.hold name) with
  | .ok value after => .ok value (after.release name)
  | .error cause after => .error cause (after.release name)

/-- The outcome of a step that begins with an empty guard. -/
def fromEmpty {α : Type} (step : Expansion α) : Except Error α :=
  match step Guard.empty with
  | .ok value _ => .ok value
  | .error cause _ => .error cause

end Expansion

/-- What expansion knows: the types of the schema, and their mappings. -/
structure Expander where
  schema : Schema
  classified : Classified

namespace Expander

/-- The definition of a name; a built-in type may have none. -/
def definition (expander : Expander) (name : String) : Except Error (Option TypeDef) :=
  match expander.schema.typeNamed? (.string name) with
  | some type => .ok (some type)
  | none =>
      if expander.classified.isBuiltin name then .ok none else .error (.unknownType name)

/-- A text between double quotes, as it stands. -/
def inQuotes (text : String) : Json :=
  .string ("\"" ++ text ++ "\"")

/-- The example of a type that has no fields of its own; none for the kinds that have. -/
def leaf? (type : TypeDef) (name : String) : Except Error (Option Example) :=
  match type.kind with
  | .scalar => .ok (some (.literal (inQuotes name)))
  | .enum => do
      let values ← type.enumValues.mapM fun value => value.name.asText
      return some (.literal (inQuotes (" | ".intercalate values)))
  | .union => do
      let members ← type.possibleTypes.mapM fun mention => mention.name.asText
      return some (.literal (.string (" | ".intercalate members)))
  | _ => .ok none

/-- The example of an argument whose type has the given name. Numbers, truth values and texts are
shown by their type, or by their default; all else is expanded.
-/
def argumentValue (expand : String → Expansion Example) (base : String) (argument : Field)
    : Expansion Example :=
  if base == "Int" || base == "Float" then pure (.literal (.string base))
  else if base == "Boolean" then
    let default := argument.defaultValue
    pure (.literal (if default.isVoid then .string base else default))
  else if base == "String" then pure (.literal (inQuotes ""))
  else expand base

def argumentEntries (expander : Expander) (expand : String → Expansion Example)
    : List Field → Expansion Entries
  | [] => pure .nil
  | argument :: rest => do
      let base ← Expansion.ofExcept argument.type.name.asText
      let resolved ← Expansion.ofExcept (Resolved.ofField expander.classified argument)
      let value ← argumentValue expand (Naming.stripConnection base).1 argument
      let value := if resolved.isArray then .list value else value
      return .cons argument.name value .nil (← expander.argumentEntries expand rest)

/-- The example of a field: that of its type, in a connection or a list if the field is one. -/
def fieldValue (expander : Expander) (expand : String → Expansion Example) (field : Field)
    : Expansion Example := do
  let resolved ← Expansion.ofExcept (Resolved.ofField expander.classified field)
  let value ← expand resolved.name
  let value := if resolved.isConnection then .connection value else value
  return if resolved.isArray then .list value else value

/-- The examples of fields in order, each with those of its arguments. -/
def memberEntries (expander : Expander) (expand : String → Expansion Example)
    : List Field → Expansion Entries
  | [] => pure .nil
  | member :: rest => do
      let value ← expander.fieldValue expand member
      let arguments ← expander.argumentEntries expand member.arguments
      return .cons member.name value arguments (← expander.memberEntries expand rest)

/-- The example of a type, when objects may nest `room` levels deep. -/
def expandIn (expander : Expander) (room : Nat) (name : String) : Expansion Example := do
  match ← Expansion.ofExcept (expander.definition name) with
  | none => return .literal (inQuotes name)
  | some type =>
      if (← get).isActive name then return .sentinel name
      else
        match ← Expansion.ofExcept (leaf? type name) with
        | some leaf => return leaf
        | none =>
            match room with
            | 0 => return .truncated
            | room + 1 =>
                Expansion.holding name do
                  return .object (← expander.memberEntries (expander.expandIn room) type.members)

/-- Types that an argument shows without an expansion. -/
def plainTypes : List String := ["Int", "Float", "Boolean", "String"]

/-- The names of types that the examples of a field and of its arguments expand. -/
def expandedBy (field : Field) : List String :=
  let stem (name : Json) : Option String :=
    match name with
    | .string name => some (Naming.stripConnection name).1
    | _ => none
  let arguments := (field.arguments.filterMap fun argument => stem argument.type.name).filter
    fun name => !plainTypes.contains name
  (stem field.type.name).toList ++ arguments

/-- The types whose members the example of a type shows, when objects may nest `room` levels deep
and some names are held.
-/
def shownIn (expander : Expander) (room : Nat) (held : List String) (name : String)
    : List String :=
  match room, expander.schema.typeNamed? (.string name) with
  | room + 1, some type =>
      if held.contains name || [.scalar, .enum, .union].contains type.kind then []
      else
        name :: (type.members.flatMap expandedBy).flatMap (expander.shownIn room (name :: held))
  | _, _ => []

/-- The room that a limit leaves at a depth. -/
def roomAt (limit depth : Int) : Nat :=
  (limit - depth).toNat

end Expander

end RubySchema
