import RubySchema.Schema.Basic
import RubySchema.Text.Affix

/-!
Introspection documents. A schema stands in one of three envelopes; its types, fields and arguments
are read in order, and the first entry of a wrong shape stops the reading.
-/

namespace RubySchema.Introspection

/-- The elements that a schema may have. -/
def schemaKeys : List String :=
  ["queryType", "mutationType", "subscriptionType", "directives", "types", "description"]

/-- What a document holds under `data`, or the document itself. -/
def withoutData (entries : Table Json) : Json :=
  match Table.get? entries "data" with
  | none => .object entries
  | some inner => if inner.isVoid then .object [] else inner

/-- What a value holds under `__schema`, or the value itself. A text or a list that merely contains
the word has no such part.
-/
def withoutSchemaKey : Json → Except Error Json
  | .object entries =>
      match Table.get? entries "__schema" with
      | none => .ok (.object entries)
      | some inner => .ok (if inner.isVoid then .object [] else inner)
  | .string text =>
      if Text.contains "__schema".toList text.toList then .error .illTyped else .ok (.string text)
  | .array items =>
      if items.contains (.string "__schema") then .error .illTyped else .ok (.array items)
  | _ => .error .illTyped

/-- The entries of the schema inside its envelopes. -/
def unwrap : Json → Except Error (Table Json)
  | .object entries => do
      match ← withoutSchemaKey (withoutData entries) with
      | .object inner => return inner
      | _ => throw .noSchemaObject
  | _ => .error .documentNotObject

/-- The name of a root; a void entry names none. -/
def rootName (entry : Json) : Except Error Json :=
  if entry.isVoid then .ok .null else entry.part "name"

/-- A flag is set unless its value is void. -/
def flag (value : Json) : Bool :=
  !value.isVoid

def directive (entry : Json) : Except Error Directive := do
  let name ← entry.required "name"
  let description ← entry.part "description"
  let locations ← (← entry.part "locations").elementsIfAny
  return {
    name
    description
    locations
    isDeprecated := flag (← entry.part "isDeprecated")
  }

/-- A mention of a type by another. -/
def mention (entry : Json) : Except Error Mention := do
  return {
    name := ← entry.part "name"
    kind := ← entry.part "kind"
    hasOfType := flag (← entry.part "ofType")
  }

def enumValue (entry : Json) : Except Error EnumValue := do
  return {
    name := ← entry.required "name"
    description := ← entry.part "description"
    isDeprecated := flag (← entry.part "isDeprecated")
  }

/-- The kind of a top-level type, which is not a wrapper. -/
def topKind (type kind : Json) : Except Error TypeKind :=
  match kind with
  | .string word =>
      match TypeKind.ofWord? word with
      | some found => if found.isWrapper then .error (.wrapperKind type kind) else .ok found
      | none => .error (.unexpectedKind type kind)
  | _ => .error (.unexpectedKind type kind)

/-- The kind of a reference, which may be left out. -/
def referenceKind (owner kind : Json) : Except Error (Option TypeKind) :=
  if kind.isVoid then .ok none
  else if !kind.isKey then .error .illTyped
  else
    match kind with
    | .string word =>
        match TypeKind.ofWord? word with
        | some found => .ok (some found)
        | none => .error (.unexpectedReferenceKind owner kind)
    | _ => .error (.unexpectedReferenceKind owner kind)

/-- What a table finds is smaller than the object around the table. -/
theorem sizeOf_get?_lt {entries : Table Json} {key : String} {value : Json}
    (found : Table.get? entries key = some value)
    : sizeOf value < sizeOf (Json.object entries) := by
  induction entries with
  | nil => simp [Table.get?] at found
  | cons entry rest ih =>
      by_cases h : entry.1 = key
      · simp only [Table.get?, h, if_true, Option.some.injEq] at found
        subst found
        cases entry
        simp only [Json.object.sizeOf_spec, List.cons.sizeOf_spec, Prod.mk.sizeOf_spec]
        omega
      · simp only [Table.get?, h, if_false] at found
        have := ih found
        simp only [Json.object.sizeOf_spec, List.cons.sizeOf_spec] at this ⊢
        omega

/-- The use of a type that nested references spell out. A wrapper that has a name counts as a named
type, and the innermost reference must have a name.
-/
def typeRef (owner : Json) : Json → Except Error TypeRef
  | .object entries =>
      if entries.isEmpty then .error (.openReference owner)
      else
        let kind := (Table.get? entries "kind").getD .null
        let name := (Table.get? entries "name").getD .null
        if kind == .string "NON_NULL" && name.isVoid then
          match _found : Table.get? entries "ofType" with
          | some inner => do return .nonNull (← typeRef owner inner)
          | none => .error (.openReference owner)
        else if kind == .string "LIST" && name.isVoid then
          match _found : Table.get? entries "ofType" with
          | some inner => do return .list (← typeRef owner inner)
          | none => .error (.openReference owner)
        else do
          let found ← referenceKind owner kind
          if name == .null then throw (.openReference owner) else return .named name found
  | node => .error (if node.isVoid then .openReference owner else .illTyped)
termination_by node => sizeOf node
decreasing_by all_goals exact sizeOf_get?_lt (by assumption)

mutual

/-- A field, argument or input field of the document, with its own arguments. -/
def field (entry : Json) : Except Error Field :=
  match entry with
  | .object entries => do
      let some name := Table.get? entries "name" | throw (.missingKey "name")
      let type ← typeRef name ((Table.get? entries "type").getD .null)
      let arguments ←
        match _found : Table.get? entries "args" with
        | some (.array items) => fieldList items
        | some other => if other.isVoid then pure [] else throw .illTyped
        | none => pure []
      return {
        name
        type
        arguments
        description := (Table.get? entries "description").getD .null
        isDeprecated := flag ((Table.get? entries "isDeprecated").getD .null)
        defaultValue := (Table.get? entries "defaultValue").getD .null
      }
  | _ => .error .illTyped
termination_by sizeOf entry
decreasing_by
  have := sizeOf_get?_lt (by assumption : Table.get? entries "args" = some (.array items))
  simp only [Json.array.sizeOf_spec] at this
  omega

def fieldList (items : List Json) : Except Error (List Field) :=
  match items with
  | [] => .ok []
  | item :: rest => do
      let first ← field item
      return first :: (← fieldList rest)
termination_by sizeOf items

end

/-- The fields under a key; null is no list of fields. -/
def fields (value : Json) : Except Error (Option (List Field)) :=
  if value == .null then .ok none
  else do return some (← fieldList (← value.elements))

def typeDef (entry : Json) : Except Error TypeDef := do
  let name ← entry.part "name"
  if name.isVoid then throw (.unnamedType entry)
  let kind ← topKind name (← entry.part "kind")
  let fieldEntries ← entry.part "fields"
  let inputEntries ← entry.part "inputFields"
  if !fieldEntries.isVoid && !inputEntries.isVoid then throw (.fieldsOfTwoKinds name)
  let fields ← Introspection.fields fieldEntries
  let inputFields ← Introspection.fields inputEntries
  let interfaces ← (← (← entry.part "interfaces").elementsIfAny).mapM mention
  let possibleTypes ← (← (← entry.part "possibleTypes").elementsIfAny).mapM mention
  let enumValues ← (← (← entry.part "enumValues").elementsIfAny).mapM enumValue
  return {
    name
    kind
    fields
    inputFields
    interfaces
    possibleTypes
    enumValues
    description := ← entry.part "description"
    isDeprecated := flag (← entry.part "isDeprecated")
  }

/-- A schema before its types are read: all else, and the entries of the types. -/
structure Outline where
  schema : Schema
  typeEntries : List Json

/-- Everything of a document but its types. -/
def outline (document : Json) : Except Error Outline := do
  let entries ← unwrap document
  let unknown := entries.names.filter fun key => !schemaKeys.contains key
  if !unknown.isEmpty then throw (.unknownElements (sortTexts unknown))
  let part (key : String) : Json := (Table.get? entries key).getD .null
  let queryType ← rootName (part "queryType")
  let mutationType ← rootName (part "mutationType")
  let subscriptionType ← rootName (part "subscriptionType")
  let directives ← (← (part "directives").elementsIfAny).mapM directive
  let typeEntries ← (part "types").elementsIfAny
  let description := part "description"
  return {
    schema := {
      queryType
      mutationType
      subscriptionType
      directives
      types := []
      description := if description.isVoid then .null else description
    }
    typeEntries
  }

/-- The schema of an outline, with its types read. -/
def Outline.complete (outline : Outline) : Except Error Schema := do
  return { outline.schema with types := ← outline.typeEntries.mapM typeDef }

def schema (document : Json) : Except Error Schema := do
  (← outline document).complete

end RubySchema.Introspection
