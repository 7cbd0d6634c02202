import RubySchema.Proofs.Outcome
import RubySchema.Schema.Introspection

/-!
Reading undoes writing of schemas as introspection documents, in each of the three envelopes. What
is void is read as missing, so the names that a reader relies on must not be.
-/

namespace RubySchema

-----------------------------------------------------------------------------------------
-- Writing
-----------------------------------------------------------------------------------------

def TypeRef.document : TypeRef → Json
  | .named name kind =>
      .object [("kind", .ofText? (kind.map TypeKind.word)), ("name", name), ("ofType", .null)]
  | .list item =>
      .object [("kind", .string TypeKind.list.word), ("name", .null), ("ofType", item.document)]
  | .nonNull inner =>
      .object [("kind", .string TypeKind.nonNull.word), ("name", .null), ("ofType", inner.document)]

mutual

/-- A field, argument or input field with its own arguments. -/
def Field.document : Field → Json
  | { name, type, arguments, description, isDeprecated, defaultValue } =>
      .object [
        ("name", name),
        ("description", description),
        ("args", .array (Field.documents arguments)),
        ("type", type.document),
        ("isDeprecated", .bool isDeprecated),
        ("defaultValue", defaultValue)
      ]

def Field.documents : List Field → List Json
  | [] => []
  | field :: rest => field.document :: Field.documents rest

end

def Field.optionalDocuments : Option (List Field) → Json
  | none => .null
  | some fields => .array (Field.documents fields)

/-- A mention of a type. What it wraps, if anything, is written as the given value. -/
def Mention.document (wrapped : Json) (mention : Mention) : Json :=
  .object [
    ("kind", mention.kind),
    ("name", mention.name),
    ("ofType", if mention.hasOfType then wrapped else .null)
  ]

def EnumValue.document (value : EnumValue) : Json :=
  .object [
    ("name", value.name),
    ("description", value.description),
    ("isDeprecated", .bool value.isDeprecated)
  ]

def TypeDef.document (wrapped : Json) (type : TypeDef) : Json :=
  .object [
    ("kind", .string type.kind.word),
    ("name", type.name),
    ("description", type.description),
    ("isDeprecated", .bool type.isDeprecated),
    ("fields", Field.optionalDocuments type.fields),
    ("inputFields", Field.optionalDocuments type.inputFields),
    ("interfaces", .array (type.interfaces.map (Mention.document wrapped))),
    ("possibleTypes", .array (type.possibleTypes.map (Mention.document wrapped))),
    ("enumValues", .array (type.enumValues.map EnumValue.document))
  ]

def Directive.document (directive : Directive) : Json :=
  .object [
    ("name", directive.name),
    ("description", directive.description),
    ("locations", .array directive.locations),
    ("isDeprecated", .bool directive.isDeprecated)
  ]

def Schema.rootDocument (name : Json) : Json :=
  if name = .null then .null else .object [("name", name)]

/-- The entries of a schema. Its own description is left out when there is none. -/
def Schema.documentEntries (wrapped : Json) (schema : Schema) : Table Json :=
  [
    ("queryType", Schema.rootDocument schema.queryType),
    ("mutationType", Schema.rootDocument schema.mutationType),
    ("subscriptionType", Schema.rootDocument schema.subscriptionType),
    ("directives", .array (schema.directives.map Directive.document)),
    ("types", .array (schema.types.map (TypeDef.document wrapped)))
  ] ++ (if schema.description = .null then [] else [("description", schema.description)])

def Schema.document (wrapped : Json) (schema : Schema) : Json :=
  .object (schema.documentEntries wrapped)

-----------------------------------------------------------------------------------------
-- What can be read back
-----------------------------------------------------------------------------------------

inductive Field.IsNamed : Field → Prop where
  | intro {field : Field} (named : field.type.name.isVoid = false)
      (arguments : ∀ argument ∈ field.arguments, argument.IsNamed) : field.IsNamed

/-- A type with a name, which is no wrapper and has fields of one kind, whose types have names. -/
structure TypeDef.IsNamed (type : TypeDef) : Prop where
  named : type.name.isVoid = false
  unwrapped : type.kind.isWrapper = false
  ofOneKind : type.fields.getD [] = [] ∨ type.inputFields.getD [] = []
  fields : ∀ field ∈ type.fields.getD [], field.IsNamed
  inputFields : ∀ field ∈ type.inputFields.getD [], field.IsNamed

structure Schema.IsNamed (schema : Schema) : Prop where
  types : ∀ type ∈ schema.types, type.IsNamed
  described : schema.description = .null ∨ schema.description.isVoid = false

namespace Introspection

-----------------------------------------------------------------------------------------
-- Reading back
-----------------------------------------------------------------------------------------

theorem ofWord?_word (kind : TypeKind) : TypeKind.ofWord? kind.word = some kind := by
  cases kind <;> decide

theorem referenceKind_word (owner : Json) (kind : Option TypeKind)
    : referenceKind owner (.ofText? (kind.map TypeKind.word)) = .ok kind := by
  cases kind with
  | none => rfl
  | some kind => cases kind <;> rfl

/-- A use of a named type is read back, by induction on its wrappers. -/
theorem typeRef_document (owner : Json) {type : TypeRef} (named : type.name.isVoid = false)
    : typeRef owner type.document = .ok type := by
  induction type with
  | named name kind =>
      have filled : name.isVoid = false := named
      have notNull : name ≠ .null := by
        rintro rfl
        cases filled
      rw [TypeRef.document, typeRef]
      simp [Table.get?, filled, notNull, referenceKind_word, pure, Except.pure, bind, Except.bind]
  | list item ih =>
      rw [TypeRef.document, typeRef]
      simp [Table.get?, ih named, TypeKind.word, Json.isVoid, pure, Except.pure, bind, Except.bind]
  | nonNull inner ih =>
      rw [TypeRef.document, typeRef]
      simp [Table.get?, ih named, TypeKind.word, Json.isVoid, pure, Except.pure, bind, Except.bind]

/-- Fields are read back when each of them is, by induction on the fields. -/
theorem fieldList_documents {fields : List Field}
    (each : ∀ item ∈ fields, field item.document = .ok item)
    : fieldList (Field.documents fields) = .ok fields := by
  induction fields with
  | nil => rw [Field.documents, fieldList]
  | cons first rest ih =>
      rw [Field.documents, fieldList, each first List.mem_cons_self,
        ih fun item member => each item (List.mem_cons_of_mem first member)]
      rfl

/-- A field is read back, by induction on its arguments and theirs. -/
theorem field_document {item : Field} (named : item.IsNamed)
    : field item.document = .ok item := by
  induction named with
  | @intro item named _ ih =>
      have arguments := fieldList_documents ih
      obtain ⟨name, type, arguments, description, isDeprecated, defaultValue⟩ := item
      rw [Field.document, field]
      simp [Table.get?, typeRef_document name named, arguments, flag, Json.isVoid]
      rfl

theorem fields_optionalDocuments {items : Option (List Field)}
    (named : ∀ item ∈ items.getD [], item.IsNamed)
    : fields (Field.optionalDocuments items) = .ok items := by
  cases items with
  | none => rfl
  | some items =>
      have read : fieldList (Field.documents items) = .ok items :=
        fieldList_documents fun item member => field_document (named item member)
      show (do return some (← fieldList (Field.documents items))) = Except.ok (some items)
      rw [read]
      rfl

/-- A mention is read back: it wraps something if what is written as wrapped is not void. -/
theorem mention_document {wrapped : Json} (filled : wrapped.isVoid = false) (item : Mention)
    : mention (item.document wrapped) = .ok item := by
  obtain ⟨name, kind, hasOfType⟩ := item
  cases hasOfType with
  | false => rfl
  | true =>
      show Except.ok { name, kind, hasOfType := flag wrapped : Mention } = _
      rw [flag, filled]
      rfl

theorem flag_bool (isSet : Bool) : flag (.bool isSet) = isSet := by
  cases isSet <;> rfl

theorem enumValue_document (value : EnumValue) : enumValue value.document = .ok value := by
  obtain ⟨name, description, isDeprecated⟩ := value
  cases isDeprecated <;> rfl

theorem elementsIfAny_array (items : List Json) : (Json.array items).elementsIfAny = .ok items := by
  cases items <;> rfl

theorem directive_document (item : Directive) : directive item.document = .ok item := by
  obtain ⟨name, description, locations, isDeprecated⟩ := item
  show (do
    let read ← (Json.array locations).elementsIfAny
    return { name, description, locations := read, isDeprecated := flag (.bool isDeprecated) :
      Directive }) = _
  rw [elementsIfAny_array]
  cases isDeprecated <;> rfl

/-- Items that are each read back are read back together, by induction on the items. -/
theorem mapM_document {α : Type} {document : α → Json} {read : Json → Except Error α}
    {items : List α} (each : ∀ item ∈ items, read (document item) = .ok item)
    : (items.map document).mapM read = .ok items := by
  induction items with
  | nil => rfl
  | cons item rest ih =>
      rw [List.map_cons, List.mapM_cons, each item List.mem_cons_self,
        ih fun other member => each other (List.mem_cons_of_mem item member)]
      rfl

theorem isVoid_optionalDocuments (items : Option (List Field))
    : (Field.optionalDocuments items).isVoid = (items.getD []).isEmpty := by
  rcases items with - | - | ⟨item, rest⟩ <;> rfl

theorem topKind_word (type : Json) {kind : TypeKind} (unwrapped : kind.isWrapper = false)
    : topKind type (.string kind.word) = .ok kind := by
  rw [topKind, ofWord?_word]
  simp [unwrapped]

/-- A named type is read back: each of its parts is found under its key and read. -/
theorem typeDef_document {wrapped : Json} (filled : wrapped.isVoid = false) {type : TypeDef}
    (named : type.IsNamed) : typeDef (type.document wrapped) = .ok type := by
  have name : (type.document wrapped).part "name" = .ok type.name := rfl
  have kind : (type.document wrapped).part "kind" = .ok (.string type.kind.word) := rfl
  have fields
      : (type.document wrapped).part "fields" = .ok (Field.optionalDocuments type.fields) := rfl
  have inputFields
      : (type.document wrapped).part "inputFields"
        = .ok (Field.optionalDocuments type.inputFields) := rfl
  have interfaces
      : (type.document wrapped).part "interfaces"
        = .ok (.array (type.interfaces.map (Mention.document wrapped))) := rfl
  have possibleTypes
      : (type.document wrapped).part "possibleTypes"
        = .ok (.array (type.possibleTypes.map (Mention.document wrapped))) := rfl
  have enumValues
      : (type.document wrapped).part "enumValues"
        = .ok (.array (type.enumValues.map EnumValue.document)) := rfl
  have description : (type.document wrapped).part "description" = .ok type.description := rfl
  have isDeprecated
      : (type.document wrapped).part "isDeprecated" = .ok (.bool type.isDeprecated) := rfl
  have mentions (items : List Mention)
      : (items.map (Mention.document wrapped)).mapM mention = .ok items :=
    mapM_document fun item _ => mention_document filled item
  have values : (type.enumValues.map EnumValue.document).mapM enumValue = .ok type.enumValues :=
    mapM_document fun value _ => enumValue_document value
  have ofOneKind
      : (!(Field.optionalDocuments type.fields).isVoid
          && !(Field.optionalDocuments type.inputFields).isVoid) = false := by
    rw [isVoid_optionalDocuments, isVoid_optionalDocuments]
    rcases named.ofOneKind with none | none <;> simp [none]
  unfold typeDef
  simp only [name, kind, fields, inputFields, interfaces, possibleTypes, enumValues, description,
    isDeprecated, ok_bind, named.named, Bool.false_eq_true, if_false,
    topKind_word _ named.unwrapped, ofOneKind, fields_optionalDocuments named.fields,
    fields_optionalDocuments named.inputFields, elementsIfAny_array, mentions, values, flag_bool]
  rfl

/-- What is written of a root is read back. -/
theorem rootName_rootDocument (name : Json) : rootName (Schema.rootDocument name) = .ok name := by
  unfold Schema.rootDocument
  split
  case isTrue null => rw [null]; rfl
  case isFalse => rfl

/-- All of a schema but its types is read back once its entries have been found. -/
theorem outline_of_unwrap {wrapped document : Json} {schema : Schema} (named : schema.IsNamed)
    (found : unwrap document = .ok (schema.documentEntries wrapped))
    : outline document
      = .ok ⟨{ schema with types := [] }, schema.types.map (TypeDef.document wrapped)⟩ := by
  obtain ⟨entries, same⟩ : ∃ entries, entries = schema.documentEntries wrapped := ⟨_, rfl⟩
  have known : (entries.names.filter fun key => !schemaKeys.contains key) = [] := by
    rw [same, Schema.documentEntries]
    split <;> rfl
  have under {key : String} {value : Json}
      (here : Table.get? (schema.documentEntries wrapped) key = some value)
      : (Table.get? entries key).getD .null = value := by
    rw [same, here]
    rfl
  have query
      : (Table.get? entries "queryType").getD .null = Schema.rootDocument schema.queryType :=
    under rfl
  have mutation
      : (Table.get? entries "mutationType").getD .null
        = Schema.rootDocument schema.mutationType :=
    under rfl
  have subscription
      : (Table.get? entries "subscriptionType").getD .null
        = Schema.rootDocument schema.subscriptionType :=
    under rfl
  have directives
      : (Table.get? entries "directives").getD .null
        = .array (schema.directives.map Directive.document) :=
    under rfl
  have types
      : (Table.get? entries "types").getD .null
        = .array (schema.types.map (TypeDef.document wrapped)) :=
    under rfl
  have description : (Table.get? entries "description").getD .null = schema.description := by
    rw [same, Schema.documentEntries]
    split
    case isTrue null => exact null.symm
    case isFalse => rfl
  have described
      : (if schema.description.isVoid then .null else schema.description)
        = schema.description := by
    rcases named.described with null | filled
    · rw [null]
      rfl
    · rw [filled]
      rfl
  have declared
      : (schema.directives.map Directive.document).mapM directive = .ok schema.directives :=
    mapM_document fun item _ => directive_document item
  unfold outline
  rw [found, ← same]
  simp only [ok_bind, known, query, mutation, subscription, directives, types, description,
    described, rootName_rootDocument, elementsIfAny_array, declared]
  rfl

/-- A schema is read back once its entries have been found. -/
theorem schema_of_unwrap {wrapped document : Json} (filled : wrapped.isVoid = false)
    {schema : Schema} (named : schema.IsNamed)
    (found : unwrap document = .ok (schema.documentEntries wrapped))
    : Introspection.schema document = .ok schema := by
  have types
      : (schema.types.map (TypeDef.document wrapped)).mapM typeDef = .ok schema.types :=
    mapM_document fun type member => typeDef_document filled (named.types type member)
  rw [Introspection.schema, outline_of_unwrap named found, ok_bind, Outline.complete, types]
  rfl

/-- Reading undoes writing: a schema whose types are named is read back from its document, without
an envelope or in either of the two.
-/
theorem schema_document {wrapped : Json} (filled : wrapped.isVoid = false) {schema : Schema}
    (named : schema.IsNamed)
    : Introspection.schema (schema.document wrapped) = .ok schema
      ∧ Introspection.schema (.object [("__schema", schema.document wrapped)]) = .ok schema
      ∧ Introspection.schema
          (.object [("data", .object [("__schema", schema.document wrapped)])]) = .ok schema := by
  refine ⟨?_, ?_, ?_⟩
  · apply schema_of_unwrap filled named
    unfold Schema.document Schema.documentEntries
    split <;> rfl
  · exact schema_of_unwrap filled named rfl
  · exact schema_of_unwrap filled named rfl

/-- A schema with a field whose argument has a deprecated argument of its own, in an envelope of two
keys.
-/
def filteredSearch : Schema :=
  let limit : Field :=
    {
      name := .string "limit"
      type := .nonNull (.named (.string "Int") (some .scalar))
      arguments := []
      description := .string "no longer read"
      isDeprecated := true
      defaultValue := .string "10"
    }
  let filter : Field :=
    {
      name := .string "filter"
      type := .list (.nonNull (.named (.string "LIST") none))
      arguments := [limit]
      description := .null
      isDeprecated := false
      defaultValue := .null
    }
  let search : Field :=
    {
      name := .string "search"
      type := .nonNull (.list (.named (.string "Query") (some .object)))
      arguments := [filter]
      description := .string ""
      isDeprecated := false
      defaultValue := .null
    }
  {
    queryType := .string "Query"
    mutationType := .string ""
    subscriptionType := .null
    directives := [⟨.string "skip", .null, [.string "FIELD"], false⟩]
    types :=
      [
        {
          name := .string "Query"
          kind := .object
          fields := some [search]
          inputFields := some []
          interfaces := [⟨.string "Node", .string "INTERFACE", true⟩]
          possibleTypes := []
          enumValues := [⟨.string "OLD", .null, true⟩]
          description := .null
          isDeprecated := false
        }
      ]
    description := .string "all there is"
  }

theorem schema_document_filteredSearch
    : filteredSearch.IsNamed
      ∧ Introspection.schema
          (.object [("data", .object [("__schema", filteredSearch.document (.bool true))])])
        = .ok filteredSearch := by
  have named : filteredSearch.IsNamed := by
    refine ⟨?_, .inr rfl⟩
    intro type member
    obtain rfl := List.mem_singleton.mp member
    refine ⟨rfl, rfl, .inr rfl, ?_, by simp⟩
    intro search member
    obtain rfl := List.mem_singleton.mp member
    refine .intro rfl ?_
    intro filter member
    obtain rfl := List.mem_singleton.mp member
    refine .intro rfl ?_
    intro limit member
    obtain rfl := List.mem_singleton.mp member
    exact .intro rfl (by simp)
  exact ⟨named, (schema_document rfl named).2.2⟩

end Introspection

end RubySchema
