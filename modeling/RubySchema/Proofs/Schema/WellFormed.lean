import RubySchema.Proofs.Example.Texts
import RubySchema.Resolution

/-!
Well-formed schemas. A use of a type is well-formed when its named type has a mapping and its
wrappers can be written, and a schema when all uses, names and texts of the types that have a
mapping are.
-/

namespace RubySchema

def Classified.KnowsStem (classified : Classified) (name : Json) : Prop :=
  ∃ base, name = .string base ∧ (classified.get? (Naming.stripConnection base).1).isSome

def Classified.Knows (classified : Classified) (name : Json) : Prop :=
  ∃ text, name = .string text ∧ (classified.get? text).isSome

namespace TypeRef

def lists : TypeRef → Nat
  | .named _ _ => 0
  | .list item => item.lists + 1
  | .nonNull inner => inner.lists

def IsConnection (type : TypeRef) : Prop :=
  ∃ base, type.name = .string base ∧ (Naming.stripConnection base).2 = true

end TypeRef

/-- A field whose name and description are texts and whose type can be used: it has a mapping, and
is in no more than one list, or in none if it is a connection.
-/
structure Field.IsUsable (classified : Classified) (field : Field) : Prop where
  named : field.name.IsText
  described : field.description.IsTextOrNull
  known : classified.KnowsStem field.type.name
  single : field.type.lists ≤ 1
  plain : field.type.IsConnection → field.type.lists = 0

/-- A usable argument or input field whose default value is a text if it has one. -/
structure Field.IsPassable (classified : Classified) (argument : Field) : Prop
    extends argument.IsUsable classified where
  default : argument.defaultValue.IsTextOrNull

structure Mention.IsOf (kind : TypeKind) (mention : Mention) : Prop where
  kind_eq : mention.kind = .string kind.word
  direct : mention.hasOfType = false

/-- A type whose fields, arguments, input fields, interfaces and members can all be used, and whose
names and descriptions are texts. No argument or input field is a connection.
-/
structure TypeDef.IsWellFormed (classified : Classified) (type : TypeDef) : Prop where
  described : type.description.IsTextOrNull
  fields : ∀ field ∈ type.fields.getD [], field.IsUsable classified
  arguments
    : ∀ field ∈ type.fields.getD [], ∀ argument ∈ field.arguments,
        argument.IsPassable classified ∧ ¬argument.type.IsConnection
  inputFields
    : ∀ field ∈ type.inputFields.getD [],
        field.IsPassable classified ∧ ¬field.type.IsConnection
  interfaces
    : ∀ mention ∈ type.interfaces,
        mention.IsOf .interface
        ∧ (mention.name = .string nodeInterface ∨ classified.Knows mention.name)
  members
    : type.kind = .union → ∀ mention ∈ type.possibleTypes,
        mention.IsOf .object ∧ classified.Knows mention.name
  values : ∀ value ∈ type.enumValues, value.name.IsText ∧ value.description.IsTextOrNull

/-- A schema whose types are well-formed as far as they have a mapping. The roots have one, and a
type that is generated is the only one of its name.
-/
structure Schema.IsWellFormed (classified : Classified) (schema : Schema) : Prop where
  query : classified.Knows schema.queryType
  mutation : classified.Knows schema.mutationType
  types : ∀ type ∈ schema.types, classified.Knows type.name → type.IsWellFormed classified
  unique
    : ∀ entry ∈ classified.mappings, entry.2.isBuiltin = false →
        (schema.types.map TypeDef.name).count (.string entry.1) ≤ 1

/-- Arguments of input fields can be passed. They are not generated, but examples show them. -/
def Schema.HasPassableInputs (classified : Classified) (schema : Schema) : Prop :=
  ∀ type ∈ schema.types, classified.Knows type.name →
    ∀ field ∈ type.inputFields.getD [], ∀ argument ∈ field.arguments,
      argument.IsPassable classified

section
variable {classified : Classified}

instance decidableExistsString {value : Json} {holds : String → Prop} [DecidablePred holds]
    : Decidable (∃ text, value = .string text ∧ holds text) :=
  match value with
  | .string text =>
      decidable_of_iff (holds text)
        ⟨fun here => ⟨text, rfl, here⟩, fun ⟨_, same, here⟩ => Json.string.inj same ▸ here⟩
  | .null => .isFalse fun ⟨_, same, _⟩ => nomatch same
  | .bool _ => .isFalse fun ⟨_, same, _⟩ => nomatch same
  | .number _ => .isFalse fun ⟨_, same, _⟩ => nomatch same
  | .array _ => .isFalse fun ⟨_, same, _⟩ => nomatch same
  | .object _ => .isFalse fun ⟨_, same, _⟩ => nomatch same

instance : DecidablePred classified.KnowsStem :=
  fun _ => decidableExistsString

instance : DecidablePred classified.Knows :=
  fun _ => decidableExistsString

instance : DecidablePred TypeRef.IsConnection :=
  fun _ => decidableExistsString

instance : DecidablePred (Field.IsUsable classified) := fun field =>
  decidable_of_iff
    (field.name.IsText ∧ field.description.IsTextOrNull ∧ classified.KnowsStem field.type.name
      ∧ field.type.lists ≤ 1 ∧ (field.type.IsConnection → field.type.lists = 0))
    ⟨fun ⟨named, described, known, single, plain⟩ => ⟨named, described, known, single, plain⟩,
      fun ⟨named, described, known, single, plain⟩ => ⟨named, described, known, single, plain⟩⟩

instance : DecidablePred (Field.IsPassable classified) := fun argument =>
  decidable_of_iff (argument.IsUsable classified ∧ argument.defaultValue.IsTextOrNull)
    ⟨fun ⟨usable, default⟩ => ⟨usable, default⟩, fun ⟨usable, default⟩ => ⟨usable, default⟩⟩

instance (kind : TypeKind) : DecidablePred (Mention.IsOf kind) := fun mention =>
  decidable_of_iff (mention.kind = .string kind.word ∧ mention.hasOfType = false)
    ⟨fun ⟨kind_eq, direct⟩ => ⟨kind_eq, direct⟩, fun ⟨kind_eq, direct⟩ => ⟨kind_eq, direct⟩⟩

instance : DecidablePred (TypeDef.IsWellFormed classified) := fun type =>
  decidable_of_iff
    (type.description.IsTextOrNull
      ∧ (∀ field ∈ type.fields.getD [], field.IsUsable classified)
      ∧ (∀ field ∈ type.fields.getD [], ∀ argument ∈ field.arguments,
          argument.IsPassable classified ∧ ¬argument.type.IsConnection)
      ∧ (∀ field ∈ type.inputFields.getD [],
          field.IsPassable classified ∧ ¬field.type.IsConnection)
      ∧ (∀ mention ∈ type.interfaces,
          mention.IsOf .interface
          ∧ (mention.name = .string nodeInterface ∨ classified.Knows mention.name))
      ∧ (type.kind = .union → ∀ mention ∈ type.possibleTypes,
          mention.IsOf .object ∧ classified.Knows mention.name)
      ∧ ∀ value ∈ type.enumValues, value.name.IsText ∧ value.description.IsTextOrNull)
    ⟨fun ⟨described, fields, arguments, inputFields, interfaces, members, values⟩ =>
        ⟨described, fields, arguments, inputFields, interfaces, members, values⟩,
      fun ⟨described, fields, arguments, inputFields, interfaces, members, values⟩ =>
        ⟨described, fields, arguments, inputFields, interfaces, members, values⟩⟩

instance : DecidablePred (Schema.IsWellFormed classified) := fun schema =>
  decidable_of_iff
    (classified.Knows schema.queryType ∧ classified.Knows schema.mutationType
      ∧ (∀ type ∈ schema.types, classified.Knows type.name → type.IsWellFormed classified)
      ∧ ∀ entry ∈ classified.mappings, entry.2.isBuiltin = false →
          (schema.types.map TypeDef.name).count (.string entry.1) ≤ 1)
    ⟨fun ⟨query, mutation, types, unique⟩ => ⟨query, mutation, types, unique⟩,
      fun ⟨query, mutation, types, unique⟩ => ⟨query, mutation, types, unique⟩⟩

instance : DecidablePred (Schema.HasPassableInputs classified) := fun schema =>
  inferInstanceAs (Decidable (∀ type ∈ schema.types, classified.Knows type.name →
    ∀ field ∈ type.inputFields.getD [], ∀ argument ∈ field.arguments,
      argument.IsPassable classified))

end

section
variable {classified : Classified}

/-- The use of a type of a known name, in no more than one list, can be resolved: it has the name
without a `Connection` at its end, and is a list only if the use is in one. By induction on the
wrappers.
-/
theorem Resolved.exists_ofTypeRef (owner : Json) {type : TypeRef} {base : String}
    (named : type.name = .string base)
    (known : (classified.get? (Naming.stripConnection base).1).isSome) (single : type.lists ≤ 1)
    : ∃ resolved,
        Resolved.ofTypeRef classified owner type = .ok resolved
        ∧ (resolved.name, resolved.isConnection) = Naming.stripConnection base
        ∧ (resolved.isArray = true → type.lists = 1) := by
  induction type with
  | named name kind =>
      obtain rfl : name = .string base := named
      obtain ⟨mapping, found⟩ := Option.isSome_iff_exists.mp known
      let resolved : Resolved :=
        {
          name := (Naming.stripConnection base).1
          targetName := mapping.targetName
          isNullable := true
          isArray := false
          isItemNullable := true
          isConnection := (Naming.stripConnection base).2
        }
      refine ⟨resolved, ?_, rfl, fun array => Bool.noConfusion array⟩
      rw [Resolved.ofTypeRef]
      show (classified.lookup (Naming.stripConnection base).1 >>= _) = _
      rw [Classified.lookup, found]
      rfl
  | nonNull inner ih =>
      obtain ⟨resolved, found, same, array⟩ := ih named single
      refine ⟨{ resolved with isNullable := false }, ?_, same, array⟩
      rw [Resolved.ofTypeRef, found]
      rfl
  | list item ih =>
      -- the one list that is allowed is this one, so there is none further in
      have bare : item.lists = 0 := by
        have within : item.lists + 1 ≤ 1 := single
        omega
      obtain ⟨resolved, found, same, array⟩ := ih named (by omega)
      have notArray : resolved.isArray = false := by
        cases isArray : resolved.isArray with
        | false => rfl
        | true => exact absurd (array isArray) (by omega)
      let listed : Resolved :=
        { resolved with
          isArray := true
          isItemNullable := resolved.isNullable
          isNullable := true }
      refine ⟨listed, ?_, same, fun _ => ?_⟩
      · rw [Resolved.ofTypeRef, found]
        show (if resolved.isArray then _ else _) = _
        rw [notArray]
        rfl
      · show item.lists + 1 = 1
        omega

/-- A usable field can be resolved, to a name that has a mapping. -/
theorem Field.IsUsable.resolved {field : Field} (usable : field.IsUsable classified)
    : ∃ resolved,
        Resolved.ofField classified field = .ok resolved
        ∧ (classified.get? resolved.name).isSome
        ∧ (resolved.isConnection = true → field.type.IsConnection) := by
  obtain ⟨base, named, known⟩ := usable.known
  obtain ⟨resolved, found, same, array⟩ :=
    Resolved.exists_ofTypeRef field.name named known usable.single
  have stem : resolved.name = (Naming.stripConnection base).1 := congrArg Prod.fst same
  have connection : resolved.isConnection = true → field.type.IsConnection := fun isConnection =>
    ⟨base, named, (congrArg Prod.snd same).symm.trans isConnection⟩
  have apart : (resolved.isConnection && resolved.isArray) = false := by
    cases isConnection : resolved.isConnection with
    | false => rfl
    | true =>
        cases isArray : resolved.isArray with
        | false => rfl
        | true =>
            have single := array isArray
            have none := usable.plain (connection isConnection)
            omega
  refine ⟨resolved, ?_, stem ▸ known, connection⟩
  rw [Resolved.ofField, found]
  show (if resolved.isConnection && resolved.isArray then _ else _) = _
  rw [apart]
  rfl

end

end RubySchema
