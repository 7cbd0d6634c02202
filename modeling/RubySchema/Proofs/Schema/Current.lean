import RubySchema.Proofs.Schema.Names

/-!
Schemas without their deprecated members. A name leads to the same type in them, which is the same
but for its members.
-/

namespace RubySchema

mutual

def Field.current : Field → Field
  | { name, type, arguments, description, isDeprecated, defaultValue } =>
      { name, type, arguments := Field.currents arguments, description, isDeprecated, defaultValue }

def Field.currents : List Field → List Field
  | [] => []
  | field :: rest =>
      if field.isDeprecated then Field.currents rest else field.current :: Field.currents rest

end

def TypeDef.current (type : TypeDef) : TypeDef :=
  {
    type with
    fields := type.fields.map Field.currents
    inputFields := type.inputFields.map Field.currents
    enumValues := type.enumValues.filter fun value => !value.isDeprecated
  }

def Schema.current (schema : Schema) : Schema :=
  { schema with types := schema.types.map TypeDef.current }

/-- Fields and input fields are not both among a type's members. -/
def TypeDef.HasOneKindOfMembers (type : TypeDef) : Prop :=
  type.fields.getD [] = [] ∨ type.inputFields.getD [] = []

instance (type : TypeDef) : Decidable type.HasOneKindOfMembers :=
  decidable_of_iff
    ((type.fields.getD []).isEmpty = true ∨ (type.inputFields.getD []).isEmpty = true)
    (or_congr List.isEmpty_iff List.isEmpty_iff)

namespace Field

variable {field : Field} {rest : List Field}

@[simp]
theorem name_current (field : Field) : field.current.name = field.name := by
  cases field
  rfl

@[simp]
theorem type_current (field : Field) : field.current.type = field.type := by
  cases field
  rfl

@[simp]
theorem arguments_current (field : Field)
    : field.current.arguments = currents field.arguments := by
  cases field
  rfl

@[simp]
theorem description_current (field : Field) : field.current.description = field.description := by
  cases field
  rfl

@[simp]
theorem isDeprecated_current (field : Field)
    : field.current.isDeprecated = field.isDeprecated := by
  cases field
  rfl

@[simp]
theorem defaultValue_current (field : Field)
    : field.current.defaultValue = field.defaultValue := by
  cases field
  rfl

@[simp]
theorem currents_nil : currents [] = [] :=
  rfl

theorem currents_of_deprecated (deprecated : field.isDeprecated = true)
    : currents (field :: rest) = currents rest := by
  rw [currents, if_pos deprecated]

theorem currents_of_not_deprecated (kept : field.isDeprecated = false)
    : currents (field :: rest) = field.current :: currents rest := by
  rw [currents, kept]
  rfl

/-- What is left of fields are those that are not deprecated, by induction on the fields. -/
theorem mem_currents {fields : List Field} {current : Field}
    : current ∈ currents fields
      ↔ ∃ field ∈ fields, field.isDeprecated = false ∧ field.current = current := by
  induction fields with
  | nil => simp
  | cons field rest ih =>
      rw [List.exists_mem_cons_iff, ← ih]
      cases deprecated : field.isDeprecated with
      | true => simp [currents_of_deprecated deprecated]
      | false =>
          rw [currents_of_not_deprecated deprecated, List.mem_cons]
          exact or_congr ⟨fun same => ⟨rfl, same.symm⟩, fun same => same.2.symm⟩ Iff.rfl

end Field

namespace TypeDef

@[simp]
theorem getD_fields_current (type : TypeDef)
    : type.current.fields.getD [] = Field.currents (type.fields.getD []) := by
  show (type.fields.map Field.currents).getD [] = _
  cases type.fields <;> rfl

@[simp]
theorem getD_inputFields_current (type : TypeDef)
    : type.current.inputFields.getD [] = Field.currents (type.inputFields.getD []) := by
  show (type.inputFields.map Field.currents).getD [] = _
  cases type.inputFields <;> rfl

/-- The members of a type that has one kind of them are of that kind without the deprecated ones. -/
theorem members_current {type : TypeDef} (single : type.HasOneKindOfMembers)
    : type.current.members = Field.currents type.members := by
  unfold members
  rw [getD_fields_current, getD_inputFields_current]
  rcases single with none | none
  · rw [none]
    rfl
  · rw [none]
    cases type.fields.getD [] with
    | nil => rfl
    | cons field rest =>
        -- when all fields are deprecated, there are no input fields to take their place
        cases Field.currents (field :: rest) <;> rfl

end TypeDef

namespace Schema

theorem typeNamed?_current (schema : Schema) (name : Json)
    : schema.current.typeNamed? name = (schema.typeNamed? name).map TypeDef.current := by
  show ((schema.types.map TypeDef.current).reverse.find? fun type => type.name.isSame name) = _
  rw [← List.map_reverse, List.find?_map]
  rfl

end Schema

end RubySchema
