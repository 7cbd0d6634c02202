import RubySchema.Proofs.Generation.Interfaces

/-!
The texts in the section of fields of a schema document stand side by side with the entries of its
type, and each of them stands in the rendered document on lines of its own. The entries are those of
the type in order: fields around their arguments, values, and input fields.
-/

namespace RubySchema

open Text

-----------------------------------------------------------------------------------------
-- Side by side
-----------------------------------------------------------------------------------------

section
variable {α β γ : Type} {beside : β → γ → Prop} {items : List α}

/-- What stands side by side for each item does for all of them, by induction on the items. -/
theorem forall₂_flatMap {entries : α → List β} {texts : α → List γ}
    (each : ∀ item ∈ items, List.Forall₂ beside (entries item) (texts item))
    : List.Forall₂ beside (items.flatMap entries) (items.flatMap texts) := by
  induction items with
  | nil => exact .nil
  | cons item rest ih =>
      rw [List.flatMap_cons, List.flatMap_cons]
      exact List.rel_append (each item List.mem_cons_self)
        (ih fun other member => each other (List.mem_cons_of_mem item member))

theorem flatMap_filter {kept : α → Bool} {entries : α → List β}
    : (items.filter kept).flatMap entries
      = items.flatMap fun item => if kept item then entries item else [] := by
  induction items with
  | nil => rfl
  | cons item rest ih =>
      rw [List.flatMap_cons, ← ih]
      cases out : kept item <;> simp [out]

end

-----------------------------------------------------------------------------------------
-- Entries
-----------------------------------------------------------------------------------------

/-- What the section of fields of a schema document is made of. -/
inductive SchemaEntry where
  | field (field : Field)
  | argument (level : Nat) (argument : Field)
  | ending
  | value (value : EnumValue)

/-- The entries of a field: it ends behind those of its arguments that are kept. -/
def Field.schemaEntries (field : Field) : List SchemaEntry :=
  .field field :: (field.keptArguments.map (SchemaEntry.argument 2) ++ [.ending])

def Subject.schemaEntries (subject : Subject) : List SchemaEntry :=
  subject.keptFields.flatMap Field.schemaEntries
    ++ (subject.type.enumValues.filter fun value => !value.isDeprecated).map SchemaEntry.value
    ++ ((subject.type.inputFields.getD []).filter (Field.isKeptArgument false)).map
      (SchemaEntry.argument 1)

inductive Plan.Writes (plan : Plan) : SchemaEntry → String → Prop where
  | field {field : Field} {resolved : Resolved} {text : String}
      (resolves : Resolved.ofField plan.classified field = .ok resolved)
      (made : Contribution.fieldLines plan field resolved = .ok text)
    : plan.Writes (.field field) text
  | argument {level : Nat} {argument : Field} {resolved : Resolved} {text : String}
      (resolves : Resolved.ofField plan.classified argument = .ok resolved)
      (made : Contribution.argumentLine plan level argument resolved = .ok text)
    : plan.Writes (.argument level argument) text
  | ending : plan.Writes .ending (indent 1 "end\n")
  | value {value : EnumValue} {description : Option String}
      (described : value.description.asTextIfAny = .ok description)
    : plan.Writes (.value value)
        (indent 1 ("value '" ++ value.name.display ++ "', ") ++ Ruby.description description)

theorem Steps.placed_reference {kind : DocumentKind} {place : Section} (target : String)
    (rest : Steps)
    : Steps.placed kind place (.ok (.reference target) :: rest) = Steps.placed kind place rest :=
  rfl

theorem Steps.placed_flatMap {α : Type} {kind : DocumentKind} {place : Section} (items : List α)
    (steps : α → Steps)
    : Steps.placed kind place (items.flatMap steps)
      = items.flatMap fun item => Steps.placed kind place (steps item) := by
  unfold Steps.placed
  rw [List.filterMap_flatMap, List.filterMap_flatMap]

namespace Contribution

variable {plan : Plan} {subject : Subject} {argument field : Field} {isConnection : Bool}
variable {level : Nat}

/-- An argument is kept when it is decided that it is not left out. -/
theorem isKeptArgument_of_isLeftOut {out : Bool}
    (decided : isLeftOut isConnection argument = .ok out)
    : argument.isKeptArgument isConnection = !out := by
  unfold isLeftOut at decided
  unfold Field.isKeptArgument
  split at decided
  case isTrue deprecated =>
    cases decided
    simp [deprecated]
  case isFalse current =>
    rw [Bool.not_eq_true] at current
    split at decided
    case isTrue plain =>
      cases decided
      simp at plain
      simp [current, plain]
    case isFalse connection =>
      split at decided
      · cases decided
      · cases decided
        simp at connection
        simp [current, connection]

/-- An argument that is kept has its text. -/
theorem writes_ofKeptArgument (made : (ofKeptArgument plan subject level argument).AreMade)
    : List.Forall₂ plan.Writes [.argument level argument]
        (Steps.placed .schema .fields (ofKeptArgument plan subject level argument)) := by
  obtain ⟨resolved, text, resolves, shown, parts⟩ := ofKeptArgument_of_areMade made
  rw [parts, Steps.placed_reference, Steps.placed_fragment_schema, if_pos rfl]
  exact .cons (.argument resolves shown) .nil

theorem writes_ofArgument (made : (ofArgument plan subject level isConnection argument).AreMade)
    : List.Forall₂ plan.Writes
        (if argument.isKeptArgument isConnection then [.argument level argument] else [])
        (Steps.placed .schema .fields
          (ofArgument plan subject level isConnection argument)) := by
  unfold ofArgument at made ⊢
  split at made
  case h_1 => exact nomatch made _ (List.mem_singleton_self _)
  case h_2 out =>
    rw [isKeptArgument_of_isLeftOut out]
    exact .nil
  case h_3 stays =>
    rw [isKeptArgument_of_isLeftOut stays]
    exact writes_ofKeptArgument made

/-- The arguments that are kept have their texts in order. -/
theorem writes_arguments {arguments : List Field}
    (made : Steps.AreMade (arguments.flatMap (ofArgument plan subject level isConnection)))
    : List.Forall₂ plan.Writes
        ((arguments.filter (Field.isKeptArgument isConnection)).map (SchemaEntry.argument level))
        (Steps.placed .schema .fields
          (arguments.flatMap (ofArgument plan subject level isConnection))) := by
  rw [Steps.placed_flatMap, List.map_eq_flatMap, flatMap_filter]
  exact forall₂_flatMap fun argument member =>
    writes_ofArgument fun step among => made step (List.mem_flatMap.mpr ⟨argument, member, among⟩)

/-- A field that is kept has its texts around those of its arguments. -/
theorem writes_ofKeptField {isShown : Bool}
    (made : (ofKeptField plan subject isShown field).AreMade)
    : List.Forall₂ plan.Writes field.schemaEntries
        (Steps.placed .schema .fields (ofKeptField plan subject isShown field)) := by
  obtain ⟨resolved, text, name, names, resolves, shown, -, parts⟩ := ofKeptField_of_areMade made
  rw [parts] at made ⊢
  simp only [Steps.AreMade, List.forall_mem_append] at made
  obtain ⟨⟨⟨⟨⟨-, arguments⟩, -⟩, -⟩, -⟩, -⟩ := made
  obtain ⟨-, -, -, named⟩ := Resolved.exists_of_ofField resolves
  have connection : resolved.isConnection = field.returnsConnection := congrArg Prod.snd named
  rw [connection] at arguments
  have elsewhere {kind : DocumentKind} {text : Except Error String} (other : kind ≠ .schema)
      : Steps.placed .schema .fields (subject.fragment kind .fields text) = [] :=
    Steps.placed_fragment_of_ne fun same => absurd same other
  have listed : Steps.placed .schema .fields [.ok (.listed name names)] = [] := rfl
  simp only [Steps.placed_append, Steps.placed_reference, Steps.placed_fragment_schema, if_pos,
    listed, connection, List.append_nil]
  rw [elsewhere (by simp), elsewhere (by simp), List.append_nil, List.append_nil,
    List.append_assoc]
  exact .cons (.field resolves shown)
    (List.rel_append (writes_arguments arguments) (.cons .ending .nil))

theorem writes_ofField {position : Nat} (made : (ofField plan subject field position).AreMade)
    : List.Forall₂ plan.Writes
        (if !isFieldLeftOut subject field then field.schemaEntries else [])
        (Steps.placed .schema .fields (ofField plan subject field position)) := by
  unfold ofField at made ⊢
  cases out : isFieldLeftOut subject field with
  | true => exact .nil
  | false =>
      rw [out] at made
      exact writes_ofKeptField made

/-- The fields that are kept have their texts in order. -/
theorem writes_ofFields (made : (ofFields plan subject).AreMade)
    : List.Forall₂ plan.Writes (subject.keptFields.flatMap Field.schemaEntries)
        (Steps.placed .schema .fields (ofFields plan subject)) := by
  unfold ofFields at made ⊢
  have positions : subject.type.fields.getD [] = (subject.type.fields.getD []).zipIdx.map Prod.fst :=
    (List.zipIdx_map_fst 0 _).symm
  rw [subject.keptFields_eq, Steps.placed_flatMap, flatMap_filter]
  conv => arg 2; rw [positions, List.flatMap_map]
  exact forall₂_flatMap fun entry member =>
    writes_ofField fun step among => made step (List.mem_flatMap.mpr ⟨entry, member, among⟩)

/-- The values that are kept have their texts in order. -/
theorem writes_values
    (made : Steps.AreMade (subject.type.enumValues.flatMap (ofEnumValue subject)))
    : List.Forall₂ plan.Writes
        ((subject.type.enumValues.filter fun value => !value.isDeprecated).map SchemaEntry.value)
        (Steps.placed .schema .fields
          (subject.type.enumValues.flatMap (ofEnumValue subject))) := by
  rw [Steps.placed_flatMap, List.map_eq_flatMap, flatMap_filter]
  refine forall₂_flatMap fun value member => ?_
  have here : (ofEnumValue subject value).AreMade := fun step among =>
    made step (List.mem_flatMap.mpr ⟨value, member, among⟩)
  unfold ofEnumValue at here ⊢
  cases out : value.isDeprecated with
  | true => exact .nil
  | false =>
      rw [out] at here
      obtain ⟨text, shown⟩ := here.exists_text subject.hasDocument_schema
      simp only [Bool.not_false, if_true, Bool.false_eq_true, if_false]
      rw [shown, Steps.placed_fragment_schema, if_pos rfl]
      obtain ⟨description, described, same⟩ := bind_eq_ok.mp shown
      obtain rfl := Except.ok.inj same
      exact .cons (.value described) .nil

/-- Members of a union stand in a section of their own. -/
theorem placed_fields_ofMembers
    : Steps.placed .schema .fields (ofMembers plan subject) = [] := by
  apply Steps.All.placed_eq_nil
  intro contribution made
  cases isOfMembers contribution made with
  | declaration | list => rfl

theorem placed_fields_ofClosing : Steps.placed .schema .fields (ofClosing subject) = [] := by
  apply Steps.All.placed_eq_nil
  intro contribution made
  cases isOfClosing contribution made with
  | schema | implementation | spec => simp [placed?]

end Contribution

-----------------------------------------------------------------------------------------
-- Documents
-----------------------------------------------------------------------------------------

section
variable {plan : Plan} {subject : Subject} {graph : DependencyGraph}

/-- Outside its preamble a schema document holds what the steps of its type place. -/
theorem Subject.fragments_eq_placed {place : Section} (outside : place ≠ .preamble)
    : (subject.documents plan graph).schema.fragments place
      = Steps.placed .schema place (Contribution.ofSubject plan subject) :=
  Subject.fragments_of_document? rfl fun same => absurd same outside

/-- The texts in the section of fields stand side by side with the entries of the type. -/
theorem Contribution.IsWhole.writes (whole : Contribution.IsWhole plan subject)
    : List.Forall₂ plan.Writes subject.schemaEntries
        ((subject.documents plan graph).schema.fragments .fields) := by
  have parts : Contribution.ofSubject plan subject
      = subject.type.interfaces.flatMap (Contribution.ofInterface plan subject)
          ++ Contribution.ofHeaders plan subject
          ++ Contribution.ofFields plan subject
          ++ Contribution.ofMembers plan subject
          ++ subject.type.enumValues.flatMap (Contribution.ofEnumValue subject)
          ++ (subject.type.inputFields.getD []).flatMap
            (Contribution.ofArgument plan subject 1 false)
          ++ Contribution.ofClosing subject :=
    rfl
  unfold Contribution.IsWhole at whole
  rw [parts] at whole
  simp only [List.forall_mem_append] at whole
  obtain ⟨⟨⟨⟨-, fields⟩, -⟩, values⟩, inputs⟩ := whole.1
  rw [Subject.fragments_eq_placed (by simp), parts]
  simp only [Steps.placed_append]
  rw [Contribution.placed_interfaces_of_ne (by simp), Contribution.placed_ofHeaders_of_ne (by simp),
    Contribution.placed_fields_ofMembers, Contribution.placed_fields_ofClosing, List.nil_append,
    List.nil_append, List.append_nil, List.append_nil]
  exact List.rel_append
    (List.rel_append (Contribution.writes_ofFields fields) (Contribution.writes_values values))
    (Contribution.writes_arguments inputs)

end

-----------------------------------------------------------------------------------------
-- Rendered documents
-----------------------------------------------------------------------------------------

/-- A text is a part of another on lines of its own, between what stands in front and behind. -/
structure Text.StandsBetween (front text back whole : String) : Prop where
  whole_eq : whole = front ++ text ++ back
  opens : front = "" ∨ ∃ above, front = above ++ "\n"
  closes : back = "" ∨ ∃ below, back = "\n" ++ below

/-- Each of some texts one below the other stands on lines of its own. -/
theorem Text.exists_standsBetween {text : String} {texts : List String} (member : text ∈ texts)
    : ∃ front back, StandsBetween front text back ("\n".intercalate texts) := by
  obtain ⟨front, back, same, opens, closes⟩ := exists_intercalate_eq "\n" member
  exact ⟨front, back, same, opens, closes⟩

/-- A text of a document stands in the rendered document. -/
theorem Document.exists_standsBetween {document : Document} {place : Section} {text : String}
    (member : text ∈ document.fragments place) (filled : text.isEmpty = false)
    : ∃ front back, StandsBetween front text back document.render := by
  apply Text.exists_standsBetween
  refine List.mem_filter.mpr ⟨List.mem_flatMap.mpr ⟨place, ?_, member⟩, by simp [filled]⟩
  cases place <;> decide

namespace Job

variable {job : Job} {draft : Draft} {generation : Generation}

/-- The schema document of a type of a run is the content of a file, but for headers, and has the
texts of the entries of the type.
-/
theorem exists_schemaDocument (drafted : job.draft.outcome = .ok draft)
    (built : job.build.outcome = .ok generation) {subject : Subject}
    (member : subject ∈ job.subjects draft.plan)
    : ∃ document,
        draft.schemaDocument? subject.mapping.targetName = some document
        ∧ List.Forall₂ draft.plan.Writes subject.schemaEntries (document.fragments .fields)
        ∧ ∃ file ∈ generation.files,
            file.path
                = job.settings.libDir ++ "/schema/" ++ Naming.filePath subject.mapping.targetName
                  ++ ".rb"
              ∧ file.content = job.hooks.applyHeaders file.path document.render := by
  have stages := draft_eq_ok_iff.mp drafted
  have whole := Progress.isWhole_of_performSubjects (congrArg Prod.snd stages.performed) _ member
  obtain ⟨earlier, later, split⟩ := List.append_of_mem member
  exact ⟨_, stages.schemaDocument?_eq stages.nodup_targets split, whole.writes,
    exists_file_of_subject drafted built split⟩

end Job

end RubySchema
