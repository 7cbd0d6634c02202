import RubySchema.Proofs.Example.Texts
import RubySchema.Proofs.Generation.Interfaces
import RubySchema.Proofs.Generation.References

/-!
The header of the schema document of a type opens as a declaration of the type does. A declaration
finds the type by its generated name, a definition is made from the mapping itself; built-in types
are mapped before all others and places of types differ, so that the generated name leads back to
the mapping.
-/

namespace RubySchema

/-- How a type's name is introduced: as that of a module, or of a class with its base. -/
def NameMapping.opening (mapping : NameMapping) (schemaNamespace : String) : String :=
  let constant := schemaNamespace ++ "::" ++ mapping.targetName
  if mapping.isInterface then "module " ++ constant
  else "class " ++ constant ++ " < " ++ schemaNamespace ++ "::" ++ mapping.baseType.getD "None"

/-- A declaration and a header introduce a type in the same way; there the declaration ends, and the
header goes on in the next line.
-/
structure NameMapping.Introduces (mapping : NameMapping)
    (schemaNamespace declaration header : String) : Prop where
  declared : declaration = mapping.opening schemaNamespace ++ "; end\n"
  defined : ∃ rest, header = mapping.opening schemaNamespace ++ "\n" ++ rest

-----------------------------------------------------------------------------------------
-- From generated names back to mappings
-----------------------------------------------------------------------------------------

/-- The generated name of a type that has been placed leads to its place, even if a built-in type
has the same name.
-/
theorem Registry.byTarget?_place {start : Registry} {done : List (String × TypeDef)}
    {entry : String × TypeDef}
    (apart : (done.map fun other => (start.place other).targetName).Nodup) (member : entry ∈ done)
    : (start.withPlaces done).finalize.byTarget? (start.place entry).targetName
      = some (start.place entry) := by
  rw [byTarget?_withPlaces]
  let places := (done.map start.place).reverse
  have here : start.place entry ∈ places :=
    List.mem_reverse.mpr (List.mem_map.mpr ⟨entry, member, rfl⟩)
  cases found : places.find? fun mapping => mapping.targetName == (start.place entry).targetName
    with
  | none => exact absurd (beq_self_eq_true _) (List.find?_eq_none.mp found _ here)
  | some mapping =>
      have named := List.find?_some found
      obtain ⟨other, among, rfl⟩ :=
        List.mem_map.mp (List.mem_reverse.mp (List.mem_of_find?_eq_some found))
      obtain rfl : other = entry := List.inj_on_of_nodup_map apart among member (eq_of_beq named)
      rfl

/-- Once a schema is classified, the generated name of each type leads to its mapping. -/
theorem Job.byTarget?_of_classify {reference : Reference} {settings : Settings} {schema : Schema}
    {classified : Classified} {name : String} {mapping : NameMapping}
    (classifies : (classify reference settings schema).outcome = .ok classified)
    (found : classified.get? name = some mapping) (own : mapping.isBuiltin = false)
    : classified.byTarget? mapping.targetName = some mapping := by
  obtain ⟨builtins, -, -, apart, rfl⟩ := classify_eq_ok_iff.mp classifies
  obtain ⟨type, member, rfl⟩ :=
    Registry.exists_of_get?_withPlaces (onlyBuiltins_startRegistry settings builtins) found own
  exact Registry.byTarget?_place apart member

-----------------------------------------------------------------------------------------
-- Openings
-----------------------------------------------------------------------------------------

theorem ForwardDeclaration.text_eq {classified : Classified} {mapping : NameMapping}
    (found : classified.byTarget? mapping.targetName = some mapping) (schemaNamespace : String)
    : text classified schemaNamespace mapping.targetName
      = mapping.opening schemaNamespace ++ "; end\n" := by
  rw [text, found]
  dsimp only
  unfold NameMapping.opening
  split <;> rfl

theorem Page.exists_schemaHeaderText_eq (modules : Modules) (mapping : NameMapping)
    (description : String)
    : ∃ rest,
        schemaHeaderText modules mapping description
        = mapping.opening modules.schemaNamespace ++ "\n" ++ rest := by
  let base := modules.schemaNamespace ++ "::" ++ mapping.baseType.getD "None"
  let naming := "  graphql_name '" ++ mapping.schemaName ++ "'\n  description " ++ description
  unfold schemaHeaderText NameMapping.opening
  dsimp only
  cases mapping.isInterface with
  | true =>
      refine ⟨"  include ::" ++ base ++ "\n" ++ naming, ?_⟩
      have included : "\n  include ::" = "\n" ++ "  include ::" := by simp
      simp only [if_true, included, base, naming, String.append_assoc]
  | false =>
      refine ⟨naming, ?_⟩
      simp only [Bool.false_eq_true, if_false, naming, String.append_assoc]

/-- Without templates of one's own a header and the declaration introduce a type in the same way. -/
theorem Page.introduces_of_render {modules : Modules} {classified : Classified}
    {mapping : NameMapping} {description : Json} {header : String}
    (found : classified.byTarget? mapping.targetName = some mapping)
    (rendered : Page.render [] modules (.schemaHeader mapping description) = .ok header)
    : mapping.Introduces modules.schemaNamespace
        (ForwardDeclaration.text classified modules.schemaNamespace mapping.targetName) header := by
  obtain ⟨text, -, same⟩ := bind_eq_ok.mp rendered
  cases same
  exact ⟨ForwardDeclaration.text_eq found _, exists_schemaHeaderText_eq _ _ _⟩

namespace Job

variable {job : Job} {draft : Draft}

/-- A mapping that is not that of a built-in type is that of a type of the run. -/
theorem Stages.exists_subject (stages : job.Stages draft) {name : String} {mapping : NameMapping}
    (found : draft.plan.classified.get? name = some mapping) (own : mapping.isBuiltin = false)
    : ∃ subject ∈ job.subjects draft.plan, subject.mapping = mapping := by
  obtain ⟨builtins, -, placed⟩ := stages.exists_placed
  obtain ⟨type, keeps, rfl⟩ := placed.exists_of_get? found own
  have mappings
      : (startRegistry job.settings builtins).place (name, type)
        ∈ (job.subjects draft.plan).map Subject.mapping := by
    rw [map_subjects job draft.plan fun _ mapping => mapping, placed.subjects_eq, List.map_map]
    exact List.mem_map.mpr ⟨(name, type), keeps, rfl⟩
  exact List.mem_map.mp mappings

/-- Without templates of one's own, each type of each schema that is classified has one way to be
introduced: its header can be made when its description is a text or null, and every header that is
made, and every declaration, introduces the type so. In a run that comes to documents, this is the
header of the type's own schema document.
-/
theorem headers_match_declarations {job : Job} (standard : job.templates = [])
    : (∀ schema classified,
        (classify job.reference job.settings schema).outcome = .ok classified
        → ∀ name mapping,
            classified.get? name = some mapping
            → mapping.isBuiltin = false
            → ∀ (modules : Modules) (description : Json),
                (description.IsTextOrNull
                  → Succeeds
                      (Page.render job.templates modules (.schemaHeader mapping description)))
                ∧ ∀ header,
                    Page.render job.templates modules (.schemaHeader mapping description)
                        = .ok header
                    → mapping.Introduces modules.schemaNamespace
                        (ForwardDeclaration.text classified modules.schemaNamespace
                          mapping.targetName)
                        header)
      ∧ ∀ draft,
          job.draft.outcome = .ok draft
          → ∀ name mapping,
              draft.plan.classified.get? name = some mapping
              → mapping.isBuiltin = false
              → ∃ document header,
                  draft.schemaDocument? mapping.targetName = some document
                  ∧ document.fragments .header = [header]
                  ∧ mapping.Introduces draft.plan.modules.schemaNamespace
                      (draft.plan.declaration mapping.targetName) header := by
  refine ⟨?_, ?_⟩
  · intro schema classified classifies name mapping found own modules description
    rw [standard]
    refine ⟨fun text => ?_, fun header rendered => ?_⟩
    · obtain ⟨shown, described⟩ := text.asTextIfAny
      exact ⟨_, bind_eq_ok.mpr ⟨shown, described, rfl⟩⟩
    · exact Page.introduces_of_render (byTarget?_of_classify classifies found own) rendered
  · intro draft drafted name mapping found own
    have stages := draft_eq_ok_iff.mp drafted
    obtain ⟨subject, member, rfl⟩ := stages.exists_subject found own
    obtain ⟨earlier, later, split⟩ := List.append_of_mem member
    obtain ⟨header, rendered, opened⟩ := stages.exists_header member (draft.plan.graphOf earlier)
    refine ⟨_, header, stages.schemaDocument?_eq stages.nodup_targets split, opened, ?_⟩
    have bare : draft.plan.templates = [] := stages.templates.trans standard
    rw [Plan.render, bare] at rendered
    exact Page.introduces_of_render (byTarget?_of_classify stages.classified found own) rendered

/-- An input object whose generated name is that of a built-in type as well. -/
theorem header_matches_declaration_of_shared_target
    : sharedTarget.templates = []
      ∧ ∃ (draft : Draft) (mapping : NameMapping) (document : Document) (header : String),
          sharedTarget.draft.outcome = .ok draft
          ∧ mapping.targetName = "Inputs::ID"
          ∧ draft.schemaDocument? "Inputs::ID" = some document
          ∧ document.fragments .header = [header]
          ∧ mapping.Introduces draft.plan.modules.schemaNamespace
              (draft.plan.declaration "Inputs::ID") header := by
  refine ⟨rfl, ?_⟩
  obtain ⟨draft, drafted, -, targets, -⟩ := draft_sharedTarget
  have among
      : "Inputs::ID"
        ∈ (sharedTarget.subjects draft.plan).map fun subject => subject.mapping.targetName := by
    rw [targets]
    decide
  obtain ⟨subject, member, target⟩ := List.mem_map.mp among
  obtain ⟨-, name, -, found, own⟩ := exists_of_mem_subjects member
  obtain ⟨document, header, shown, opened, introduces⟩ :=
    (headers_match_declarations (rfl : sharedTarget.templates = [])).2 draft drafted name _ found
      own
  rw [target] at shown introduces
  exact ⟨draft, _, document, header, drafted, target, shown, opened, introduces⟩

end Job

end RubySchema
