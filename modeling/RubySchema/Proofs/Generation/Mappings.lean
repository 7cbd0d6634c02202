import RubySchema.Proofs.Generation.Encoding
import RubySchema.Proofs.Generation.Manifest
import RubySchema.Proofs.Generation.Reordering

/-!
The mappings of a schema in the order of their names. They are those of the types that a run
generates, each once, whatever the order of the types in the schema; and they depend on the settings
only in what these say of built-in types and base classes.
-/

namespace RubySchema

namespace Classified

def own? (classified : Classified) (name : String) : Option NameMapping :=
  (classified.get? name).filter fun mapping => !mapping.isBuiltin

/-- The mappings other than those of built-in types, in the order of their names. -/
def listed (classified : Classified) : List NameMapping :=
  (sortTexts classified.mappings.names).filterMap classified.own?

/-- Mappings that are not those of built-in types carry their names. -/
def IsNamed (classified : Classified) : Prop :=
  ∀ name mapping, classified.own? name = some mapping → mapping.schemaName = name

theorem own?_eq_some_iff {classified : Classified} {name : String} {mapping : NameMapping}
    : classified.own? name = some mapping
      ↔ classified.get? name = some mapping ∧ mapping.isBuiltin = false := by
  rw [own?, Option.filter_eq_some_iff, Bool.not_eq_true']

/-- Mappings are listed as they are when their names are in order. -/
theorem listed_of_pairwise {classified : Classified}
    (sorted : classified.mappings.names.Pairwise fun first second => textLe first second = true)
    : classified.listed = classified.mappings.names.filterMap classified.own? := by
  rw [listed, sortTexts, List.mergeSort_of_pairwise sorted]

/-- Listed mappings stand in the order of their names. -/
theorem IsNamed.pairwise_listed {classified : Classified} (named : classified.IsNamed)
    : classified.listed.Pairwise fun first second =>
        textLe first.schemaName second.schemaName = true := by
  have sorted : (sortTexts classified.mappings.names).Pairwise fun first second =>
      textLe first second = true :=
    List.pairwise_mergeSort textLe_trans textLe_total _
  refine sorted.filterMap _ fun first second le mapping found other found' => ?_
  rw [named first mapping found, named second other found']
  exact le

/-- No two listed mappings carry one name. -/
theorem IsNamed.nodup_listed {classified : Classified} (named : classified.IsNamed)
    (unique : classified.mappings.names.Nodup)
    : (classified.listed.map NameMapping.schemaName).Nodup := by
  have apart : (sortTexts classified.mappings.names).Pairwise (· ≠ ·) :=
    (List.mergeSort_perm _ _).nodup_iff.mpr unique
  rw [List.Nodup, List.pairwise_map]
  refine apart.filterMap _ fun first second different mapping found other found' => ?_
  rw [named first mapping found, named second other found']
  exact different

end Classified

namespace Job

variable {settings plain : Settings} {builtins : List String} {types others : List TypeDef}
  {classified other : Classified}

/-- Types that have been placed carry their names. -/
theorem isNamed_withPlaces {start : Registry} (only : start.OnlyBuiltins)
    (entries : List (String × TypeDef)) : (start.withPlaces entries).finalize.IsNamed := by
  intro name mapping own
  obtain ⟨found, notBuiltin⟩ := Classified.own?_eq_some_iff.mp own
  obtain ⟨type, -, rfl⟩ := Registry.exists_of_get?_withPlaces only found notBuiltin
  rfl

/-- Types that have been classified carry their names. -/
theorem isNamed_of_classify {reference : Reference} {schema : Schema}
    (classifies : (classify reference settings schema).outcome = .ok classified)
    : classified.IsNamed := by
  obtain ⟨builtins, -, -, -, rfl⟩ := classify_eq_ok_iff.mp classifies
  exact isNamed_withPlaces (onlyBuiltins_startRegistry settings builtins) _

theorem Placed.isNamed (placed : Placed (startRegistry settings builtins) types classified)
    : classified.IsNamed := by
  rw [placed.classified_eq]
  exact isNamed_withPlaces placed.only _

/-- The names with mappings are those of built-in types, and behind them those of kept types. -/
theorem Placed.names_eq (placed : Placed (startRegistry settings builtins) types classified)
    : classified.mappings.names
      = (startRegistry settings builtins).mappings.names
          ++ ((startRegistry settings builtins).kept types).map Prod.fst := by
  rw [placed.classified_eq]
  show ((startRegistry settings builtins).mappings ++ _).map Prod.fst = _
  rw [List.map_append, List.map_map]
  rfl

/-- Types that have been placed, and built-in types, have one mapping to a name. -/
theorem Placed.nodup_names (placed : Placed (startRegistry settings builtins) types classified)
    : classified.mappings.names.Nodup := by
  rw [placed.names_eq, List.nodup_append]
  refine ⟨nodup_startRegistry settings builtins, placed.unique, ?_⟩
  rintro name known _ among rfl
  obtain ⟨entry, keeps, rfl⟩ := List.mem_map.mp among
  exact Table.get?_eq_none_iff.mp (Registry.get?_eq_none_of_mem_kept placed.only keeps) known

/-- What is listed of types that have been placed is their places. -/
theorem Placed.listed_perm (placed : Placed (startRegistry settings builtins) types classified)
    : classified.listed.Perm
        (((startRegistry settings builtins).kept types).map
          (startRegistry settings builtins).place) := by
  let start := startRegistry settings builtins
  have unlisted : start.mappings.names.filterMap classified.own? = [] := by
    refine List.filterMap_eq_nil_iff.mpr fun name known => ?_
    obtain ⟨entry, member, rfl⟩ := List.mem_map.mp known
    have builtin : classified.get? entry.1 = some entry.2 := by
      have found : start.get? entry.1 = some entry.2 :=
        (Table.get?_eq_some_iff (nodup_startRegistry settings builtins)).mpr member
      rw [placed.classified_eq]
      show (start.withPlaces _).get? entry.1 = _
      rw [Registry.get?_withPlaces, found, Option.some_or]
    rw [Classified.own?, builtin, (mem_startRegistry member).2]
    rfl
  have own : ∀ entry ∈ start.kept types, classified.own? entry.1 = some (start.place entry) := by
    intro entry keeps
    refine Classified.own?_eq_some_iff.mpr ⟨?_, Registry.place_isBuiltin start entry⟩
    rw [placed.classified_eq]
    exact Registry.get?_of_mem placed.unique
      (Registry.get?_eq_none_of_mem_kept placed.only keeps) keeps
  have places : classified.mappings.names.filterMap classified.own?
      = (start.kept types).map start.place := by
    rw [placed.names_eq, List.filterMap_append, unlisted, List.nil_append, List.filterMap_map]
    exact (List.filterMap_congr own).trans (congrFun List.filterMap_eq_map' _)
  rw [← places]
  exact (List.mergeSort_perm _ _).filterMap _

/-- What is listed of a schema does not depend on the order of its types. -/
theorem Placed.listed_eq (placed : Placed (startRegistry settings builtins) types classified)
    (otherPlaced : Placed (startRegistry settings builtins) others other)
    (perm : types.Perm others) : classified.listed = other.listed := by
  let start := startRegistry settings builtins
  have kept : (start.kept types).Perm (start.kept others) := perm.filterMap _
  have same : classified.listed.Perm other.listed :=
    (placed.listed_perm.trans (kept.map start.place)).trans otherPlaced.listed_perm.symm
  have named := placed.isNamed
  have unique := named.nodup_listed placed.nodup_names
  refine same.eq_of_pairwise (fun first second member otherMember le ge => ?_)
    named.pairwise_listed otherPlaced.isNamed.pairwise_listed
  exact List.inj_on_of_nodup_map unique member (same.mem_iff.mpr otherMember)
    (textLe_antisymm _ _ le ge)

/-- The mappings of the types that a run generates are listed, and no others. -/
theorem Stages.listed_perm {job : Job} {draft : Draft} (stages : job.Stages draft)
    : draft.plan.classified.listed.Perm
        ((job.subjects draft.plan).map Subject.mapping) := by
  obtain ⟨builtins, -, placed⟩ := stages.exists_placed
  rw [map_subjects job draft.plan fun _ mapping => mapping, placed.subjects_eq, List.map_map]
  exact placed.listed_perm

/-- Settings that say the same of built-in types and of base classes start alike. -/
theorem startRegistry_congr (namespaceSame : plain.builtinNamespace = settings.builtinNamespace)
    (overridesSame : plain.baseTypeOverrides = settings.baseTypeOverrides)
    : startRegistry plain builtins = startRegistry settings builtins := by
  unfold startRegistry
  rw [namespaceSame, overridesSame]

/-- References to one place find the same built-in types, however the place is given. -/
theorem builtinNames_of_root {reference : Reference} {names : List String} (root : String)
    (found : reference.builtinNames = .ok names)
    : { reference with root }.builtinNames = .ok names := by
  unfold Reference.builtinNames at found ⊢
  obtain ⟨declared, read, found⟩ := bind_eq_ok.mp found
  refine bind_eq_ok.mpr ⟨declared, read, ?_⟩
  split at found
  case isTrue => cases found
  case isFalse filled => exact (if_neg filled).trans found

/-- Types that have been classified in a run are classified alike under settings that say the same
of built-in types and of base classes, however the place of the reference is given.
-/
theorem classify_of_root {reference : Reference} {schema : Schema} (root : String)
    (namespaceSame : plain.builtinNamespace = settings.builtinNamespace)
    (overridesSame : plain.baseTypeOverrides = settings.baseTypeOverrides)
    (classifies : (classify reference settings schema).outcome = .ok classified)
    : (classify { reference with root } plain schema).outcome = .ok classified := by
  obtain ⟨builtins, found, placed⟩ := classify_eq_ok_iff.mp classifies
  rw [← startRegistry_congr namespaceSame overridesSame] at placed
  exact classify_eq_ok_iff.mpr ⟨builtins, builtinNames_of_root root found, placed⟩

/-- A schema of distinct names that can be classified can be in another order of its types, and then
the same is listed.
-/
theorem exists_classify_of_perm {reference : Reference} {first second : Schema}
    (perm : first.types.Perm second.types) (distinct : (first.types.map TypeDef.name).Nodup)
    (classifies : (classify reference settings first).outcome = .ok classified)
    : ∃ other,
        (classify reference settings second).outcome = .ok other
        ∧ classified.listed = other.listed := by
  obtain ⟨builtins, found, placed⟩ :=
    exists_placed classifies fun _ _ _ => List.nodup_iff_count_le_one.mp distinct _
  have otherPlaced := placed.reordered perm ((perm.map TypeDef.name).nodup_iff.mp distinct)
  refine ⟨_, classify_eq_ok_iff.mpr ⟨builtins, found, otherPlaced.texts, ?_, ?_⟩,
    placed.listed_eq otherPlaced perm⟩
  · rw [Registry.firsts_eq_self otherPlaced.unique]
    exact otherPlaced.apart
  · rw [Registry.firsts_eq_self otherPlaced.unique]

-----------------------------------------------------------------------------------------
-- Mappings and results
-----------------------------------------------------------------------------------------

/-- Mappings tell which schema definitions a run has in its result, and what they define. -/
structure Tells (job : Job) (draft : Draft) (generation : Generation)
    (mappings : List NameMapping) : Prop where
  /-- Every file is there for something, among which is one definition for each type of the run. -/
  files
    : ∃ bare,
        List.Forall₂ (FileRole.Matches draft) (roles (job.subjects draft.plan)) bare
        ∧ generation.files
          = bare.map fun file =>
              { file with content := job.hooks.applyHeaders file.path file.content }
  /-- The types of the run are types of the schema, under their names. -/
  types
    : ∀ subject ∈ job.subjects draft.plan,
        subject.type ∈ job.schema.types
        ∧ subject.type.name = .string subject.mapping.schemaName
  /-- The header of a definition is the page for the generated name and the base of the mapping. -/
  headers
    : ∀ subject ∈ job.subjects draft.plan,
        ∃ document page,
          draft.schemaDocument? subject.mapping.targetName = some document
          ∧ draft.plan.render (.schemaHeader subject.mapping subject.type.description) = .ok page
          ∧ document.fragments .header = [page]
  /-- The mappings are those of the types of the run, each once. -/
  exact : mappings.Perm ((job.subjects draft.plan).map Subject.mapping)
  distinct : (mappings.map NameMapping.schemaName).Nodup
  /-- They stand in the order of the names in the schema. -/
  sorted
    : mappings.Pairwise fun first second =>
        textLe first.schemaName second.schemaName = true

section
variable {job : Job} {draft : Draft} {generation : Generation}

/-- Without filters the plan is made from the schema as it is. -/
theorem Stages.schema_eq_of_unfiltered (stages : job.Stages draft)
    (unfiltered : job.hooks.filters = []) : draft.plan.schema = job.schema := by
  have filtered := stages.filtered
  rw [Hooks.applyFilters, unfiltered] at filtered
  exact (Except.ok.inj filtered).symm

/-- What is listed of the types of a run without filters tells of its result. -/
theorem tells_of_build (unfiltered : job.hooks.filters = [])
    (drafted : job.draft.outcome = .ok draft) (built : job.build.outcome = .ok generation)
    : job.Tells draft generation draft.plan.classified.listed := by
  have stages := draft_eq_ok_iff.mp drafted
  obtain ⟨other, files, otherDrafted, made, rfl⟩ := build_eq_ok_iff.mp built
  obtain rfl := Except.ok.inj (drafted.symm.trans otherDrafted)
  obtain ⟨builtins, -, placed⟩ := stages.exists_placed
  have schemaSame := stages.schema_eq_of_unfiltered unfiltered
  refine {
    files := ⟨files, stages.forall₂_files made, rfl⟩
    types := fun subject member => ?_
    headers := fun subject member => ?_
    exact := stages.listed_perm
    distinct := placed.isNamed.nodup_listed placed.nodup_names
    sorted := placed.isNamed.pairwise_listed
  }
  · obtain ⟨among, name, named, found, own⟩ := exists_of_mem_subjects member
    have same := placed.isNamed name _ (Classified.own?_eq_some_iff.mpr ⟨found, own⟩)
    exact ⟨schemaSame ▸ among, named.trans (congrArg Json.string same.symm)⟩
  · obtain ⟨earlier, later, split⟩ := List.append_of_mem member
    obtain ⟨page, rendered, opened⟩ :=
      stages.exists_header member (draft.plan.graphOf earlier)
    exact ⟨_, page, stages.schemaDocument?_eq stages.nodup_targets split, rendered, opened⟩

/-- The names in mappings that tell of a result have no half if its files have none and definitions
have the header of the package.
-/
theorem Tells.hasHalf_eq {mappings : List NameMapping} {mapping : NameMapping}
    (tells : job.Tells draft generation mappings) (templates : draft.plan.templates = job.templates)
    (standard : Table.get? job.templates "schema_header.rb.j2" = none)
    (whole : ∀ file ∈ generation.files, file.isEditable = false → Text.hasHalf file.content = false)
    (member : mapping ∈ mappings)
    : Text.hasHalf mapping.schemaName = false
      ∧ Text.hasHalf mapping.targetName = false
      ∧ Text.hasHalf (mapping.baseType.getD "None") = false := by
  obtain ⟨subject, generated, rfl⟩ := List.mem_map.mp (tells.exact.mem_iff.mp member)
  obtain ⟨document, page, found, rendered, opened⟩ := tells.headers subject generated
  obtain ⟨bare, beside, files⟩ := tells.files
  have role : FileRole.ofType subject .schema ∈ roles (job.subjects draft.plan) := by
    refine List.mem_append_left _ (List.mem_append_left _ (List.mem_flatMap.mpr ?_))
    exact ⟨subject, generated, List.mem_cons_self⟩
  obtain ⟨file, among, -, editable, artifacts, own, known, kind, text⟩ :=
    exists_of_forall₂ beside role
  obtain rfl : own = document := by
    rw [Draft.schemaDocument?, known] at found
    cases kind
    exact Option.some.inj found
  have written := whole { file with content := job.hooks.applyHeaders file.path file.content }
    (files ▸ List.mem_map.mpr ⟨file, among, rfl⟩) editable
  have content : Text.hasHalf own.render = false :=
    text ▸ Hooks.hasHalf_of_applyHeaders written
  have header := Document.hasHalf_of_render content (opened ▸ List.mem_singleton_self page)
  have usual : Table.get? draft.plan.templates "schema_header.rb.j2" = none := templates ▸ standard
  unfold Plan.render Page.render at rendered
  rw [Page.templateName, usual] at rendered
  obtain ⟨description, -, same⟩ := bind_eq_ok.mp rendered
  cases same
  exact Page.hasHalf_schemaHeaderText header

end

end Job

end RubySchema
