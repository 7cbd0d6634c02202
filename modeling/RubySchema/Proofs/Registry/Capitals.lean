import RubySchema.Proofs.Generation.Citations
import RubySchema.Proofs.Generation.Matching
import RubySchema.Proofs.Registry.Classification
import RubySchema.Proofs.Registry.FilePaths

/-!
Capitals of generated names. A category leaves a word out at the end of a type's name; what is left
begins like the name, or is a version, unless the name is that word and nothing else. Main
statement: a type with a capitalised name lands at a constant with a file of its own name exactly
when its name is more than the word that its category leaves out.
-/

namespace RubySchema

open Text Ruby

namespace TypeName

-----------------------------------------------------------------------------------------
-- Capitalised names
-----------------------------------------------------------------------------------------

structure IsCapitalised (name : String) : Prop where
  usual : IsGraphQL name
  capital : name.toList.head?.any isCapital = true

instance : DecidablePred IsCapitalised := fun name =>
  decidable_of_iff (IsGraphQL name ∧ name.toList.head?.any isCapital = true)
    ⟨fun both => ⟨both.1, both.2⟩, fun capitalised => ⟨capitalised.usual, capitalised.capital⟩⟩

/-- A type is named by nothing but the word that its category leaves out. -/
inductive IsMereWord (kind : TypeKind) : String → Prop where
  | interface (isInterface : kind = .interface) : IsMereWord kind "Interface"
  | input (noInterface : kind ≠ .interface) : IsMereWord kind "Input"
  | payload (noInterface : kind ≠ .interface) (noInput : kind ≠ .inputObject)
    : IsMereWord kind "Payload"

section
variable {kind : TypeKind} {category : Category} {name stem word : String}

theorem IsMereWord.mem_words (mere : IsMereWord kind name)
    : name ∈ ["Interface", "Input", "Payload"] := by
  cases mere <;> decide

theorem EndsIn.of_append (ends : name = stem ++ word) : EndsIn word name stem :=
  ⟨stem.toList, [], .unnumbered, by simp [ends], by simp⟩

/-- What is left of a capitalised name without a word and a version at its end is capitalised with
the version, unless nothing is left: a version by itself begins with a capital.
-/
theorem EndsIn.capital (ends : EndsIn word name stem)
    (capital : name.toList.head?.any isCapital = true) (more : name ≠ word)
    : stem.toList.head?.any isCapital = true := by
  obtain ⟨front, version, isVersion, spelled, left⟩ := ends
  rw [left]
  cases front with
  | nil =>
      cases isVersion with
      | unnumbered => exact absurd (String.toList_injective (by simpa using spelled)) more
      | numbered => rfl
  | cons c rest =>
      rw [spelled] at capital
      exact capital

/-- The place of a type with a capitalised name is capitalised, unless the name is the word that is
left out. By cases on the rule for the place.
-/
theorem HasPlace.isCapitalised (capitalised : IsCapitalised name)
    (shown : ∀ front, name ≠ front ++ "Connection") (place : HasPlace kind name category stem)
    (more : ¬IsMereWord kind name) : IsCapitalised stem := by
  have usual : IsGraphQL stem := by
    have categorized := capitalised.usual.categorize kind
    rwa [place.categorize_eq capitalised.usual shown] at categorized
  refine ⟨usual, ?_⟩
  cases place with
  | interfaceWord isInterface ends =>
      refine (EndsIn.of_append ends).capital capitalised.capital ?_
      rintro rfl
      exact more (.interface isInterface)
  | inputWord noInterface ends =>
      refine ends.capital capitalised.capital ?_
      rintro rfl
      exact more (.input noInterface)
  | payloadWord noInterface noInput noWord ends =>
      refine ends.capital capitalised.capital ?_
      rintro rfl
      exact more (.payload noInterface noInput)
  | interfaceKind | inputKind | otherwise => exact capitalised.capital

/-- A mere word has its place all to itself: nothing is left of it. -/
theorem IsMereWord.exists_hasPlace (mere : IsMereWord kind name)
    : ∃ category, HasPlace kind name category "" := by
  cases mere with
  | interface isInterface => exact ⟨_, .interfaceWord isInterface rfl⟩
  | input noInterface =>
      exact ⟨_, .inputWord noInterface ⟨[], [], .unnumbered, rfl, rfl⟩⟩
  | payload noInterface noInput =>
      have noWord : ∀ stem, ¬EndsIn "Input" "Payload" stem := by
        intro stem ends
        have cut := (by decide : IsGraphQL "Payload").endsIn_input_iff.mp ends
        rw [(by decide +kernel : withoutWord? "Input".toList "Payload".toList = none)] at cut
        cases cut
      exact ⟨_, .payloadWord noInterface noInput noWord ⟨[], [], .unnumbered, rfl, rfl⟩⟩

/-- No rule makes a type one of the reference library's. -/
theorem HasPlace.ne_builtIn (place : HasPlace kind name category stem) : category ≠ .builtIn := by
  cases place <;> exact Category.noConfusion

/-- Nothing is left of a mere word. -/
theorem HasPlace.eq_empty (usual : IsGraphQL name) (shown : ∀ front, name ≠ front ++ "Connection")
    (place : HasPlace kind name category stem) (mere : IsMereWord kind name) : stem = "" := by
  obtain ⟨other, emptyPlace⟩ := mere.exists_hasPlace
  have same := (place.categorize_eq usual shown).symm.trans (emptyPlace.categorize_eq usual shown)
  exact (Prod.mk.inj same).2

theorem IsCapitalised.ne_empty (capitalised : IsCapitalised stem) : stem ≠ "" := by
  rintro rfl
  exact absurd capitalised.capital (by decide)

theorem IsCapitalised.isConstantName (capitalised : IsCapitalised stem)
    : Settings.isConstantName stem.toList = true := by
  obtain ⟨usual, capital⟩ := capitalised
  cases spelled : stem.toList with
  | nil =>
      rw [spelled] at capital
      cases capital
  | cons c rest =>
      rw [spelled] at capital
      have words : ∀ d ∈ rest, isWord d = true := fun d member =>
        isWord_of_usual (usual d (spelled ▸ List.mem_cons_of_mem c member))
      rw [Settings.isConstantName, Bool.and_eq_true, List.all_eq_true]
      exact ⟨capital, words⟩

end

end TypeName

-----------------------------------------------------------------------------------------
-- Constants and files
-----------------------------------------------------------------------------------------

/-- A type lands at a capitalised name within a category: at a constant, which headers and
references name, and at a file that has a name of its own.
-/
structure NameMapping.IsReal (mapping : NameMapping) (category : Category) (stem : String)
    : Prop where
  capitalised : TypeName.IsCapitalised stem
  constant : IsConstant mapping.targetName
  /-- The header of the type opens with the constant in the namespace of the schema. -/
  header
    : ∀ schemaNamespace, IsConstant schemaNamespace →
        ∃ keyword constant rest,
          (keyword = "module " ∨ keyword = "class ")
          ∧ mapping.opening schemaNamespace = keyword ++ constant ++ rest
          ∧ IsConstant constant
  /-- Wherever the type is cited, a constant is written in full. -/
  references
    : ∀ settings : Settings, settings.IsAccepted → IsConstant settings.namespaceName →
        ∀ citation : Citation, citation.target = mapping.targetName →
          IsAbsoluteConstant (citation.text settings.modules)
  path
    : ∃ file,
        Naming.filePath mapping.targetName = category.directory ++ "/" ++ file
        ∧ file ≠ ""
        ∧ TypeName.IsGraphQL file

theorem Naming.snakeCase_ne_empty {text : String} (ascii : IsAscii text) (filled : text ≠ "")
    : snakeCase text ≠ "" := by
  intro none
  have spelled : snakeChars text.toList = [] := by
    rw [← String.toList_ofList (l := snakeChars text.toList)]
    exact congrArg String.toList none
  have separated := separated_snakeChars ascii
  rw [spelled] at separated
  cases small : lower text.toList with
  | nil =>
      rw [lower_of_ascii ascii, List.map_eq_nil_iff] at small
      exact filled (String.toList_injective small)
  | cons c rest =>
      rw [small] at separated
      obtain ⟨more, begins⟩ := separated.exists_cons
      cases begins

/-- Headers of a mapping name the constant that it leads to. -/
theorem NameMapping.exists_opening_eq (mapping : NameMapping) (schemaNamespace : String)
    : ∃ keyword rest,
        (keyword = "module " ∨ keyword = "class ")
        ∧ mapping.opening schemaNamespace
          = keyword ++ (schemaNamespace ++ "::" ++ mapping.targetName) ++ rest := by
  unfold opening
  dsimp only
  split
  case isTrue => exact ⟨"module ", "", .inl rfl, by simp⟩
  case isFalse => exact ⟨"class ", _, .inr rfl, by simp only [String.append_assoc]; rfl⟩

/-- A mapping to a capitalised name within a category is real. -/
theorem NameMapping.isReal_of_isCapitalised {mapping : NameMapping} {category : Category}
    {stem : String} (lands : mapping.targetName = category.word ++ "::" ++ stem)
    (capitalised : TypeName.IsCapitalised stem) : mapping.IsReal category stem := by
  have constant : IsConstant mapping.targetName := by
    rw [lands]
    exact Job.isConstant_of_category capitalised.isConstantName
  have path := Naming.filePath_category category capitalised.usual
  rw [← lands] at path
  refine ⟨capitalised, constant, fun schemaNamespace isConstant => ?_,
    fun settings accepted isConstant citation cites => ?_, ?_⟩
  · obtain ⟨keyword, rest, isKeyword, opens⟩ := mapping.exists_opening_eq schemaNamespace
    exact ⟨keyword, _, rest, isKeyword, opens, isConstant.append_iff.mpr constant⟩
  · rw [← cites] at constant
    have isPath := accepted.isConstantPath.1
    exact (Citation.isAbsoluteConstant_of_constant isPath constant).mpr isConstant
  · have ascii : IsAscii stem := fun c member => toNat_lt_of_usual (capitalised.usual c member)
    exact ⟨_, path, Naming.snakeCase_ne_empty ascii capitalised.ne_empty,
      Naming.isGraphQL_snakeCase capitalised.usual⟩

namespace Registry

variable {settings : Settings} {builtins : List String} {types : List TypeDef} {name : String}
  {type : TypeDef} {registry : Registry}

/-- Once types are classified, each capitalised name of a type that is not passed over lands within
one of the four categories. The type lands at a constant with a file, unless the first type of its
name is named by the word alone that its category leaves out; then nothing of the name is left.
-/
theorem isReal_iff_of_classified
    (classifies : (Job.startRegistry settings builtins).classifyAll types = .ok registry)
    (member : type ∈ types) (named : type.name = .string name)
    (capitalised : TypeName.IsCapitalised name) (shown : ¬IsPassedOver builtins name type)
    : ∃ first mapping category stem,
        IsFirst builtins types name first
        ∧ registry.finalize.get? name = some mapping
        ∧ category ≠ .builtIn
        ∧ mapping.targetName = category.word ++ "::" ++ stem
        ∧ (mapping.IsReal category stem ↔ ¬TypeName.IsMereWord first.kind name)
        ∧ (TypeName.IsMereWord first.kind name →
            stem = ""
            ∧ ¬IsConstant mapping.targetName
            ∧ Naming.filePath mapping.targetName = category.directory ++ "/") := by
  obtain ⟨first, isFirst⟩ := exists_isFirst capitalised.usual member named shown
  obtain ⟨category, stem, place⟩ := TypeName.exists_hasPlace first.kind name
  have notConnection : ∀ front, name ≠ front ++ "Connection" := fun front ends =>
    isFirst.shown (.connection front ends)
  have lands := (targetName_place_iff settings capitalised.usual isFirst.shown).mpr place
  have empty (mere : TypeName.IsMereWord first.kind name) : stem = "" :=
    place.eq_empty capitalised.usual notConnection mere
  have found := isFirst.get?_classified capitalised.usual classifies
  refine ⟨first, _, category, stem, isFirst, found, place.ne_builtIn, lands, ?_, fun mere => ?_⟩
  · constructor
    · exact fun real mere => real.capitalised.ne_empty (empty mere)
    · exact fun more => NameMapping.isReal_of_isCapitalised lands
        (place.isCapitalised capitalised notConnection more)
  · obtain rfl := empty mere
    have word : IsConstant category.word := by
      cases category <;> decide
    have noConstant : ¬IsConstant "" := by
      rw [isConstant_of_free (by decide)]
      decide
    have noFile : Naming.snakeCase "" = "" := by decide
    rw [lands, Naming.filePath_category category (by decide), word.append_iff, noFile,
      String.append_empty]
    exact ⟨rfl, noConstant, rfl⟩

/-- Of an input object named by the word and a version the version is left. -/
theorem isReal_inputV2
    : ∃ registry mapping,
        (Job.startRegistry Settings.standard ["ID"]).classifyAll
            [Job.plainType "InputV2" .inputObject []]
          = .ok registry
        ∧ registry.finalize.get? "InputV2" = some mapping
        ∧ mapping.IsReal .inputs "V2" := by
  have classified
      : ∃ registry,
          (Job.startRegistry Settings.standard ["ID"]).classifyAll
              [Job.plainType "InputV2" .inputObject []]
            = .ok registry
          ∧ (registry.finalize.get? "InputV2").map NameMapping.targetName
            = some ("Inputs" ++ "::" ++ "V2") := by
    decide +kernel
  obtain ⟨registry, classifies, target⟩ := classified
  have shown : ¬IsPassedOver ["ID"] "InputV2" (Job.plainType "InputV2" .inputObject []) := by
    rw [← leavesOut_iff Settings.standard (by decide)]
    decide +kernel
  obtain ⟨first, mapping, category, stem, isFirst, found, -, lands, real, -⟩ :=
    isReal_iff_of_classified classifies (List.mem_singleton_self _) rfl (by decide) shown
  have more : ¬TypeName.IsMereWord first.kind "InputV2" := fun mere =>
    absurd mere.mem_words (by decide)
  rw [found, Option.map_some, lands] at target
  have same : category.word ++ "::" ++ stem = Category.inputs.word ++ "::" ++ "V2" :=
    Option.some.inj target
  obtain ⟨rfl, rfl⟩ := target_eq_iff.mp same
  exact ⟨registry, mapping, classifies, found, real.mpr more⟩

/-- Types may be named by the words alone that their categories leave out. They are classified, and
land at no constants; their files have no names.
-/
theorem leaves_nothing_of_mere_words
    : ∃ registry,
        (Job.startRegistry Settings.standard ["ID"]).classifyAll
            [
              Job.plainType "Interface" .interface [], Job.plainType "Input" .object [],
              Job.plainType "Payload" .object []
            ]
          = .ok registry
        ∧ ∀ place
            ∈ [
                ("Interface", "Interfaces::", "interfaces/"), ("Input", "Inputs::", "inputs/"),
                ("Payload", "Payloads::", "payloads/")
              ],
            TypeName.IsCapitalised place.1
            ∧ (registry.finalize.get? place.1).map NameMapping.targetName = some place.2.1
            ∧ ¬IsConstant place.2.1
            ∧ Naming.filePath place.2.1 = place.2.2 := by
  decide +kernel

end Registry

end RubySchema
