import RubySchema.Proofs.Generation.References
import RubySchema.Proofs.Notation

/-!
What generated code writes for a generated type is a constant exactly when the namespace in the
settings is one itself, without colons in front and a line feed behind; and a built-in type is
written in its own namespace exactly where it is qualified and that namespace is absolute. The types
of fields and arguments are qualified unless they already are; interfaces, members of unions and
modules of the user always get a namespace in front.
-/

namespace RubySchema

open Text Ruby

-----------------------------------------------------------------------------------------
-- Citations
-----------------------------------------------------------------------------------------

/-- A constant named in full: as the type of a field or an argument; as an interface, a member of a
union or the base of a module; or as a module of the user.
-/
inductive Citation where
  | used (target : String)
  | listed (target : String)
  | included (target : String)
  deriving DecidableEq, Repr

namespace Citation

def target : Citation → String
  | .used target | .listed target | .included target => target

def text (modules : Modules) : Citation → String
  | .used target => Notation.qualify modules.schemaNamespace target
  | .listed target => "::" ++ modules.schemaNamespace ++ "::" ++ target
  | .included target => "::" ++ modules.namespaceName ++ "::" ++ target

end Citation

def Settings.modules (settings : Settings) : Modules :=
  {
    namespaceName := settings.namespaceName
    schemaNamespace := settings.schemaNamespace
  }

def SchemaPiece.citations : SchemaPiece → List Citation
  | .openedModule _ base _ _ => [.listed base]
  | .implements target => [.listed target]
  | .userModule target => [.included target]
  | .possibleTypes targets => targets.map .listed
  | .field _ use _ => [.used use.targetName]
  | .argument _ _ use _ _ => [.used use.targetName]
  | _ => []

/-- The error that the methods of stubs raise, in the namespace of the user. -/
def missingMethod : String := "NotImplementedError"

def StubPiece.citations : StubPiece → List Citation
  | .userModule target => [.included target]
  | .method .. => [.included missingMethod]
  | _ => []

/-- A text is written around a part: more is put in front and behind, and it may be indented. -/
inductive Text.IsAround (part : String) : String → Prop where
  | self : IsAround part part
  | append {text : String} (front back : String) (inside : IsAround part text)
    : IsAround part (front ++ text ++ back)
  | indent {text : String} (level : Nat) (inside : IsAround part text)
    : IsAround part (indent level text)

theorem Text.IsAround.of_eq {part front back whole : String} (same : whole = front ++ part ++ back)
    : IsAround part whole :=
  same ▸ .append front back .self

theorem Text.IsAround.before {part text : String} (inside : IsAround part text) (back : String)
    : IsAround part (text ++ back) := by
  simpa using IsAround.append "" back inside

theorem Text.IsAround.behind {part text : String} (inside : IsAround part text) (front : String)
    : IsAround part (front ++ text) := by
  simpa using IsAround.append front "" inside

variable {modules : Modules} {citation : Citation}

/-- A piece of a schema document is written around what it cites. -/
theorem SchemaPiece.isAround_of_mem_citations {piece : SchemaPiece}
    (member : citation ∈ piece.citations)
    : IsAround (citation.text modules) (piece.text modules) := by
  cases piece with
  | openedModule target base name description =>
      obtain rfl := List.mem_singleton.mp member
      have same
          : text modules (.openedModule target base name description)
            = "module " ++ modules.schemaNamespace ++ "::" ++ target ++ "\n  include "
              ++ (Citation.listed base).text modules
              ++ ("\n  graphql_name '" ++ name ++ "'\n  description " ++ description) := by
        simp [text, Citation.text, ← String.toList_inj]
      exact .of_eq same
  | implements target =>
      obtain rfl := List.mem_singleton.mp member
      have same
          : "implements ::" ++ (modules.schemaNamespace ++ "::" ++ target)
            = "implements " ++ (Citation.listed target).text modules ++ "" := by
        simp [Citation.text, ← String.toList_inj]
      exact .indent 1 (.of_eq same)
  | userModule target =>
      obtain rfl := List.mem_singleton.mp member
      have same
          : "include ::" ++ modules.namespaceName ++ "::" ++ target
            = "include " ++ (Citation.included target).text modules ++ "" := by
        simp [Citation.text, ← String.toList_inj]
      exact .indent 1 (.of_eq same)
  | possibleTypes targets =>
      obtain ⟨target, among, rfl⟩ := List.mem_map.mp member
      obtain ⟨front, back, list, -⟩ := exists_intercalate_eq ",\n"
        (List.mem_map_of_mem among
          (f := fun target => "  ::" ++ (modules.schemaNamespace ++ "::" ++ target)))
      have same
          : "possible_types \\\n"
                ++ ",\n".intercalate
                  (targets.map fun target => "  ::" ++ (modules.schemaNamespace ++ "::" ++ target))
            = "possible_types \\\n" ++ front ++ "  " ++ (Citation.listed target).text modules
              ++ back := by
        rw [list]
        simp [Citation.text, ← String.toList_inj]
      exact .indent 1 (.of_eq same)
  | field name use description =>
      obtain rfl := List.mem_singleton.mp member
      have same
          : "field :" ++ name ++ ", " ++ Notation.field modules.schemaNamespace use
                ++ " do\n  description "
            = "field :" ++ name ++ ", " ++ (if use.isArray then "[" else "")
              ++ (Citation.used use.targetName).text modules
              ++ (Notation.fieldEnd use.isNullable use.isArray use.isItemNullable use.isConnection
                ++ " do\n  description ") := by
        simp [Notation.field_eq, Notation.written, Citation.text, ← String.toList_inj]
      exact (IsAround.indent 1 (.of_eq same)).before description
  | argument level name use default description =>
      obtain rfl := List.mem_singleton.mp member
      let reference := Notation.qualify modules.schemaNamespace use.targetName
      let more := ", required: " ++ Notation.truth use.isRequired ++ ","
        ++ Page.around " default_value: " default "," ++ " description: "
      have same
          : "argument :" ++ name ++ ", "
                ++ ((if use.isArray then "[" ++ reference ++ "]" else reference) ++ ", required: "
                  ++ Notation.truth use.isRequired)
                ++ "," ++ Page.around " default_value: " default "," ++ " description: "
            = "argument :" ++ name ++ ", " ++ (if use.isArray then "[" else "") ++ reference
              ++ ((if use.isArray then "]" else "") ++ more) := by
        cases use.isArray <;> simp [more, ← String.toList_inj]
      exact (IsAround.indent level (.of_eq same)).before description
  | declaredClass | declaredModule | openedClass | definitionMethods | fieldEnd | value
  | documentEnd => cases member

/-- A piece of a stub is written around what it cites. -/
theorem StubPiece.isAround_of_mem_citations {piece : StubPiece}
    (member : citation ∈ piece.citations)
    : IsAround (citation.text modules) (piece.text modules) := by
  cases piece with
  | userModule target =>
      obtain rfl := List.mem_singleton.mp member
      have same
          : "include ::" ++ modules.namespaceName ++ "::" ++ target
            = "include " ++ (Citation.included target).text modules ++ "" := by
        simp [Citation.text, ← String.toList_inj]
      exact .indent 1 (.of_eq same)
  | method page name signature =>
      obtain rfl := List.mem_singleton.mp member
      have same
          : Page.fieldMethodText modules page name signature
            = Page.fieldComment page true ++ "def " ++ name ++ signature ++ "\n  raise "
              ++ (Citation.included missingMethod).text modules ++ ".new\nend" := by
        simp [Page.fieldMethodText, Citation.text, missingMethod, ← String.toList_inj]
      exact .indent 1 (.of_eq same)
  | opened | documentEnd => cases member

/-- The root of a schema is written around what it cites: the types of queries and mutations. -/
theorem Page.isAround_schemaRootText {query mutation target : String}
    (member : target ∈ [query, mutation])
    : IsAround ((Citation.listed target).text modules)
        (Page.schemaRootText modules query mutation) := by
  have line {opening : String} (above word : String) (spelled : opening = word ++ "::")
      : IsAround ((Citation.listed target).text modules)
          (above ++ opening ++ modules.schemaNamespace ++ "::" ++ target) := by
    have same
        : above ++ opening ++ modules.schemaNamespace ++ "::" ++ target
          = above ++ word ++ (Citation.listed target).text modules ++ "" := by
      simp [spelled, Citation.text, ← String.toList_inj]
    exact .of_eq same
  unfold Page.schemaRootText
  -- all that follows the line of the target is put behind it
  rcases List.mem_cons.mp member with rfl | member
  · iterate 16 apply IsAround.before
    exact line _ "  query " (by decide)
  · obtain rfl := List.mem_singleton.mp member
    iterate 11 apply IsAround.before
    exact line _ "  mutation " (by decide)

/-- A base class with a module of the user is written around the module. -/
theorem Page.isAround_baseTypeText {name included : String} {superclass : Option String}
    {body : List String} (filled : included.isEmpty = false)
    : IsAround ((Citation.included included).text modules)
        (Page.baseTypeText modules name superclass body (some included)) := by
  have same
      : Page.around ("  include ::" ++ modules.namespaceName ++ "::") included "\n"
        = "  include " ++ (Citation.included included).text modules ++ "\n" := by
    simp [Page.around, filled, Citation.text, ← String.toList_inj]
  exact ((IsAround.of_eq same).behind _).before "end"

/-- What a piece of a schema document cites is among the names that it refers to or includes. -/
theorem SchemaPiece.target_of_mem_citations {piece : SchemaPiece}
    (member : citation ∈ piece.citations)
    : citation.target ∈ piece.targets ∨ citation.target ∈ piece.included? := by
  cases piece with
  | openedModule target base =>
      obtain rfl := List.mem_singleton.mp member
      exact .inl (List.mem_cons_of_mem target (List.mem_singleton_self base))
  | userModule target =>
      obtain rfl := List.mem_singleton.mp member
      exact .inr rfl
  | implements | field | argument =>
      obtain rfl := List.mem_singleton.mp member
      exact .inl (List.mem_singleton_self _)
  | possibleTypes targets =>
      obtain ⟨target, among, rfl⟩ := List.mem_map.mp member
      exact .inl among
  | declaredClass | declaredModule | openedClass | definitionMethods | fieldEnd | value
  | documentEnd => cases member

/-- What a piece of a stub cites is the error of its methods, or the name that it includes. -/
theorem StubPiece.target_of_mem_citations {piece : StubPiece} (member : citation ∈ piece.citations)
    : citation.target = missingMethod ∨ citation.target ∈ piece.included? := by
  cases piece with
  | userModule target =>
      obtain rfl := List.mem_singleton.mp member
      exact .inr rfl
  | method =>
      obtain rfl := List.mem_singleton.mp member
      exact .inl rfl
  | opened | documentEnd => cases member

-----------------------------------------------------------------------------------------
-- Citations that are constants
-----------------------------------------------------------------------------------------

section
variable {settings : Settings} {text name : String}

theorem Ruby.isAbsoluteConstant_colons_append
    : IsAbsoluteConstant ("::" ++ text) ↔ IsConstant text := by
  constructor
  · rintro ⟨constant, isConstant, same⟩
    obtain rfl := (String.append_right_inj "::").mp same
    exact isConstant
  · exact fun constant => ⟨text, constant, rfl⟩

/-- A citation is a constant when the namespace and its target are, or when its target is one in
full and stands as it is.
-/
theorem Citation.isAbsoluteConstant_text_iff
    (path : Settings.isConstantPath settings.namespaceName.toList = true) (citation : Citation)
    : IsAbsoluteConstant (citation.text settings.modules)
      ↔ IsConstant settings.namespaceName ∧ IsConstant citation.target
        ∨ citation = .used citation.target ∧ IsAbsoluteConstant citation.target := by
  have schema : IsConstant "Schema" := by decide
  have inSchema (target : String)
      : IsAbsoluteConstant ("::" ++ settings.schemaNamespace ++ "::" ++ target)
        ↔ IsConstant settings.namespaceName ∧ IsConstant target := by
    have spelled
        : "::" ++ settings.schemaNamespace ++ "::" ++ target
          = "::" ++ (settings.namespaceName ++ "::" ++ ("Schema" ++ "::" ++ target)) := by
      simp [Settings.schemaNamespace, ← String.toList_inj]
    rw [spelled, isAbsoluteConstant_colons_append, isConstant_append_iff path, schema.append_iff]
  cases citation with
  | used target =>
      show IsAbsoluteConstant (Notation.qualify settings.schemaNamespace target) ↔ _
      unfold Notation.qualify
      split
      case isTrue absolute =>
        have notConstant : ¬IsConstant target := by
          intro constant
          rw [constant.relative] at absolute
          cases absolute
        simp [Citation.target, notConstant]
      case isFalse relative =>
        have notAbsolute : ¬IsAbsoluteConstant target := by
          rintro ⟨constant, -, rfl⟩
          simp [startsWith, List.isPrefixOf] at relative
        rw [inSchema]
        simp [Citation.target, notAbsolute]
  | listed target =>
      show IsAbsoluteConstant ("::" ++ settings.schemaNamespace ++ "::" ++ target) ↔ _
      rw [inSchema]
      simp [Citation.target]
  | included target =>
      have spelled
          : "::" ++ settings.namespaceName ++ "::" ++ target
            = "::" ++ (settings.namespaceName ++ "::" ++ target) := by
        simp [← String.toList_inj]
      show IsAbsoluteConstant ("::" ++ settings.namespaceName ++ "::" ++ target) ↔ _
      rw [spelled, isAbsoluteConstant_colons_append, isConstant_append_iff path]
      simp [Citation.target]

/-- A citation of a constant is one in full exactly when the namespace is a constant. -/
theorem Citation.isAbsoluteConstant_of_constant
    (path : Settings.isConstantPath settings.namespaceName.toList = true) {citation : Citation}
    (constant : IsConstant citation.target)
    : IsAbsoluteConstant (citation.text settings.modules)
      ↔ IsConstant settings.namespaceName := by
  have notAbsolute : ¬IsAbsoluteConstant citation.target := by
    rintro ⟨inner, -, same⟩
    have relative := constant.relative
    rw [same] at relative
    simp [startsWith, List.isPrefixOf] at relative
  rw [citation.isAbsoluteConstant_text_iff path]
  simp [constant, notAbsolute]

/-- A citation of a built-in type is a constant when the type's name is capitalised, and either both
namespaces are constants or the type is used and its namespace is a constant in full.
-/
theorem Citation.isAbsoluteConstant_of_builtin
    (path : Settings.isConstantPath settings.namespaceName.toList = true)
    (builtinPath : Settings.isConstantPath settings.builtinNamespace.toList = true)
    (free : ':' ∉ name.toList) {citation : Citation}
    (cites : citation.target = settings.builtinNamespace ++ "::" ++ name)
    : IsAbsoluteConstant (citation.text settings.modules)
      ↔ Settings.isConstantName name.toList = true
        ∧ (IsConstant settings.namespaceName ∧ IsConstant settings.builtinNamespace
          ∨ citation = .used citation.target ∧ IsAbsoluteConstant settings.builtinNamespace) := by
  rw [citation.isAbsoluteConstant_text_iff path, cites, isConstant_append_iff builtinPath,
    isAbsoluteConstant_append_iff builtinPath, isConstant_of_free free]
  tauto

/-- A citation of a built-in type is that type in its own namespace exactly when the type is used
and its namespace is absolute: elsewhere the namespace of the schema or of the user comes in front.
-/
theorem Citation.text_eq_of_builtin
    (builtinPath : Settings.isConstantPath settings.builtinNamespace.toList = true)
    {citation : Citation} (cites : citation.target = settings.builtinNamespace ++ "::" ++ name)
    : citation.text settings.modules = absolute settings.builtinNamespace ++ "::" ++ name
      ↔ citation = .used citation.target
        ∧ startsWith settings.builtinNamespace "::" = true := by
  have longer (inFront : String)
      : "::" ++ inFront ++ "::" ++ (settings.builtinNamespace ++ "::" ++ name)
        ≠ absolute settings.builtinNamespace ++ "::" ++ name := by
    intro same
    have lengths := congrArg (fun text => text.toList.length) same
    unfold absolute at lengths
    split at lengths <;> simp at lengths <;> omega
  cases citation with
  | used target =>
      obtain rfl : target = settings.builtinNamespace ++ "::" ++ name := cites
      show Notation.qualify settings.schemaNamespace _ = _ ↔ _
      unfold Notation.qualify
      cases begins : startsWith settings.builtinNamespace "::" with
      | true =>
          have whole := startsWith_append begins ("::" ++ name)
          rw [← String.append_assoc] at whole
          rw [if_pos whole, absolute, if_pos begins]
          simp [Citation.target]
      | false =>
          have whole := relative_append_of_isConstantPath builtinPath begins ("::" ++ name)
          rw [← String.append_assoc] at whole
          rw [whole, if_neg Bool.false_ne_true]
          simp [longer]
  | listed target =>
      obtain rfl : target = settings.builtinNamespace ++ "::" ++ name := cites
      show "::" ++ settings.schemaNamespace ++ "::" ++ _ = _ ↔ _
      simp [longer]
  | included target =>
      obtain rfl : target = settings.builtinNamespace ++ "::" ++ name := cites
      show "::" ++ settings.namespaceName ++ "::" ++ _ = _ ↔ _
      simp [longer]

end

-----------------------------------------------------------------------------------------
-- Citations of a run
-----------------------------------------------------------------------------------------

namespace Job

/-- A name that documents may cite: what a type is mapped to, or the base of a generated type. -/
def IsCited (job : Job) (plan : Plan) (target : String) : Prop :=
  (∃ name mapping, plan.classified.get? name = some mapping ∧ mapping.targetName = target)
  ∨ ∃ subject ∈ job.subjects plan, subject.mapping.baseType = some target

/-- Where the documents of a run cite. -/
structure Cites (job : Job) (draft : Draft) : Prop where
  /-- Schema documents are made of pieces around citations, but for their forward declarations,
  which name nothing in full.
  -/
  definitions
    : ∀ artifacts ∈ draft.assembly.artifacts.values,
        ∀ place ≠ .preamble, ∀ text ∈ artifacts.schema.fragments place,
          ∃ piece : SchemaPiece,
            text = piece.text job.settings.modules
            ∧ ∀ citation ∈ piece.citations,
                IsAround (citation.text job.settings.modules) text
                ∧ job.IsCited draft.plan citation.target
  /-- Stubs are made of pieces around citations as well. -/
  stubs
    : ∀ artifacts ∈ draft.assembly.artifacts.values,
        ∀ document ∈ artifacts.implementation, ∀ place, ∀ text ∈ document.fragments place,
          ∃ piece : StubPiece,
            text = piece.text job.settings.modules
            ∧ ∀ citation ∈ piece.citations,
                IsAround (citation.text job.settings.modules) text
                ∧ (citation.target = missingMethod ∨ job.IsCited draft.plan citation.target)
  /-- The root of the schema cites the types of queries and mutations. -/
  root
    : ∃ text query mutation,
        draft.assembly.fixed.get? "schema/schema" = some text
        ∧ ∀ target ∈ [query, mutation],
            IsAround ((Citation.listed target).text job.settings.modules) text
            ∧ job.IsCited draft.plan target
  /-- Base classes cite their modules of the user. -/
  bases
    : ∀ base ∈ bases, ∀ name ∈ base.userModule,
        ∃ text,
          draft.assembly.fixed.get? ("schema/" ++ Naming.filePath base.name) = some text
          ∧ IsAround ((Citation.included name).text job.settings.modules) text

/-- What the documents of a run name in full, and when that is a constant. -/
structure CitesConstants (job : Job) (draft : Draft) : Prop where
  /-- Without templates of one's own the texts are known. -/
  texts : job.templates = [] → job.Cites draft
  /-- A generated type with a capitalised name is cited by a constant when the namespace is one. -/
  generated
    : ∀ {name mapping},
        draft.plan.classified.get? name = some mapping → mapping.isBuiltin = false →
          ∃ category stem,
            mapping.targetName = Category.word category ++ "::" ++ stem
            ∧ (Settings.isConstantName stem.toList = true →
                ∀ citation : Citation, citation.target = mapping.targetName →
                  (IsAbsoluteConstant (citation.text job.settings.modules)
                    ↔ IsConstant job.settings.namespaceName))
  /-- So are the error that stubs raise and the modules of base classes. -/
  userModules
    : ∀ name ∈ missingMethod :: Job.bases.filterMap Base.userModule,
        IsAbsoluteConstant ((Citation.included name).text job.settings.modules)
          ↔ IsConstant job.settings.namespaceName
  /-- A built-in type with a capitalised name is cited by a constant when both namespaces are, or
  when it is used and its namespace is one in full. Only when it is used and its namespace is
  absolute does no other namespace come in front.
  -/
  builtin
    : ∀ {name mapping},
        draft.plan.classified.get? name = some mapping → mapping.isBuiltin = true →
          mapping.targetName = job.settings.builtinNamespace ++ "::" ++ name
          ∧ ∀ citation : Citation, citation.target = mapping.targetName →
              (IsAbsoluteConstant (citation.text job.settings.modules)
                ↔ Settings.isConstantName name.toList = true
                  ∧ (IsConstant job.settings.namespaceName
                      ∧ IsConstant job.settings.builtinNamespace
                    ∨ citation = .used citation.target
                      ∧ IsAbsoluteConstant job.settings.builtinNamespace))
              ∧ (citation.text job.settings.modules
                    = absolute job.settings.builtinNamespace ++ "::" ++ name
                  ↔ citation = .used citation.target
                    ∧ startsWith job.settings.builtinNamespace "::" = true)
  /-- A namespace that was accepted is a constant unless colons stand in front or a line feed
  behind.
  -/
  ownNamespace
    : IsConstant job.settings.namespaceName
      ↔ startsWith job.settings.namespaceName "::" = false
        ∧ '\n' ∉ job.settings.namespaceName.toList
  /-- That of the built-in types is one as it is or in full unless a line feed stands behind. -/
  builtinNamespace
    : (IsConstant job.settings.builtinNamespace
        ↔ startsWith job.settings.builtinNamespace "::" = false
          ∧ '\n' ∉ job.settings.builtinNamespace.toList)
      ∧ (IsAbsoluteConstant job.settings.builtinNamespace
        ↔ startsWith job.settings.builtinNamespace "::" = true
          ∧ '\n' ∉ job.settings.builtinNamespace.toList)

variable {job : Job} {draft : Draft} {generation : Generation}

/-- A capitalised name within a category is a constant. -/
theorem isConstant_of_category {category : Category} {stem : String}
    (named : Settings.isConstantName stem.toList = true)
    : IsConstant (category.word ++ "::" ++ stem) := by
  have word : IsConstant category.word := by
    cases category <;> decide
  exact word.append_iff.mpr
    ((isConstant_of_free (colon_not_mem_of_isConstantName named)).mpr named)

/-- A mapping of a built-in type is that of the reference library. -/
theorem Placed.eq_builtinMapping_of_get? {settings : Settings} {builtins : List String}
    {types : List TypeDef} {classified : Classified} {name : String} {mapping : NameMapping}
    (placed : Placed (startRegistry settings builtins) types classified)
    (found : classified.get? name = some mapping) (builtin : mapping.isBuiltin = true)
    : name ∈ builtins
      ∧ mapping
        = (Registry.empty settings.builtinNamespace settings.baseTypeOverrides).builtinMapping
          name := by
  rw [placed.classified_eq] at found
  rcases Registry.get?_withPlaces_cases found with start | ⟨type, -, rfl⟩
  · exact get?_startRegistry_eq_some.mp start
  · rw [Registry.place_isBuiltin] at builtin
    cases builtin

/-- What a type of a run refers to may be cited. -/
theorem Stages.hasReferences_isCited (stages : job.Stages draft) {subject : Subject}
    (member : subject ∈ job.subjects draft.plan)
    : subject.HasReferences draft.plan (job.IsCited draft.plan) (job.IsCited draft.plan) := by
  obtain ⟨-, name, -, known, -⟩ := exists_of_mem_subjects member
  obtain ⟨builtins, -, placed⟩ := stages.exists_placed
  obtain ⟨entry, -, -, mappingSame⟩ := placed.exists_of_mem member
  have self : job.IsCited draft.plan subject.mapping.targetName := .inl ⟨_, _, known, rfl⟩
  have based : ∃ base, subject.mapping.baseType = some base := by
    rw [mappingSame]
    exact ⟨_, rfl⟩
  refine ⟨fun found => .inl ⟨_, _, found, rfl⟩, self, ?_, fun _ => self, ?_⟩
  · obtain ⟨base, based⟩ := based
    exact ⟨base, based, .inr ⟨subject, member, based⟩⟩
  · intro mention _ mapping found
    obtain ⟨text, -, found⟩ := Classified.lookupValue_eq_ok.mp found
    exact .inl ⟨text, mapping, found, rfl⟩

/-- Without templates of one's own the documents cite what their types refer to. -/
theorem Stages.cites (stages : job.Stages draft) (standard : job.templates = [])
    : job.Cites draft := by
  have modules : draft.plan.modules = job.settings.modules := stages.settings ▸ rfl
  have pieces {found : Artifacts} (member : found ∈ draft.assembly.artifacts.values) :=
    stages.isPiece_of_mem_fragments standard
      (fun _ generated => stages.hasReferences_isCited generated) member
  obtain ⟨⟨query, mutation, queried, mutated, root⟩, baseTexts⟩ := stages.fixed_get? standard
  rw [modules] at pieces root baseTexts
  refine ⟨?definitions, ?stubs, ?root, ?bases⟩
  case definitions =>
    intro found member place outside text among
    obtain ⟨piece, rfl, there, included⟩ := (pieces member).1 place outside text among
    refine ⟨piece, rfl, fun citation cited => ⟨piece.isAround_of_mem_citations cited, ?_⟩⟩
    exact (SchemaPiece.target_of_mem_citations cited).elim (there _) (included _)
  case stubs =>
    intro found member document isStub place text among
    obtain ⟨piece, rfl, included⟩ := (pieces member).2 document isStub place text among
    refine ⟨piece, rfl, fun citation cited => ⟨piece.isAround_of_mem_citations cited, ?_⟩⟩
    exact (StubPiece.target_of_mem_citations cited).imp_right (included _)
  case root =>
    have cited {name : Json} {mapping : NameMapping}
        (found : draft.plan.classified.lookupValue name = .ok mapping)
        : job.IsCited draft.plan mapping.targetName := by
      obtain ⟨text, -, found⟩ := Classified.lookupValue_eq_ok.mp found
      exact .inl ⟨text, mapping, found, rfl⟩
    have both := List.forall_mem_cons.mpr
      ⟨cited queried, List.forall_mem_singleton.mpr (cited mutated)⟩
    exact ⟨_, query.targetName, mutation.targetName, root, fun target among =>
      ⟨(Page.isAround_schemaRootText among).before "\n", both target among⟩⟩
  case bases =>
    intro base isBase name has
    have filled : ∀ base ∈ Job.bases, ∀ name ∈ base.userModule, name.isEmpty = false := by
      decide
    refine ⟨_, baseTexts base isBase, ?_⟩
    rw [Option.mem_def.mp has]
    exact (Page.isAround_baseTypeText (filled base isBase name has)).before "\n"

/-- Constants of generated code, when a run comes to files under settings that were accepted. Its
documents name types, bases and modules of the user in full. For generated types with capitalised
names and for the error of stubs that is a constant exactly when the namespace has neither colons in
front nor a line feed behind. A built-in type is written in its own namespace exactly where it is
the type of a field or an argument and that namespace is absolute; as an interface or a member it
has the namespace of the schema in front, and then it is a constant only when its own namespace is
relative.
-/
theorem citesConstants_of_build (accepted : job.settings.IsAccepted)
    (built : job.build.outcome = .ok generation)
    : ∃ draft, job.draft.outcome = .ok draft ∧ job.CitesConstants draft := by
  obtain ⟨draft, files, drafted, -⟩ := build_eq_ok_iff.mp built
  have stages := draft_eq_ok_iff.mp drafted
  obtain ⟨path, builtinPath⟩ := accepted.isConstantPath
  obtain ⟨builtins, known, placed⟩ := stages.exists_placed
  refine ⟨draft, drafted, stages.cites, ?generated, ?userModules, ?builtin,
    isConstant_iff_of_isConstantPath path, isConstant_iff_of_isConstantPath builtinPath,
    isAbsoluteConstant_iff_of_isConstantPath builtinPath⟩
  case generated =>
    intro name mapping found own
    obtain ⟨type, -, rfl⟩ := placed.exists_of_get? found own
    refine ⟨_, _, rfl, fun named citation cites => ?_⟩
    apply Citation.isAbsoluteConstant_of_constant path
    rw [cites]
    exact isConstant_of_category named
  case userModules =>
    intro name isModule
    have constants : ∀ name ∈ missingMethod :: Job.bases.filterMap Base.userModule,
        IsConstant name := by
      decide
    exact Citation.isAbsoluteConstant_of_constant path (constants name isModule)
  case builtin =>
    intro name mapping found builtin
    obtain ⟨among, rfl⟩ := placed.eq_builtinMapping_of_get? found builtin
    have free : ':' ∉ name.toList := by
      intro member
      exact absurd (Reference.isWord_of_builtinNames known name among ':' member) (by decide)
    exact ⟨rfl, fun citation cites =>
      ⟨Citation.isAbsoluteConstant_of_builtin path builtinPath free cites,
        Citation.text_eq_of_builtin builtinPath cites⟩⟩

/-- Under the standard settings the run on people cites constants. -/
theorem citesConstants_people
    : people.settings.IsAccepted
      ∧ ∃ generation,
          people.build.outcome = .ok generation
          ∧ ∃ draft, people.draft.outcome = .ok draft ∧ people.CitesConstants draft := by
  have accepted : people.settings.IsAccepted := ⟨[], by decide +kernel⟩
  have built : Succeeds people.build.outcome := by
    decide +kernel
  obtain ⟨generation, built⟩ := built
  exact ⟨accepted, generation, built, citesConstants_of_build accepted built⟩

/-- A run on one type with a field of a built-in type, in a namespace for each. -/
def shop (namespaceName builtinNamespace : String) : Job :=
  {
    smallJob "Query" "Query" [plainType "Query" .object [plainField "id" "ID" []]] with
    settings := { Settings.standard with namespaceName, builtinNamespace }
  }

/-- An absolute namespace is accepted, and then colons are doubled. A relative namespace of the
built-in types is accepted as well, and then it lies within that of the schema.
-/
theorem misplaces_namespaces
    : (∃ draft,
        (shop "::Shop" "::GraphQL::Types").settings.IsAccepted
        ∧ (shop "::Shop" "::GraphQL::Types").draft.outcome = .ok draft
        ∧ Succeeds (shop "::Shop" "::GraphQL::Types").build.outcome
        ∧ (∃ artifacts ∈ draft.assembly.artifacts.values,
            "  include ::::Shop::Types::Query" ∈ artifacts.schema.fragments .includes)
        ∧ ¬IsAbsoluteConstant "::::Shop::Types::Query")
      ∧ ∃ draft,
          (shop "Shop" "GraphQL::Types").settings.IsAccepted
          ∧ (shop "Shop" "GraphQL::Types").draft.outcome = .ok draft
          ∧ Succeeds (shop "Shop" "GraphQL::Types").build.outcome
          ∧ ∃ artifacts ∈ draft.assembly.artifacts.values,
              "  field :id, ::Shop::Schema::GraphQL::Types::ID, null: true do\n    description nil"
                ∈ artifacts.schema.fragments .fields := by
  have doubled : ¬IsAbsoluteConstant "::::Shop::Types::Query" := by
    rintro ⟨constant, isConstant, same⟩
    obtain rfl : "::Shop::Types::Query" = constant := (String.append_right_inj "::").mp same
    revert isConstant
    decide
  have drafted
      : ∃ draft,
          (shop "::Shop" "::GraphQL::Types").draft.outcome = .ok draft
          ∧ ∃ artifacts ∈ draft.assembly.artifacts.values,
              "  include ::::Shop::Types::Query" ∈ artifacts.schema.fragments .includes := by
    decide +kernel
  have built : Succeeds (shop "::Shop" "::GraphQL::Types").build.outcome := by
    decide +kernel
  have otherDrafted
      : ∃ draft,
          (shop "Shop" "GraphQL::Types").draft.outcome = .ok draft
          ∧ ∃ artifacts ∈ draft.assembly.artifacts.values,
              "  field :id, ::Shop::Schema::GraphQL::Types::ID, null: true do\n    description nil"
                ∈ artifacts.schema.fragments .fields := by
    decide +kernel
  have otherBuilt : Succeeds (shop "Shop" "GraphQL::Types").build.outcome := by
    decide +kernel
  obtain ⟨draft, drafted, includes⟩ := drafted
  obtain ⟨otherDraft, otherDrafted, declares⟩ := otherDrafted
  exact ⟨⟨draft, ⟨[("namespace", .string "::Shop")], by decide +kernel⟩, drafted, built, includes,
      doubled⟩,
    otherDraft,
    ⟨[("namespace", .string "Shop"), ("builtin_namespace", .string "GraphQL::Types")],
      by decide +kernel⟩,
    otherDrafted, otherBuilt, declares⟩

end Job

end RubySchema
