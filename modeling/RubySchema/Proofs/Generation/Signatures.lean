import RubySchema.Proofs.Generation.Pages
import RubySchema.Proofs.Generation.Pieces

/-!
One signature, the name of a field with the names of the arguments that are kept, tells what its
declaration in the schema document states, and its method in the stub and its examples in the spec.
The three texts are written from one field, each at a place of its own.
-/

namespace RubySchema

open Text

-----------------------------------------------------------------------------------------
-- Signatures
-----------------------------------------------------------------------------------------

/-- A field by its name, with its arguments by theirs. -/
structure Signature where
  name : String
  arguments : List String
  deriving DecidableEq, Repr

namespace Signature

def declared (signature : Signature) : List Statement :=
  .field (Naming.snakeCase signature.name)
    :: signature.arguments.map fun name => .argument (Naming.snakeCase name)

def parameters (signature : Signature) : List Statement :=
  signature.arguments.map fun name => .parameter (Naming.snakeCase name)

def defined (signature : Signature) : List Statement :=
  signature.parameters
    ++ [.method (Naming.snakeCase signature.name) (signature.arguments.map Naming.snakeCase)]

def exemplified (signature : Signature) : List Statement :=
  signature.parameters ++ [.examples signature.name]

end Signature

/-- The type of a field is a connection by its name. -/
def Field.returnsConnection (field : Field) : Bool :=
  (Naming.stripConnection field.type.name.display).2

/-- An argument is kept that is neither deprecated nor one that every connection has. -/
def Field.isKeptArgument (isConnection : Bool) (argument : Field) : Bool :=
  !argument.isDeprecated
    && !(isConnection
      && (Contribution.paginationArguments.map Json.string).contains argument.name)

def Field.keptArguments (field : Field) : List Field :=
  field.arguments.filter (Field.isKeptArgument field.returnsConnection)

def Field.signature (field : Field) : Signature :=
  {
    name := field.name.display
    arguments := field.keptArguments.map fun argument => argument.name.display
  }

/-- A field is kept that is not deprecated, unless it is the id of a type whose base is the one of
nodes.
-/
def Field.IsKept (subject : Subject) (field : Field) : Prop :=
  field.isDeprecated = false
    ∧ ¬(field.name = .string "id" ∧ subject.mapping.baseType = some "Types::BaseObjectNode")

instance (subject : Subject) : DecidablePred (Field.IsKept subject) := fun field =>
  inferInstanceAs (Decidable (field.isDeprecated = false
    ∧ ¬(field.name = .string "id" ∧ subject.mapping.baseType = some "Types::BaseObjectNode")))

def Subject.keptFields (subject : Subject) : List Field :=
  (subject.type.fields.getD []).filter fun field => field.IsKept subject

/-- The fields that are left out are those that are not kept. -/
theorem Contribution.isFieldLeftOut_eq_false_iff {subject : Subject} {field : Field}
    : isFieldLeftOut subject field = false ↔ field.IsKept subject := by
  unfold isFieldLeftOut Field.IsKept
  rw [Bool.or_eq_false_iff, Bool.and_eq_false_imp, not_and, beq_iff_eq, beq_eq_false_iff_ne]
  rfl

/-- The generator passes over the fields that are not kept, and no others. -/
theorem Subject.keptFields_eq (subject : Subject)
    : subject.keptFields
      = (subject.type.fields.getD []).filter fun field =>
          !Contribution.isFieldLeftOut subject field := by
  refine List.filter_congr fun field _ => ?_
  rw [Bool.eq_iff_iff, decide_eq_true_iff, Bool.not_eq_true',
    Contribution.isFieldLeftOut_eq_false_iff]

-----------------------------------------------------------------------------------------
-- Plain fields
-----------------------------------------------------------------------------------------

namespace Json

/-- A text of letters, digits and underscores. -/
def IsName : Json → Prop
  | .string name => TypeName.IsGraphQL name
  | _ => False

instance : DecidablePred IsName
  | .string name => inferInstanceAs (Decidable (TypeName.IsGraphQL name))
  | .null | .bool _ | .number _ | .array _ | .object _ => instDecidableFalse

/-- No line is broken in a value that is a text. -/
def IsUnbroken : Json → Prop
  | .string text => Statement.IsUnbroken text.toList
  | _ => True

instance : DecidablePred IsUnbroken
  | .string text => inferInstanceAs (Decidable (Statement.IsUnbroken text.toList))
  | .null | .bool _ | .number _ | .array _ | .object _ => instDecidableTrue

def BreaksByFeeds : Json → Prop
  | .string text => Reading.BreaksByFeeds text.toList
  | _ => True

instance : DecidablePred BreaksByFeeds
  | .string text => inferInstanceAs (Decidable (Reading.BreaksByFeeds text.toList))
  | .null | .bool _ | .number _ | .array _ | .object _ => instDecidableTrue

variable {value : Json}

theorem IsName.exists_eq (named : value.IsName)
    : ∃ name, value = .string name ∧ TypeName.IsGraphQL name := by
  cases value with
  | string name => exact ⟨name, rfl, named⟩
  | _ => exact named.elim

theorem IsName.asText_eq (named : value.IsName) : value.asText = .ok value.display := by
  obtain ⟨name, rfl, -⟩ := named.exists_eq
  rfl

theorem IsName.isGraphQL (named : value.IsName) : TypeName.IsGraphQL value.display := by
  obtain ⟨name, rfl, graphQL⟩ := named.exists_eq
  exact graphQL

theorem IsUnbroken.breaksByFeeds (unbroken : value.IsUnbroken) : value.BreaksByFeeds := by
  cases value with
  | string text =>
      intro c member breaks
      rw [unbroken c member] at breaks
      cases breaks
  | _ => trivial

theorem IsUnbroken.of_asTextIfAny {text : Option String} (unbroken : value.IsUnbroken)
    (found : value.asTextIfAny = .ok text) : Statement.IsUnbroken (text.getD "").toList := by
  cases value with
  | string here =>
      cases found
      exact unbroken
  | null =>
      cases found
      exact fun _ member => nomatch member
  | _ => cases found

end Json

/-- A field or an argument with a usual name, whose description and default value stay in a line. -/
structure Field.IsPlain (field : Field) : Prop where
  name : field.name.IsName
  description : field.description.IsUnbroken
  default : field.defaultValue.IsUnbroken

instance : DecidablePred Field.IsPlain := fun field =>
  decidable_of_iff
    (field.name.IsName ∧ field.description.IsUnbroken ∧ field.defaultValue.IsUnbroken)
    ⟨fun ⟨name, description, default⟩ => ⟨name, description, default⟩,
      fun plain => ⟨plain.name, plain.description, plain.default⟩⟩

namespace Ruby

theorem isUnbroken_description {text : Option String}
    (unbroken : Statement.IsUnbroken (text.getD "").toList)
    : Statement.IsUnbroken (description text).toList := by
  have escaped {text : List Char} (unbroken : Statement.IsUnbroken text)
      : Statement.IsUnbroken (escapePercent text) := by
    induction text with
    | nil => exact unbroken
    | cons c rest ih =>
        obtain ⟨here, later⟩ := List.forall_mem_cons.mp unbroken
        unfold escapePercent
        split
        · exact List.forall_mem_cons.mpr ⟨rfl, List.forall_mem_cons.mpr ⟨here, ih later⟩⟩
        · exact List.forall_mem_cons.mpr ⟨here, ih later⟩
  cases text with
  | none => decide
  | some text =>
      show Statement.IsUnbroken
        ("%q\x7b" ++ String.ofList (escapePercent text.toList) ++ "\x7d").toList
      rw [String.toList_append, String.toList_append]
      refine (Statement.IsUnbroken.append ?_ ?_).append ?_
      · decide
      · rw [String.toList_ofList]
        exact escaped unbroken
      · decide

theorem isUnbroken_defaultValue {text : Option String}
    (unbroken : Statement.IsUnbroken (text.getD "").toList)
    : Statement.IsUnbroken (defaultValue text).toList := by
  have escaped {text : List Char} (unbroken : Statement.IsUnbroken text)
      : Statement.IsUnbroken (escapeQuoted text) := by
    induction text with
    | nil => exact unbroken
    | cons c rest ih =>
        obtain ⟨here, later⟩ := List.forall_mem_cons.mp unbroken
        unfold escapeQuoted
        split
        · exact List.forall_mem_cons.mpr ⟨rfl, List.forall_mem_cons.mpr ⟨here, ih later⟩⟩
        · exact List.forall_mem_cons.mpr ⟨here, ih later⟩
  cases text with
  | none => decide
  | some text =>
      unfold defaultValue
      dsimp only
      split
      · exact unbroken
      · rw [String.toList_append, String.toList_append]
        refine (Statement.IsUnbroken.append ?_ ?_).append ?_
        · decide
        · rw [String.toList_ofList]
          exact escaped unbroken
        · decide

end Ruby

/-- A text whose lines are broken by line feeds only is put on one line. -/
theorem Text.isUnbroken_oneline {text : String} (feeds : Reading.BreaksByFeeds text.toList)
    : Statement.IsUnbroken (oneline text).toList := by
  have trimmedEnd (drop : Char → Bool) (text : List Char) : trimEnd drop text ⊆ text := by
    intro c member
    have among := (List.dropWhile_suffix drop).subset (List.mem_reverse.mp member)
    exact List.mem_reverse.mp among
  unfold oneline
  rw [String.toList_ofList]
  intro c member
  obtain ⟨d, within, same⟩ := List.mem_map.mp (trimmedEnd _ _ member)
  have among : d ∈ text.toList :=
    (List.dropWhile_suffix (· == '\n')).subset (trimmedEnd _ _ within)
  split at same
  case isTrue => exact same ▸ rfl
  case isFalse other =>
    rw [← same, ← Bool.not_eq_true]
    exact fun breaks => other (beq_iff_eq.mpr (feeds d among breaks))

/-- The parameters of a page are stated as those of the signature. -/
theorem FieldPage.map_parameters {page : FieldPage} {signature : Signature}
    (same : page.parameters.map Parameter.name = signature.arguments.map Naming.snakeCase)
    : (page.parameters.map fun parameter => Statement.parameter parameter.name)
      = signature.parameters := by
  have stated := congrArg (List.map Statement.parameter) same
  rwa [List.map_map, List.map_map] at stated

/-- A usual name stays one when its first character is made small. -/
theorem Naming.isGraphQL_camelLower {name : String} (graphQL : TypeName.IsGraphQL name)
    : TypeName.IsGraphQL (camelLower name) := by
  unfold camelLower
  split
  · decide
  case h_2 c rest spelled =>
    unfold TypeName.IsGraphQL at graphQL ⊢
    rw [spelled] at graphQL
    rw [String.toList_ofList]
    intro d member
    rcases List.mem_append.mp member with member | member
    · refine usual_of_mem_lower (fun other among => ?_) d member
      exact graphQL other (List.mem_singleton.mp among ▸ List.mem_cons_self)
    · exact graphQL d (List.mem_cons_of_mem c member)

namespace Contribution

variable {plan : Plan} {subject : Subject} {field argument : Field} {resolved : Resolved}
variable {text : String}

theorem isLeftOut_eq (named : argument.name.IsName) (isConnection : Bool)
    : isLeftOut isConnection argument = .ok (!argument.isKeptArgument isConnection) := by
  obtain ⟨name, same, -⟩ := named.exists_eq
  unfold isLeftOut Field.isKeptArgument
  rw [same, Bool.not_and, Bool.not_not, Bool.not_not]
  cases argument.isDeprecated <;> cases isConnection <;> rfl

theorem isUnbroken_defaultLiteral {default : Option String}
    (unbroken : argument.defaultValue.IsUnbroken)
    (made : defaultLiteral argument resolved = .ok default)
    : Statement.IsUnbroken (default.getD "").toList := by
  unfold defaultLiteral at made
  split at made
  · cases made
    exact fun _ member => nomatch member
  · obtain ⟨text, found, same⟩ := bind_eq_ok.mp made
    cases same
    exact Ruby.isUnbroken_defaultValue (unbroken.of_asTextIfAny found)

theorem isUnbroken_onelineValue {description : Json} (feeds : description.BreaksByFeeds)
    (made : onelineValue description = .ok text) : Statement.IsUnbroken text.toList := by
  unfold onelineValue at made
  split at made
  · cases made
    exact fun _ member => nomatch member
  · obtain ⟨here, found, same⟩ := bind_eq_ok.mp made
    obtain rfl := Except.ok.inj same
    cases description with
    | string text =>
        obtain rfl := Except.ok.inj found
        exact isUnbroken_oneline feeds
    | _ => cases found

-----------------------------------------------------------------------------------------
-- Queries and results
-----------------------------------------------------------------------------------------

/-- A single line that begins with two spaces. -/
def IsInnerLine (line : String) : Prop :=
  Statement.IsUnbroken line.toList ∧ [' ', ' '] <+: line.toList

instance : DecidablePred IsInnerLine := fun line =>
  inferInstanceAs (Decidable (Statement.IsUnbroken line.toList ∧ [' ', ' '] <+: line.toList))

theorem IsInnerLine.append {line more : String} (inner : IsInnerLine line)
    (unbroken : Statement.IsUnbroken more.toList) : IsInnerLine (line ++ more) := by
  unfold IsInnerLine
  rw [String.toList_append]
  exact ⟨inner.1.append unbroken, inner.2.trans (List.prefix_append _ _)⟩

/-- Indented lines may go on in the line that opens them. -/
theorem IsInnerLine.isDeep_indent {line : String} (inner : IsInnerLine line) {level : Nat}
    (positive : 0 < level) (text : String)
    : Statement.IsDeep (line ++ indent level text).toList := by
  rw [String.toList_append, indent, String.toList_ofList]
  exact (Statement.isDeep_indentChars positive text.toList).append inner.1 inner.2

theorem isDeep_append_feed {first second : String} (here : Statement.IsDeep first.toList)
    (there : Statement.IsDeep second.toList)
    : Statement.IsDeep (first ++ ("\n" ++ second)).toList := by
  rw [String.toList_append, String.toList_append]
  exact here.append_feed there

theorem IsInnerLine.isDeep {line : String} (inner : IsInnerLine line)
    : Statement.IsDeep line.toList := by
  have alone := inner.isDeep_indent (by decide : 0 < 1) ""
  rwa [show indent 1 "" = "" from rfl, String.append_empty] at alone

/-- Every line of a query stands further in. -/
theorem isDeep_queryText {typeName : String} {entries : Entries}
    (usual : TypeName.IsGraphQL typeName) (makes : queryText plan typeName entries = .ok text)
    : Statement.IsDeep text.toList := by
  have root : Statement.IsUnbroken (Naming.camelLower typeName ++ " \x7b").toList := by
    rw [String.toList_append]
    exact (Naming.isGraphQL_camelLower usual).isUnbroken.append (by decide)
  have braces (spaces : String) (inner : IsInnerLine spaces)
      : IsInnerLine (spaces ++ (Naming.camelLower typeName ++ " \x7b")) :=
    inner.append root
  obtain ⟨selection, -, makes⟩ := bind_eq_ok.mp makes
  split at makes
  case isTrue =>
    obtain rfl := Except.ok.inj makes
    have deep := isDeep_append_feed
      ((braces "      " (by decide)).isDeep_indent (by decide : 0 < 4) selection)
      (by decide : Statement.IsDeep "      \x7d".toList)
    rw [show "\n      \x7d" = "\n" ++ "      \x7d" by simp]
    simpa only [String.append_assoc] using deep
  case isFalse =>
    obtain rfl := Except.ok.inj makes
    have operation
        : IsInnerLine ("      " ++ (plan.schema.operationFor (.string typeName) ++ " \x7b")) := by
      unfold Schema.operationFor
      split <;> decide
    have inner := isDeep_append_feed
      ((braces "        " (by decide)).isDeep_indent (by decide : 0 < 5) selection)
      (by decide : Statement.IsDeep "        \x7d\n      \x7d".toList)
    have deep := isDeep_append_feed operation.isDeep inner
    rw [show " \x7b\n        " = " \x7b" ++ ("\n" ++ "        ") by simp,
      show "\n        \x7d\n      \x7d" = "\n" ++ "        \x7d\n      \x7d" by simp]
    simpa only [String.append_assoc] using deep

/-- A single quote in place of a double one. -/
def requote (c : Char) : Char :=
  if c == '"' then '\x27' else c

theorem requote_of_isBlank (c : Char) (blank : isBlank c = true) : requote c = c := by
  unfold requote
  split
  case isTrue quote =>
    rw [eq_of_beq quote] at blank
    exact absurd blank (by decide)
  case isFalse => rfl

theorem isBlank_requote (c : Char) (notBlank : isBlank c = false)
    : isBlank (requote c) = false := by
  unfold requote
  split
  · rfl
  · exact notBlank

/-- Every line of a result stands further in. -/
theorem isDeep_resultText {typeName : String} {entries : Entries}
    (usual : TypeName.IsGraphQL typeName)
    : Statement.IsDeep (resultText plan typeName entries).toList := by
  have root : Statement.IsUnbroken (Naming.camelLower typeName ++ ": \x7b").toList := by
    rw [String.toList_append]
    exact (Naming.isGraphQL_camelLower usual).isUnbroken.append (by decide)
  have opening : IsInnerLine ("        " ++ (Naming.camelLower typeName ++ ": \x7b")) :=
    IsInnerLine.append (by decide) root
  unfold resultText
  dsimp only
  rw [String.toList_ofList]
  apply Statement.IsDeep.map requote_of_isBlank isBlank_requote
  split
  case isTrue =>
    rw [indent, String.toList_ofList]
    exact Statement.isDeep_indentChars (by decide) _
  case isFalse =>
    have indented : Statement.IsDeep (indent 5 (entries.result plan.settings.maxDepth)).toList := by
      rw [indent, String.toList_ofList]
      exact Statement.isDeep_indentChars (by decide) _
    have deep := isDeep_append_feed opening.isDeep (isDeep_append_feed indented
      (by decide : Statement.IsDeep "        \x7d".toList))
    rw [show ": \x7b\n" = ": \x7b" ++ "\n" by simp,
      show "\n        \x7d" = "\n" ++ "        \x7d" by simp]
    simpa only [String.append_assoc] using deep

-----------------------------------------------------------------------------------------
-- What pages show
-----------------------------------------------------------------------------------------

structure IsParameterOf (plan : Plan) (argument : Field) (resolved : Resolved) (made : Parameter)
    : Prop where
  name : made.name = Naming.snakeCase argument.name.display
  short : made.short = Notation.short plan.modules.schemaNamespace resolved
  description : onelineValue argument.description = .ok made.description
  default : defaultLiteral argument resolved = .ok made.default

structure IsPageOf (plan : Plan) (field : Field) (resolved : Resolved) (page : FieldPage)
    : Prop where
  name : page.name = field.name.display
  description : onelineValue field.description = .ok page.description
  returns : page.returns = Notation.short plan.modules.schemaNamespace resolved
  parameters : Contribution.parameters plan resolved.isConnection field.arguments
    = .ok page.parameters

theorem isParameterOf {made : Parameter} (named : argument.name.IsName)
    (makes : parameter plan argument resolved = .ok made)
    : IsParameterOf plan argument resolved made := by
  unfold parameter at makes
  rw [named.asText_eq] at makes
  obtain ⟨_, same, makes⟩ := bind_eq_ok.mp makes
  obtain rfl := Except.ok.inj same
  obtain ⟨description, described, makes⟩ := bind_eq_ok.mp makes
  obtain ⟨default, defaulted, same⟩ := bind_eq_ok.mp makes
  obtain rfl := Except.ok.inj same
  exact ⟨rfl, rfl, described, defaulted⟩

theorem isPageOf {isShown : Bool} {page : FieldPage} (named : field.name.IsName)
    (makes : fieldPage plan isShown field resolved = .ok page)
    : IsPageOf plan field resolved page := by
  unfold fieldPage at makes
  rw [named.asText_eq] at makes
  obtain ⟨_, same, makes⟩ := bind_eq_ok.mp makes
  obtain rfl := Except.ok.inj same
  obtain ⟨made, parametersMade, makes⟩ := bind_eq_ok.mp makes
  obtain ⟨description, described, makes⟩ := bind_eq_ok.mp makes
  obtain ⟨marks, -, same⟩ := bind_eq_ok.mp makes
  obtain rfl := Except.ok.inj same
  exact ⟨rfl, described, rfl, parametersMade⟩

/-- The parameters are made of the arguments that are kept, one after another. -/
theorem parameters_eq {arguments : List Field} (isConnection : Bool)
    (named : ∀ argument ∈ arguments, argument.name.IsName)
    : parameters plan isConnection arguments
      = (arguments.filter (Field.isKeptArgument isConnection)).mapM fun argument =>
          (do parameter plan argument (← Resolved.ofField plan.classified argument)) := by
  have kept
      : (arguments.filterM fun argument => do return !(← isLeftOut isConnection argument))
        = .ok (arguments.filter (Field.isKeptArgument isConnection)) := by
    apply filterM_eq_ok
    intro argument member
    rw [isLeftOut_eq (named argument member)]
    show Except.ok _ = Except.ok _
    rw [Bool.not_not]
  unfold parameters
  rw [kept]
  rfl

/-- A parameter shows what one of the arguments holds. -/
theorem exists_of_mem_parameters {arguments : List Field} {isConnection : Bool}
    {made : List Parameter} {parameter : Parameter}
    (named : ∀ argument ∈ arguments, argument.name.IsName)
    (makes : parameters plan isConnection arguments = .ok made) (member : parameter ∈ made)
    : ∃ argument ∈ arguments,
        ∃ resolved,
          Resolved.ofField plan.classified argument = .ok resolved
          ∧ IsParameterOf plan argument resolved parameter := by
  rw [parameters_eq isConnection named] at makes
  obtain ⟨argument, kept, found⟩ := exists_of_mem_mapM makes member
  obtain ⟨resolved, resolves, found⟩ := bind_eq_ok.mp found
  have among := List.mem_of_mem_filter kept
  exact ⟨argument, among, resolved, resolves, isParameterOf (named argument among) found⟩

section
variable (paths : plan.HasPaths)
include paths

theorem continues_of_ofField (resolves : Resolved.ofField plan.classified field = .ok resolved)
    : Continues resolved.targetName := by
  obtain ⟨mapping, known, same, -⟩ := Resolved.exists_of_ofField resolves
  exact same ▸ paths.targets known

theorem isPlain_parameter {made : Parameter} (plain : argument.IsPlain)
    (resolves : Resolved.ofField plan.classified argument = .ok resolved)
    (shows : IsParameterOf plan argument resolved made) : made.IsPlain where
  name := shows.name ▸ Naming.isGraphQL_snakeCase plain.name.isGraphQL
  short := shows.short ▸ paths.short (continues_of_ofField paths resolves)
  description := isUnbroken_onelineValue plain.description.breaksByFeeds shows.description
  default := isUnbroken_defaultLiteral plain.default shows.default

/-- The parameters of a field are those of the arguments that are kept. -/
theorem isPlain_parameters {made : List Parameter}
    (plain : ∀ argument ∈ field.arguments, argument.IsPlain)
    (resolves : Resolved.ofField plan.classified field = .ok resolved)
    (makes : parameters plan resolved.isConnection field.arguments = .ok made)
    : (∀ parameter ∈ made, parameter.IsPlain)
      ∧ made.map Parameter.name = field.signature.arguments.map Naming.snakeCase := by
  have named (argument : Field) (member : argument ∈ field.arguments) : argument.name.IsName :=
    (plain argument member).name
  constructor
  · intro parameter member
    obtain ⟨argument, among, use, used, shows⟩ := exists_of_mem_parameters named makes member
    exact isPlain_parameter paths (plain argument among) used shows
  · obtain ⟨-, -, -, stripped⟩ := Resolved.exists_of_ofField resolves
    have connection : resolved.isConnection = field.returnsConnection := congrArg Prod.snd stripped
    rw [parameters_eq _ named, connection] at makes
    refine (map_of_mapM (fun argument kept parameter found => ?_) makes).trans List.map_map.symm
    obtain ⟨use, -, found⟩ := bind_eq_ok.mp found
    exact (isParameterOf (named argument (List.mem_of_mem_filter kept)) found).name

/-- The pages of a field have its name and the parameters of its signature. -/
theorem isPlain_fieldPage {isShown : Bool} {page : FieldPage} (plain : field.IsPlain)
    (arguments : ∀ argument ∈ field.arguments, argument.IsPlain)
    (resolves : Resolved.ofField plan.classified field = .ok resolved)
    (makes : fieldPage plan isShown field resolved = .ok page)
    : page.IsPlain
      ∧ page.name = field.signature.name
      ∧ page.parameters.map Parameter.name = field.signature.arguments.map Naming.snakeCase := by
  have shows := isPageOf plain.name makes
  obtain ⟨each, names⟩ := isPlain_parameters paths arguments resolves shows.parameters
  refine ⟨⟨?_, ?_, ?_, each⟩, shows.name, names⟩
  · exact shows.name ▸ plain.name.isGraphQL
  · exact isUnbroken_onelineValue plain.description.breaksByFeeds shows.description
  · exact shows.returns ▸ paths.short (continues_of_ofField paths resolves)

/-- The method of a field states its signature. -/
theorem ofText_methodText {isShown : Bool} (standard : plan.templates = [])
    (plain : field.IsPlain) (arguments : ∀ argument ∈ field.arguments, argument.IsPlain)
    (resolves : Resolved.ofField plan.classified field = .ok resolved)
    (makes : methodText plan isShown field resolved = .ok text)
    : Statement.ofText text.toList = field.signature.defined := by
  obtain ⟨page, paged, rfl⟩ := exists_page_of_methodText standard makes
  obtain ⟨pagePlain, name, names⟩ := isPlain_fieldPage paths plain arguments resolves paged
  have keywords
      : page.parameters.map (fun parameter => parameter.name ++ ":")
        = (page.parameters.map Parameter.name).map (· ++ ":") := by
    rw [List.map_map]
    rfl
  rw [Statement.ofText_indent, keywords, Page.within_fieldMethodText paths pagePlain
    (Naming.isGraphQL_snakeCase pagePlain.name), FieldPage.map_parameters names, names,
    name]
  rfl

/-- The examples of a field state its signature. -/
theorem ofText_specText (standard : plan.templates = [])
    (usual : TypeName.IsGraphQL subject.mapping.schemaName) (plain : field.IsPlain)
    (arguments : ∀ argument ∈ field.arguments, argument.IsPlain)
    (resolves : Resolved.ofField plan.classified field = .ok resolved)
    (makes : specText plan subject field resolved = .ok text)
    : Statement.ofText text.toList = field.signature.exemplified := by
  obtain ⟨entries, page, query, -, paged, queried, rfl⟩ := exists_page_of_specText standard makes
  obtain ⟨pagePlain, name, names⟩ := isPlain_fieldPage paths plain arguments resolves paged
  rw [Statement.ofText_indent, Page.within_fieldSpecText pagePlain (isDeep_queryText usual queried)
    (isDeep_resultText usual), FieldPage.map_parameters names, name]
  rfl

/-- The lines that open a field declare it. -/
theorem ofText_fieldLines (plain : field.IsPlain)
    (resolves : Resolved.ofField plan.classified field = .ok resolved)
    (makes : fieldLines plan field resolved = .ok text)
    : Statement.ofText text.toList = [.field (Naming.snakeCase field.signature.name)] := by
  obtain ⟨name, named, graphQL⟩ := plain.name.exists_eq
  have display : field.signature.name = name := by
    show field.name.display = name
    rw [named]
    rfl
  unfold fieldLines at makes
  rw [named] at makes
  obtain ⟨_, same, makes⟩ := bind_eq_ok.mp makes
  obtain rfl := Except.ok.inj same
  obtain ⟨description, described, same⟩ := bind_eq_ok.mp makes
  obtain rfl := Except.ok.inj same
  rw [display]
  exact Page.ofText_fieldLines (Naming.isGraphQL_snakeCase graphQL)
    (paths.field (continues_of_ofField paths resolves))
    (Ruby.isUnbroken_description (plain.description.of_asTextIfAny described))

/-- The line of an argument declares it within a field, and an input field states nothing. -/
theorem ofText_argumentLine {level : Nat} (isLevel : level = 1 ∨ level = 2)
    (plain : argument.IsPlain)
    (resolves : Resolved.ofField plan.classified argument = .ok resolved)
    (makes : argumentLine plan level argument resolved = .ok text)
    : Statement.ofText text.toList
      = if level = 2 then [.argument (Naming.snakeCase argument.name.display)] else [] := by
  obtain ⟨name, named, graphQL⟩ := plain.name.exists_eq
  unfold argumentLine at makes
  obtain ⟨default, defaulted, makes⟩ := bind_eq_ok.mp makes
  rw [named] at makes ⊢
  obtain ⟨_, same, makes⟩ := bind_eq_ok.mp makes
  obtain rfl := Except.ok.inj same
  obtain ⟨type, typed, makes⟩ := bind_eq_ok.mp makes
  obtain ⟨description, described, same⟩ := bind_eq_ok.mp makes
  obtain rfl := Except.ok.inj same
  exact Page.ofText_argumentLine isLevel (Naming.isGraphQL_snakeCase graphQL)
    (paths.argument (continues_of_ofField paths resolves) typed)
    (isUnbroken_defaultLiteral plain.default defaulted)
    (Ruby.isUnbroken_description (plain.description.of_asTextIfAny described))

end

end Contribution

end RubySchema
