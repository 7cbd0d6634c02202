import RubySchema.Generation.Contribution
import RubySchema.Proofs.Generation.Statements
import RubySchema.Proofs.Reference
import RubySchema.Proofs.Registry.FilePaths
import RubySchema.Proofs.Settings

/-!
The method of a field states its parameters and its name with as many keywords, and its examples
state the parameters and its name. The namespace of generated code may end in a line feed, behind
which a constant goes on; names are letters, digits and underscores, and descriptions and default
values stay in their lines.
-/

namespace RubySchema

open Text

-----------------------------------------------------------------------------------------
-- Texts that go on
-----------------------------------------------------------------------------------------

/-- A line that a text begins goes on behind every line feed in the text. -/
def Continues (text : String) : Prop :=
  Statement.isContinued text.toList = true

instance : DecidablePred Continues :=
  fun text => inferInstanceAs (Decidable (Statement.isContinued text.toList = true))

variable {first second text name : String}

theorem Continues.append (here : Continues first) (there : Continues second)
    : Continues (first ++ second) := by
  unfold Continues
  rw [String.toList_append]
  exact Statement.isContinued_append here there

theorem Continues.of_unbroken (unbroken : Statement.IsUnbroken text.toList) : Continues text :=
  Statement.isContinued_of_unbroken unbroken

namespace TypeName.IsGraphQL

theorem not_mem (graphQL : IsGraphQL name) {c : Char}
    (unusual : (isCapital c || isSmall c || isAsciiDigit c || c == '_') = false)
    : c ∉ name.toList := by
  intro member
  rw [graphQL c member] at unusual
  cases unusual

theorem isUnbroken (graphQL : IsGraphQL name) : Statement.IsUnbroken name.toList :=
  fun c member => isLineBreak_of_isWord (isWord_of_usual (graphQL c member))

theorem continues (graphQL : IsGraphQL name) : Continues name :=
  .of_unbroken graphQL.isUnbroken

end TypeName.IsGraphQL

/-- The path of a module may end in a line feed; behind it the constant goes on. -/
theorem Continues.constant {path : String} (isPath : Settings.isConstantPath path.toList = true)
    (target : Continues text) : Continues (path ++ ("::" ++ text)) := by
  obtain ⟨body, form, words⟩ := Settings.exists_body_of_isConstantPath isPath
  have unbroken : Statement.IsUnbroken body := by
    intro c member
    rcases words c member with rfl | word
    · rfl
    · exact isLineBreak_of_isWord word
  have behind : Continues ("::" ++ text) := .append (by decide) target
  unfold Continues at behind ⊢
  rw [String.toList_append] at behind
  rw [String.toList_append, String.toList_append]
  rcases form with same | same
  · rw [same]
    exact Statement.isContinued_append (Statement.isContinued_of_unbroken unbroken) behind
  · rw [same, List.append_assoc]
    refine Statement.isContinued_append (Statement.isContinued_of_unbroken unbroken) ?_
    show Statement.isContinued ('\n' :: ("::".toList ++ text.toList)) = true
    rw [Statement.isContinued, behind]
    rfl

/-- The modules of a plan, and all generated names within them, may be written in a line. -/
structure Plan.HasPaths (plan : Plan) : Prop where
  accepted : Settings.isConstantPath plan.settings.namespaceName.toList = true
  targets
    : ∀ {name mapping}, plan.classified.get? name = some mapping → Continues mapping.targetName

namespace Plan.HasPaths

variable {plan : Plan} {target : String} {resolved : Resolved}

theorem own (paths : plan.HasPaths) (continued : Continues target)
    : Continues (plan.modules.namespaceName ++ ("::" ++ target)) :=
  .constant paths.accepted continued

theorem schema (paths : plan.HasPaths) (continued : Continues target)
    : Continues (plan.modules.schemaNamespace ++ ("::" ++ target)) := by
  have spelled
      : plan.modules.schemaNamespace ++ ("::" ++ target)
        = plan.settings.namespaceName ++ ("::" ++ ("Schema::" ++ target)) := by
    rw [← String.toList_inj]
    simp [modules, Settings.schemaNamespace]
  rw [spelled]
  exact .constant paths.accepted (.append (by decide) continued)

theorem qualify (paths : plan.HasPaths) (continued : Continues target)
    : Continues (Notation.qualify plan.modules.schemaNamespace target) := by
  unfold Notation.qualify
  split
  · exact continued
  · simp only [String.append_assoc]
    exact .append (by decide) (paths.schema continued)

theorem reference (paths : plan.HasPaths) (continued : Continues resolved.targetName)
    : Continues (Notation.reference plan.modules.schemaNamespace resolved) := by
  unfold Notation.reference
  apply Continues.append (paths.qualify continued)
  split <;> decide

theorem truth (value : Bool) : Continues (Notation.truth value) := by
  cases value <;> decide

theorem field (paths : plan.HasPaths) (continued : Continues resolved.targetName)
    : Continues (Notation.field plan.modules.schemaNamespace resolved) := by
  have reference := paths.reference continued
  unfold Notation.field
  dsimp only
  split
  · exact (reference.append (by decide)).append (truth _)
  split
  · exact (((Continues.append (by decide) reference).append (by decide))).append (truth _)
  · exact (((Continues.append (by decide) reference).append (by decide))).append (truth _)

theorem short (paths : plan.HasPaths) (continued : Continues resolved.targetName)
    : Continues (Notation.short plan.modules.schemaNamespace resolved) := by
  have afterStart {start text rest : List Char} (whole : Statement.isContinued text = true)
      (found : afterStart? start text = some rest) : Statement.isContinued rest = true := by
    unfold afterStart? at found
    split at found
    · cases found
      exact Statement.isContinued_drop _ whole
    · cases found
  have inner
      : Continues (Notation.withoutNamespace plan.modules.schemaNamespace
          (Notation.reference plan.modules.schemaNamespace resolved)) := by
    unfold Notation.withoutNamespace
    split
    case h_1 rest found =>
      unfold Continues
      rw [String.toList_ofList]
      exact afterStart (paths.reference continued) found
    case h_2 =>
      split
      case h_1 rest found =>
        unfold Continues
        rw [String.toList_ofList]
        exact afterStart (paths.reference continued) found
      case h_2 => exact paths.reference continued
  unfold Notation.short
  dsimp only
  apply Continues.append
  · split
    · refine Continues.append (Continues.append (Continues.append (by decide) inner) ?_) (by decide)
      split <;> decide
    · exact inner
  · split <;> decide

theorem argument (paths : plan.HasPaths) (continued : Continues resolved.targetName)
    {type : String} (typed : Notation.argument plan.modules.schemaNamespace resolved = .ok type)
    : Continues type := by
  have reference := paths.qualify continued
  unfold Notation.argument at typed
  split at typed
  · cases typed
  · cases typed
    refine Continues.append (Continues.append ?_ (by decide)) (truth _)
    split
    · exact (Continues.append (by decide) reference).append (by decide)
    · exact reference

end Plan.HasPaths

-----------------------------------------------------------------------------------------
-- Pages of fields
-----------------------------------------------------------------------------------------

structure Parameter.IsPlain (parameter : Parameter) : Prop where
  name : TypeName.IsGraphQL parameter.name
  short : Continues parameter.short
  description : Statement.IsUnbroken parameter.description.toList
  default : Statement.IsUnbroken (parameter.default.getD "").toList

structure FieldPage.IsPlain (page : FieldPage) : Prop where
  name : TypeName.IsGraphQL page.name
  description : Statement.IsUnbroken page.description.toList
  returns : Continues page.returns
  parameters : ∀ parameter ∈ page.parameters, parameter.IsPlain

namespace Statement

variable {level indentation : Nat} {line rest : List Char}

theorem ofContent?_comment (other : rest.head? ≠ some '@')
    : ofContent? indentation ('#' :: ' ' :: rest) = none := by
  cases rest with
  | nil => simp [ofContent?, forms, afterStart?]
  | cons c more =>
      have notAt : c ≠ '@' := by simpa using other
      simp [ofContent?, forms, afterStart?, Ne.symm notAt]

theorem within_comment (continued : isContinued ('#' :: ' ' :: rest) = true)
    (other : rest.head? ≠ some '@') : within level ('#' :: ' ' :: rest) = [] := by
  have first
      : ('#' :: ' ' :: rest).takeWhile (· != '\n') = '#' :: ' ' :: rest.takeWhile (· != '\n') :=
    rfl
  rw [within_of_continued continued, ofFirstLine?_eq (by decide), first, ofContent?_comment]
  · rfl
  · intro begins
    rw [List.head?_takeWhile] at begins
    exact other (Option.eq_some_of_filter_eq_some begins)

/-- The name in front of a character is read back when that character is not in it. -/
theorem nameBefore_append {stop : Char} {name : String} (free : stop ∉ name.toList)
    (unbroken : IsUnbroken name.toList) (sameLine : stop ≠ '\n') (rest : List Char)
    : nameBefore stop ((name.toList ++ stop :: rest).takeWhile (· != '\n')) = name := by
  have noFeed : ∀ c ∈ name.toList, (c != '\n') = true := by
    intro c member
    rw [bne_iff_ne]
    rintro rfl
    cases unbroken '\n' member
  have noStop : ∀ c ∈ name.toList, (c != stop) = true := by
    intro c member
    rw [bne_iff_ne]
    rintro rfl
    exact free member
  unfold nameBefore
  rw [List.takeWhile_append_of_pos noFeed, List.takeWhile_append_of_pos noStop]
  simp [sameLine]

/-- A line of a form that names something by what stands in front of a character. -/
theorem within_of_named {opening : List Char} {stop : Char} {states : String → Statement}
    {name text : String}
    (member
      : (⟨2 * level, opening, fun rest => states (nameBefore stop rest)⟩ : Form) ∈ forms)
    (continued : Continues text)
    (spelled : ∃ rest, text.toList = opening ++ (name.toList ++ stop :: rest))
    (graphQL : TypeName.IsGraphQL name)
    (unusual : (isCapital stop || isSmall stop || isAsciiDigit stop || stop == '_') = false)
    (sameLine : stop ≠ '\n') : within level text.toList = [states name] := by
  obtain ⟨rest, spelled⟩ := spelled
  have read := ofFirstLine?_of_mem member rfl (name.toList ++ stop :: rest)
  rw [within_of_continued continued, spelled, read]
  show [states _] = _
  rw [nameBefore_append (graphQL.not_mem unusual) graphQL.isUnbroken sameLine]

/-- Keywords as the first one, and each other one behind a comma and a space. -/
theorem toList_keywords (first : String) (rest : List String)
    : (", ".intercalate ((first :: rest).map (· ++ ":"))).toList
      = first.toList
        ++ ':' :: rest.flatMap fun name => ',' :: ' ' :: (name.toList ++ [':']) := by
  induction rest generalizing first with
  | nil => simp
  | cons next more ih =>
      have later := ih next
      rw [List.map_cons] at later ⊢
      rw [List.map_cons, String.intercalate_cons_cons, String.toList_append, later]
      simp

/-- Keywords consist of their names and of the signs between them. -/
theorem mem_keywords {names : List String} {c : Char}
    (member : c ∈ (", ".intercalate (names.map (· ++ ":"))).toList)
    : c ∈ [',', ' ', ':'] ∨ ∃ name ∈ names, c ∈ name.toList := by
  rcases mem_intercalate member with between | ⟨keyword, among, within⟩
  · exact .inl (List.mem_append_left [':'] between)
  · obtain ⟨name, named, rfl⟩ := List.mem_map.mp among
    rw [String.toList_append] at within
    rcases List.mem_append.mp within with within | colon
    · exact .inr ⟨name, named, within⟩
    · exact .inl (List.mem_append_right [',', ' '] colon)

/-- The parentheses of a method are written in a line when its keywords are usual names. -/
theorem isUnbroken_signature {names : List String}
    (usual : ∀ name ∈ names, TypeName.IsGraphQL name)
    : IsUnbroken ("(" ++ ", ".intercalate (names.map (· ++ ":")) ++ ")").toList := by
  have inner : IsUnbroken (", ".intercalate (names.map (· ++ ":"))).toList := by
    intro c member
    rcases mem_keywords member with sign | ⟨name, among, within⟩
    · have signs : IsUnbroken [',', ' ', ':'] := by decide
      exact signs c sign
    · exact (usual name among).isUnbroken c within
  rw [String.toList_append, String.toList_append]
  exact (IsUnbroken.append (by decide) inner).append (by decide)

theorem splitOn_keywords {names : List String}
    (usual : ∀ name ∈ names, TypeName.IsGraphQL name)
    : splitOn ':' (names.flatMap fun name => ',' :: ' ' :: (name.toList ++ [':']))
      = names.map (fun name => ',' :: ' ' :: name.toList) ++ [[]] := by
  induction names with
  | nil => rfl
  | cons name rest ih =>
      obtain ⟨here, later⟩ := List.forall_mem_cons.mp usual
      have free : ':' ∉ ',' :: ' ' :: name.toList := by
        simpa using here.not_mem (by decide)
      have first := splitOn_append_of_not_mem free
        (rest.flatMap fun name => ',' :: ' ' :: (name.toList ++ [':']))
      rw [ih later] at first
      simpa using first

/-- The names of keywords are read back from the line that defines a method. -/
theorem keywords_eq {name : String} {names : List String} (graphQL : TypeName.IsGraphQL name)
    (usual : ∀ name ∈ names, TypeName.IsGraphQL name)
    : keywords (name ++ ("(" ++ ", ".intercalate (names.map (· ++ ":")) ++ ")")).toList
      = names := by
  have bare {name : String} (graphQL : TypeName.IsGraphQL name)
      : String.ofList (name.toList.dropWhile fun c => c == ',' || c == ' ') = name := by
    have starts : name.toList.dropWhile (fun c => c == ',' || c == ' ') = name.toList := by
      rw [List.dropWhile_eq_self_iff]
      intro filled same
      have here := graphQL _ (List.getElem_mem filled)
      rcases Bool.or_eq_true_iff.mp same with comma | space
      · rw [eq_of_beq comma] at here
        cases here
      · rw [eq_of_beq space] at here
        cases here
    rw [starts, String.ofList_toList]
  have outside : ∀ c ∈ name.toList, (c != '(') = true := by
    intro c member
    rw [bne_iff_ne]
    rintro rfl
    exact graphQL.not_mem (by decide) member
  have inside
      : ∀ c ∈ (", ".intercalate (names.map (· ++ ":"))).toList, (c != ')') = true := by
    intro c member
    rw [bne_iff_ne]
    rintro rfl
    rcases mem_keywords member with sign | ⟨other, among, within⟩
    · exact absurd sign (by decide)
    · exact (usual other among).not_mem (by decide) within
  have inner
      : (((name ++ ("(" ++ ", ".intercalate (names.map (· ++ ":")) ++ ")")).toList.dropWhile
            fun c => c != '(').drop 1).takeWhile (fun c => c != ')')
        = (", ".intercalate (names.map (· ++ ":"))).toList := by
    have spelled
        : (name ++ ("(" ++ ", ".intercalate (names.map (· ++ ":")) ++ ")")).toList
          = name.toList
            ++ '(' :: ((", ".intercalate (names.map (· ++ ":"))).toList ++ [')']) := by
      simp only [String.toList_append, List.append_assoc]
      rfl
    rw [spelled, List.dropWhile_append_of_pos outside]
    show List.takeWhile _ ((", ".intercalate (names.map (· ++ ":"))).toList ++ [')']) = _
    rw [List.takeWhile_append_of_pos inside]
    simp
  unfold keywords
  dsimp only
  rw [inner]
  cases names with
  | nil => rfl
  | cons first rest =>
      obtain ⟨here, later⟩ := List.forall_mem_cons.mp usual
      rw [toList_keywords, splitOn_append_of_not_mem (here.not_mem (by decide)),
        splitOn_keywords later, ← List.cons_append, List.dropLast_concat, List.map_cons,
        bare here, List.map_map]
      have others := List.map_congr_left fun other member => bare (later other member)
      exact congrArg (first :: ·) (others.trans (List.map_id rest))

end Statement

/-- What goes on in the last line of a text may be indented with it. -/
theorem Text.indent_append (level : Nat) (start : String) {mark tail : String}
    (markUnbroken : Statement.IsUnbroken mark.toList) (shown : mark.toList.all isBlank = false)
    (unbroken : Statement.IsUnbroken tail.toList)
    : indent level (start ++ mark) ++ tail = indent level (start ++ mark ++ tail) := by
  rw [← String.toList_inj, String.toList_append, indent, indent, String.toList_ofList,
    String.toList_ofList, String.toList_append, String.toList_append, String.toList_append]
  exact Statement.indentChars_append markUnbroken shown unbroken

theorem Statement.ofText_indent (level : Nat) (text : String)
    : ofText (indent level text).toList = within level text.toList := by
  rw [indent, String.toList_ofList, ofText_indentChars]

/-- An indented text that goes on states what its first line states. -/
theorem Statement.ofText_indent_of_continues {level : Nat} {text : String}
    (continued : Continues text)
    : ofText (indent level text).toList = (ofFirstLine? level text.toList).toList := by
  rw [ofText_indent, within_of_continued continued]

namespace Page

def parameterLine (showsDescriptions : Bool) (parameter : Parameter) : String :=
  "# @param " ++ parameter.name ++ " [" ++ parameter.short ++ "]"
    ++ around " (" (parameter.default.getD "") ")"
    ++ (if showsDescriptions then around " " parameter.description "" else "")

def comments (page : FieldPage) (showsDescriptions : Bool) : List String :=
  ("# " ++ page.name ++ around ": " page.description "")
    :: (page.parameters.map (parameterLine showsDescriptions)
      ++ ["# @return [" ++ page.returns ++ "]"])

theorem toList_concat (texts : List String)
    : (concat texts).toList = texts.flatMap String.toList := by
  induction texts with
  | nil => rfl
  | cons text rest ih =>
      rw [List.flatMap_cons, ← ih, ← String.toList_append]
      rfl

/-- A comment consists of its lines, below an empty one. -/
theorem toList_fieldComment (page : FieldPage) (showsDescriptions : Bool) (rest : String)
    : (fieldComment page showsDescriptions ++ rest).toList
      = '\n' :: (((comments page showsDescriptions).flatMap fun text => text.toList ++ ['\n'])
        ++ rest.toList) := by
  have feed : "\n".toList = ['\n'] := rfl
  have starts : "\n# " = "\n" ++ "# " := by simp
  have ends : "]\n" = "]" ++ "\n" := by simp
  rw [fieldComment, starts, ends]
  simp only [comments, parameterLine, String.toList_append, toList_concat, List.flatMap_map, feed,
    List.append_assoc, List.cons_append, List.nil_append, List.flatMap_cons, List.flatMap_append,
    List.flatMap_nil, List.append_nil]

theorem isUnbroken_around {before text after : String}
    (here : Statement.IsUnbroken before.toList) (inside : Statement.IsUnbroken text.toList)
    (behind : Statement.IsUnbroken after.toList)
    : Statement.IsUnbroken (around before text after).toList := by
  unfold around
  split
  · exact fun _ member => nomatch member
  · rw [String.toList_append, String.toList_append]
    exact (here.append inside).append behind

variable {level : Nat} {page : FieldPage}

/-- The line for a parameter states its name. -/
theorem within_parameterLine (isLevel : level = 1 ∨ level = 2) (showsDescriptions : Bool)
    {parameter : Parameter} (plain : parameter.IsPlain)
    : Statement.within level (parameterLine showsDescriptions parameter).toList
      = [.parameter parameter.name] := by
  have continued : Continues (parameterLine showsDescriptions parameter) := by
    unfold parameterLine
    refine Continues.append (Continues.append (Continues.append (Continues.append (Continues.append
      (Continues.append (by decide) plain.name.continues) (by decide)) plain.short) (by decide))
      (.of_unbroken (isUnbroken_around (by decide) plain.default (by decide)))) ?_
    split
    · exact .of_unbroken (isUnbroken_around (by decide) plain.description (by decide))
    · decide
  have member
      : (⟨2 * level, "# @param ".toList, fun rest => .parameter (Statement.nameBefore ' ' rest)⟩
          : Statement.Form)
        ∈ Statement.forms := by
    rcases isLevel with rfl | rfl <;> simp [Statement.forms]
  refine Statement.within_of_named member continued ?_ plain.name (by decide) (by decide)
  unfold parameterLine
  simp only [String.toList_append, List.append_assoc]
  exact ⟨_, rfl⟩

/-- The line for a field itself states nothing. -/
theorem within_headingLine (plain : page.IsPlain)
    : Statement.within level ("# " ++ page.name ++ around ": " page.description "").toList
      = [] := by
  have continued : Continues ("# " ++ page.name ++ around ": " page.description "") :=
    (Continues.append (by decide) plain.name.continues).append
      (.of_unbroken (isUnbroken_around (by decide) plain.description (by decide)))
  have spelled
      : ("# " ++ page.name ++ around ": " page.description "").toList
        = '#' :: ' ' :: (page.name ++ around ": " page.description "").toList := by
    simp only [String.toList_append, List.append_assoc]
    rfl
  unfold Continues at continued
  rw [spelled] at continued ⊢
  apply Statement.within_comment continued
  intro begins
  rw [String.toList_append] at begins
  cases spelledName : page.name.toList with
  | nil =>
      rw [spelledName] at begins
      unfold around at begins
      split at begins <;> simp at begins
  | cons c more =>
      rw [spelledName] at begins
      obtain rfl := Option.some.inj begins
      exact plain.name.not_mem (by decide) (spelledName ▸ List.mem_cons_self)

/-- The line for what a field returns states nothing. -/
theorem within_returnLine (isLevel : level = 1 ∨ level = 2) (plain : page.IsPlain)
    : Statement.within level ("# @return [" ++ page.returns ++ "]").toList = [] := by
  have continued : Continues ("# @return [" ++ page.returns ++ "]") :=
    (Continues.append (by decide) plain.returns).append (by decide)
  have spelled
      : ("# @return [" ++ page.returns ++ "]").toList
        = "# @return [".toList ++ (page.returns ++ "]").toList := by
    simp only [String.toList_append, List.append_assoc]
  have quiet
      : Statement.ofFirstLine? level ("# @return [".toList ++ (page.returns ++ "]").toList)
        = none := by
    rcases isLevel with rfl | rfl <;> rfl
  rw [Statement.within_of_continued continued, spelled, quiet]
  rfl

/-- A comment states the parameters. -/
theorem within_fieldComment (isLevel : level = 1 ∨ level = 2) (showsDescriptions : Bool)
    (plain : page.IsPlain) (rest : String)
    : Statement.within level (fieldComment page showsDescriptions ++ rest).toList
      = (page.parameters.map fun parameter => Statement.parameter parameter.name)
        ++ Statement.within level rest.toList := by
  have stated
      : (page.parameters.flatMap fun parameter =>
          Statement.within level (parameterLine showsDescriptions parameter).toList)
        = page.parameters.map fun parameter => Statement.parameter parameter.name := by
    rw [List.map_eq_flatMap]
    exact List.flatMap_congr fun parameter member =>
      within_parameterLine isLevel showsDescriptions (plain.parameters parameter member)
  rw [toList_fieldComment, Statement.within_feed, Statement.within_flatMap_feed, comments,
    List.flatMap_cons, within_headingLine plain, List.flatMap_append, List.flatMap_map, stated,
    List.flatMap_singleton, within_returnLine isLevel plain, List.append_nil, List.nil_append]

theorem toList_feeds (first second last : String)
    : (first ++ ("\n" ++ (second ++ ("\n" ++ last)))).toList
      = first.toList ++ '\n' :: (second.toList ++ '\n' :: last.toList) := by
  have feed : "\n".toList = ['\n'] := rfl
  simp only [String.toList_append, feed, List.cons_append, List.nil_append]

/-- The method of a field on three lines below its comment. -/
theorem fieldMethodText_eq (modules : Modules) (page : FieldPage) (methodName signature : String)
    : fieldMethodText modules page methodName signature
      = fieldComment page true
        ++ ("def " ++ (methodName ++ signature)
          ++ ("\n"
            ++ ("  raise ::" ++ (modules.namespaceName ++ ("::" ++ "NotImplementedError.new"))
              ++ ("\n" ++ "end")))) := by
  unfold fieldMethodText
  rw [← String.toList_inj]
  simp

/-- What stands between the first and the last line of the examples of a field. -/
def specBody (query result : String) : String :=
  "  let!(:query) \x7b\n    %q\x7b"
    ++ ("\n" ++ (query
      ++ ("\n" ++ ("    \x7d\n  \x7d\n  let!(:result) \x7b\n    \x7b\n      data: \x7b"
        ++ ("\n" ++ (result
          ++ ("\n"
            ++ ("      \x7d,\n      #errors: \x7b\x7d,\n    \x7d\n  \x7d\n  #it 'succeeds' do\n"
              ++ "  #  execute\n  #  expect(response_hash).to eq(result_hash)\n  #end"))))))))

/-- The examples of a field below its comment. -/
theorem fieldSpecText_eq (page : FieldPage) (query result : String)
    : fieldSpecText page query result
      = fieldComment page false
        ++ ("describe '" ++ (page.name ++ "' do")
          ++ ("\n" ++ (specBody query result ++ ("\n" ++ "end")))) := by
  have behindName
      : "' do\n  let!(:query) \x7b\n    %q\x7b\n"
        = "' do" ++ ("\n" ++ ("  let!(:query) \x7b\n    %q\x7b" ++ "\n")) := by
    decide
  have behindQuery
      : "\n    \x7d\n  \x7d\n  let!(:result) \x7b\n    \x7b\n      data: \x7b\n"
        = "\n"
          ++ ("    \x7d\n  \x7d\n  let!(:result) \x7b\n    \x7b\n      data: \x7b" ++ "\n") := by
    decide
  have behindResult
      : "\n      \x7d,\n      #errors: \x7b\x7d,\n    \x7d\n  \x7d\n  #it 'succeeds' do\n"
          ++ "  #  execute\n  #  expect(response_hash).to eq(result_hash)\n  #end\nend"
        = "\n" ++ ("      \x7d,\n      #errors: \x7b\x7d,\n    \x7d\n  \x7d\n  #it 'succeeds' do\n"
          ++ ("  #  execute\n  #  expect(response_hash).to eq(result_hash)\n  #end"
            ++ ("\n" ++ "end"))) := by
    decide
  unfold fieldSpecText specBody
  simp only [String.append_assoc]
  rw [behindResult, behindName, behindQuery]
  simp only [String.append_assoc]

/-- What the examples of a field hold is further in than any statement, if what they show is. -/
theorem isDeep_specBody {query result : String} (queryDeep : Statement.IsDeep query.toList)
    (resultDeep : Statement.IsDeep result.toList)
    : Statement.IsDeep (specBody query result).toList := by
  have feed : "\n".toList = ['\n'] := rfl
  unfold specBody
  simp only [String.toList_append, feed, List.cons_append, List.nil_append]
  exact Statement.IsDeep.append_feed (by decide +kernel) (queryDeep.append_feed
    (Statement.IsDeep.append_feed (by decide +kernel) (resultDeep.append_feed
      (by decide +kernel))))

/-- The line that defines a method states its name and its keywords. -/
theorem within_definition {methodName : String} {names : List String}
    (graphQL : TypeName.IsGraphQL methodName) (usual : ∀ name ∈ names, TypeName.IsGraphQL name)
    : Statement.within 1
        ("def " ++ (methodName ++ ("(" ++ ", ".intercalate (names.map (· ++ ":")) ++ ")"))).toList
      = [.method methodName names] := by
  let signature := "(" ++ ", ".intercalate (names.map (· ++ ":")) ++ ")"
  have unbroken : Statement.IsUnbroken (methodName ++ signature).toList := by
    rw [String.toList_append]
    exact graphQL.isUnbroken.append (Statement.isUnbroken_signature usual)
  have continued : Continues ("def " ++ (methodName ++ signature)) :=
    .append (by decide) (.of_unbroken unbroken)
  have member
      : (⟨2, "def ".toList, fun rest =>
          .method (Statement.nameBefore '(' rest) (Statement.keywords rest)⟩ : Statement.Form)
        ∈ Statement.forms := by
    simp [Statement.forms]
  have read
      : Statement.ofFirstLine? 1 ("def ".toList ++ (methodName ++ signature).toList)
        = some (.method (Statement.nameBefore '('
            ((methodName ++ signature).toList.takeWhile (· != '\n')))
          (Statement.keywords ((methodName ++ signature).toList.takeWhile (· != '\n')))) :=
    Statement.ofFirstLine?_of_mem member rfl _
  have whole
      : (methodName ++ signature).toList.takeWhile (· != '\n')
        = (methodName ++ signature).toList := by
    rw [List.takeWhile_eq_self_iff]
    intro c member
    rw [bne_iff_ne]
    rintro rfl
    cases unbroken '\n' member
  have name
      : Statement.nameBefore '(' ((methodName ++ signature).toList.takeWhile (· != '\n'))
        = methodName := by
    have spelled
        : (methodName ++ signature).toList
          = methodName.toList
            ++ '(' :: (", ".intercalate (names.map (· ++ ":")) ++ ")").toList := by
      simp [signature]
    rw [spelled]
    exact Statement.nameBefore_append (graphQL.not_mem (by decide)) graphQL.isUnbroken
      (by decide) _
  rw [Statement.within_of_continued continued, String.toList_append, read, name, whole,
    Statement.keywords_eq graphQL usual]
  rfl

/-- The method of a field states the parameters, and then its name with the same keywords. -/
theorem within_fieldMethodText {plan : Plan} (paths : plan.HasPaths) (plain : page.IsPlain)
    {methodName : String} (graphQL : TypeName.IsGraphQL methodName)
    : Statement.within 1 (fieldMethodText plan.modules page methodName
          ("(" ++ ", ".intercalate ((page.parameters.map Parameter.name).map (· ++ ":"))
            ++ ")")).toList
      = (page.parameters.map fun parameter => Statement.parameter parameter.name)
        ++ [.method methodName (page.parameters.map Parameter.name)] := by
  have usual : ∀ name ∈ page.parameters.map Parameter.name, TypeName.IsGraphQL name := by
    intro name member
    obtain ⟨parameter, among, rfl⟩ := List.mem_map.mp member
    exact (plain.parameters parameter among).name
  let raised := "  raise ::" ++ (plan.modules.namespaceName ++ ("::" ++ "NotImplementedError.new"))
  have raises : Statement.within 1 raised.toList = [] := by
    have continued : Continues raised := .append (by decide) (paths.own (by decide))
    rw [Statement.within_of_continued continued]
    simp only [raised, String.toList_append]
    rfl
  rw [fieldMethodText_eq, within_fieldComment (.inl rfl) true plain, toList_feeds,
    Statement.within_append_feed, within_definition graphQL usual, Statement.within_append_feed,
    raises]
  rfl

/-- The examples of a field state the parameters, and then its name; what stands in the query and
in the result is too far in to state anything.
-/
theorem within_fieldSpecText (plain : page.IsPlain) {query result : String}
    (queryDeep : Statement.IsDeep query.toList) (resultDeep : Statement.IsDeep result.toList)
    : Statement.within 2 (fieldSpecText page query result).toList
      = (page.parameters.map fun parameter => Statement.parameter parameter.name)
        ++ [.examples page.name] := by
  have opened
      : Statement.within 2 ("describe '" ++ (page.name ++ "' do")).toList
        = [.examples page.name] := by
    have continued : Continues ("describe '" ++ (page.name ++ "' do")) :=
      .append (by decide) (.append plain.name.continues (by decide))
    have member
        : (⟨2 * 2, "describe '".toList,
            fun rest => .examples (Statement.nameBefore '\x27' rest)⟩ : Statement.Form)
          ∈ Statement.forms := by
      simp [Statement.forms]
    refine Statement.within_of_named member continued ?_ plain.name (by decide) (by decide)
    simp only [String.toList_append]
    exact ⟨" do".toList, rfl⟩
  rw [fieldSpecText_eq, within_fieldComment (.inr rfl) false plain, toList_feeds,
    Statement.within_append_feed, opened, Statement.within_append_feed,
    Statement.within_of_deep (isDeep_specBody queryDeep resultDeep)]
  rfl

-----------------------------------------------------------------------------------------
-- Lines of schema documents
-----------------------------------------------------------------------------------------

variable {name type default description : String}

/-- The lines that open a field declare it. -/
theorem ofText_fieldLines (graphQL : TypeName.IsGraphQL name) (typed : Continues type)
    (unbroken : Statement.IsUnbroken description.toList)
    : Statement.ofText
        (indent 1 ("field :" ++ name ++ ", " ++ type ++ " do\n  description ")
          ++ description).toList
      = [.field name] := by
  have literal : " do\n  description " = " do" ++ ("\n" ++ ("  " ++ "description ")) := by simp
  have joined := indent_append 1 ("field :" ++ name ++ ", " ++ type ++ (" do" ++ ("\n" ++ "  ")))
    (by decide) (by decide : "description ".toList.all isBlank = false) unbroken
  simp only [String.append_assoc] at joined
  have continued : Continues ("field :" ++ (name ++ (", " ++ (type ++ " do")))) :=
    .append (by decide) (.append graphQL.continues (.append (by decide)
      (typed.append (by decide))))
  have declared
      : Statement.within 1 ("field :" ++ (name ++ (", " ++ (type ++ " do")))).toList
        = [.field name] := by
    have member
        : (⟨2 * 1, "field :".toList, fun rest => .field (Statement.nameBefore ',' rest)⟩
            : Statement.Form)
          ∈ Statement.forms := by
      simp [Statement.forms]
    refine Statement.within_of_named member continued ?_ graphQL (by decide) (by decide)
    simp only [String.toList_append]
    exact ⟨_, rfl⟩
  have quiet : Statement.within 1 ("  description " ++ description).toList = [] := by
    rw [Statement.within_of_continued (Continues.append (by decide) (.of_unbroken unbroken)),
      String.toList_append]
    rfl
  have below
      : ("field :" ++ (name ++ (", " ++ (type ++ (" do" ++ ("\n" ++ ("  " ++ ("description "
          ++ description)))))))).toList
        = ("field :" ++ (name ++ (", " ++ (type ++ " do")))).toList
          ++ '\n' :: ("  description " ++ description).toList := by
    have feed : "\n".toList = ['\n'] := rfl
    have spaces : "  description " = "  " ++ "description " := by simp
    simp only [spaces, String.toList_append, feed, List.append_assoc, List.cons_append,
      List.nil_append]
  rw [literal]
  simp only [String.append_assoc]
  rw [joined, Statement.ofText_indent, below, Statement.within_append_feed, declared, quiet]
  rfl

/-- The line of an argument declares it within a field; further out it states nothing. -/
theorem ofText_argumentLine (isLevel : level = 1 ∨ level = 2) (graphQL : TypeName.IsGraphQL name)
    (typed : Continues type) (defaulted : Statement.IsUnbroken default.toList)
    (unbroken : Statement.IsUnbroken description.toList)
    : Statement.ofText
        (indent level ("argument :" ++ name ++ ", " ++ type ++ ","
            ++ around " default_value: " default "," ++ " description: ")
          ++ description).toList
      = if level = 2 then [.argument name] else [] := by
  have joined := indent_append level
    ("argument :" ++ name ++ ", " ++ type ++ "," ++ around " default_value: " default ",")
    (by decide) (by decide : " description: ".toList.all isBlank = false) unbroken
  simp only [String.append_assoc] at joined
  have shown : Continues (around " default_value: " default ",") :=
    .of_unbroken (isUnbroken_around (by decide) defaulted (by decide))
  have continued
      : Continues ("argument :" ++ (name ++ (", " ++ (type ++ ("," ++ (around " default_value: "
          default "," ++ (" description: " ++ description))))))) :=
    .append (by decide) (.append graphQL.continues (.append (by decide)
      (typed.append (.append (by decide) (shown.append
        (.append (by decide) (.of_unbroken unbroken)))))))
  simp only [String.append_assoc]
  rw [joined, Statement.ofText_indent]
  rcases isLevel with rfl | rfl
  · rw [Statement.within_of_continued continued]
    simp only [String.toList_append]
    rfl
  · have member
        : (⟨2 * 2, "argument :".toList, fun rest => .argument (Statement.nameBefore ',' rest)⟩
            : Statement.Form)
          ∈ Statement.forms := by
      simp [Statement.forms]
    refine Statement.within_of_named member continued ?_ graphQL (by decide) (by decide)
    simp only [String.toList_append]
    exact ⟨_, rfl⟩

/-- The line of a value states nothing. -/
theorem ofText_valueLine (graphQL : TypeName.IsGraphQL name)
    (unbroken : Statement.IsUnbroken description.toList)
    : Statement.ofText (indent 1 ("value '" ++ name ++ "', ") ++ description).toList = [] := by
  rw [indent_append 1 ("value '" ++ name) (by decide) (by decide) unbroken, String.append_assoc,
    String.append_assoc, Statement.ofText_indent_of_continues (.append (by decide)
      (.append graphQL.continues (.append (by decide) (.of_unbroken unbroken))))]
  simp only [String.toList_append]
  rfl

/-- The members of a union are listed on lines that go on, by induction on the members. -/
theorem continues_members {schemaNamespace first : String} {others : List String}
    (each : ∀ target ∈ first :: others, Continues (schemaNamespace ++ ("::" ++ target)))
    : Continues ("\n" ++ ",\n".intercalate
        ((first :: others).map fun target => "  ::" ++ schemaNamespace ++ "::" ++ target)) := by
  have line {target : String} (continued : Continues (schemaNamespace ++ ("::" ++ target)))
      : Continues ("\n" ++ ("  ::" ++ schemaNamespace ++ "::" ++ target)) := by
    have whole := Continues.append (by decide : Continues "\n  ::") continued
    rw [show "\n  ::" = "\n" ++ "  ::" by simp] at whole
    simpa only [String.append_assoc] using whole
  induction others generalizing first with
  | nil =>
      rw [List.map_singleton, String.intercalate_singleton]
      exact line (each first List.mem_cons_self)
  | cons next more ih =>
      obtain ⟨here, later⟩ := List.forall_mem_cons.mp each
      have below := ih later
      rw [List.map_cons] at below ⊢
      rw [List.map_cons, String.intercalate_cons_cons, show ",\n" = "," ++ "\n" by simp]
      have comma : Continues "," := by decide
      have whole := ((line here).append comma).append below
      rw [show ",\n" = "," ++ "\n" by simp] at whole
      simpa only [String.append_assoc] using whole

/-- The list of a union's members states nothing. -/
theorem ofText_members {schemaNamespace : String} {targets : List String}
    (each : ∀ target ∈ targets, Continues (schemaNamespace ++ ("::" ++ target)))
    : Statement.ofText (indent 1 ("possible_types \\\n" ++ ",\n".intercalate
        (targets.map fun target => "  ::" ++ schemaNamespace ++ "::" ++ target))).toList
      = [] := by
  cases targets with
  | nil =>
      have spelled : "possible_types \\\n".toList = "possible_types \\".toList ++ '\n' :: [] := by
        decide
      have quiet : Statement.within 1 "possible_types \\".toList = [] := by
        rw [Statement.within_of_unbroken (by decide)]
        rfl
      rw [List.map_nil, String.intercalate_nil, String.append_empty, Statement.ofText_indent,
        spelled, Statement.within_append_feed, quiet]
      rfl
  | cons first others =>
      rw [show "possible_types \\\n" = "possible_types \\" ++ "\n" by simp, String.append_assoc,
        Statement.ofText_indent_of_continues (.append (by decide) (continues_members each)),
        String.toList_append]
      rfl

end Page

end RubySchema
