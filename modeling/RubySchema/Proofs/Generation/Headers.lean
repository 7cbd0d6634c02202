import RubySchema.Proofs.Generation.Pages
import RubySchema.Proofs.Generation.Script

/-!
Neither the header of a document nor a declaration in its preamble states anything, as long as the
texts that settings give for base classes and factories stay in their lines.
-/

namespace RubySchema

open Text

/-- No line is broken in a base class or a factory that settings give. -/
structure Settings.StaysInLines (settings : Settings) : Prop where
  bases : ∀ entry ∈ settings.baseTypeOverrides, Statement.IsUnbroken entry.2.toList
  factories
    : ∀ entry ∈ settings.factories, ∀ factory ∈ entry.2, Statement.IsUnbroken factory.toList

namespace Statement

/-- Of a text that goes on behind its line feeds only the first line states something. -/
theorem ofText_of_continues {text : String} (continued : Continues text)
    : ofText text.toList = (ofFirstLine? 0 text.toList).toList := by
  rw [ofText_eq_within (eq_feed_of_isContinued continued), within_of_continued continued]

/-- Nothing is stated by a text that goes on and whose first line states nothing. -/
theorem ofText_eq_nil {text : String} (continued : Continues text)
    (nothing : ofFirstLine? 0 text.toList = none) : ofText text.toList = [] := by
  rw [ofText_of_continues continued, nothing]
  rfl

/-- Nothing is stated by lines each of which states nothing. -/
theorem ofText_line_eq_nil {first second : String} (here : ofText first.toList = [])
    (there : ofText second.toList = []) : ofText (first ++ ("\n" ++ second)).toList = [] := by
  have feed : "\n".toList = ['\n'] := rfl
  rw [String.toList_append, String.toList_append, feed, List.singleton_append,
    ofText_append_feed, here, there]
  rfl

end Statement

section
variable {plan : Plan} (paths : plan.HasPaths)
include paths

/-- The opening of a schema definition states nothing. -/
theorem Page.ofText_schemaHeaderText {mapping : NameMapping}
    (target : Continues mapping.targetName) (base : Continues (mapping.baseType.getD "None"))
    (usual : TypeName.IsGraphQL mapping.schemaName) {description : String}
    (unbroken : Statement.IsUnbroken description.toList)
    : Statement.ofText (schemaHeaderText plan.modules mapping description).toList = [] := by
  let constant := plan.modules.schemaNamespace ++ ("::" ++ mapping.targetName)
  let superclass := plan.modules.schemaNamespace ++ ("::" ++ mapping.baseType.getD "None")
  have naming
      : Statement.ofText
          ("  graphql_name '" ++ mapping.schemaName ++ "'"
            ++ ("\n" ++ ("  description " ++ description))).toList
        = [] := by
    apply Statement.ofText_line_eq_nil
    · apply Statement.ofText_eq_nil
      · exact (Continues.append (by decide) usual.continues).append (by decide)
      · simp only [String.toList_append]
        rfl
    · apply Statement.ofText_eq_nil
      · exact .append (by decide) (.of_unbroken unbroken)
      · simp only [String.toList_append]
        rfl
  unfold schemaHeaderText
  dsimp only
  split
  case isTrue =>
    have opening
        : Statement.ofText
            ("module " ++ constant ++ ("\n" ++ ("  include ::" ++ superclass))).toList
          = [] := by
      apply Statement.ofText_line_eq_nil
      · apply Statement.ofText_eq_nil (.append (by decide) (paths.schema target))
        simp only [String.toList_append]
        rfl
      · apply Statement.ofText_eq_nil (.append (by decide) (paths.schema base))
        simp only [String.toList_append]
        rfl
    have whole := Statement.ofText_line_eq_nil opening naming
    have included : "\n  include ::" = "\n" ++ "  include ::" := by simp
    have described : "'\n  description " = "'" ++ ("\n" ++ "  description ") := by simp
    rw [included, described]
    simpa only [constant, superclass, String.append_assoc] using whole
  case isFalse =>
    have opening
        : Statement.ofText ("class " ++ (constant ++ (" < " ++ superclass))).toList = [] := by
      apply Statement.ofText_eq_nil
      · exact .append (by decide) ((paths.schema target).append
          (.append (by decide) (paths.schema base)))
      · simp only [String.toList_append]
        rfl
    have whole := Statement.ofText_line_eq_nil opening naming
    have described : "'\n  description " = "'" ++ ("\n" ++ "  description ") := by simp
    rw [described]
    simpa only [constant, superclass, String.append_assoc] using whole

/-- The opening of a stub states nothing. -/
theorem Page.ofText_implementationHeader {target : String} (continued : Continues target)
    : Statement.ofText
          ("# frozen_string_literal: true\nmodule " ++ plan.modules.namespaceName ++ "::"
            ++ target).toList
        = [] := by
  have literal
      : "# frozen_string_literal: true\nmodule "
        = "# frozen_string_literal: true" ++ ("\n" ++ "module ") := by
    simp
  have opening
      : Statement.ofText
          ("module " ++ (plan.modules.namespaceName ++ ("::" ++ target))).toList
        = [] := by
    apply Statement.ofText_eq_nil (.append (by decide) (paths.own continued))
    simp only [String.toList_append]
    rfl
  have whole := Statement.ofText_line_eq_nil
    (by decide : Statement.ofText "# frozen_string_literal: true".toList = []) opening
  rw [literal]
  simpa only [String.append_assoc] using whole

/-- The line of a module states nothing, even when its name ends in a line feed. -/
theorem Page.ofText_moduleLine
    : Statement.ofText ("module " ++ plan.modules.namespaceName).toList = [] := by
  obtain ⟨body, form, words⟩ := Settings.exists_body_of_isConstantPath paths.accepted
  have unbroken : Statement.IsUnbroken body := by
    intro c member
    rcases words c member with rfl | word
    · rfl
    · exact isLineBreak_of_isWord word
  have spelledBody : (String.ofList body).toList = body := String.toList_ofList
  have line : Statement.ofText ("module ".toList ++ body) = [] := by
    rw [← spelledBody, ← String.toList_append]
    apply Statement.ofText_eq_nil
    · exact .append (by decide) (.of_unbroken (spelledBody.symm ▸ unbroken))
    · simp only [String.toList_append]
      rfl
  have spelled : plan.modules.namespaceName.toList = plan.settings.namespaceName.toList := rfl
  rw [String.toList_append, spelled]
  rcases form with same | same
  · rwa [same]
  · rw [same, ← List.append_assoc, Statement.ofText_append_feed, line]
    rfl

omit paths in
/-- The line that creates a record states nothing when its factory stays in it. -/
theorem Plan.ofText_factoryLine (stays : plan.settings.StaysInLines) {typeName : String}
    (usual : TypeName.IsGraphQL typeName)
    : Statement.ofText ("    " ++ factoryLine plan.settings typeName).toList = [] := by
  let name := Naming.snakeCase typeName
  have named : Statement.IsUnbroken name.toList := (Naming.isGraphQL_snakeCase usual).isUnbroken
  have line {start factory : String} (isStart : start = "#" ∨ start = "")
      (unbroken : Statement.IsUnbroken factory.toList)
      : Statement.ofText
            ("    "
              ++ (start ++ "let!(:" ++ name ++ ") \x7b create(:" ++ factory ++ ") \x7d")).toList
          = [] := by
    have continued
        : Continues ("let!(:" ++ (name ++ (") \x7b create(:" ++ (factory ++ ") \x7d")))) :=
      .append (by decide) ((Continues.of_unbroken named).append
        (.append (by decide) ((Continues.of_unbroken unbroken).append (by decide))))
    simp only [String.append_assoc]
    rcases isStart with rfl | rfl
    · apply Statement.ofText_eq_nil (.append (by decide) (.append (by decide) continued))
      simp only [String.toList_append]
      rfl
    · apply Statement.ofText_eq_nil (.append (by decide) (.append (by decide) continued))
      simp only [String.toList_append]
      rfl
  have own {factory : String} (found : factoryName plan.settings typeName = some factory)
      : Statement.IsUnbroken factory.toList := by
    unfold factoryName at found
    dsimp only at found
    cases given : plan.settings.factories.get? (Naming.snakeCase typeName) with
    | none =>
        rw [given] at found
        exact Option.some.inj found ▸ named
    | some chosen =>
        rw [given] at found
        exact stays.factories _ (Table.mem_of_get? given) factory found
  unfold factoryLine
  dsimp only
  split
  case h_1 => exact line (.inl rfl) named
  case h_2 factory found =>
    split
    · exact line (.inl rfl) named
    · exact line (.inr rfl) (own found)

/-- The opening of a spec states nothing. -/
theorem Page.ofText_specHeaderText (stays : plan.settings.StaysInLines) {target typeName : String}
    (continued : Continues target) (usual : TypeName.IsGraphQL typeName)
    : Statement.ofText
          (specHeaderText plan.modules target (Plan.factoryLine plan.settings typeName)).toList
        = [] := by
  have opening
      : Statement.ofText
          ("# frozen_string_literal: true"
            ++ ("\n" ++ ("require 'spec_helper'"
              ++ ("\n" ++ ("" ++ ("\n" ++ ("module " ++ plan.modules.namespaceName))))))).toList
        = [] :=
    Statement.ofText_line_eq_nil (by decide) (Statement.ofText_line_eq_nil (by decide)
      (Statement.ofText_line_eq_nil (by decide) (ofText_moduleLine paths)))
  have described
      : Statement.ofText ("  describe '" ++ (target ++ "' do")).toList = [] := by
    apply Statement.ofText_eq_nil (.append (by decide) (continued.append (by decide)))
    simp only [String.toList_append]
    rfl
  have contextLines
      : Statement.ofText
          ("    let!(:ctx) \x7b \x7b current_store: current_store \x7d \x7d"
            ++ ("\n" ++ "    let!(:variables) \x7b \x7d")).toList
        = [] :=
    Statement.ofText_line_eq_nil (by decide) (by decide)
  have whole := Statement.ofText_line_eq_nil opening (Statement.ofText_line_eq_nil described
    (Statement.ofText_line_eq_nil (Plan.ofText_factoryLine stays usual) contextLines))
  have front
      : "# frozen_string_literal: true\nrequire 'spec_helper'\n\nmodule "
        = "# frozen_string_literal: true"
          ++ ("\n" ++ ("require 'spec_helper'" ++ ("\n" ++ ("" ++ ("\n" ++ "module "))))) := by
    decide
  have inner : "\n  describe '" = "\n" ++ "  describe '" := by decide
  have factory : "' do\n    " = "' do" ++ ("\n" ++ "    ") := by decide
  have context
      : "\n    let!(:ctx) \x7b \x7b current_store: current_store \x7d \x7d"
        = "\n" ++ "    let!(:ctx) \x7b \x7b current_store: current_store \x7d \x7d" := by
    decide
  have last
      : "\n    let!(:variables) \x7b \x7d" = "\n" ++ "    let!(:variables) \x7b \x7d" := by
    decide
  unfold specHeaderText
  rw [front, inner, factory, context, last]
  simpa only [String.append_assoc] using whole

/-- A declaration in a preamble states nothing. -/
theorem Plan.ofText_declaration {target : String} (continued : Continues target)
    (bases
      : ∀ mapping,
          plan.classified.byTarget? target = some mapping →
            Continues (mapping.baseType.getD "None"))
    : Statement.ofText (plan.declaration target).toList = [] := by
  have named := paths.schema continued
  have ofClass {base : Option String} (isBase : Continues (base.getD "None"))
      : Statement.ofText
          ("class " ++ (plan.modules.schemaNamespace ++ "::" ++ target) ++ " < "
            ++ plan.modules.schemaNamespace ++ "::" ++ base.getD "None" ++ "; end\n").toList
        = [] := by
    have line
        : Statement.ofText
            ("class " ++ (plan.modules.schemaNamespace ++ ("::" ++ target) ++ (" < "
              ++ (plan.modules.schemaNamespace ++ ("::" ++ base.getD "None") ++ "; end")))).toList
          = [] := by
      apply Statement.ofText_eq_nil
      · exact .append (by decide) (named.append (.append (by decide)
          ((paths.schema isBase).append (by decide))))
      · simp only [String.toList_append]
        rfl
    have whole := Statement.ofText_line_eq_nil line (by decide : Statement.ofText "".toList = [])
    have ended : "; end\n" = "; end" ++ ("\n" ++ "") := by simp
    rw [ended]
    simpa only [String.append_assoc] using whole
  unfold declaration ForwardDeclaration.text
  dsimp only
  split
  case h_1 => exact ofClass (by decide)
  case h_2 mapping found =>
    split
    case isTrue =>
      have line
          : Statement.ofText
              ("module " ++ (plan.modules.schemaNamespace ++ ("::" ++ target) ++ "; end")).toList
            = [] := by
        apply Statement.ofText_eq_nil (.append (by decide) (named.append (by decide)))
        simp only [String.toList_append]
        rfl
      have whole := Statement.ofText_line_eq_nil line (by decide : Statement.ofText "".toList = [])
      have ended : "; end\n" = "; end" ++ ("\n" ++ "") := by simp
      rw [ended]
      simpa only [String.append_assoc] using whole
    case isFalse => exact ofClass (bases mapping found)

end

end RubySchema
