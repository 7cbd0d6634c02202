import RubySchema.Generation.Contribution
import RubySchema.Proofs.Example.Nesting
import RubySchema.Proofs.Example.Showing
import RubySchema.Proofs.Generation.Hanging
import RubySchema.Proofs.Generation.Pages
import RubySchema.Proofs.Naming.Separators
import RubySchema.Text.Halves

/-!
The texts of an example with simple names and leaves are well nested, with their comments and
without them, and the query of a spec is one literal: a balanced text, which stays one where it
stands within a spec that is indented.
-/

namespace RubySchema

open Text Brackets
open Reading (BreaksByFeeds)

-----------------------------------------------------------------------------------------
-- Texts within indented ones
-----------------------------------------------------------------------------------------

section
variable {σ : Type} {step : σ → Char → σ} {level : Nat} {text : List Char}

/-- A text that is broken by line feeds only is its parts with line feeds between them. By induction
on the text.
-/
theorem Text.eq_parts (feeds : BreaksByFeeds text)
    : (parts text).1 ++ (parts text).2.flatMap ('\n' :: ·) = text := by
  fun_induction parts text with
  | case1 => rfl
  | case2 rest ih => cases feeds '\r' List.mem_cons_self (by decide)
  | case3 c rest _ breaks ih =>
      obtain rfl := feeds c List.mem_cons_self breaks
      have later := ih fun d member => feeds d (List.mem_cons_of_mem _ member)
      exact congrArg ('\n' :: ·) later
  | case4 c rest _ _ ih =>
      have later := ih fun d member => feeds d (List.mem_cons_of_mem _ member)
      exact congrArg (c :: ·) later

/-- A reader that passes over blanks reads parts on lines of their own as it reads the parts, by
induction on the parts.
-/
theorem PassesBlanks.foldl_hangRest (passes : PassesBlanks step) (state : σ)
    (rest : List (List Char))
    : (hangRest level rest).foldl step state
      = (rest.flatMap ('\n' :: ·)).foldl step state := by
  induction rest generalizing state with
  | nil => rfl
  | cons part more ih =>
      have start : step (step state '\n') '\n' = step state '\n' := passes state '\n' (by decide)
      rw [List.flatMap_cons, List.foldl_append, List.foldl_cons]
      cases more with
      | nil =>
          rw [hangRest, List.foldl_cons, List.foldl_append, passes.foldl_spaces start]
          rfl
      | cons next others =>
          rw [hangRest_cons_cons, List.foldl_cons, List.foldl_append,
            passes.foldl_indentLine start, ih]

/-- A balanced text stays balanced where it stands within one that is indented. -/
theorem Brackets.IsBalanced.hang {room : Nat} {text : String} (balanced : IsBalanced room text)
    (level : Nat) : IsBalanced room (hang level text) := by
  have whole := eq_parts balanced.feeds
  have hung
      : (Text.hang level text).toList
        = (parts text.toList).1 ++ hangRest level (parts text.toList).2 :=
    String.toList_ofList
  refine balanced.respaced (fun c member => ?_) fun comments brackets => ?_
  · rw [hung, List.mem_append] at member
    rw [← whole, List.mem_append]
    rcases member with first | later
    · exact .inl (.inl first)
    · exact (mem_hangRest later).imp .inr .inl
  · rw [hung, List.foldl_append, (passesBlanks_stepShown comments).foldl_hangRest,
      ← List.foldl_append, whole]

end

-----------------------------------------------------------------------------------------
-- Names
-----------------------------------------------------------------------------------------

def Brackets.unusual : List Nat :=
  signs.map Char.toNat ++ [10, 11, 12, 13, 28, 29, 30, 0x85, 0x2028, 0x2029]

theorem Brackets.isSimpleChar_iff (c : Char) : IsSimpleChar c ↔ c.toNat ∉ unusual := by
  have sign : c ∈ signs ↔ c.toNat ∈ signs.map Char.toNat := by
    refine ⟨List.mem_map_of_mem, fun member => ?_⟩
    obtain ⟨d, among, same⟩ := List.mem_map.mp member
    rwa [← Char.toNat_inj.mp same]
  have breaks
      : isLineBreak c = true ↔ c.toNat ∈ [10, 11, 12, 13, 28, 29, 30, 0x85, 0x2028, 0x2029] := by
    simp [isLineBreak]
    omega
  rw [IsSimpleChar, unusual, List.mem_append, not_or, ← sign, ← breaks, Bool.not_eq_true]

/-- No other character has one that is not simple for its lower form, as the table of lower forms
shows.
-/
theorem Brackets.lowerPoint_usual {point : Nat} (usual : point ∉ unusual)
    : lowerPoint point ∉ unusual := by
  have each
      : ∀ run ∈ lowerRuns, ∀ code ∈ unusual,
          ¬ (run.first + run.shift ≤ code ∧ code ≤ run.last + run.shift) := by
    decide +kernel
  have positive : 0 ∉ unusual := by decide
  unfold lowerPoint
  split
  case h_1 => exact usual
  case h_2 run found =>
    split
    case isFalse => exact usual
    case isTrue =>
      intro member
      have apart := each run (List.mem_of_find?_eq_some found) _ member
      have within := List.find?_some found
      simp only [Bool.and_eq_true, decide_eq_true_eq] at within
      have some : (point + run.shift).toNat ≠ 0 := by
        intro none
        rw [none] at member
        exact positive member
      omega

theorem Brackets.IsSimpleChar.of_mem_lowerChar {c d : Char} (simple : IsSimpleChar c)
    (member : d ∈ lowerChar c) : IsSimpleChar d := by
  unfold lowerChar at member
  split at member
  case isTrue ascii =>
    obtain rfl := List.mem_singleton.mp member
    have each : ∀ n < 0x80, IsSimpleChar (Char.ofNat n) → IsSimpleChar (Char.ofNat n).toLower := by
      decide
    exact forall_ascii (fun c => IsSimpleChar c → IsSimpleChar c.toLower) each ascii simple
  case isFalse =>
    split at member
    case isTrue =>
      rcases List.mem_pair.mp member with rfl | rfl <;> decide
    case isFalse =>
      obtain rfl := List.mem_singleton.mp member
      have usual := lowerPoint_usual ((isSimpleChar_iff c).mp simple)
      rw [isSimpleChar_iff]
      by_cases valid : (lowerPoint c.toNat).isValidChar
      · rwa [toNat_ofNat_of_isValidChar valid]
      · rw [Char.ofNat, dif_neg valid]
        decide

/-- A simple name stays one when its first character is made small. -/
theorem Brackets.IsSimple.camelLower {name : String} (simple : IsSimple name)
    : IsSimple (Naming.camelLower name) := by
  unfold Naming.camelLower
  split
  case h_1 => decide
  case h_2 c rest spelled =>
    unfold IsSimple at simple ⊢
    rw [spelled] at simple
    obtain ⟨first, later⟩ := List.forall_mem_cons.mp simple
    rw [String.toList_ofList, List.forall_mem_append]
    refine ⟨fun d member => ?_, later⟩
    simp only [lower, lowerAfter, List.append_nil] at member
    split at member
    · obtain rfl := List.mem_singleton.mp member
      split <;> decide
    · exact first.of_mem_lowerChar member

-----------------------------------------------------------------------------------------
-- Queries
-----------------------------------------------------------------------------------------

namespace Contribution

variable {plan : Plan} {typeName : String} {entries : Entries}

/-- The query of a simple example is balanced. -/
theorem exists_queryText (simple : entries.AreSimple) (isName : IsSimple typeName)
    : ∃ query room, queryText plan typeName entries = .ok query ∧ IsBalanced room query := by
  obtain ⟨selection, room, selected, balanced, -⟩ :=
    (Entries.AreSimple.outlines entries simple).selection plan.settings.maxDepth 1
  have quiet (blanks : String) (isQuiet : IsQuiet blanks) {room : Nat} : IsBalanced room blanks :=
    .of_isQuiet isQuiet
  have root (blanks : String) (isQuiet : IsQuiet blanks) {room : Nat}
      : IsBalanced room (blanks ++ Naming.camelLower typeName) :=
    (quiet blanks isQuiet).append isName.camelLower.isBalanced
  rw [queryText, Entries.selection, selected, ok_bind]
  split
  case isTrue =>
    have block := (root "      " (by decide)).block (balanced.fed.indent 4) (Nat.le_refl _)
      (quiet "      " (by decide))
    have spelled
        : "      " ++ Naming.camelLower typeName ++ " \x7b" ++ indent 4 selection ++ "\n      \x7d"
          = "      " ++ Naming.camelLower typeName ++ " \x7b" ++ indent 4 selection ++ "\n"
            ++ "      " ++ "\x7d" := by
      rw [← String.toList_inj]
      simp
    exact ⟨_, room + 1, rfl, spelled ▸ block⟩
  case isFalse =>
    let operation := plan.schema.operationFor (.string typeName)
    have isOperation {room : Nat} : IsBalanced room operation := by
      apply IsBalanced.of_isQuiet
      simp only [operation, Schema.operationFor]
      split <;> decide
    have inner := (root "\n        " (by decide)).block (balanced.fed.indent 5) (Nat.le_refl _)
      (quiet "        " (by decide))
    have outer := ((quiet "      " (by decide)).append isOperation).block inner.fed
      (Nat.le_refl _) (quiet "      " (by decide))
    have spelled
        : "      " ++ operation ++ " \x7b\n        " ++ Naming.camelLower typeName ++ " \x7b"
            ++ indent 5 selection ++ "\n        \x7d\n      \x7d"
          = "      " ++ operation ++ " \x7b"
            ++ ("\n        " ++ Naming.camelLower typeName ++ " \x7b" ++ indent 5 selection ++ "\n"
              ++ "        " ++ "\x7d") ++ "\n" ++ "      " ++ "\x7d" := by
      rw [← String.toList_inj]
      simp
    exact ⟨_, room + 1 + 1, rfl, spelled ▸ outer⟩

end Contribution

namespace Page

def beforeQuery (page : FieldPage) : String :=
  fieldComment page false ++ "describe '" ++ page.name ++ "' do\n  let!(:query) \x7b\n    "

/-- What the literal of a query holds: the query on lines of its own. -/
def literalText (query : String) : String :=
  "\n" ++ query ++ "\n    "

def afterQuery (result : String) : String :=
  "\n  \x7d\n  let!(:result) \x7b\n    \x7b\n      data: \x7b\n" ++ result
    ++ "\n      \x7d,\n      #errors: \x7b\x7d,\n    \x7d\n  \x7d\n  #it 'succeeds' do\n"
    ++ "  #  execute\n  #  expect(response_hash).to eq(result_hash)\n  #end\nend"

theorem fieldSpecText_eq_literal (page : FieldPage) (query result : String)
    : fieldSpecText page query result
      = beforeQuery page ++ "%q\x7b" ++ literalText query ++ "\x7d" ++ afterQuery result := by
  have inFront
      : "' do\n  let!(:query) \x7b\n    %q\x7b\n"
        = "' do\n  let!(:query) \x7b\n    " ++ ("%q\x7b" ++ "\n") := by
    decide
  have behind
      : "\n    \x7d\n  \x7d\n  let!(:result) \x7b\n    \x7b\n      data: \x7b\n"
        = "\n    "
          ++ ("\x7d" ++ "\n  \x7d\n  let!(:result) \x7b\n    \x7b\n      data: \x7b\n") := by
    decide
  unfold fieldSpecText beforeQuery literalText afterQuery
  rw [inFront, behind]
  simp only [String.append_assoc]

/-- The examples of a field begin on a new line, and their last line is not blank. -/
theorem exists_fieldSpecText (page : FieldPage) (query result : String)
    : ∃ inner, (fieldSpecText page query result).toList = '\n' :: inner ++ "end".toList := by
  have comment : ∃ more, fieldComment page false = "\n" ++ more := by
    rw [fieldComment, show "\n# " = "\n" ++ "# " by decide]
    exact ⟨_, by simp only [String.append_assoc]; rfl⟩
  obtain ⟨more, begins⟩ := comment
  rw [fieldSpecText_eq, begins]
  simp only [String.toList_append, ← List.append_assoc]
  exact ⟨_, rfl⟩

/-- The literal of a query stays apart when the examples of a field are indented. -/
theorem indent_fieldSpecText (level : Nat) (page : FieldPage) (query result : String)
    : indent level (fieldSpecText page query result)
      = hang level (beforeQuery page) ++ "%q\x7b" ++ hang level (literalText query) ++ "\x7d"
        ++ hang level (afterQuery result) := by
  have opening : Statement.IsUnbroken "%q\x7b".toList := by decide
  have closing : Statement.IsUnbroken "\x7d".toList := by decide
  have ends : Statement.IsUnbroken "end".toList := by decide
  obtain ⟨inner, spelled⟩ := exists_fieldSpecText page query result
  have whole
      : indent level (fieldSpecText page query result)
        = hang level (fieldSpecText page query result) := by
    rw [indent, hang, spelled, indentChars_eq_hangChars ends (by decide)]
  rw [whole, fieldSpecText_eq_literal, hang_append_mark closing (by decide),
    hang_append_mark opening (by decide)]

end Page

-----------------------------------------------------------------------------------------
-- Literals
-----------------------------------------------------------------------------------------

/-- A text is made of a literal in braces and of what stands in front of it and behind it, and the
literal is read up to the brace that ends it.
-/
structure Ruby.HasLiteral (text front inner back : String) : Prop where
  spelled : text = front ++ "%q\x7b" ++ inner ++ "\x7d" ++ back
  isRead
    : readDescription ("%q\x7b" ++ inner ++ "\x7d" ++ back).toList = some (some inner, back.toList)

theorem Brackets.IsBalanced.hasLiteral {room : Nat} {text front inner back : String}
    (balanced : IsBalanced room inner)
    (spelled : text = front ++ "%q\x7b" ++ inner ++ "\x7d" ++ back)
    : Ruby.HasLiteral text front inner back where
  spelled := spelled
  isRead := by simpa using balanced.readDescription back.toList

/-- The literal of a query holds a balanced text if the query is one. -/
theorem Brackets.IsBalanced.literalText {room : Nat} {query : String}
    (balanced : IsBalanced room query) : IsBalanced room (Page.literalText query) := by
  have feed : IsBalanced room "\n" := .of_isQuiet (by decide)
  exact (feed.append balanced).append (.of_isQuiet (by decide))

-----------------------------------------------------------------------------------------
-- Entries of a response
-----------------------------------------------------------------------------------------

def Entries.each : Entries → List Entries
  | .nil => []
  | .cons name value arguments rest => .cons name value arguments .nil :: rest.each

/-- The response of a field ends in a comma and a line feed. -/
theorem Outline.Responds.exists_front {limit level : Int} {value : Outline} {text : String}
    (responds : Responds limit level value text) : ∃ front, text = front ++ ",\n" := by
  have bracket : "],\n" = "]" ++ ",\n" := by decide
  have both : "\n\x7d],\n" = "\n\x7d]" ++ ",\n" := by decide
  have brace : "\n\x7d,\n" = "\n\x7d" ++ ",\n" := by decide
  cases responds with
  | leaf => exact ⟨_, rfl⟩
  | leaves | innerLeaves => exact ⟨_, by rw [bracket, ← String.append_assoc]⟩
  | items | innerItems => exact ⟨_, by rw [both, ← String.append_assoc]⟩
  | fields => exact ⟨_, by rw [brace, ← String.append_assoc]⟩

namespace Entries

variable (limit level : Int)

/-- The response of one field is its name and what it responds with. -/
theorem result_single (name : Json) (value : Example) (arguments : Entries)
    : (cons name value arguments nil).result limit level
      = name.display ++ ": " ++ value.outline.resultOf limit level := by
  rw [result, outlines, Outlines.result, outlines, Outlines.result, String.append_empty]

/-- The response of fields is that of each field, one behind the other. -/
theorem result_eq_concat
    : (entries : Entries) →
        entries.result limit level
          = Page.concat (entries.each.map fun entry => entry.result limit level)
  | .nil => by
      rw [result, outlines, Outlines.result]
      rfl
  | .cons name value arguments rest => by
      have later := result_eq_concat rest
      rw [each, List.map_cons, Page.concat, List.foldr_cons, result_single, ← Page.concat, ← later]
      rw [result, outlines, Outlines.result]
      rfl

/-- The response of each field ends in a comma and a line feed. -/
theorem exists_front_of_mem_each {entries entry : Entries} (member : entry ∈ entries.each)
    : ∃ front, entry.result limit level = front ++ ",\n" := by
  match entries with
  | .nil => cases member
  | .cons name value arguments rest =>
      rcases List.mem_cons.mp member with rfl | later
      · obtain ⟨front, ends⟩ := (value.outline.responds limit level).exists_front
        exact ⟨_, by rw [result_single, ends, ← String.append_assoc]⟩
      · exact exists_front_of_mem_each later

end Entries

-----------------------------------------------------------------------------------------
-- Examples
-----------------------------------------------------------------------------------------

/-- Every bracket of a text is closed in its turn, whether its comments count as text or not. -/
def Brackets.NestsThroughout (text : String) : Prop :=
  IsWellNested text.toList ∧ IsWellNested (withoutComments false text.toList)

theorem Brackets.IsBalanced.nestsThroughout {room : Nat} {text : String}
    (balanced : IsBalanced room text) : NestsThroughout text :=
  ⟨⟨room, balanced.nestsWithin.1⟩, ⟨room, balanced.nestsWithin.2⟩⟩

/-- The texts of an example are made, and are well nested, down to any limit. -/
structure Entries.Nest (limit : Int) (entries : Entries) : Prop where
  selection
    : ∀ level, ∃ text, entries.selection limit level = .ok text ∧ NestsThroughout text
  arguments : ∃ text, entries.outlines.argumentText = .ok text ∧ NestsThroughout text
  result : ∀ level, NestsThroughout (entries.result limit level)
  /-- The response is that of each field, which ends in a comma and a line feed. -/
  ended
    : ∀ level,
        entries.result limit level
          = Page.concat (entries.each.map fun entry => entry.result limit level)
        ∧ ∀ entry ∈ entries.each, ∃ front, entry.result limit level = front ++ ",\n"
  /-- Without arguments no more braces are open at once than the limit says, but for those of the
  fields at the top.
  -/
  bounded
    : entries.HaveNoArguments →
        (∃ text,
          entries.selection limit = .ok text ∧ NestsWithin (max 1 limit).toNat text.toList)
        ∧ NestsWithin (max 1 limit).toNat (entries.result limit).toList
  /-- The query is one literal of its spec, also where the spec is indented. -/
  query
    : ∀ plan typeName, plan.settings.maxDepth = limit → IsSimple typeName →
        ∃ query,
          Contribution.queryText plan typeName entries = .ok query
          ∧ NestsThroughout query
          ∧ ∀ page result,
              Ruby.HasLiteral (Page.fieldSpecText page query result) (Page.beforeQuery page)
                (Page.literalText query) (Page.afterQuery result)
              ∧ ∀ level,
                  Ruby.HasLiteral (indent level (Page.fieldSpecText page query result))
                    (hang level (Page.beforeQuery page)) (hang level (Page.literalText query))
                    (hang level (Page.afterQuery result))

/-- Examples whose names and leaves are simple have well nested texts. -/
theorem Entries.AreSimple.nest {entries : Entries} (simple : entries.AreSimple) (limit : Int)
    : entries.Nest limit := by
  have outlined := Entries.AreSimple.outlines entries simple
  constructor
  case selection =>
    intro level
    obtain ⟨text, room, selected, balanced, -⟩ := outlined.selection limit level
    exact ⟨text, selected, balanced.nestsThroughout⟩
  case arguments =>
    obtain ⟨texts, room, shown, each⟩ := outlined.arguments
    have comma : IsBalanced room ",\n" := .of_isQuiet (by decide)
    refine ⟨_, ?_, (comma.intercalate each).nestsThroughout⟩
    rw [Outlines.argumentText, shown]
    rfl
  case result =>
    intro level
    exact (Outlines.AreSimple.result limit level _ outlined).nestsThroughout
  case ended =>
    intro level
    exact ⟨entries.result_eq_concat limit level,
      fun entry member => exists_front_of_mem_each limit level member⟩
  case bounded =>
    intro bare
    have top : nesting limit 1 = (max 1 limit).toNat := by
      unfold nesting
      omega
    rw [← top]
    obtain ⟨text, room, selected, balanced, bound⟩ := outlined.selection limit 1
    have within := bound (Entries.HaveNoArguments.outlines entries bare)
    exact ⟨⟨text, selected, (balanced.mono within).nestsWithin.1⟩,
      (Outlines.AreSimple.result limit 1 _ outlined).nestsWithin.1⟩
  case query =>
    rintro plan typeName rfl isName
    obtain ⟨query, room, made, balanced⟩ := Contribution.exists_queryText simple isName
    refine ⟨query, made, balanced.nestsThroughout, fun page result => ⟨?_, fun level => ?_⟩⟩
    · exact balanced.literalText.hasLiteral (Page.fieldSpecText_eq_literal page query result)
    · exact (balanced.literalText.hang level).hasLiteral
        (Page.indent_fieldSpecText level page query result)

def Entries.ofParts : Entries :=
  let part := .single (.string "widget") (.object (.single (.string "name") (.sentinel "Widget")))
  .single (.string "parts") (.list (.connection (.object part)))

theorem Entries.nest_ofWidget
    : ofWidget.AreSimple
      ∧ ofWidget.Nest 4
      ∧ ofParts.AreSimple
      ∧ ofParts.HaveNoArguments
      ∧ (∃ text, ofParts.selection 3 = .ok text ∧ NestsWithin 3 text.toList)
      ∧ NestsWithin 3 (ofParts.result 3).toList := by
  have simple : ofWidget.AreSimple := by
    simp only [ofWidget, single, AreSimple, Example.IsSimple, Json.string.injEq, exists_eq_left']
    decide
  have partsSimple : ofParts.AreSimple := by
    simp only [ofParts, single, AreSimple, Example.IsSimple, Json.string.injEq, exists_eq_left']
    decide
  have bare : ofParts.HaveNoArguments := by
    simp only [ofParts, single, HaveNoArguments, Example.HasNoArguments, and_self]
  exact ⟨simple, simple.nest 4, partsSimple, bare, (partsSimple.nest 3).bounded bare⟩

end RubySchema
