import RubySchema.Example.Query
import RubySchema.Proofs.Outcome

/-!
Texts of examples. What can be written of an outline is told by what can be written of its parts;
where all names and all leaves of an example are texts, its selection can be written.
-/

namespace RubySchema

namespace Json

variable {value : Json}

def IsText (value : Json) : Prop :=
  ∃ text, value = .string text

def IsTextOrNull (value : Json) : Prop :=
  value = .null ∨ value.IsText

instance : DecidablePred IsText
  | .string text => .isTrue ⟨text, rfl⟩
  | .null => .isFalse fun ⟨_, same⟩ => nomatch same
  | .bool _ => .isFalse fun ⟨_, same⟩ => nomatch same
  | .number _ => .isFalse fun ⟨_, same⟩ => nomatch same
  | .array _ => .isFalse fun ⟨_, same⟩ => nomatch same
  | .object _ => .isFalse fun ⟨_, same⟩ => nomatch same

instance : DecidablePred IsTextOrNull :=
  fun value => inferInstanceAs (Decidable (value = .null ∨ value.IsText))

theorem IsText.asText (text : value.IsText) : Succeeds value.asText := by
  obtain ⟨text, rfl⟩ := text
  exact succeeds_ok text

theorem IsTextOrNull.asTextIfAny (text : value.IsTextOrNull) : Succeeds value.asTextIfAny := by
  rcases text with rfl | ⟨text, rfl⟩
  · exact succeeds_ok none
  · exact succeeds_ok (some text)

theorem IsTextOrNull.isText (text : value.IsTextOrNull) (filled : value.isVoid = false)
    : value.IsText := by
  rcases text with rfl | text
  · cases filled
  · exact text

end Json

-----------------------------------------------------------------------------------------
-- What can be written of an outline
-----------------------------------------------------------------------------------------

/-- An item other than a leaf is passed in a list when it is passed. -/
theorem Outline.succeeds_argument_list (item : Outline) (inner : ∀ value, item ≠ .leaf value)
    : Succeeds (Outline.list item).argument ↔ Succeeds item.argument := by
  rw [Outline.argument]
  · exact succeeds_bind_iff fun text => succeeds_ok _
  · exact fun value same => inner value same

theorem Outline.succeeds_argument_object {entries : Outlines}
    : Succeeds (Outline.object entries).argument ↔ Succeeds entries.arguments := by
  rw [Outline.argument]
  exact succeeds_bind_iff fun texts => (succeeds_ok _).ite (succeeds_ok _)

/-- Arguments are passed when the values and the inner arguments are, and the names in front of
inner arguments are texts.
-/
theorem Outlines.succeeds_arguments_cons {name : Json} {value : Outline}
    {arguments rest : Outlines}
    : Succeeds (Outlines.cons name value arguments rest).arguments
      ↔ Succeeds arguments.arguments
        ∧ (arguments.isEmpty = false → Succeeds name.asText)
        ∧ Succeeds value.argument
        ∧ Succeeds rest.arguments := by
  rw [Outlines.arguments]
  constructor
  · rintro ⟨texts, shown⟩
    obtain ⟨inner, innerShown, shown⟩ := bind_eq_ok.mp shown
    cases filled : arguments.isEmpty with
    | true =>
        rw [filled] at shown
        obtain ⟨_, -, shown⟩ := bind_eq_ok.mp shown
        obtain ⟨text, valueShown, shown⟩ := bind_eq_ok.mp shown
        obtain ⟨more, restShown, -⟩ := bind_eq_ok.mp shown
        exact ⟨⟨inner, innerShown⟩, by simp, ⟨text, valueShown⟩, ⟨more, restShown⟩⟩
    | false =>
        rw [filled] at shown
        obtain ⟨key, named, shown⟩ := bind_eq_ok.mp shown
        obtain ⟨_, -, shown⟩ := bind_eq_ok.mp shown
        obtain ⟨text, valueShown, shown⟩ := bind_eq_ok.mp shown
        obtain ⟨more, restShown, -⟩ := bind_eq_ok.mp shown
        exact
          ⟨⟨inner, innerShown⟩, fun _ => ⟨key, named⟩, ⟨text, valueShown⟩, ⟨more, restShown⟩⟩
  · rintro ⟨⟨inner, innerShown⟩, named, ⟨text, valueShown⟩, ⟨more, restShown⟩⟩
    rw [innerShown, valueShown, restShown]
    cases filled : arguments.isEmpty with
    | true => exact succeeds_ok _
    | false =>
        obtain ⟨key, named⟩ := named filled
        rw [named]
        exact succeeds_ok _

theorem Outlines.succeeds_argumentSuffix {arguments : Outlines}
    : Succeeds arguments.argumentSuffix ↔ Succeeds arguments.arguments := by
  cases arguments with
  | nil => exact ⟨fun _ => succeeds_ok [], fun _ => succeeds_ok ""⟩
  | cons name value inner rest =>
      have text
          : Succeeds (Outlines.cons name value inner rest).argumentText
            ↔ Succeeds (Outlines.cons name value inner rest).arguments :=
        succeeds_bind_iff fun texts => succeeds_ok _
      rw [← text]
      exact succeeds_bind_iff fun text => (succeeds_ok _).ite (succeeds_ok _)

/-- An object is selected unless it lies too deep. -/
theorem Outline.succeeds_selectionBody?_object {entries : Outlines} {limit level : Int}
    : Succeeds (Outline.selectionBody? limit level (.object entries))
      ↔ (level < limit → Succeeds (entries.selection limit (level + 1))) := by
  rw [Outline.selectionBody?]
  split
  case isTrue inside =>
    have body
        : Succeeds (entries.selection limit (level + 1) >>= fun text => pure (some text))
          ↔ Succeeds (entries.selection limit (level + 1)) :=
      succeeds_bind_iff fun text => succeeds_ok (some text)
    exact ⟨fun selected _ => body.mp selected, fun selected => body.mpr (selected inside)⟩
  case isFalse below => exact ⟨fun _ inside => absurd inside below, fun _ => succeeds_ok _⟩

/-- Fields are selected when their names are texts and what is behind them can be written. -/
theorem Outlines.succeeds_selection_cons {name : Json} {value : Outline}
    {arguments rest : Outlines} {limit level : Int}
    : Succeeds ((Outlines.cons name value arguments rest).selection limit level)
      ↔ Succeeds name.asText
        ∧ Succeeds arguments.arguments
        ∧ Succeeds (value.selectionBody? limit level)
        ∧ Succeeds (rest.selection limit level) := by
  rw [Outlines.selection, ← Outlines.succeeds_argumentSuffix]
  constructor
  · rintro ⟨text, shown⟩
    obtain ⟨key, named, shown⟩ := bind_eq_ok.mp shown
    obtain ⟨suffix, passed, shown⟩ := bind_eq_ok.mp shown
    obtain ⟨body, selected, shown⟩ := bind_eq_ok.mp shown
    refine ⟨⟨key, named⟩, ⟨suffix, passed⟩, ⟨body, selected⟩, ?_⟩
    cases body with
    | none =>
        obtain ⟨_, -, shown⟩ := bind_eq_ok.mp shown
        obtain ⟨more, shown, -⟩ := bind_eq_ok.mp shown
        exact ⟨more, shown⟩
    | some inner =>
        obtain ⟨_, -, shown⟩ := bind_eq_ok.mp shown
        obtain ⟨more, shown, -⟩ := bind_eq_ok.mp shown
        exact ⟨more, shown⟩
  · rintro ⟨⟨key, named⟩, ⟨suffix, passed⟩, ⟨body, selected⟩, ⟨more, shown⟩⟩
    rw [named, passed, selected, shown]
    cases body with
    | none => exact succeeds_ok _
    | some inner => exact succeeds_ok _

-----------------------------------------------------------------------------------------
-- Textual outlines
-----------------------------------------------------------------------------------------

mutual

def Outline.IsTextual : Outline → Prop
  | .leaf value => value.IsText
  | .cut => True
  | .object entries => entries.AreTextual
  | .list item => item.IsTextual

def Outlines.AreTextual : Outlines → Prop
  | .nil => True
  | .cons name value arguments rest =>
      name.IsText ∧ value.IsTextual ∧ arguments.AreTextual ∧ rest.AreTextual

end

theorem Outline.isTextual_ofText (text : String) : (Outline.ofText text).IsTextual :=
  ⟨text, rfl⟩

/-- A connection around a textual node is textual: its own names and leaves are texts. -/
theorem Outline.IsTextual.ofConnection {node : Outline} (textual : node.IsTextual)
    : (Outline.ofConnection node).IsTextual := by
  have single {name : String} {value : Outline} (here : value.IsTextual)
      : (Outlines.single name value).AreTextual :=
    ⟨⟨name, rfl⟩, here, trivial, trivial⟩
  have page
      : (Outlines.cons (.string "hasNextPage") (.ofText "true") .nil
          (.single "hasPreviousPage" (.ofText "false"))).AreTextual :=
    ⟨⟨_, rfl⟩, isTextual_ofText _, trivial, single (isTextual_ofText _)⟩
  exact ⟨⟨_, rfl⟩, single textual, trivial, single page⟩

mutual

theorem Outline.IsTextual.argument
    : (outline : Outline) → outline.IsTextual → Succeeds outline.argument
  | .leaf value, _ => succeeds_ok value.display
  | .cut, _ => succeeds_ok _
  | .list (.leaf value), textual => by
      obtain ⟨text, rfl⟩ : value.IsText := textual
      exact succeeds_ok _
  | .list .cut, _ => succeeds_ok _
  | .list (.object entries), textual => by
      rw [Outline.succeeds_argument_list (.object entries) nofun]
      exact Outline.IsTextual.argument (.object entries) textual
  | .list (.list item), textual => by
      rw [Outline.succeeds_argument_list (.list item) nofun]
      exact Outline.IsTextual.argument (.list item) textual
  | .object entries, textual =>
      Outline.succeeds_argument_object.mpr (Outlines.AreTextual.arguments entries textual)

theorem Outlines.AreTextual.arguments
    : (outlines : Outlines) → outlines.AreTextual → Succeeds outlines.arguments
  | .nil, _ => succeeds_ok []
  | .cons _ value arguments rest, ⟨isText, textual, argumentsTextual, restTextual⟩ =>
      Outlines.succeeds_arguments_cons.mpr
        ⟨Outlines.AreTextual.arguments arguments argumentsTextual, fun _ => isText.asText,
          Outline.IsTextual.argument value textual, Outlines.AreTextual.arguments rest restTextual⟩

end

mutual

/-- What is selected of a textual outline can be written, whatever the limit. -/
theorem Outline.IsTextual.selectionBody? (limit level : Int)
    : (outline : Outline) → outline.IsTextual → Succeeds (outline.selectionBody? limit level)
  | .leaf _, _ => succeeds_ok none
  | .cut, _ => succeeds_ok _
  | .object entries, textual =>
      Outline.succeeds_selectionBody?_object.mpr fun _ =>
        Outlines.AreTextual.selection limit (level + 1) entries textual
  | .list (.leaf _), _ => succeeds_ok none
  | .list (.object entries), textual =>
      Outline.succeeds_selectionBody?_object.mpr fun _ =>
        Outlines.AreTextual.selection limit (level + 1) entries textual
  | .list .cut, _ => succeeds_ok _
  | .list (.list _), _ => succeeds_ok _

/-- The selection of textual outlines can be written, whatever the limit. -/
theorem Outlines.AreTextual.selection (limit level : Int)
    : (outlines : Outlines) → outlines.AreTextual → Succeeds (outlines.selection limit level)
  | .nil, _ => succeeds_ok ""
  | .cons _ value arguments rest, ⟨isText, textual, argumentsTextual, restTextual⟩ =>
      Outlines.succeeds_selection_cons.mpr
        ⟨isText.asText, Outlines.AreTextual.arguments arguments argumentsTextual,
          Outline.IsTextual.selectionBody? limit level value textual,
          Outlines.AreTextual.selection limit level rest restTextual⟩

end

end RubySchema
