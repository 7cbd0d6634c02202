import RubySchema.Generation.Output
import RubySchema.Proofs.Generation.Layout
import RubySchema.Proofs.Halves

/-!
The names in the opening of a schema definition have no half of a surrogate pair when the file can
be written. A half in a file stops the run that writes it, so the files of a run that is not stopped
have none, and neither has anything that their texts are made of.
-/

namespace RubySchema

open Text

/-- Files that have all been written or kept have no half, but for those that users may edit. By
induction on the files.
-/
theorem Output.hasHalf_of_writeFiles {output : Output} {directory : Path} {overwrite : Bool}
    {files : List GeneratedFile}
    (done : (output.writeFiles directory overwrite files).2 = none)
    : ∀ file ∈ files, file.isEditable = false → hasHalf file.content = false := by
  induction files generalizing output with
  | nil => exact fun _ member => nomatch member
  | cons file rest ih =>
      unfold writeFiles at done
      cases written : output.writeFile directory overwrite file with
      | mk next failure =>
      rw [written] at done
      cases failure with
      | some cause => cases done
      | none =>
          rw [List.forall_mem_cons]
          refine ⟨fun fixed => ?_, ih done⟩
          rw [← unencodable?_eq_none_iff]
          unfold writeFile isKept at written
          simp only [fixed, Bool.false_and, Bool.false_eq_true, if_false] at written
          cases encoded : unencodable? isHalf file.content with
          | none => rfl
          | some cause =>
              rw [encoded] at written
              split at written <;> cases written

/-- The text of a file has the halves of what it was before the header. -/
theorem FileHeader.hasHalf_of_apply {header : FileHeader} {name text : String}
    (whole : hasHalf (header.apply name text) = false) : hasHalf text = false := by
  have below (rest : String) : hasHalf (header.block ++ rest) = false → hasHalf rest = false := by
    unfold block
    rw [hasHalf_append_append (by decide) (by decide), Bool.or_eq_false_iff]
    exact And.right
  unfold apply at whole
  split at whole
  case isTrue => exact whole
  case isFalse =>
    split at whole
    case h_1 rest magic =>
      obtain ⟨starts, cut⟩ := Option.ite_none_right_eq_some.mp magic
      obtain ⟨more, spelled⟩ := List.isPrefixOf_iff_prefix.mp starts
      rw [← spelled, List.drop_left] at cut
      cases cut
      have parted : text = magicComment ++ String.ofList rest := by
        rw [← String.toList_inj, String.toList_append, String.toList_ofList, spelled]
      rw [String.append_assoc, hasHalf_ascii_append (by decide)] at whole
      rw [parted, hasHalf_ascii_append (by decide)]
      exact below _ whole
    case h_2 => exact below text whole

/-- The text of a file has the halves of what it was before all headers, by induction on the
headers.
-/
theorem Hooks.hasHalf_of_applyHeaders {hooks : Hooks} {name text : String}
    (whole : hasHalf (hooks.applyHeaders name text) = false) : hasHalf text = false := by
  have all (headers : List FileHeader) (text : String)
      (whole
        : hasHalf (headers.foldl (fun current header => header.apply name current) text) = false)
      : hasHalf text = false := by
    induction headers generalizing text with
    | nil => exact whole
    | cons header rest ih => exact FileHeader.hasHalf_of_apply (ih _ whole)
  exact all hooks.headers text whole

/-- Lines of a text have no half when the text has none. -/
theorem Text.StandsBetween.hasHalf_eq {front text back whole : String}
    (stands : StandsBetween front text back whole) (encodable : hasHalf whole = false)
    : hasHalf text = false := by
  obtain ⟨same, opens, closes⟩ := stands
  have ascii : IsAscii "\n" := by decide
  have below : hasHalf (text ++ back) = false := by
    rcases opens with rfl | ⟨above, rfl⟩
    · rwa [same, String.empty_append] at encodable
    · rw [same, String.append_assoc, hasHalf_append_append ascii (by decide),
        Bool.or_eq_false_iff] at encodable
      exact encodable.2
  rcases closes with rfl | ⟨rest, rfl⟩
  · rwa [String.append_empty] at below
  · rw [← String.append_assoc, hasHalf_append_append ascii (by decide),
      Bool.or_eq_false_iff] at below
    exact below.1

/-- A document that is rendered without a half has none in its texts. -/
theorem Document.hasHalf_of_render {document : Document} {place : Section} {text : String}
    (whole : hasHalf document.render = false) (member : text ∈ document.fragments place)
    : hasHalf text = false := by
  cases filled : text.isEmpty with
  | true =>
      rw [String.isEmpty_iff.mp filled]
      decide
  | false =>
      obtain ⟨front, back, stands⟩ := document.exists_standsBetween member filled
      exact stands.hasHalf_eq whole

/-- The opening of a definition has the halves of the names that it is made from. -/
theorem Page.hasHalf_schemaHeaderText {modules : Modules} {mapping : NameMapping}
    {description : String}
    (whole : hasHalf (schemaHeaderText modules mapping description) = false)
    : hasHalf mapping.schemaName = false
      ∧ hasHalf mapping.targetName = false
      ∧ hasHalf (mapping.baseType.getD "None") = false := by
  unfold schemaHeaderText at whole
  dsimp only at whole
  rw [hasHalf_append_append (by decide) (by decide), hasHalf_append_append (by decide) (by decide)]
    at whole
  simp only [Bool.or_eq_false_iff] at whole
  obtain ⟨⟨opening, name⟩, -⟩ := whole
  refine ⟨name, ?_⟩
  split at opening
  all_goals
    rw [hasHalf_append_of_ascii (by decide), hasHalf_append_append (by decide) (by decide),
      hasHalf_ascii_append (by decide), hasHalf_append_append (by decide) (by decide),
      hasHalf_append_append (by decide) (by decide)] at opening
    simp only [Bool.or_eq_false_iff] at opening
    exact ⟨opening.1.2, opening.2.2⟩

end RubySchema
