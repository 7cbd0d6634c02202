import RubySchema.Artifacts
import RubySchema.Proofs.Constants
import RubySchema.Proofs.Naming.Separators

/-!
File paths of generated names. The path of a type with a usual name is that of a directory, which
tells the category of the type, and one name below it.
-/

namespace RubySchema

open Text

namespace Naming

variable {name word : List Char}

/-- The lower case of a usual name is one as well. -/
theorem usual_of_mem_lower
    (usual : ∀ c ∈ name, (isCapital c || isSmall c || isAsciiDigit c || c == '_') = true)
    : ∀ d ∈ lower name, (isCapital d || isSmall d || isAsciiDigit d || d == '_') = true := by
  have ascii : ∀ c ∈ name, c.toNat < 0x80 := fun c member => toNat_lt_of_usual (usual c member)
  rw [lower_of_ascii ascii]
  intro d member
  obtain ⟨c, among, rfl⟩ := List.mem_map.mp member
  exact forall_ascii
    (fun c => (isCapital c || isSmall c || isAsciiDigit c || c == '_') = true
      → (isCapital c.toLower || isSmall c.toLower || isAsciiDigit c.toLower
          || c.toLower == '_') = true)
    (by decide) (ascii c among) (usual c among)

/-- The snake case of a usual name is a usual name. -/
theorem isGraphQL_snakeCase {stem : String} (graphQL : TypeName.IsGraphQL stem)
    : TypeName.IsGraphQL (snakeCase stem) := by
  unfold TypeName.IsGraphQL
  rw [snakeCase, String.toList_ofList]
  apply usual_of_mem_lower
  intro c member
  rcases List.mem_cons.mp ((separated_separate _).subset member) with rfl | member
  · decide
  · exact graphQL c member

/-- No slash comes into the snake case of a usual name. -/
theorem slash_not_mem_snakeCase {stem : String} (graphQL : TypeName.IsGraphQL stem)
    : '/' ∉ (snakeCase stem).toList := by
  intro member
  exact absurd (isGraphQL_snakeCase graphQL '/' member) (by decide)

end Naming

def Category.directory (category : Category) : String :=
  Naming.snakeCase category.word

theorem Category.directory_injective {category other : Category}
    (same : category.directory = other.directory) : category = other := by
  cases category <;> cases other <;> revert same <;> decide

/-- The file path of a usual name within a category lies in the directory of the category. -/
theorem Naming.filePath_category (category : Category) {stem : String}
    (graphQL : TypeName.IsGraphQL stem)
    : filePath (category.word ++ "::" ++ stem)
      = category.directory ++ "/" ++ snakeCase stem := by
  have wordFree : ':' ∉ category.word.toList := by
    cases category <;> decide
  have stemFree : ':' ∉ stem.toList := fun member => absurd (graphQL ':' member) (by decide)
  have spelled
      : (category.word ++ "::" ++ stem).toList
        = category.word.toList ++ ':' :: ':' :: stem.toList := by
    simp
  rw [filePath, spelled, constantParts_append wordFree, constantParts_of_free stemFree,
    ← String.toList_inj]
  simp [Category.directory, snakeCase]

/-- Users get a spec for the types and the interfaces. -/
theorem Artifacts.spec_mem_kindsFor (category : Category) (stem : String)
    : DocumentKind.spec ∈ kindsFor (category.word ++ "::" ++ stem)
      ↔ category = .types ∨ category = .interfaces := by
  cases category <;> simp [kindsFor, startsWith, Category.word]

/-- A type with a usual name has a usual name within its category. -/
theorem TypeName.IsGraphQL.categorize {name : String} (graphQL : IsGraphQL name) (kind : TypeKind)
    : IsGraphQL (categorize kind name).2 :=
  fun c member => graphQL c (categorize_subset kind name member)

end RubySchema
