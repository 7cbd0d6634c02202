import Mathlib.Data.List.Nodup
import RubySchema.Proofs.Table
import RubySchema.Schema.Basic

/-!
Types by their names. Of several types of one name the last one stands for the name.
-/

namespace RubySchema

/-- A value is the name of a text only if it is that text. -/
theorem Json.isSame_string {value : Json} {name : String}
    : value.isSame (.string name) = true ↔ value = .string name := by
  cases value <;> simp [Json.isSame, Json.number?]

namespace Schema

variable {schema first second : Schema} {name : String} {type : TypeDef}

theorem typeNamed?_eq_some (found : schema.typeNamed? (.string name) = some type)
    : type ∈ schema.types ∧ type.name = .string name := by
  unfold typeNamed? at found
  have same := List.find?_some found
  exact ⟨List.mem_reverse.mp (List.mem_of_find?_eq_some found), Json.isSame_string.mp same⟩

theorem typeNamed?_eq_none (absent : schema.typeNamed? (.string name) = none)
    (member : type ∈ schema.types) : type.name ≠ .string name := by
  intro named
  have different := List.find?_eq_none.mp absent type (List.mem_reverse.mpr member)
  exact different (Json.isSame_string.mpr named)

theorem typeNamed?_perm (perm : first.types.Perm second.types)
    (distinct : (first.types.map TypeDef.name).Nodup) (name : String)
    : first.typeNamed? (.string name) = second.typeNamed? (.string name) := by
  unfold typeNamed?
  apply find?_perm
    ((List.reverse_perm first.types).trans (perm.trans (List.reverse_perm second.types).symm))
  intro a aMember b bMember aSame bSame
  apply List.inj_on_of_nodup_map distinct (List.mem_reverse.mp aMember)
    (List.mem_reverse.mp bMember)
  exact (Json.isSame_string.mp aSame).trans (Json.isSame_string.mp bSame).symm

end Schema

end RubySchema
