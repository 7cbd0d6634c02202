import RubySchema.Json.Number

/-!
Values of a document. An object keeps its entries in the order in which they were written.
-/

namespace RubySchema

/-- A value of a document. -/
inductive Json where
  | null
  | bool (value : Bool)
  | number (value : Number)
  | string (value : String)
  | array (items : List Json)
  | object (entries : List (String × Json))
  deriving Inhabited, Repr

namespace Json

mutual

/-- Equality of values is decided from the outside in. -/
def decideEq : (a b : Json) → Decidable (a = b)
  | .null, b => by
      cases b
      case null => exact .isTrue rfl
      all_goals exact .isFalse (by simp)
  | .bool x, b => by
      cases b
      case bool y =>
        exact if h : x = y then .isTrue (by rw [h]) else .isFalse (by simpa using h)
      all_goals exact .isFalse (by simp)
  | .number x, b => by
      cases b
      case number y =>
        exact if h : x = y then .isTrue (by rw [h]) else .isFalse (by simpa using h)
      all_goals exact .isFalse (by simp)
  | .string x, b => by
      cases b
      case string y =>
        exact if h : x = y then .isTrue (by rw [h]) else .isFalse (by simpa using h)
      all_goals exact .isFalse (by simp)
  | .array xs, b => by
      cases b
      case array ys =>
        exact match decideItems xs ys with
          | .isTrue h => .isTrue (by rw [h])
          | .isFalse h => .isFalse (by simpa using h)
      all_goals exact .isFalse (by simp)
  | .object xs, b => by
      cases b
      case object ys =>
        exact match decideEntries xs ys with
          | .isTrue h => .isTrue (by rw [h])
          | .isFalse h => .isFalse (by simpa using h)
      all_goals exact .isFalse (by simp)

/-- Equality of lists of values. -/
def decideItems : (xs ys : List Json) → Decidable (xs = ys)
  | [], [] => .isTrue rfl
  | [], _ :: _ => .isFalse (by simp)
  | _ :: _, [] => .isFalse (by simp)
  | x :: xs, y :: ys =>
      match decideEq x y, decideItems xs ys with
      | .isTrue h, .isTrue hs => .isTrue (by rw [h, hs])
      | .isFalse h, _ => .isFalse (by simp [h])
      | _, .isFalse hs => .isFalse (by simp [hs])

def decideEntries : (xs ys : List (String × Json)) → Decidable (xs = ys)
  | [], [] => .isTrue rfl
  | [], _ :: _ => .isFalse (by simp)
  | _ :: _, [] => .isFalse (by simp)
  | (k, x) :: xs, (l, y) :: ys =>
      if hk : k = l then
        match decideEq x y, decideEntries xs ys with
        | .isTrue h, .isTrue hs => .isTrue (by rw [hk, h, hs])
        | .isFalse h, _ => .isFalse (by simp [h])
        | _, .isFalse hs => .isFalse (by simp [hs])
      else .isFalse (by simp [hk])

end

instance : DecidableEq Json :=
  decideEq

/-- Null, false, zero and everything empty are void. -/
def isVoid : Json → Bool
  | .null => true
  | .bool value => !value
  | .number (.integer value) => value == 0
  | .number (.decimal value) => value.digits == 0
  | .number _ => false
  | .string value => value.isEmpty
  | .array items => items.isEmpty
  | .object entries => entries.isEmpty

/-- A text, or null when there is none. -/
def ofText? : Option String → Json
  | none => .null
  | some text => .string text

end Json

end RubySchema
