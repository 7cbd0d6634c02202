import RubySchema.Error
import RubySchema.Json.Key

/-!
Reading parts of a value. A value of the wrong form is found out where a part of it is asked for.
-/

namespace RubySchema.Json

def entries : Json → Except Error (Table Json)
  | .object entries => .ok entries
  | _ => .error .illTyped

/-- The value under a key of an object; a missing one is null. -/
def part (value : Json) (key : String) : Except Error Json := do
  return ((← value.entries).get? key).getD .null

/-- The value under a key that an object must have. -/
def required (value : Json) (key : String) : Except Error Json := do
  match (← value.entries).get? key with
  | some found => return found
  | none => throw (.missingKey key)

/-- What a value holds one by one: items of a list, characters of a text, keys of an object. -/
def elements : Json → Except Error (List Json)
  | .array items => .ok items
  | .string text => .ok ((Text.points text).map fun point => .string (Text.ofPoints [point]))
  | .object entries => .ok (entries.map fun entry => .string entry.1)
  | _ => .error .illTyped

/-- What a value holds one by one; a void value holds nothing. -/
def elementsIfAny (value : Json) : Except Error (List Json) :=
  if value.isVoid then .ok [] else value.elements

/-- The text that a value must be. -/
def asText : Json → Except Error String
  | .string text => .ok text
  | _ => .error .illTyped

/-- The text that a value must be unless it is null. -/
def asTextIfAny : Json → Except Error (Option String)
  | .null => .ok none
  | .string text => .ok (some text)
  | _ => .error .illTyped

end RubySchema.Json
