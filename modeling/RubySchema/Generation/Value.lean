import RubySchema.Error
import RubySchema.Table

/-!
What templates see: data of a document, choices, lists and records. A value shows itself as a text,
and a template may ask for a part of it by name, or for an item by position.
-/

namespace RubySchema

/-- A value that a template sees. A choice is one of several of a kind, by a name and with a text. A
record has a kind, the parts that it shows, and further ones.
-/
inductive Value where
  | data (value : Json)
  | choice (kind name text : String) (isText : Bool)
  | list (items : List Value)
  | record (kind : String) (parts further : List (String × Value))
  deriving Inhabited

/-- A step into a value. -/
inductive Step where
  | part (name : String)
  | item (position : Nat)
  deriving DecidableEq, Repr, Inhabited

namespace Value

def ofText (text : String) : Value :=
  .data (.string text)

def ofText? (text : Option String) : Value :=
  .data (Json.ofText? text)

def ofBool (value : Bool) : Value :=
  .data (.bool value)

def ofTexts (texts : List String) : Value :=
  .data (.array (texts.map .string))

mutual

/-- A value inside another. -/
def inspect : Value → String
  | .data value => value.inspect
  | .choice kind name text _ => "<" ++ kind ++ "." ++ name ++ ": " ++ Text.quoted text ++ ">"
  | .list items => "[" ++ ", ".intercalate (inspectItems items) ++ "]"
  | .record kind parts _ => kind ++ "(" ++ ", ".intercalate (inspectParts parts) ++ ")"

def inspectItems : List Value → List String
  | [] => []
  | item :: rest => inspect item :: inspectItems rest

/-- Parts of a record under their names. -/
def inspectParts : List (String × Value) → List String
  | [] => []
  | (name, value) :: rest => (name ++ "=" ++ inspect value) :: inspectParts rest

end

/-- A value that stands alone. -/
def display : Value → String
  | .data value => value.display
  | .choice kind name _ _ => kind ++ "." ++ name
  | value => value.inspect

def part? : Value → String → Option Value
  | .data (.object entries), name => (Table.get? entries name).map .data
  | .choice _ own text _, name =>
      if name == "name" then some (ofText own)
      else if name == "value" then some (ofText text)
      else none
  | .record _ parts further, name => Table.get? (parts ++ further) name
  | _, _ => none

def characterOf? (text : String) (position : Nat) : Option Value :=
  (Text.points text)[position]?.map fun point => ofText (Text.ofPoints [point])

/-- The item at a position, from zero on. -/
def item? : Value → Nat → Option Value
  | .data (.array items), position => items[position]?.map .data
  | .data (.string text), position => characterOf? text position
  | .choice _ _ text true, position => characterOf? text position
  | .list items, position => items[position]?
  | _, _ => none

def step? (value : Value) : Step → Option Value
  | .part name => value.part? name
  | .item position => value.item? position

/-- The text of what steps lead to. What is not there has no text, and no step leads on from it. -/
def textAlong : Option Value → List Step → Except Error String
  | none, [] => .ok ""
  | none, _ :: _ => .error .undefinedVariable
  | some value, [] => .ok value.display
  | some value, step :: rest => textAlong (value.step? step) rest

end Value

end RubySchema
