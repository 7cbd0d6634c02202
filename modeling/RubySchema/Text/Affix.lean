import RubySchema.Text.Halves

/-!
Beginnings and ends of texts.
-/

namespace RubySchema.Text

def startsWith (text start : String) : Bool :=
  start.toList.isPrefixOf text.toList

/-- The text ends with `final`, code point by code point. -/
def endsWith (text final : String) : Bool :=
  (points final).isSuffixOf (points text)

/-- The text after `start`, when it begins with it. -/
def afterStart? (start text : List Char) : Option (List Char) :=
  if start.isPrefixOf text then some (text.drop start.length) else none

/-- The text before `final`, when it ends with it. -/
def beforeEnd? (final text : List Char) : Option (List Char) :=
  if final.isSuffixOf text then some (text.take (text.length - final.length)) else none

/-- The text holds `part` somewhere. -/
def contains (part : List Char) : List Char → Bool
  | [] => part.isEmpty
  | c :: rest => part.isPrefixOf (c :: rest) || contains part rest

end RubySchema.Text
