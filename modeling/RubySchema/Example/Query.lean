import RubySchema.Example.Basic
import RubySchema.Text.Lines

/-!
Texts of examples: the selection of a query with its arguments, and the entries of the response that
the query expects. Both stop at a depth and mark the place. A value that is no text is shown as in a
message; a selection refuses it as the name of a field, as an item, and in front of parentheses.
-/

namespace RubySchema

open Text

/-- What stands in place of anything deeper than the limit. -/
def ellipsis : String := "# ..."

mutual

def Outline.argument : Outline → Except Error String
  | .leaf value => .ok value.display
  | .cut => .ok "\x7b...\x7d"
  | .list item => do
      if let .leaf value := item then
        let _ ← value.asText
      return "[" ++ (← item.argument) ++ "]"
  | .object entries => do
      let inner := ",\n".intercalate (← entries.arguments)
      if isMultiline inner then return "\x7b\n" ++ indent 1 inner ++ "\n\x7d"
      else return "\x7b" ++ inner ++ "\x7d"

/-- Arguments with their names. -/
def Outlines.arguments : Outlines → Except Error (List String)
  | .nil => .ok []
  | .cons name value arguments rest => do
      let inner := ",\n".intercalate (← arguments.arguments)
      let key ←
        if arguments.isEmpty then pure name.display
        else pure ((← name.asText) ++ "(" ++ inner ++ ")")
      let first := key ++ ": " ++ (← value.argument)
      return first :: (← rest.arguments)

end

/-- Arguments as they are passed together; several stand on a line each. -/
def Outlines.argumentText (entries : Outlines) : Except Error String := do
  return ",\n".intercalate (← entries.arguments)

/-- The arguments behind a field, in parentheses; nothing when there are none. -/
def Outlines.argumentSuffix (arguments : Outlines) : Except Error String := do
  if arguments.isEmpty then return ""
  else
    let text ← arguments.argumentText
    if isMultiline text then return "(\n" ++ indent 1 text ++ "\n)"
    else return "(" ++ text ++ ")"

mutual

/-- What is selected of a field; a leaf needs no selection. A query selects through one list. -/
def Outline.selectionBody? (limit level : Int) : Outline → Except Error (Option String)
  | .leaf _ => .ok none
  | .object entries => do
      if level < limit then return some (← entries.selection limit (level + 1))
      else return some ("\n" ++ ellipsis)
  | .list (.leaf _) => .ok none
  | .list (.object entries) => do
      if level < limit then return some (← entries.selection limit (level + 1))
      else return some ("\n" ++ ellipsis)
  | _ => .ok (some ("\n" ++ ellipsis))

/-- The selection of fields, each on a new line. -/
def Outlines.selection (limit level : Int) : Outlines → Except Error String
  | .nil => .ok ""
  | .cons name value arguments rest => do
      let key := "\n" ++ (← name.asText) ++ (← arguments.argumentSuffix)
      let field ←
        match ← value.selectionBody? limit level with
        | none => pure key
        | some inner => pure (key ++ " \x7b" ++ indent 1 inner ++ "\n\x7d")
      return field ++ (← rest.selection limit level)

end

mutual

/-- What a nested object responds with, below the level of its field. -/
def Outline.nestedResult (limit level : Int) : Outline → String
  | .object entries =>
      if level < limit then entries.result limit (level + 1) else ellipsis
  | _ => ellipsis

/-- The response of a field, behind its name. -/
def Outline.resultOf (limit level : Int) : Outline → String
  | .leaf value => value.display ++ ",\n"
  | .list (.leaf value) => "[" ++ value.display ++ "],\n"
  | .list (.list (.leaf value)) => "[" ++ value.display ++ "],\n"
  | .list (.list item) => "[\x7b\n" ++ indent 1 (item.nestedResult limit level) ++ "\n\x7d],\n"
  | .list item => "[\x7b\n" ++ indent 1 (item.nestedResult limit level) ++ "\n\x7d],\n"
  | value => "\x7b\n" ++ indent 1 (value.nestedResult limit level) ++ "\n\x7d,\n"

/-- The response of fields, each ending in a comma and a new line. -/
def Outlines.result (limit level : Int) : Outlines → String
  | .nil => ""
  | .cons name value _ rest =>
      name.display ++ ": " ++ value.resultOf limit level ++ rest.result limit level

end

namespace Entries

/-- The selection of fields, from a level of nesting on. -/
def selection (limit : Int) (entries : Entries) (level : Int := 1) : Except Error String :=
  entries.outlines.selection limit level

/-- The response of fields, from a level of nesting on. -/
def result (limit : Int) (entries : Entries) (level : Int := 1) : String :=
  entries.outlines.result limit level

end Entries

end RubySchema
