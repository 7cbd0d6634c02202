import RubySchema.Text.Classes

/-!
Ruby literals. A description is written between the braces of `%q`, a default value as a bare token
or between single quotes; either can be read back from the first character to the last.
-/

namespace RubySchema.Ruby

open RubySchema.Text

/-- A text for use between the braces of `%q`: backslashes and braces are escaped. -/
def escapePercent : List Char → List Char
  | [] => []
  | c :: rest =>
      if c == '\\' || c == '\x7b' || c == '\x7d' then '\\' :: c :: escapePercent rest
      else c :: escapePercent rest

/-- A text for use between single quotes: backslashes and quotes are escaped. -/
def escapeQuoted : List Char → List Char
  | [] => []
  | c :: rest =>
      if c == '\\' || c == '\x27' then '\\' :: c :: escapeQuoted rest else c :: escapeQuoted rest

/-- A description as a literal; one that is missing is `nil`. -/
def description : Option String → String
  | none => "nil"
  | some text => "%q\x7b" ++ String.ofList (escapePercent text.toList) ++ "\x7d"

/-- Digits, with at most one point that has digits on both sides. -/
def isPlainNumber (text : List Char) : Bool :=
  let whole := text.takeWhile isDecimal
  let rest := text.dropWhile isDecimal
  !whole.isEmpty
    && match rest with
      | [] => true
      | c :: fraction => c == '.' && !fraction.isEmpty && fraction.all isDecimal

/-- Default values that stand as they are: plain numbers and the two truth values. -/
def isBare (text : String) : Bool :=
  text == "true" || text == "false" || isPlainNumber text.toList

/-- A default value as a literal; one that is missing is `nil`. -/
def defaultValue : Option String → String
  | none => "nil"
  | some text =>
      if isBare text then text else "'" ++ String.ofList (escapeQuoted text.toList) ++ "'"

end RubySchema.Ruby
