import RubySchema.Text.Classes

/-!
Control sequences, by which a text would colour what a terminal shows. They are left out of what is
printed.
-/

namespace RubySchema.Text

/-- What may stand between the bracket and the letter of a control sequence. -/
def isControlParameter (c : Char) : Bool :=
  isAsciiDigit c || c == ';' || c == '?'

/-- The length of the control sequence in front of a text: an escape character, a bracket,
parameters and a letter. It is zero where there is no such sequence.
-/
def controlLength : List Char → Nat
  | '\x1b' :: '[' :: rest =>
      match rest.dropWhile isControlParameter with
      | c :: after => if isCapital c || isSmall c then rest.length + 2 - after.length else 0
      | [] => 0
  | _ => 0

/-- A text without control sequences, of which the first characters are skipped. -/
def withoutControlsFrom (skipped : Nat) : List Char → List Char
  | [] => []
  | c :: rest =>
      match skipped, controlLength (c :: rest) with
      | skipped + 1, _ => withoutControlsFrom skipped rest
      | 0, length + 1 => withoutControlsFrom length rest
      | 0, 0 => c :: withoutControlsFrom 0 rest

def withoutControls (text : String) : String :=
  String.ofList (withoutControlsFrom 0 text.toList)

end RubySchema.Text
