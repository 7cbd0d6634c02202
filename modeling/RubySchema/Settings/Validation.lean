import RubySchema.Json.Reader
import RubySchema.Naming
import RubySchema.Settings.Basic
import RubySchema.Text.Lines

/-!
Settings from a document. Each entry is checked by itself, and every entry that does not pass is
reported. Numbers and truth values may also be written as texts.
-/

namespace RubySchema

open Text

/-- What is wrong with a document of settings, or with an entry of it. -/
inductive Fault where
  | malformed
  | notAnObject
  | notText
  | brokenText
  | notInteger
  | unreadableInteger
  | oversizedInteger
  | fractionalInteger
  | infiniteInteger
  | belowOne
  | notTruth
  | unreadableTruth
  | notMap
  | notConstantPath (text : String)
  | absoluteDirectory
  deriving DecidableEq, Repr, Inhabited

/-- What a rule of the settings has to say on a value that it refuses; faults of form have no text.
-/
def Fault.text? : Fault → Option String
  | .notConstantPath text => some ("'" ++ text ++ "' is not a Ruby constant path")
  | .absoluteDirectory => some "output sub-directories must be relative"
  | _ => none

/-- A fault and where it lies. -/
structure Issue where
  place : List String
  fault : Fault
  deriving DecidableEq, Repr, Inhabited

/-- What keeps issues from being told: half of a surrogate pair in what a rule has to say. -/
def untold? (issues : List Issue) : Option Error :=
  issues.findSome? fun issue => issue.fault.text?.bind (unencodable? isHalf)

/-- The outcome of checking one value. -/
abbrev Checked (α : Type) :=
  Except (List Issue) α

namespace Settings

/-- A value with a single fault. -/
def fault {α : Type} (place : List String) (fault : Fault) : Checked α :=
  .error [⟨place, fault⟩]

def checkText (place : List String) : Json → Checked String
  | .string text => .ok text
  | _ => fault place .notText

def checkTextIfAny (place : List String) : Json → Checked (Option String)
  | .null => .ok none
  | value => do return some (← checkText place value)

/-- A part of a constant path: a capital and any characters of a word. -/
def isConstantName : List Char → Bool
  | [] => false
  | c :: rest => isCapital c && rest.all isWord

/-- Constant names joined by double colons, with two more in front if the path is absolute; one line
feed may follow.
-/
def isConstantPath (text : List Char) : Bool :=
  let body := (beforeEnd? ['\n'] text).getD text
  let relative := (afterStart? [':', ':'] body).getD body
  (Naming.constantParts relative).all isConstantName

def checkConstantPath (place : List String) (value : Json) : Checked String := do
  let text ← checkText place value
  if isConstantPath text.toList then return text else fault place (.notConstantPath text)

/-- A directory inside another; slashes at its end are dropped. -/
def checkDirectory (place : List String) (value : Json) : Checked String := do
  let text ← checkText place value
  if startsWith text "/" then fault place .absoluteDirectory
  else return String.ofList (trim (· == '/') text.toList)

/-- Every underscore has something other than an underscore on either side. -/
def isGrouped (text : List Char) : Bool :=
  (splitOn '_' text).all fun part => !part.isEmpty

/-- Blanks around a number, of which the information separators are none. -/
def isNumberSpace (c : Char) : Bool :=
  isBlank c && !(28 ≤ c.toNat && c.toNat ≤ 31)

/-- A text without the zeros in front, and without the underscores among them. Where nothing else
follows, its last character stays. None when something other than a digit or a minus sign comes
first or follows.
-/
def dropZeros? (text : List Char) : Option (List Char) :=
  let rest := if text.head? == some '0' then text.dropWhile fun c => c == '0' || c == '_' else text
  match rest with
  | [] => text.getLast?.map fun last => [last]
  | c :: _ => if isAsciiDigit c || c == '-' then some rest else none

/-- A text without a point at its end that has zeros after it, one at least. -/
def dropFraction (text : List Char) : List Char :=
  match text.dropWhile (· != '.') with
  | '.' :: '0' :: rest => if rest.all (· == '0') then text.takeWhile (· != '.') else text
  | _ => text

/-- A text without a plus sign in front; none when a minus sign follows the plus. -/
def dropPlus? : List Char → Option (List Char)
  | '+' :: '-' :: _ => none
  | '+' :: rest => some rest
  | text => some text

/-- A minus sign in front, and the text behind it. -/
def readMinus : List Char → Bool × List Char
  | '-' :: rest => (true, rest)
  | text => (false, text)

/-- The digits of the integer that a text spells, and its sign. Blanks around it, a plus sign, zeros
in front and a fraction of zeros count for nothing, and single underscores may part its digits. The
zeros stand behind a minus sign or in front of it, but not on both sides.
-/
def spelledInteger? (text : String) : Option (Bool × List Char) := do
  let unsigned ← dropPlus? (trim isNumberSpace text.toList)
  let (isNegative, body) := readMinus (dropFraction unsigned)
  let significant ← dropZeros? body
  if isGrouped significant then
    let number := significant.filter (· != '_')
    let (isNegative, digits) := if isNegative then (true, number) else readMinus number
    if !digits.isEmpty && digits.all isAsciiDigit then some (isNegative, digits) else none
  else none

/-- A text that begins with more digits than an integer can have, whatever follows them. -/
def isOversized (text : String) : Bool :=
  let digits := (readMinus text.toList).2
  digits.head? != some '0' && Json.maxDigits < (digits.takeWhile isAsciiDigit).length

def readInteger (place : List String) (text : String) : Checked Int :=
  if hasHalf text then fault place .brokenText
  else if isOversized text then fault place .oversizedInteger
  else
    match spelledInteger? text with
    | none => fault place .unreadableInteger
    | some (isNegative, digits) =>
        if Json.maxDigits < digits.length then fault place .unreadableInteger
        else
          let size : Int := Json.digitsValue digits
          .ok (if isNegative then -size else size)

/-- Numbers with a fraction count as integers only between these bounds, which are not included. -/
def floatBound : Int := Int.pow 2 63

/-- An integer, which may also be written as a text, a truth value, or a number with an empty
fraction.
-/
def checkInteger (place : List String) : Json → Checked Int
  | .number (.integer value) => .ok value
  | .number (.decimal value) =>
      match value.integer? with
      | none => fault place .fractionalInteger
      | some size =>
          if -floatBound < size && size < floatBound then .ok size
          else fault place .oversizedInteger
  | .number _ => fault place .infiniteInteger
  | .bool value => .ok (if value then 1 else 0)
  | .string text => readInteger place text
  | _ => fault place .notInteger

/-- An integer that is at least one. -/
def checkPositive (place : List String) (value : Json) : Checked Int := do
  let number ← checkInteger place value
  if number < 1 then fault place .belowOne else return number

def trueWords : List String := ["1", "on", "t", "true", "y", "yes"]

def falseWords : List String := ["0", "off", "f", "false", "n", "no"]

/-- The truth value that an integer stands for. -/
def truthOfInteger (place : List String) (value : Int) : Checked Bool :=
  if value == 0 then .ok false
  else if value == 1 then .ok true
  else if -floatBound ≤ value && value < floatBound then fault place .unreadableTruth
  else fault place .notTruth

/-- A truth value, which may also be written as a number or a word. -/
def checkTruth (place : List String) : Json → Checked Bool
  | .bool value => .ok value
  | .number (.integer value) => truthOfInteger place value
  | .number (.decimal value) =>
      match value.integer? with
      | none => fault place .notTruth
      | some size =>
          if size == -floatBound then fault place .notTruth else truthOfInteger place size
  | .string text =>
      let word := lowerString text
      if hasHalf text then fault place .brokenText
      else if trueWords.contains word then .ok true
      else if falseWords.contains word then .ok false
      else fault place .unreadableTruth
  | _ => fault place .notTruth

def issuesOf {α : Type} : Checked α → List Issue
  | .ok _ => []
  | .error issues => issues

/-- A map whose values pass a check; the issues of all values are reported, those of a repeated key
every time, under keys as they can be shown. The last value of a key stands.
-/
def checkMap {α : Type} (place : List String) (check : List String → Json → Checked α)
    : Json → Checked (Table α)
  | .object entries =>
      let outcomes := entries.map fun entry => (entry.1, check (place ++ [shown entry.1]) entry.2)
      let issues := outcomes.flatMap fun outcome => issuesOf outcome.2
      if issues.isEmpty then
        .ok (Table.ofEntries (outcomes.filterMap fun outcome =>
          outcome.2.toOption.map fun value => (outcome.1, value)))
      else .error issues
  | _ => fault place .notMap

/-- The check of an entry; an entry that is missing has its standard value. -/
def checkEntry {α : Type} (entries : Table Json) (key : String) (standard : α)
    (check : List String → Json → Checked α) : Checked α :=
  match Table.get? entries key with
  | none => .ok standard
  | some value => check [key] value

/-- The settings that entries of a document give, or all that is wrong with them. Entries of other
names count for nothing.
-/
def ofEntries (entries : Table Json) : Checked Settings :=
  let namespaceName := checkEntry entries "namespace" standard.namespaceName checkConstantPath
  let builtinNamespace :=
    checkEntry entries "builtin_namespace" standard.builtinNamespace checkConstantPath
  let maxDepth := checkEntry entries "max_depth" standard.maxDepth checkPositive
  let overwrite := checkEntry entries "overwrite" standard.overwrite checkTruth
  let libDir := checkEntry entries "lib_dir" standard.libDir checkDirectory
  let specDir := checkEntry entries "spec_dir" standard.specDir checkDirectory
  let factories :=
    checkEntry entries "factories" standard.factories fun place => checkMap place checkTextIfAny
  let baseTypeOverrides :=
    checkEntry entries "base_type_overrides" standard.baseTypeOverrides fun place =>
      checkMap place checkText
  let templateDir := checkEntry entries "template_dir" standard.templateDir checkTextIfAny
  let issues :=
    issuesOf namespaceName ++ issuesOf builtinNamespace ++ issuesOf maxDepth ++ issuesOf overwrite
      ++ issuesOf libDir ++ issuesOf specDir ++ issuesOf factories
      ++ issuesOf baseTypeOverrides ++ issuesOf templateDir
  if issues.isEmpty then do
    return {
      namespaceName := ← namespaceName
      builtinNamespace := ← builtinNamespace
      maxDepth := ← maxDepth
      overwrite := ← overwrite
      libDir := ← libDir
      specDir := ← specDir
      factories := ← factories
      baseTypeOverrides := ← baseTypeOverrides
      templateDir := ← templateDir
    }
  else .error issues

/-- The settings that a document gives; the last entry of a name counts. -/
def ofDocument : Json → Checked Settings
  | .object entries => ofEntries (Table.ofEntries entries)
  | _ => fault [] .notAnObject

/-- The settings that the text of a file gives. -/
def ofText (text : String) : Checked Settings :=
  match Json.read .settings text with
  | .error _ => fault [] .malformed
  | .ok document => ofDocument document

/-- The settings with some entries replaced by others, which are checked like those of a document.
-/
def withEntries (settings : Settings) (changes : Table Json) : Checked Settings :=
  ofEntries
    (changes.foldl (fun entries change => Table.put entries change.1 change.2) settings.entries)

end Settings

end RubySchema
