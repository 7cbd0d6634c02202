import RubySchema.Command.Arguments

/-!
The two commands and their options.
-/

namespace RubySchema.Command

structure GenerateOptions where
  schema : String
  reference : String
  output : String
  config : Option String
  namespaceName : Option String
  maxDepth : Option Nat
  keepsFiles : Bool
  templateDir : Option String
  header : Option String
  excludePrefix : Option String
  report : Option String
  isVerbose : Bool
  deriving Inhabited

structure TypesOptions where
  schema : String
  reference : String
  config : Option String
  deriving Inhabited

/-- The options of both commands. -/
def sharedForms (reference : Demand) : List OptionForm :=
  [
    .valued "--schema" (some 's') .file,
    .valued "--reference" (some 'r') reference,
    .valued "--config" (some 'c') .file
  ]

def generateForms : List OptionForm :=
  sharedForms .fileOrDirectory
    ++ [
      .valued "--output" (some 'o') .notFile,
      .valued "--namespace" none .text,
      .valued "--max-depth" none .count,
      .flag "--no-overwrite" none,
      .valued "--template-dir" none .directory,
      .valued "--header" none .text,
      .valued "--exclude-prefix" none .text,
      .valued "--report" none .notDirectory,
      .flag "--verbose" (some 'v')
    ]

/-- The options of generation that were given; none when one is missing. -/
def GenerateOptions.ofGiven? (given : Given) : Option GenerateOptions := do
  return {
    schema := ← Table.get? given "--schema"
    reference := ← Table.get? given "--reference"
    output := (Table.get? given "--output").getD "."
    config := Table.get? given "--config"
    namespaceName := Table.get? given "--namespace"
    maxDepth := (Table.get? given "--max-depth").bind readCount?
    keepsFiles := Table.has given "--no-overwrite"
    templateDir := Table.get? given "--template-dir"
    header := Table.get? given "--header"
    excludePrefix := Table.get? given "--exclude-prefix"
    report := Table.get? given "--report"
    isVerbose := Table.has given "--verbose"
  }

/-- The options of the listing of types that were given; none when one is missing. -/
def TypesOptions.ofGiven? (given : Given) : Option TypesOptions := do
  return {
    schema := ← Table.get? given "--schema"
    reference := ← Table.get? given "--reference"
    config := Table.get? given "--config"
  }

/-- What is asked for: a command, with the values given to its options. -/
inductive Request where
  | generate (given : Given)
  | types (given : Given)
  deriving Inhabited

namespace Request

/-- The request that a command line makes; two dashes may stand in front. -/
def ofArguments? : List String → Option Request
  | "generate" :: arguments | "--" :: "generate" :: arguments =>
      .generate <$> readArguments generateForms arguments
  | "types" :: arguments | "--" :: "types" :: arguments =>
      .types <$> readArguments (sharedForms .directory) arguments
  | _ => none

/-- What is demanded of the values given, in their order. -/
def demands (request : Request) : List (Demand × String) :=
  let (forms, given) : List OptionForm × Given :=
    match request with
    | .generate given => (generateForms, given)
    | .types given => (sharedForms .directory, given)
  given.filterMap fun (word, value) =>
    ((forms.find? fun form => form.word == word).bind OptionForm.demand).map fun demand =>
      (demand, value)

/-- The request asks for notes of detail. -/
def isVerbose : Request → Bool
  | .generate given => Table.has given "--verbose"
  | .types _ => false

end Request

end RubySchema.Command
