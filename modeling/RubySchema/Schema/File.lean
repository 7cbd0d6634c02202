import RubySchema.Journal
import RubySchema.Json.Reader
import RubySchema.Schema.Introspection
import RubySchema.Sdl.Description

/-!
Schema files. The end of its name tells whether a file holds a text of the schema definition
language or an introspection document.
-/

namespace RubySchema.Schema

open Text

/-- The ends of names of files in the schema definition language. -/
def sdlSuffixes : List String := [".graphql", ".graphqls", ".gql"]

/-- The last component of a path. -/
def fileName (path : String) : String :=
  String.ofList (path.toList.reverse.takeWhile (· != '/')).reverse

/-- The document that a file holds or describes. -/
def documentOfFile (path text : String) : Except Error Json :=
  let content := readText text
  if sdlSuffixes.any fun suffix => endsWith path suffix then Sdl.Document.described content
  else
    match Json.read .document content with
    | .ok document => .ok document
    | .error .malformed => .error (.unreadableJson (fileName path))
    | .error .tooDeep => .error .tooDeep
    | .error (.tooManyDigits count) => .error (.tooManyDigits count)

/-- The note on what a document holds. -/
def foundNote (outline : Introspection.Outline) : Note :=
  {
    level := .info
    text := "Found " ++ toString outline.typeEntries.length ++ " types and "
      ++ toString outline.schema.directives.length ++ " directives."
  }

def ofDocument (document : Json) : Noted Schema := do
  let outline ← Noted.ofExcept (Introspection.outline document)
  Noted.note [foundNote outline]
  Noted.ofExcept outline.complete

def ofFile (path text : String) : Noted Schema := do
  ofDocument (← Noted.ofExcept (documentOfFile path text))

end RubySchema.Schema
