import RubySchema.Document
import RubySchema.Table
import RubySchema.Text.Affix

/-!
The documents of generated types. Every type has a schema document; types and interfaces also have a
stub and a spec for users to fill in. Further documents have a fixed text.
-/

namespace RubySchema

open Text

/-- The documents of one type. -/
structure Artifacts where
  targetName : String
  schema : Document
  implementation : Option Document
  spec : Option Document
  deriving DecidableEq, Repr, Inhabited

namespace Artifacts

/-- The kinds of documents that a generated name has. -/
def kindsFor (target : String) : List DocumentKind :=
  if startsWith target "Types::" || startsWith target "Interfaces::" then
    [.schema, .implementation, .spec]
  else [.schema]

/-- Open documents for a generated name. -/
def empty (target : String) : Artifacts :=
  let optional (kind : DocumentKind) : Option Document :=
    if kind ∈ kindsFor target then some (Document.empty target kind) else none
  {
    targetName := target
    schema := Document.empty target .schema
    implementation := optional .implementation
    spec := optional .spec
  }

def document? (artifacts : Artifacts) : DocumentKind → Option Document
  | .schema => some artifacts.schema
  | .implementation => artifacts.implementation
  | .spec => artifacts.spec

/-- A document put in the place of the one of its kind. -/
def withDocument (artifacts : Artifacts) (kind : DocumentKind) (document : Document) : Artifacts :=
  match kind with
  | .schema => { artifacts with schema := document }
  | .implementation => { artifacts with implementation := some document }
  | .spec => { artifacts with spec := some document }

def kinds (artifacts : Artifacts) : List DocumentKind :=
  [.schema] ++ (if artifacts.implementation.isSome then [.implementation] else [])
    ++ (if artifacts.spec.isSome then [.spec] else [])

end Artifacts

/-- All documents of a run: those of types by generated name, and those of fixed text by path. -/
structure Assembly where
  artifacts : Table Artifacts
  fixed : Table String
  deriving DecidableEq, Repr, Inhabited

namespace Assembly

def empty : Assembly :=
  { artifacts := [], fixed := [] }

/-- The documents of a generated name, new ones if it has none, and the assembly that holds them. -/
def documentsFor (assembly : Assembly) (target : String) : Artifacts × Assembly :=
  match Table.get? assembly.artifacts target with
  | some found => (found, assembly)
  | none =>
      let fresh := Artifacts.empty target
      (fresh, { assembly with artifacts := Table.put assembly.artifacts target fresh })

/-- The assembly with the documents of a generated name as they now are. -/
def store (assembly : Assembly) (artifacts : Artifacts) : Assembly :=
  { assembly with artifacts := Table.put assembly.artifacts artifacts.targetName artifacts }

/-- The assembly with a document of fixed text. -/
def addFixed (assembly : Assembly) (path text : String) : Assembly :=
  { assembly with fixed := Table.put assembly.fixed path text }

end Assembly

end RubySchema
