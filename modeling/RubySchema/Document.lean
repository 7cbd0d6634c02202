import RubySchema.Error

/-!
Documents. Fragments may come in any order; a document is rendered section by section, and within a
section in the order in which its fragments came.
-/

namespace RubySchema

inductive Section where
  | preamble
  | header
  | interfaces
  | possibleTypes
  | includes
  | defMethods
  | fields
  | postamble
  deriving DecidableEq, Repr, Inhabited

/-- The sections in the order in which a document shows them. -/
def Section.inOrder : List Section :=
  [
    .preamble, .header, .interfaces, .possibleTypes, .includes, .defMethods, .fields, .postamble
  ]

/-- What a document is for. -/
inductive DocumentKind where
  | schema
  | implementation
  | spec
  deriving DecidableEq, Repr, Inhabited

/-- The word for what a document is for. -/
def DocumentKind.word : DocumentKind → String
  | .schema => "schema"
  | .implementation => "implementation"
  | .spec => "spec"

/-- The fragments of one file, in the order in which they came. -/
structure Document where
  owner : String
  kind : DocumentKind
  placed : List (Section × String)
  isClosed : Bool
  deriving DecidableEq, Repr, Inhabited

namespace Document

/-- An open document without fragments. -/
def empty (owner : String) (kind : DocumentKind) : Document :=
  { owner, kind, placed := [], isClosed := false }

def fragments (document : Document) (place : Section) : List String :=
  document.placed.filterMap fun entry => if entry.1 = place then some entry.2 else none

/-- A document with one more fragment; a closed one takes none. -/
def add (document : Document) (place : Section) (fragment : String) : Except Error Document :=
  if document.isClosed then .error (.closedDocument document.kind.word document.owner)
  else .ok { document with placed := document.placed ++ [(place, fragment)] }

/-- A document with one more fragment, unless its section has an equal one; and whether it was new.
-/
def addOnce (document : Document) (place : Section) (fragment : String)
    : Except Error (Bool × Document) :=
  if document.isClosed then .error (.closedDocument document.kind.word document.owner)
  else if fragment ∈ document.fragments place then .ok (false, document)
  else do return (true, ← document.add place fragment)

def close (document : Document) (fragment : String) : Except Error Document := do
  return { ← document.add .postamble fragment with isClosed := true }

/-- The text of a document: its fragments other than empty ones, one below the other. -/
def render (document : Document) : String :=
  let shown := (Section.inOrder.flatMap document.fragments).filter fun text => !text.isEmpty
  "\n".intercalate shown

end Document

end RubySchema
