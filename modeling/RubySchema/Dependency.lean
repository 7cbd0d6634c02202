import RubySchema.Document
import RubySchema.Registry

/-!
References between generated types. Where a reference closes a cycle of two types, the document of
the type that refers gets a forward declaration of the other.
-/

namespace RubySchema

/-- For each generated name, the names it refers to. -/
structure DependencyGraph where
  edges : Table (List String)
  deriving DecidableEq, Repr, Inhabited

namespace DependencyGraph

/-- The graph without references. -/
def empty : DependencyGraph :=
  { edges := [] }

/-- The names that a name refers to. -/
def targetsOf (graph : DependencyGraph) (source : String) : List String :=
  (Table.get? graph.edges source).getD []

/-- A name refers to another. -/
def dependsOn (graph : DependencyGraph) (source target : String) : Bool :=
  target ∈ graph.targetsOf source

def insert (graph : DependencyGraph) (source target : String) : DependencyGraph :=
  let targets := graph.targetsOf source
  { edges :=
      Table.put graph.edges source (if target ∈ targets then targets else targets ++ [target]) }

/-- A reference closes a cycle when the other type already refers back. -/
def closes (graph : DependencyGraph) (source target : String) : Bool :=
  source != target && graph.dependsOn target source

/-- The two names in order. -/
def sortPair (a b : String) : String × String :=
  if textLe a b then (a, b) else (b, a)

/-- A pair comes before another, or is the same, by its first name and then by its second. -/
def pairLe (first second : String × String) : Bool :=
  if first.1 == second.1 then textLe first.2 second.2 else textLe first.1 second.1

/-- Each pair of names that refer to each other, once, in order. -/
def mutualPairs (graph : DependencyGraph) : List (String × String) :=
  let pairs := graph.edges.flatMap fun entry =>
    (entry.2.filter fun target => entry.1 != target && graph.dependsOn target entry.1).map
      (sortPair entry.1)
  (pairs.mergeSort pairLe).eraseDups

/-- Every name with the names it refers to, all in order. -/
def sorted (graph : DependencyGraph) : Table (List String) :=
  (graph.edges.mergeSort fun a b => textLe a.1 b.1).map fun entry =>
    (entry.1, sortTexts entry.2)

end DependencyGraph

namespace ForwardDeclaration

/-- An empty declaration that makes a generated name known. -/
def text (classified : Classified) (schemaNamespace target : String) : String :=
  let constant := schemaNamespace ++ "::" ++ target
  let ofClass (base : Option String) : String :=
    "class " ++ constant ++ " < " ++ schemaNamespace ++ "::" ++ base.getD "None" ++ "; end\n"
  match classified.byTarget? target with
  | none => ofClass none
  | some mapping =>
      if mapping.isInterface then "module " ++ constant ++ "; end\n" else ofClass mapping.baseType

/-- A schema document with the declaration of a name. -/
def declare (classified : Classified) (schemaNamespace : String) (document : Document)
    (target : String) : Except Error Document := do
  return (← document.addOnce .preamble (text classified schemaNamespace target)).2

end ForwardDeclaration

/-- A reference counts when the reference library does not provide what it refers to. -/
def Classified.isTracked (classified : Classified) (target : String) : Bool :=
  match classified.byTarget? target with
  | none => false
  | some mapping => !mapping.isBuiltin

/-- A reference from a type to another, from the type's schema document: the graph with the
reference and the document, with a declaration if the reference closes a cycle. The graph keeps the
reference even when the document is closed.
-/
def DependencyGraph.refer (graph : DependencyGraph) (classified : Classified)
    (schemaNamespace : String) (document : Document) (source target : String)
    : DependencyGraph × Except Error Document :=
  if !classified.isTracked target then (graph, .ok document)
  else
    let extended := graph.insert source target
    if extended.closes source target then
      (extended, ForwardDeclaration.declare classified schemaNamespace document target)
    else (extended, .ok document)

end RubySchema
