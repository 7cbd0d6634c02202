import RubySchema.Json.Access

/-!
Examples of data. An example shows what a type looks like: leaves, objects, lists, and connections
around a node. Names and literals are the values of the schema document, which need not be texts.
-/

namespace RubySchema

mutual

/-- An example of a value. A sentinel stands for a type that is being shown further out, a truncated
example for an object that lies too deep.
-/
inductive Example where
  | literal (value : Json)
  | sentinel (typeName : String)
  | truncated
  | object (entries : Entries)
  | list (item : Example)
  | connection (node : Example)

/-- Named examples in order, each with the examples of its arguments. -/
inductive Entries where
  | nil
  | cons (name : Json) (value : Example) (arguments : Entries) (rest : Entries)

end

deriving instance DecidableEq, Repr, Inhabited for Example, Entries

namespace Entries

/-- A single named example without arguments. -/
def single (name : Json) (value : Example) : Entries :=
  .cons name value .nil .nil

/-- There are no examples. -/
def isEmpty : Entries → Bool
  | .nil => true
  | .cons .. => false

end Entries

mutual

/-- What the texts of an example show: leaves, objects, lists, and places that are cut off. -/
inductive Outline where
  | leaf (value : Json)
  | cut
  | object (entries : Outlines)
  | list (item : Outline)

/-- Named outlines in order, each with the outlines of its arguments. -/
inductive Outlines where
  | nil
  | cons (name : Json) (value : Outline) (arguments : Outlines) (rest : Outlines)

end

deriving instance DecidableEq, Repr, Inhabited for Outline, Outlines

namespace Outlines

def isEmpty : Outlines → Bool
  | .nil => true
  | .cons .. => false

/-- A single named outline without arguments. -/
def single (name : String) (value : Outline) : Outlines :=
  .cons (.string name) value .nil .nil

end Outlines

def Outline.ofText (text : String) : Outline :=
  .leaf (.string text)

/-- A connection spelled out: edges around the node, and information on the page. -/
def Outline.ofConnection (node : Outline) : Outline :=
  let page :=
    .cons (.string "hasNextPage") (.ofText "true") .nil
      (.single "hasPreviousPage" (.ofText "false"))
  .object
    (.cons (.string "edges") (.list (.object (.single "node" node))) .nil
      (.single "pageInfo" (.object page)))

mutual

def Example.outline : Example → Outline
  | .literal value => .leaf value
  | .sentinel typeName => .ofText ("\"" ++ typeName ++ "...\"")
  | .truncated => .cut
  | .object entries => .object entries.outlines
  | .list item => .list item.outline
  | .connection node => Outline.ofConnection node.outline

/-- The outlines of named examples. -/
def Entries.outlines : Entries → Outlines
  | .nil => .nil
  | .cons name value arguments rest =>
      .cons name value.outline arguments.outlines rest.outlines

end

end RubySchema
