import RubySchema.Schema.Basic
import RubySchema.Text.Affix
import RubySchema.Text.Lines

/-!
Changes before and after generation: types may be left out of a schema by their names, and a header
may be put at the top of files.
-/

namespace RubySchema

open Text

/-- Which names of types to keep. A void value asks for nothing; another that is no text is found
out where a name is compared with it.
-/
structure TypeFilter where
  excludePrefix : Json := .null
  excludeSuffix : Json := .null
  includePrefix : Json := .null
  includeSuffix : Json := .null
  deriving DecidableEq, Inhabited

namespace TypeFilter

/-- What the filter asks for, in the order in which it is asked: a value, and whether a name may be
kept that begins or ends as the value says.
-/
def demands (filter : TypeFilter) : List (Json × (String → String → Bool)) :=
  let all : List (Json × (String → String → Bool)) :=
    [
      (filter.excludePrefix, fun name text => !startsWith name text),
      (filter.excludeSuffix, fun name text => !endsWith name text),
      (filter.includePrefix, startsWith),
      (filter.includeSuffix, endsWith)
    ]
  all.filter fun demand => !demand.1.isVoid

/-- The filter keeps a name; the first demand that is not met decides. -/
def keepsName (filter : TypeFilter) (name : String) : Except Error Bool :=
  filter.demands.allM fun (value, meets) => do return meets name (← value.asText)

/-- The filter keeps a type; the roots of queries and mutations are always kept. -/
def keeps (filter : TypeFilter) (schema : Schema) (type : TypeDef) : Except Error Bool :=
  if type.name.isSame schema.queryType || type.name.isSame schema.mutationType then .ok true
  else if filter.demands.isEmpty then .ok true
  else do filter.keepsName (← type.name.asText)

/-- The schema with the types that the filter keeps. -/
def apply (filter : TypeFilter) (schema : Schema) : Except Error Schema := do
  return { schema with types := ← schema.types.filterM (filter.keeps schema) }

end TypeFilter

/-- A header for files whose names end in one of the suffixes. -/
structure FileHeader where
  header : String
  suffixes : List String
  deriving DecidableEq, Repr, Inhabited

namespace FileHeader

/-- The comment that has to stay in the first line of a file. -/
def magicComment : String := "# frozen_string_literal: true\n"

/-- The header with exactly one blank line after it. -/
def block (header : FileHeader) : String :=
  String.ofList (trimEnd (· == '\n') header.header.toList) ++ "\n\n"

/-- The text of a file with the header, below the magic comment if the file has one. -/
def apply (header : FileHeader) (name text : String) : String :=
  if !header.suffixes.any fun final => endsWith name final then text
  else
    match afterStart? magicComment.toList text.toList with
    | some rest => magicComment ++ header.block ++ String.ofList rest
    | none => header.block ++ text

end FileHeader

/-- The changes of a run, each kind in order. -/
structure Hooks where
  filters : List TypeFilter
  headers : List FileHeader
  deriving DecidableEq, Inhabited

namespace Hooks

def none : Hooks :=
  { filters := [], headers := [] }

def applyFilters (hooks : Hooks) (schema : Schema) : Except Error Schema :=
  hooks.filters.foldlM (fun current filter => filter.apply current) schema

/-- The text of a file after all headers. -/
def applyHeaders (hooks : Hooks) (name text : String) : String :=
  hooks.headers.foldl (fun current header => header.apply name current) text

end Hooks

end RubySchema
