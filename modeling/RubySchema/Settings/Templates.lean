import RubySchema.Files
import RubySchema.Journal
import RubySchema.Settings.Basic

/-!
The templates of a run: the files in a directory that the settings may name. Each takes the place of
the standard text of a page, under the name of its file.
-/

namespace RubySchema

/-- The texts of the files right in a directory, under their names. -/
def FileTree.filesIn (tree : FileTree) (place : Path) : Table String :=
  (tree.below place).files.filterMap fun file =>
    match file.1 with
    | [name] => some (name, file.2)
    | _ => none

/-- The templates in the directory that settings name; relative paths start at the given directory.
A directory that is not there is noted, and gives none.
-/
def Settings.templates (settings : Settings) (tree : FileTree) (home : Path)
    : Noted (Table String) := do
  match settings.templateDir with
  | none | some "" => return []
  | some text =>
      match (← Noted.ofExcept (tree.find home text)).filter tree.isDirectory with
      | some place => return tree.filesIn place
      | none => do
          Noted.note [{
            level := .warning
            text := "Template directory " ++ (Path.ofText text).text
              ++ " not found, using defaults"
          }]
          return []

end RubySchema
