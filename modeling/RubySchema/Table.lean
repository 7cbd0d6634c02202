import RubySchema.Text.Halves

/-!
Tables: values under names, in the order in which the names first came.
-/

namespace RubySchema

/-- Values under names, in the order of the names. -/
abbrev Table (α : Type) :=
  List (String × α)

namespace Table

variable {α : Type}

/-- The value under a name. -/
def get? : Table α → String → Option α
  | [], _ => none
  | entry :: rest, name => if entry.1 = name then some entry.2 else get? rest name

/-- A value written over the one under its name, or after all others when the name is new. -/
def put : Table α → String → α → Table α
  | [], name, value => [(name, value)]
  | entry :: rest, name, value =>
      if entry.1 = name then (name, value) :: rest else entry :: put rest name value

/-- The table has a value under a name. -/
def has (table : Table α) (name : String) : Bool :=
  (table.get? name).isSome

def names (table : Table α) : List String :=
  table.map Prod.fst

/-- The values, in the order of their names. -/
def values (table : Table α) : List α :=
  table.map Prod.snd

/-- The table that holds the entries of a list, later ones written over earlier ones. -/
def ofEntries (entries : List (String × α)) : Table α :=
  entries.foldl (fun table entry => table.put entry.1 entry.2) []

/-- A written value is found under its name, and every other name keeps what it had. -/
@[simp]
theorem get?_put (table : Table α) (name other : String) (value : α)
    : (table.put name value).get? other
      = if name = other then some value else table.get? other := by
  induction table with
  | nil => simp [put, get?]
  | cons entry rest ih =>
      by_cases h : entry.1 = name
      · subst h
        by_cases ho : entry.1 = other <;> simp [put, get?, ho]
      · by_cases ho : entry.1 = other
        · subst ho
          simp [put, get?, h, Ne.symm h]
        · simp [put, get?, h, ho, ih]

end Table

/-- A text comes before another, or is the same, in the order of their code points. Texts that are
written differently for the same code points are told apart by their characters.
-/
def textLe (a b : String) : Bool :=
  if Text.points a = Text.points b then !decide (b.toList < a.toList)
  else decide (Text.points a < Text.points b)

/-- Texts in the order of their code points. -/
def sortTexts (texts : List String) : List String :=
  texts.mergeSort textLe

end RubySchema
