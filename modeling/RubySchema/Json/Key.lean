import RubySchema.Json.Basic
import RubySchema.Table

/-!
Values as keys. Which values are the same key does not depend on how a number is written, and truth
values count as one and zero. A keyed table keeps each key as it was first written.
-/

namespace RubySchema

/-- Two numbers are the same, whether they have a fraction or not. What is no number is the same as
itself.
-/
def Number.isSame : Number → Number → Bool
  | .integer a, .integer b => a == b
  | .integer a, .decimal b => b.integer? == some a
  | .decimal a, .integer b => a.integer? == some b
  | .decimal a, .decimal b => a == b || (a.digits == 0 && b.digits == 0)
  | .infinity a, .infinity b => a == b
  | .undefined, .undefined => true
  | _, _ => false

namespace Json

/-- The number that a value counts as. -/
def number? : Json → Option Number
  | .bool value => some (.integer (if value then 1 else 0))
  | .number value => some value
  | _ => none

mutual

/-- Two values are the same key. -/
def isSame : Json → Json → Bool
  | .null, .null => true
  | .string a, .string b => a == b
  | .array xs, .array ys => areSame xs ys
  | .object xs, .object ys => xs.length == ys.length && haveSame xs ys
  | .bool a, b => (b.number?).any ((Number.integer (if a then 1 else 0)).isSame)
  | .number a, b => (b.number?).any a.isSame
  | _, _ => false

/-- Items of two lists are the same one by one. -/
def areSame : List Json → List Json → Bool
  | [], [] => true
  | x :: xs, y :: ys => isSame x y && areSame xs ys
  | _, _ => false

/-- Every entry has the same value among others. -/
def haveSame : List (String × Json) → List (String × Json) → Bool
  | [], _ => true
  | (key, value) :: rest, others =>
      (match Table.get? others key with
        | some other => isSame value other
        | none => false)
      && haveSame rest others

end

/-- Two values are equal: they are the same, and not what is no number. -/
def isEqual (a b : Json) : Bool :=
  isSame a b && a != .number .undefined

/-- Values that can stand as a key: all but lists and objects. -/
def isKey : Json → Bool
  | .array _ => false
  | .object _ => false
  | _ => true

end Json

/-- Values under keys, in the order in which the keys first came. -/
abbrev Keyed (α : Type) :=
  List (Json × α)

namespace Keyed

variable {α : Type}

/-- A value written over the one under the same key, or after all others when the key is new. -/
def put : Keyed α → Json → α → Keyed α
  | [], key, value => [(key, value)]
  | entry :: rest, key, value =>
      if entry.1.isSame key then (entry.1, value) :: rest else entry :: put rest key value

/-- The table that holds the entries of a list, later ones written over earlier ones. -/
def ofEntries (entries : List (Json × α)) : Keyed α :=
  entries.foldl (fun table entry => table.put entry.1 entry.2) []

end Keyed

end RubySchema
