import Mathlib.Data.Finset.Dedup
import Mathlib.Data.Finset.Insert
import RubySchema.Example.Expansion

/-!
Expansion under a guard shows the same examples as expansion below a set of ancestors, or fails for
the same cause, and leaves the guard as it found it. The ancestors are the types being shown, handed
down as a set that no step changes.
-/

namespace RubySchema

def Guard.names (guard : Guard) : Finset String :=
  guard.held.toFinset

/-- Release takes away the one name that hold has put in front. -/
theorem Guard.release_hold {guard : Guard} {name : String} (free : name ∉ guard.held)
    : (guard.hold name).release name = guard := by
  have others : guard.held.filter (fun held => held != name) = guard.held :=
    List.filter_eq_self.mpr fun held member => by
      simpa using fun same : held = name => free (same ▸ member)
  simp [hold, release, free, others]

namespace Expander

/-- The example of an argument whose type has the given name, by the examples of types. -/
def argumentExample (exampleOf : String → Except Error Example) (base : String) (argument : Field)
    : Except Error Example :=
  if base == "Int" || base == "Float" then .ok (.literal (.string base))
  else if base == "Boolean" then
    let default := argument.defaultValue
    .ok (.literal (if default.isVoid then .string base else default))
  else if base == "String" then .ok (.literal (inQuotes ""))
  else exampleOf base

def argumentExamples (expander : Expander) (exampleOf : String → Except Error Example)
    : List Field → Except Error Entries
  | [] => .ok .nil
  | argument :: rest => do
      let base ← argument.type.name.asText
      let resolved ← Resolved.ofField expander.classified argument
      let value ← argumentExample exampleOf (Naming.stripConnection base).1 argument
      let value := if resolved.isArray then .list value else value
      return .cons argument.name value .nil (← expander.argumentExamples exampleOf rest)

def fieldExample (expander : Expander) (exampleOf : String → Except Error Example) (field : Field)
    : Except Error Example := do
  let resolved ← Resolved.ofField expander.classified field
  let value ← exampleOf resolved.name
  let value := if resolved.isConnection then .connection value else value
  return if resolved.isArray then .list value else value

def memberExamples (expander : Expander) (exampleOf : String → Except Error Example)
    : List Field → Except Error Entries
  | [] => .ok .nil
  | member :: rest => do
      let value ← expander.fieldExample exampleOf member
      let arguments ← expander.argumentExamples exampleOf member.arguments
      return .cons member.name value arguments (← expander.memberExamples exampleOf rest)

/-- The example of a type at a depth, below a set of ancestors. What stands below the type has the
type among its ancestors too.
-/
def exampleBelow (expander : Expander) (limit depth : Int) (ancestors : Finset String)
    (name : String) : Except Error Example := do
  match ← expander.definition name with
  | none => return .literal (inQuotes name)
  | some type =>
      if name ∈ ancestors then return .sentinel name
      else
        match ← leaf? type name with
        | some leaf => return leaf
        | none =>
            if _cut : limit ≤ depth then return .truncated
            else
              return .object (← expander.memberExamples
                (expander.exampleBelow limit (depth + 1) (insert name ancestors)) type.members)
termination_by (limit - depth).toNat
decreasing_by omega

/-- A name is defined by the type that the schema has under it, or not at all. -/
theorem typeNamed?_of_definition {expander : Expander} {name : String} {type : TypeDef}
    (found : expander.definition name = .ok (some type))
    : expander.schema.typeNamed? (.string name) = some type := by
  unfold definition at found
  split at found
  case h_1 other named =>
    cases found
    exact named
  case h_2 =>
    split at found
    · cases found
    · cases found

/-- Steps that leave the guard alone join to one that does, by cases on the first outcome. -/
theorem bind_ofExcept {α β : Type} {step : Expansion α} {next : α → Expansion β} {guard : Guard}
    {first : Except Error α} {second : α → Except Error β}
    (here : step guard = Expansion.ofExcept first guard)
    (after : ∀ value, next value guard = Expansion.ofExcept (second value) guard)
    : (step >>= next) guard = Expansion.ofExcept (first >>= second) guard := by
  show EStateM.bind step next guard = _
  unfold EStateM.bind
  rw [here]
  cases first with
  | ok value => exact after value
  | error cause => rfl

/-- A name that a guard did not hold is held exactly while a step lasts, so the guard is afterwards
what it was.
-/
theorem holding_ofExcept {α : Type} {step : Expansion α} {guard : Guard} {name : String}
    {outcome : Except Error α} (free : name ∉ guard.held)
    (here : step (guard.hold name) = Expansion.ofExcept outcome (guard.hold name))
    : Expansion.holding name step guard = Expansion.ofExcept outcome guard := by
  unfold Expansion.holding
  rw [here]
  cases outcome with
  | ok value => simp only [Expansion.ofExcept, Guard.release_hold free]
  | error cause => simp only [Expansion.ofExcept, Guard.release_hold free]

theorem mem_names {guard : Guard} {name : String} : name ∈ guard.names ↔ name ∈ guard.held :=
  List.mem_toFinset

/-- A guard that takes hold of a new name holds it besides the names it held. -/
theorem names_hold {guard : Guard} {name : String} (free : name ∉ guard.held)
    : (guard.hold name).names = insert name guard.names := by
  simp [Guard.hold, Guard.names, free]

section
variable {expander : Expander} {expand : String → Expansion Example}
variable {exampleOf : String → Except Error Example} {guard : Guard}

theorem argumentValue_eq
    (agree : ∀ name, expand name guard = Expansion.ofExcept (exampleOf name) guard)
    (base : String) (argument : Field)
    : argumentValue expand base argument guard
      = Expansion.ofExcept (argumentExample exampleOf base argument) guard := by
  unfold argumentValue argumentExample
  split
  · rfl
  split
  · rfl
  split
  · rfl
  · exact agree base

/-- Arguments are shown as without a guard if types are, by induction on the arguments. -/
theorem argumentEntries_eq
    (agree : ∀ name, expand name guard = Expansion.ofExcept (exampleOf name) guard)
    (arguments : List Field)
    : expander.argumentEntries expand arguments guard
      = Expansion.ofExcept (expander.argumentExamples exampleOf arguments) guard := by
  induction arguments with
  | nil => rfl
  | cons argument rest ih =>
      unfold argumentEntries argumentExamples
      apply bind_ofExcept rfl
      intro base
      apply bind_ofExcept rfl
      intro resolved
      apply bind_ofExcept (argumentValue_eq agree _ argument)
      intro value
      apply bind_ofExcept ih
      intro entries
      rfl

theorem fieldValue_eq
    (agree : ∀ name, expand name guard = Expansion.ofExcept (exampleOf name) guard)
    (field : Field)
    : expander.fieldValue expand field guard
      = Expansion.ofExcept (expander.fieldExample exampleOf field) guard := by
  unfold fieldValue fieldExample
  apply bind_ofExcept rfl
  intro resolved
  apply bind_ofExcept (agree resolved.name)
  intro value
  rfl

/-- Members are shown as without a guard if types are, by induction on the members. -/
theorem memberEntries_eq
    (agree : ∀ name, expand name guard = Expansion.ofExcept (exampleOf name) guard)
    (members : List Field)
    : expander.memberEntries expand members guard
      = Expansion.ofExcept (expander.memberExamples exampleOf members) guard := by
  induction members with
  | nil => rfl
  | cons member rest ih =>
      unfold memberEntries memberExamples
      apply bind_ofExcept (fieldValue_eq agree member)
      intro value
      apply bind_ofExcept (argumentEntries_eq agree member.arguments)
      intro arguments
      apply bind_ofExcept ih
      intro entries
      rfl

end

/-- A name that the guard holds is shown as a sentinel, and any other by a further step. -/
theorem sentinel_ofExcept {step : Expansion Example} {outcome : Except Error Example}
    {guard : Guard} {name : String}
    (here : name ∉ guard.held → step guard = Expansion.ofExcept outcome guard)
    : (do if (← get).isActive name then return .sentinel name else step : Expansion Example) guard
      = Expansion.ofExcept
        (if name ∈ guard.names then return .sentinel name else outcome) guard := by
  show (if guard.isActive name = true then pure (Example.sentinel name) else step) guard = _
  by_cases held : name ∈ guard.held
  · simp only [Guard.isActive, mem_names, held, decide_true, if_true]
    rfl
  · simp only [Guard.isActive, mem_names, held, decide_false, Bool.false_eq_true, if_false]
    exact here held

/-- A type is shown below the names that a guard holds, and the guard stays as it is. By induction
on the room that the limit leaves; the guard takes hold of a name only where it does not hold it, so
no release takes away a name that was held further out.
-/
theorem expandIn_eq (expander : Expander) (limit depth : Int) (guard : Guard) (name : String)
    : expander.expandIn (roomAt limit depth) name guard
      = Expansion.ofExcept (expander.exampleBelow limit depth guard.names name) guard := by
  induction room : roomAt limit depth generalizing depth guard name with
  | zero =>
      have cut : limit ≤ depth := by
        unfold roomAt at room
        omega
      rw [expandIn, exampleBelow]
      apply bind_ofExcept rfl
      rintro (_ | type)
      · rfl
      apply sentinel_ofExcept
      intro free
      apply bind_ofExcept rfl
      rintro (_ | leaf)
      · -- no room is left: neither goes into the members
        simp only [cut, reduceDIte]
        rfl
      · rfl
  | succ size ih =>
      have inside : ¬limit ≤ depth := by
        unfold roomAt at room
        omega
      have next : roomAt limit (depth + 1) = size := by
        unfold roomAt at room ⊢
        omega
      rw [expandIn, exampleBelow]
      apply bind_ofExcept rfl
      rintro (_ | type)
      · rfl
      apply sentinel_ofExcept
      intro free
      apply bind_ofExcept rfl
      rintro (_ | leaf)
      · simp only [inside, reduceDIte]
        apply holding_ofExcept free
        -- one level further in, the names that are held are the ancestors
        have agree (inner : String)
            : expander.expandIn size inner (guard.hold name)
              = Expansion.ofExcept
                (expander.exampleBelow limit (depth + 1) (insert name guard.names) inner)
                (guard.hold name) := by
          rw [ih (depth + 1) (guard.hold name) inner next, names_hold free]
        apply bind_ofExcept (memberEntries_eq agree type.members)
        intro entries
        rfl
      · rfl

/-- What an expander can be asked for at a depth: a type, a field, or the arguments of a field. -/
inductive Request where
  | ofType (depth : Int) (name : String)
  | ofField (depth : Int) (field : Field)
  | ofArguments (depth : Int) (field : Field)

namespace Request

/-- A request carried out under a guard. -/
def expansion (expander : Expander) (limit : Int) : Request → Expansion (Example ⊕ Entries)
  | .ofType depth name => .inl <$> expander.expandIn (roomAt limit depth) name
  | .ofField depth field =>
      .inl <$> expander.fieldValue (expander.expandIn (roomAt limit depth)) field
  | .ofArguments depth field =>
      .inr <$> expander.argumentEntries (expander.expandIn (roomAt limit depth)) field.arguments

def answer (expander : Expander) (limit : Int) (ancestors : Finset String)
    : Request → Except Error (Example ⊕ Entries)
  | .ofType depth name => .inl <$> expander.exampleBelow limit depth ancestors name
  | .ofField depth field =>
      .inl <$> expander.fieldExample (expander.exampleBelow limit depth ancestors) field
  | .ofArguments depth field =>
      .inr <$> expander.argumentExamples (expander.exampleBelow limit depth ancestors)
        field.arguments

/-- Requests carried out one after another under one guard, each of which may fail: the outcomes in
order, and the guard that the last of them leaves.
-/
def outcomes (expander : Expander) (limit : Int)
    : List Request → Guard → List (Except Error (Example ⊕ Entries)) × Guard
  | [], guard => ([], guard)
  | request :: rest, guard =>
      let (outcome, left) :=
        match request.expansion expander limit guard with
        | .ok value left => (.ok value, left)
        | .error cause left => (.error cause, left)
      let (more, last) := outcomes expander limit rest left
      (outcome :: more, last)

/-- A request is answered below the names that the guard holds, and the guard stays as it is. -/
theorem expansion_eq (expander : Expander) (limit : Int) (request : Request) (guard : Guard)
    : request.expansion expander limit guard
      = Expansion.ofExcept (request.answer expander limit guard.names) guard := by
  cases request with
  | ofType depth name =>
      exact bind_ofExcept (expandIn_eq expander limit depth guard name) fun _ => rfl
  | ofField depth field =>
      exact bind_ofExcept (fieldValue_eq (expandIn_eq expander limit depth guard) field)
        fun _ => rfl
  | ofArguments depth field =>
      exact bind_ofExcept
        (argumentEntries_eq (expandIn_eq expander limit depth guard) field.arguments) fun _ => rfl

/-- Requests under one guard are answered each by itself, whatever came before, by induction on the
requests.
-/
theorem outcomes_eq (expander : Expander) (limit : Int) (requests : List Request) (guard : Guard)
    : outcomes expander limit requests guard
      = (requests.map (answer expander limit guard.names), guard) := by
  induction requests with
  | nil => rfl
  | cons request rest ih =>
      rw [outcomes, expansion_eq]
      cases found : request.answer expander limit guard.names with
      | ok value => simp only [Expansion.ofExcept, ih, List.map_cons, found]
      | error cause => simp only [Expansion.ofExcept, ih, List.map_cons, found]

end Request

/-- An expander that shares one guard shows what ancestors alone decide: types, fields and arguments
come out as below the set of the names held, with the same cause where they fail, and the guard
holds the same names afterwards. So of many requests under one guard each is answered as if it were
the only one.
-/
theorem expansion_eq_below_ancestors (expander : Expander) (limit : Int) (guard : Guard)
    : (∀ depth name,
        expander.expandIn (roomAt limit depth) name guard
          = Expansion.ofExcept (expander.exampleBelow limit depth guard.names name) guard)
      ∧ (∀ depth field,
          expander.fieldValue (expander.expandIn (roomAt limit depth)) field guard
            = Expansion.ofExcept
              (expander.fieldExample (expander.exampleBelow limit depth guard.names) field) guard)
      ∧ (∀ depth (field : Field),
          expander.argumentEntries (expander.expandIn (roomAt limit depth)) field.arguments guard
            = Expansion.ofExcept
              (expander.argumentExamples (expander.exampleBelow limit depth guard.names)
                field.arguments)
              guard)
      ∧ ∀ requests,
          Request.outcomes expander limit requests guard
            = (requests.map (Request.answer expander limit guard.names), guard) := by
  refine ⟨?_, ?_, ?_, ?_⟩
  · intro depth name
    exact expandIn_eq expander limit depth guard name
  · intro depth field
    exact fieldValue_eq (expandIn_eq expander limit depth guard) field
  · intro depth field
    exact argumentEntries_eq (expandIn_eq expander limit depth guard) field.arguments
  · intro requests
    exact Request.outcomes_eq expander limit requests guard

end Expander

end RubySchema
