import RubySchema.Proofs.Example.Totality

/-!
Whatever has an example under a limit has one under a lower limit too, and it is the former with
every object at the lower limit cut off.
-/

namespace RubySchema

mutual

/-- An example without the objects that lie below a number of objects. What is a list or a
connection is cut inside; only the entries of an object, values and arguments alike, are one level
further down.
-/
def Example.cut (levels : Nat) : Example → Example
  | .literal value => .literal value
  | .sentinel typeName => .sentinel typeName
  | .truncated => .truncated
  | .object entries =>
      match levels with
      | 0 => .truncated
      | levels + 1 => .object (entries.cut levels)
  | .list item => .list (item.cut levels)
  | .connection node => .connection (node.cut levels)

def Entries.cut (levels : Nat) : Entries → Entries
  | .nil => .nil
  | .cons name value arguments rest =>
      .cons name (value.cut levels) (arguments.cut levels) (rest.cut levels)

end

theorem Example.cut_listed (levels : Nat) (value : Example) (isArray : Bool)
    : (if isArray then Example.list value else value).cut levels
      = if isArray then .list (value.cut levels) else value.cut levels := by
  cases isArray with
  | true => rfl
  | false => rfl

theorem Example.cut_connected (levels : Nat) (value : Example) (isConnection : Bool)
    : (if isConnection then Example.connection value else value).cut levels
      = if isConnection then .connection (value.cut levels) else value.cut levels := by
  cases isConnection with
  | true => rfl
  | false => rfl

namespace Expander

variable {expander : Expander} {limit lower depth : Int} {ancestors : Finset String}
variable {name : String} {value : Example}

-----------------------------------------------------------------------------------------
-- How an example comes about
-----------------------------------------------------------------------------------------

/-- What decides the example of a name, in the order of the checks: its definition, the ancestors,
its kind, and the depth.
-/
inductive Shows (expander : Expander) (limit depth : Int) (ancestors : Finset String)
    (name : String) : Example → Prop
  | builtin (found : expander.definition name = .ok none)
    : Shows expander limit depth ancestors name (.literal (inQuotes name))
  | sentinel {type : TypeDef} (found : expander.definition name = .ok (some type))
      (held : name ∈ ancestors)
    : Shows expander limit depth ancestors name (.sentinel name)
  | leaf {type : TypeDef} {value : Example} (found : expander.definition name = .ok (some type))
      (free : name ∉ ancestors) (leaf : leaf? type name = .ok (some value))
    : Shows expander limit depth ancestors name value
  | truncated {type : TypeDef} (found : expander.definition name = .ok (some type))
      (free : name ∉ ancestors) (nested : leaf? type name = .ok none) (below : limit ≤ depth)
    : Shows expander limit depth ancestors name .truncated
  | object {type : TypeDef} {entries : Entries}
      (found : expander.definition name = .ok (some type)) (free : name ∉ ancestors)
      (nested : leaf? type name = .ok none) (inside : ¬limit ≤ depth)
      (made
        : expander.memberExamples
            (expander.exampleBelow limit (depth + 1) (insert name ancestors)) type.members
          = .ok entries)
    : Shows expander limit depth ancestors name (.object entries)

theorem exampleBelow_eq_ok_iff
    : expander.exampleBelow limit depth ancestors name = .ok value
      ↔ expander.Shows limit depth ancestors name value := by
  constructor
  · intro made
    rw [exampleBelow] at made
    obtain ⟨defined, found, made⟩ := bind_eq_ok.mp made
    cases defined with
    | none =>
        cases made
        exact .builtin found
    | some type =>
        change (if name ∈ ancestors then _ else _) = Except.ok value at made
        split at made
        case isTrue held =>
          cases made
          exact .sentinel found held
        case isFalse free =>
          obtain ⟨leaf, leafFound, made⟩ := bind_eq_ok.mp made
          cases leaf with
          | some leaf =>
              cases made
              exact .leaf found free leafFound
          | none =>
              change dite (limit ≤ depth) _ _ = Except.ok value at made
              split at made
              case isTrue below =>
                cases made
                exact .truncated found free leafFound below
              case isFalse inside =>
                obtain ⟨entries, entriesMade, made⟩ := bind_eq_ok.mp made
                cases made
                exact .object found free leafFound inside entriesMade
  · intro shows
    rw [exampleBelow]
    cases shows with
    | builtin found =>
        rw [found]
        rfl
    | sentinel found held =>
        rw [found]
        exact if_pos held
    | leaf found free leaf =>
        rw [found]
        refine (if_neg free).trans ?_
        rw [leaf]
        rfl
    | truncated found free nested below =>
        rw [found]
        refine (if_neg free).trans ?_
        rw [nested]
        exact dif_pos below
    | object found free nested inside made =>
        rw [found]
        refine (if_neg free).trans ?_
        rw [nested]
        refine (dif_neg inside).trans ?_
        rw [made]
        rfl

/-- A leaf is a literal. -/
theorem exists_literal_of_leaf? {type : TypeDef} (found : leaf? type name = .ok (some value))
    : ∃ shown, value = .literal shown := by
  unfold leaf? at found
  split at found
  · cases found
    exact ⟨_, rfl⟩
  · obtain ⟨values, -, made⟩ := bind_eq_ok.mp found
    cases made
    exact ⟨_, rfl⟩
  · obtain ⟨members, -, made⟩ := bind_eq_ok.mp found
    cases made
    exact ⟨_, rfl⟩
  · cases found

-----------------------------------------------------------------------------------------
-- Examples from an empty guard
-----------------------------------------------------------------------------------------

theorem fromEmpty_expandIn (expander : Expander) (limit : Int) (name : String)
    : Expansion.fromEmpty (expander.expandIn (roomAt limit 0) name)
      = expander.exampleBelow limit 0 Guard.empty.names name :=
  fromEmpty_of_ofExcept (expandIn_eq expander limit 0 Guard.empty name)

theorem fromEmpty_fieldValue (expander : Expander) (limit : Int) (field : Field)
    : Expansion.fromEmpty (expander.fieldValue (expander.expandIn (roomAt limit 0)) field)
      = expander.fieldExample (expander.exampleBelow limit 0 Guard.empty.names) field :=
  fromEmpty_of_ofExcept (fieldValue_eq (expandIn_eq expander limit 0 Guard.empty) field)

theorem fromEmpty_argumentEntries (expander : Expander) (limit : Int) (arguments : List Field)
    : Expansion.fromEmpty (expander.argumentEntries (expander.expandIn (roomAt limit 0)) arguments)
      = expander.argumentExamples (expander.exampleBelow limit 0 Guard.empty.names) arguments :=
  fromEmpty_of_ofExcept (argumentEntries_eq (expandIn_eq expander limit 0 Guard.empty) arguments)

-----------------------------------------------------------------------------------------
-- Cutting
-----------------------------------------------------------------------------------------

section
variable {whole part : String → Except Error Example} {levels : Nat}

/-- When the one outcome is an example, the other is the example cut at a number of levels. -/
def IsCutAt (levels : Nat) (whole part : Except Error Example) : Prop :=
  ∀ value, whole = .ok value → part = .ok (value.cut levels)

/-- When the one outcome is named examples, the other is the examples cut at a number of levels. -/
def AreCutAt (levels : Nat) (whole part : Except Error Entries) : Prop :=
  ∀ entries, whole = .ok entries → part = .ok (entries.cut levels)

theorem isCutAt_argumentExample (cuts : ∀ inner, IsCutAt levels (whole inner) (part inner))
    (base : String) (argument : Field)
    : IsCutAt levels (argumentExample whole base argument) (argumentExample part base argument) :=
  by
  intro value made
  unfold argumentExample at made ⊢
  split at made
  case isTrue number =>
    cases made
    exact if_pos number
  case isFalse other =>
    rw [if_neg other]
    split at made
    case isTrue truth =>
      cases made
      exact if_pos truth
    case isFalse other =>
      rw [if_neg other]
      split at made
      case isTrue text =>
        cases made
        exact if_pos text
      case isFalse other =>
        rw [if_neg other]
        exact cuts base value made

/-- Arguments are cut where types are, by induction on the arguments. -/
theorem areCutAt_argumentExamples (cuts : ∀ inner, IsCutAt levels (whole inner) (part inner))
    (arguments : List Field)
    : AreCutAt levels (expander.argumentExamples whole arguments)
        (expander.argumentExamples part arguments) := by
  induction arguments with
  | nil =>
      intro entries made
      cases made
      rfl
  | cons argument rest ih =>
      intro entries made
      rw [argumentExamples] at made ⊢
      obtain ⟨base, based, made⟩ := bind_eq_ok.mp made
      obtain ⟨resolved, resolves, made⟩ := bind_eq_ok.mp made
      obtain ⟨value, valued, made⟩ := bind_eq_ok.mp made
      obtain ⟨others, othersMade, made⟩ := bind_eq_ok.mp made
      cases made
      refine bind_eq_ok.mpr ⟨base, based, bind_eq_ok.mpr ⟨resolved, resolves, ?_⟩⟩
      refine bind_eq_ok.mpr ⟨value.cut levels, isCutAt_argumentExample cuts _ _ _ valued, ?_⟩
      refine bind_eq_ok.mpr ⟨others.cut levels, ih others othersMade, ?_⟩
      rw [Entries.cut, Example.cut_listed]
      rfl

theorem isCutAt_fieldExample (cuts : ∀ inner, IsCutAt levels (whole inner) (part inner))
    (field : Field)
    : IsCutAt levels (expander.fieldExample whole field) (expander.fieldExample part field) := by
  intro shown made
  rw [fieldExample] at made ⊢
  obtain ⟨resolved, resolves, made⟩ := bind_eq_ok.mp made
  obtain ⟨value, valued, made⟩ := bind_eq_ok.mp made
  cases made
  refine bind_eq_ok.mpr ⟨resolved, resolves, bind_eq_ok.mpr ⟨_, cuts _ value valued, ?_⟩⟩
  rw [Example.cut_listed, Example.cut_connected]
  rfl

/-- Members are cut where types are, by induction on the members. -/
theorem areCutAt_memberExamples (cuts : ∀ inner, IsCutAt levels (whole inner) (part inner))
    (members : List Field)
    : AreCutAt levels (expander.memberExamples whole members)
        (expander.memberExamples part members) := by
  induction members with
  | nil =>
      intro entries made
      cases made
      rfl
  | cons member rest ih =>
      intro entries made
      rw [memberExamples] at made ⊢
      obtain ⟨value, valued, made⟩ := bind_eq_ok.mp made
      obtain ⟨arguments, given, made⟩ := bind_eq_ok.mp made
      obtain ⟨others, othersMade, made⟩ := bind_eq_ok.mp made
      cases made
      refine bind_eq_ok.mpr ⟨_, isCutAt_fieldExample cuts member value valued, ?_⟩
      refine bind_eq_ok.mpr ⟨_, areCutAt_argumentExamples cuts member.arguments arguments given, ?_⟩
      exact bind_eq_ok.mpr ⟨_, ih others othersMade, rfl⟩

end

/-- A name is cut at a depth if names are below it, as far as the lower limit leaves room there. An
object for which it leaves none is cut off whether the higher limit leaves room or not.
-/
theorem isCutAt_exampleBelow (le : lower ≤ limit) (name : String)
    (below
      : ¬lower ≤ depth → ∀ inner,
          IsCutAt (roomAt lower (depth + 1))
            (expander.exampleBelow limit (depth + 1) (insert name ancestors) inner)
            (expander.exampleBelow lower (depth + 1) (insert name ancestors) inner))
    : IsCutAt (roomAt lower depth) (expander.exampleBelow limit depth ancestors name)
        (expander.exampleBelow lower depth ancestors name) := by
  intro value made
  apply exampleBelow_eq_ok_iff.mpr
  cases exampleBelow_eq_ok_iff.mp made with
  | builtin found => exact .builtin found
  | sentinel found held => exact .sentinel found held
  | leaf found free leaf =>
      obtain ⟨shown, rfl⟩ := exists_literal_of_leaf? leaf
      exact .leaf found free leaf
  | truncated found free nested cut => exact .truncated found free nested (le.trans cut)
  | object found free nested inside entriesMade =>
      by_cases cut : lower ≤ depth
      · have none : roomAt lower depth = 0 := by
          unfold roomAt
          omega
        rw [none]
        exact .truncated found free nested cut
      · have some : roomAt lower depth = roomAt lower (depth + 1) + 1 := by
          unfold roomAt
          omega
        rw [some]
        exact .object found free nested cut (areCutAt_memberExamples (below cut) _ _ entriesMade)

/-- Every name is cut at the room that the lower limit leaves, at any depth and below any ancestors.
By induction on that room.
-/
theorem isCutAt_of_le (le : lower ≤ limit) (depth : Int) (ancestors : Finset String) (name : String)
    : IsCutAt (roomAt lower depth) (expander.exampleBelow limit depth ancestors name)
        (expander.exampleBelow lower depth ancestors name) := by
  induction room : roomAt lower depth generalizing depth ancestors name with
  | zero =>
      rw [← room]
      apply isCutAt_exampleBelow le
      intro inside
      unfold roomAt at room
      omega
  | succ size ih =>
      rw [← room]
      apply isCutAt_exampleBelow le
      intro inside inner
      have next : roomAt lower (depth + 1) = size := by
        unfold roomAt at room ⊢
        omega
      rw [next]
      exact ih (depth + 1) (insert name ancestors) inner next

/-- A lower limit shows the same example, cut: when a name, a field or arguments have an example
from an empty guard, they have one under every lower limit, and it is the former with each object
that lies below as many objects as the limit allows cut off, and nothing else changed.
-/
theorem example_cut_of_lower_limit (expander : Expander) {limit lower : Int} (le : lower ≤ limit)
    : (∀ name value,
        Expansion.fromEmpty (expander.expandIn (roomAt limit 0) name) = .ok value →
          Expansion.fromEmpty (expander.expandIn (roomAt lower 0) name)
            = .ok (value.cut lower.toNat))
      ∧ (∀ field value,
          Expansion.fromEmpty (expander.fieldValue (expander.expandIn (roomAt limit 0)) field)
              = .ok value →
            Expansion.fromEmpty (expander.fieldValue (expander.expandIn (roomAt lower 0)) field)
              = .ok (value.cut lower.toNat))
      ∧ ∀ arguments entries,
          Expansion.fromEmpty
              (expander.argumentEntries (expander.expandIn (roomAt limit 0)) arguments)
              = .ok entries →
            Expansion.fromEmpty
              (expander.argumentEntries (expander.expandIn (roomAt lower 0)) arguments)
              = .ok (entries.cut lower.toNat) := by
  have room : lower.toNat = roomAt lower 0 := by
    unfold roomAt
    omega
  have cuts (name : String)
      : IsCutAt (roomAt lower 0) (expander.exampleBelow limit 0 Guard.empty.names name)
          (expander.exampleBelow lower 0 Guard.empty.names name) :=
    isCutAt_of_le le 0 Guard.empty.names name
  rw [room]
  refine ⟨?_, ?_, ?_⟩
  · intro name value made
    rw [fromEmpty_expandIn] at made ⊢
    exact cuts name value made
  · intro field value made
    rw [fromEmpty_fieldValue] at made ⊢
    exact isCutAt_fieldExample cuts field value made
  · intro arguments entries made
    rw [fromEmpty_argumentEntries] at made ⊢
    exact areCutAt_argumentExamples cuts arguments entries made

/-- Posts and users show each other, and the filter of a connection of posts shows itself. -/
def forum : Expander :=
  let use (name type : String) (arguments : List Field) : Field :=
    {
      name := .string name
      type := .named (.string type) none
      arguments
      description := .null
      isDeprecated := false
      defaultValue := .null
    }
  let type (name : String) (kind : TypeKind) (fields inputFields : List Field) : TypeDef :=
    {
      name := .string name
      kind
      fields := some fields
      inputFields := some inputFields
      interfaces := []
      possibleTypes := []
      enumValues := []
      description := .null
      isDeprecated := false
    }
  let entry (name : String) : String × NameMapping :=
    (name, {
      schemaName := name
      targetName := "Types::" ++ name
      category := .types
      baseType := none
    })
  {
    schema :=
      {
        queryType := .string "User"
        mutationType := .null
        subscriptionType := .null
        directives := []
        types :=
          [
            type "User" .object [use "posts" "PostConnection" [use "filter" "Filter" []]] [],
            type "Post" .object [use "author" "User" [], use "title" "Title" []] [],
            type "Filter" .inputObject [] [use "not" "Filter" []],
            type "Title" .scalar [] []
          ]
        description := .null
      }
    classified := { mappings := [entry "User", entry "Post", entry "Filter", entry "Title"] }
  }

/-- With a limit of one the connection of posts stays, and what stood in it and in the filter is cut
off.
-/
theorem example_cut_forum
    : ∃ value,
        Expansion.fromEmpty (forum.expandIn (roomAt 3 0) "User") = .ok value
        ∧ Expansion.fromEmpty (forum.expandIn (roomAt 1 0) "User") = .ok (value.cut 1)
        ∧ value.cut 1
          = .object (.cons (.string "posts") (.connection .truncated)
              (.single (.string "filter") .truncated) .nil) := by
  have shown
      : Expansion.fromEmpty (forum.expandIn (roomAt 3 0) "User")
        = .ok
          (.object (.cons (.string "posts")
            (.connection
              (.object
                (.cons (.string "author") (.sentinel "User") .nil
                  (.single (.string "title") (.literal (.string "\"Title\""))))))
            (.single (.string "filter")
              (.object (.single (.string "not") (.sentinel "Filter")))) .nil)) := by
    decide +kernel
  exact ⟨_, shown, (example_cut_of_lower_limit forum (by decide)).1 "User" _ shown, rfl⟩

end Expander

end RubySchema
