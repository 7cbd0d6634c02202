import RubySchema.Proofs.Example.Ancestors
import RubySchema.Proofs.Schema.Names
import RubySchema.Proofs.Schema.WellFormed

/-!
Every type of a well-formed schema has an example. Names and leaves of the example are texts,
however deep it goes, and whatever is being shown further out.
-/

namespace RubySchema

namespace Expander

/-- An expander for a well-formed schema: each name that has a mapping is that of a type or built
in, and what the types show can be shown.
-/
structure IsWellFormed (expander : Expander) : Prop where
  defined
    : ∀ {name mapping}, expander.classified.get? name = some mapping →
        mapping.isBuiltin = false → ∃ type ∈ expander.schema.types, type.name = .string name
  types
    : ∀ type ∈ expander.schema.types, expander.classified.Knows type.name →
        type.IsWellFormed expander.classified
  inputs : expander.schema.HasPassableInputs expander.classified

def IsShown (outcome : Except Error Example) : Prop :=
  ∃ value, outcome = .ok value ∧ value.outline.IsTextual

def AreShown (outcome : Except Error Entries) : Prop :=
  ∃ entries, outcome = .ok entries ∧ entries.outlines.AreTextual

/-- Every type that has a mapping has an example of texts. -/
def ShowsKnown (expander : Expander) (exampleOf : String → Except Error Example) : Prop :=
  ∀ name, (expander.classified.get? name).isSome → IsShown (exampleOf name)

variable {expander : Expander} {exampleOf : String → Except Error Example}

theorem isTextual_listed {value : Example} (textual : value.outline.IsTextual) (isArray : Bool)
    : (if isArray then Example.list value else value).outline.IsTextual := by
  cases isArray with
  | true => exact textual
  | false => exact textual

/-- An argument that can be passed has an example of texts when types have. A number, a text or a
truth value needs none; a default value that is shown is a text.
-/
theorem isShown_argumentExample (shown : expander.ShowsKnown exampleOf) {base : String}
    {argument : Field} (known : (expander.classified.get? base).isSome)
    (default : argument.defaultValue.IsTextOrNull)
    : IsShown (argumentExample exampleOf base argument) := by
  unfold argumentExample
  split
  · exact ⟨_, rfl, base, rfl⟩
  split
  · refine ⟨_, rfl, ?_⟩
    show (if argument.defaultValue.isVoid then Json.string base
      else argument.defaultValue).IsText
    split
    · exact ⟨base, rfl⟩
    · exact default.isText (by simpa using ‹¬argument.defaultValue.isVoid = true›)
  split
  · exact ⟨_, rfl, _, rfl⟩
  · exact shown base known

/-- Arguments that can be passed have examples of texts when types have, by induction on the
arguments.
-/
theorem areShown_argumentExamples (shown : expander.ShowsKnown exampleOf) {arguments : List Field}
    (passable : ∀ argument ∈ arguments, argument.IsPassable expander.classified)
    : AreShown (expander.argumentExamples exampleOf arguments) := by
  induction arguments with
  | nil => exact ⟨.nil, rfl, trivial⟩
  | cons argument rest ih =>
      have here := passable argument List.mem_cons_self
      obtain ⟨base, based, known⟩ := here.known
      obtain ⟨resolved, resolves, -⟩ := here.resolved
      obtain ⟨value, valued, textual⟩ := isShown_argumentExample shown known here.default
      obtain ⟨entries, made, textuals⟩ :=
        ih fun other member => passable other (List.mem_cons_of_mem argument member)
      let listed := if resolved.isArray then Example.list value else value
      refine ⟨.cons argument.name listed .nil entries, ?_, here.named,
        isTextual_listed textual resolved.isArray, trivial, textuals⟩
      rw [argumentExamples, based, resolves, made]
      show (argumentExample exampleOf (Naming.stripConnection base).1 argument >>= _) = _
      rw [valued]
      rfl

/-- A usable field has an example of texts when types have. -/
theorem isShown_fieldExample (shown : expander.ShowsKnown exampleOf) {field : Field}
    (usable : field.IsUsable expander.classified)
    : IsShown (expander.fieldExample exampleOf field) := by
  obtain ⟨resolved, resolves, known, -⟩ := usable.resolved
  obtain ⟨value, valued, textual⟩ := shown resolved.name known
  have connected
      : (if resolved.isConnection then Example.connection value else value).outline.IsTextual := by
    cases resolved.isConnection with
    | true => exact Outline.IsTextual.ofConnection textual
    | false => exact textual
  refine ⟨_, ?_, isTextual_listed connected resolved.isArray⟩
  rw [fieldExample, resolves]
  show (exampleOf resolved.name >>= _) = _
  rw [valued]
  rfl

/-- Usable members have examples of texts when types have, by induction on the members. -/
theorem areShown_memberExamples (shown : expander.ShowsKnown exampleOf) {members : List Field}
    (usable : ∀ member ∈ members, member.IsUsable expander.classified)
    (passable
      : ∀ member ∈ members, ∀ argument ∈ member.arguments,
          argument.IsPassable expander.classified)
    : AreShown (expander.memberExamples exampleOf members) := by
  induction members with
  | nil => exact ⟨.nil, rfl, trivial⟩
  | cons member rest ih =>
      have here := usable member List.mem_cons_self
      obtain ⟨value, valued, textual⟩ := isShown_fieldExample shown here
      obtain ⟨arguments, given, argumentsTextual⟩ :=
        areShown_argumentExamples shown (passable member List.mem_cons_self)
      obtain ⟨entries, made, textuals⟩ :=
        ih (fun other among => usable other (List.mem_cons_of_mem member among))
          fun other among => passable other (List.mem_cons_of_mem member among)
      refine ⟨.cons member.name value arguments entries, ?_, here.named, textual,
        argumentsTextual, textuals⟩
      rw [memberExamples, valued, given, made]
      rfl

/-- A type without fields of its own is shown by a text. -/
theorem exists_leaf? {type : TypeDef} (wellFormed : type.IsWellFormed expander.classified)
    (name : String)
    : ∃ leaf,
        leaf? type name = .ok leaf
        ∧ ∀ value ∈ leaf, value.outline.IsTextual := by
  unfold leaf?
  split
  · refine ⟨_, rfl, ?_⟩
    rintro value ⟨⟩
    exact ⟨_, rfl⟩
  · obtain ⟨values, made⟩ :=
      succeeds_mapM fun value member => (wellFormed.values value member).1.asText
    rw [made]
    refine ⟨_, rfl, ?_⟩
    rintro value ⟨⟩
    exact ⟨_, rfl⟩
  · have texts : ∀ mention ∈ type.possibleTypes, Succeeds mention.name.asText := by
      intro mention member
      obtain ⟨-, text, named, -⟩ := wellFormed.members ‹type.kind = .union› mention member
      rw [named]
      exact succeeds_ok text
    obtain ⟨members, made⟩ := succeeds_mapM texts
    rw [made]
    refine ⟨_, rfl, ?_⟩
    rintro value ⟨⟩
    exact ⟨_, rfl⟩
  · exact ⟨none, rfl, fun _ member => nomatch member⟩

/-- The definition of a name that has a mapping is found, unless the name is built in. It is that of
a type of the schema whose name has a mapping.
-/
theorem IsWellFormed.definition (wellFormed : expander.IsWellFormed) {name : String}
    (known : (expander.classified.get? name).isSome)
    : expander.definition name = .ok none
      ∨ ∃ type ∈ expander.schema.types,
          expander.classified.Knows type.name ∧ expander.definition name = .ok (some type) := by
  unfold Expander.definition
  cases found : expander.schema.typeNamed? (.string name) with
  | some type =>
      obtain ⟨member, named⟩ := Schema.typeNamed?_eq_some found
      exact .inr ⟨type, member, ⟨name, named, known⟩, rfl⟩
  | none =>
      obtain ⟨mapping, mapped⟩ := Option.isSome_iff_exists.mp known
      have builtin : expander.classified.isBuiltin name = true := by
        unfold Classified.isBuiltin
        rw [mapped]
        cases isBuiltin : mapping.isBuiltin with
        | true => exact isBuiltin
        | false =>
            obtain ⟨type, member, named⟩ := wellFormed.defined mapped isBuiltin
            exact absurd named (Schema.typeNamed?_eq_none found member)
      left
      simp [builtin]

theorem IsWellFormed.members (wellFormed : expander.IsWellFormed)
    (shown : expander.ShowsKnown exampleOf) {type : TypeDef}
    (member : type ∈ expander.schema.types) (known : expander.classified.Knows type.name)
    : AreShown (expander.memberExamples exampleOf type.members) := by
  have typeFormed := wellFormed.types type member known
  unfold TypeDef.members
  split
  · exact areShown_memberExamples shown
      (fun field among => (typeFormed.inputFields field among).1.toIsUsable)
      (wellFormed.inputs type member known)
  · exact areShown_memberExamples shown typeFormed.fields
      fun field among argument given => (typeFormed.arguments field among argument given).1

/-- A name that has a mapping is shown at a depth if names are below it, as far as the limit leaves
room there. An ancestor and a leaf need no room.
-/
theorem IsWellFormed.isShown_exampleBelow (wellFormed : expander.IsWellFormed)
    {limit depth : Int} {ancestors : Finset String} {name : String}
    (known : (expander.classified.get? name).isSome)
    (below
      : ¬limit ≤ depth →
          expander.ShowsKnown (expander.exampleBelow limit (depth + 1) (insert name ancestors)))
    : IsShown (expander.exampleBelow limit depth ancestors name) := by
  rw [exampleBelow]
  rcases wellFormed.definition known with none | ⟨type, member, typeKnown, found⟩
  · rw [none]
    exact ⟨.literal (inQuotes name), rfl, _, rfl⟩
  obtain ⟨leaf, leafFound, textual⟩ := exists_leaf? (wellFormed.types type member typeKnown) name
  rw [found]
  show IsShown (if name ∈ ancestors then _ else leaf? type name >>= _)
  rw [leafFound]
  by_cases ancestor : name ∈ ancestors
  · rw [if_pos ancestor]
    exact ⟨.sentinel name, rfl, _, rfl⟩
  rw [if_neg ancestor]
  cases leaf with
  | some value => exact ⟨value, rfl, textual value rfl⟩
  | none =>
      show IsShown (dite (limit ≤ depth) _ _)
      by_cases cut : limit ≤ depth
      · rw [dif_pos cut]
        exact ⟨.truncated, rfl, trivial⟩
      · obtain ⟨entries, made, textuals⟩ := wellFormed.members (below cut) member typeKnown
        rw [dif_neg cut, made]
        exact ⟨.object entries, rfl, textuals⟩

/-- In a well-formed schema, every name that has a mapping is shown, at any depth and below any
ancestors. By induction on the room that the limit leaves.
-/
theorem IsWellFormed.showsKnown (wellFormed : expander.IsWellFormed) (limit depth : Int)
    (ancestors : Finset String)
    : expander.ShowsKnown (expander.exampleBelow limit depth ancestors) := by
  induction room : roomAt limit depth generalizing depth ancestors with
  | zero =>
      intro name known
      apply wellFormed.isShown_exampleBelow known
      intro inside
      unfold roomAt at room
      omega
  | succ size ih =>
      intro name known
      apply wellFormed.isShown_exampleBelow known
      intro inside
      apply ih
      unfold roomAt at room ⊢
      omega

/-- A step that leaves the guard alone has its outcome from an empty guard. -/
theorem fromEmpty_of_ofExcept {α : Type} {step : Expansion α} {outcome : Except Error α}
    (here : step Guard.empty = Expansion.ofExcept outcome Guard.empty)
    : Expansion.fromEmpty step = outcome := by
  unfold Expansion.fromEmpty
  rw [here]
  cases outcome with
  | ok value => rfl
  | error cause => rfl

/-- In a well-formed schema, a usable field is shown from an empty guard. -/
theorem IsWellFormed.isShown_fieldValue (wellFormed : expander.IsWellFormed) (limit : Int)
    {field : Field} (usable : field.IsUsable expander.classified)
    : IsShown
        (Expansion.fromEmpty (expander.fieldValue (expander.expandIn (roomAt limit 0)) field)) := by
  rw [fromEmpty_of_ofExcept (fieldValue_eq (expandIn_eq expander limit 0 Guard.empty) field)]
  exact isShown_fieldExample (wellFormed.showsKnown limit 0 _) usable

/-- In a well-formed schema, arguments that can be passed are shown from an empty guard. -/
theorem IsWellFormed.areShown_argumentEntries (wellFormed : expander.IsWellFormed) (limit : Int)
    {arguments : List Field}
    (passable : ∀ argument ∈ arguments, argument.IsPassable expander.classified)
    : AreShown
        (Expansion.fromEmpty
          (expander.argumentEntries (expander.expandIn (roomAt limit 0)) arguments)) := by
  rw [fromEmpty_of_ofExcept
    (argumentEntries_eq (expandIn_eq expander limit 0 Guard.empty) arguments)]
  exact areShown_argumentExamples (wellFormed.showsKnown limit 0 _) passable

end Expander

end RubySchema
