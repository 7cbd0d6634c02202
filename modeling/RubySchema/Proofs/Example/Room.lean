import Mathlib.Data.Finset.Card
import Mathlib.Data.Finset.SDiff
import RubySchema.Proofs.Example.Cut

/-!
A limit of as many levels as the schema has types with members cuts no example off, and every such
limit gives the same outcome. A type with members is shown once on the way down, so nothing lies
below more objects than there are such types.
-/

namespace RubySchema

mutual

/-- Nothing in an example is cut off. -/
def Example.IsUncut : Example → Prop
  | .literal _ => True
  | .sentinel _ => True
  | .truncated => False
  | .object entries => entries.AreUncut
  | .list item => item.IsUncut
  | .connection node => node.IsUncut

def Entries.AreUncut : Entries → Prop
  | .nil => True
  | .cons _ value arguments rest => value.IsUncut ∧ arguments.AreUncut ∧ rest.AreUncut

end

-----------------------------------------------------------------------------------------
-- Names of types with members
-----------------------------------------------------------------------------------------

/-- A type is shown by its members, as scalars, enumerations and unions are not. -/
def TypeDef.isNested (type : TypeDef) : Bool :=
  !List.contains [TypeKind.scalar, .enum, .union] type.kind

namespace Keyed

variable {α : Type} {table : Keyed α} {name : String} {key : Json} {value other : α}

theorem mem_put (table : Keyed α) (name : String) (value : α)
    : (.string name, value) ∈ table.put (.string name) value := by
  induction table with
  | nil => exact List.mem_singleton.mpr rfl
  | cons entry rest ih =>
      by_cases same : entry.1.isSame (.string name) = true
      · rw [put, if_pos same, Json.isSame_string.mp same]
        exact List.mem_cons_self
      · rw [put, if_neg same]
        exact List.mem_cons_of_mem entry ih

/-- What is written under another name leaves an entry in place. -/
theorem mem_put_of_mem (member : (.string name, value) ∈ table)
    (different : key.isSame (.string name) = false) : (.string name, value) ∈ table.put key other
    := by
  induction table with
  | nil => cases member
  | cons entry rest ih =>
      by_cases same : entry.1.isSame key = true
      · rw [put, if_pos same]
        rcases List.mem_cons.mp member with rfl | later
        · cases key with
          | string text =>
              simp only [Json.isSame, beq_iff_eq, beq_eq_false_iff_ne] at same different
              exact absurd same.symm different
          | _ => simp [Json.isSame] at same
        · exact List.mem_cons_of_mem _ later
      · rw [put, if_neg same]
        rcases List.mem_cons.mp member with rfl | later
        · exact List.mem_cons_self
        · exact List.mem_cons_of_mem entry (ih later)

end Keyed

namespace Schema

/-- The types with members, each under its name as `byName` has them. -/
def nested (schema : Schema) : Keyed TypeDef :=
  (Keyed.ofEntries (schema.types.map fun type => (type.name, type))).filter fun entry =>
    entry.2.isNested

def nestedNames (schema : Schema) : Finset String :=
  (schema.nested.filterMap fun entry =>
    match entry.1 with
    | .string name => some name
    | _ => none).toFinset

theorem card_nestedNames_le (schema : Schema)
    : schema.nestedNames.card ≤ schema.nested.length :=
  (List.toFinset_card_le _).trans (List.length_filterMap_le _ _)

/-- The last type of a name stands under its name, by induction on the types from the last one. -/
theorem mem_ofEntries_of_find? {types : List TypeDef} {name : String} {type : TypeDef}
    (found : types.reverse.find? (fun other => other.name.isSame (.string name)) = some type)
    : (.string name, type) ∈ Keyed.ofEntries (types.map fun type => (type.name, type)) := by
  induction types using List.reverseRecOn with
  | nil => cases found
  | append_singleton types last ih =>
      rw [Keyed.ofEntries, List.map_append, List.foldl_append]
      rw [List.reverse_append, List.reverse_singleton, List.singleton_append, List.find?_cons]
        at found
      show _ ∈ Keyed.put _ last.name last
      split at found
      case h_1 same =>
        cases found
        rw [Json.isSame_string.mp same]
        exact Keyed.mem_put _ name type
      case h_2 different => exact Keyed.mem_put_of_mem (ih found) different

theorem mem_nestedNames {schema : Schema} {name : String} {type : TypeDef}
    (found : schema.typeNamed? (.string name) = some type) (nested : type.isNested = true)
    : name ∈ schema.nestedNames := by
  have entry : (.string name, type) ∈ schema.nested :=
    List.mem_filter.mpr ⟨mem_ofEntries_of_find? found, nested⟩
  exact List.mem_toFinset.mpr (List.mem_filterMap.mpr ⟨_, entry, rfl⟩)

end Schema

namespace Expander

variable {expander : Expander} {limit other depth : Int} {ancestors : Finset String} {name : String}

-----------------------------------------------------------------------------------------
-- Room for what is left
-----------------------------------------------------------------------------------------

/-- As many levels are left as names of types with members that are not among the ancestors. -/
def HasRoom (expander : Expander) (limit depth : Int) (ancestors : Finset String) : Prop :=
  ((expander.schema.nestedNames \ ancestors).card : Int) ≤ limit - depth

/-- The definition of a name that is no leaf is that of a type with members. -/
theorem mem_nestedNames_of_leaf? {type : TypeDef}
    (found : expander.definition name = .ok (some type)) (nested : leaf? type name = .ok none)
    : name ∈ expander.schema.nestedNames := by
  apply Schema.mem_nestedNames (typeNamed?_of_definition found)
  unfold leaf? at nested
  unfold TypeDef.isNested
  split at nested
  case h_1 => cases nested
  case h_2 =>
    obtain ⟨values, -, made⟩ := bind_eq_ok.mp nested
    cases made
  case h_3 =>
    obtain ⟨members, -, made⟩ := bind_eq_ok.mp nested
    cases made
  case h_4 scalar enum union =>
    cases kind : type.kind <;> simp_all

/-- A new name of a type with members is one name less to come. -/
theorem card_sdiff_insert {names : Finset String} (member : name ∈ names) (free : name ∉ ancestors)
    : (names \ insert name ancestors).card + 1 = (names \ ancestors).card := by
  rw [Finset.sdiff_insert]
  exact Finset.card_erase_add_one (Finset.mem_sdiff.mpr ⟨member, free⟩)

/-- A new name of a type with members is one of the names left, so there is a level for it. -/
theorem HasRoom.inside (room : expander.HasRoom limit depth ancestors)
    (nested : name ∈ expander.schema.nestedNames) (free : name ∉ ancestors) : ¬limit ≤ depth := by
  have left : 0 < (expander.schema.nestedNames \ ancestors).card :=
    Finset.card_pos.mpr ⟨name, Finset.mem_sdiff.mpr ⟨nested, free⟩⟩
  unfold HasRoom at room
  omega

/-- One level down there is one ancestor more and one name less. -/
theorem HasRoom.next (room : expander.HasRoom limit depth ancestors)
    (nested : name ∈ expander.schema.nestedNames) (free : name ∉ ancestors)
    : expander.HasRoom limit (depth + 1) (insert name ancestors) := by
  have fewer := card_sdiff_insert nested free
  unfold HasRoom at room ⊢
  omega

/-- Without ancestors there is room under a limit of all types with members. -/
theorem hasRoom_empty (enough : (expander.schema.nested.length : Int) ≤ limit)
    : expander.HasRoom limit 0 Guard.empty.names := by
  have all : expander.schema.nestedNames \ Guard.empty.names = expander.schema.nestedNames :=
    Finset.sdiff_empty
  have fewer := expander.schema.card_nestedNames_le
  unfold HasRoom
  rw [all]
  omega

/-- What holds of a place where there is room once it holds one level down, below each name that is
left, holds wherever there is room. By induction on the number of names left.
-/
theorem HasRoom.step_induction
    {motive : ∀ depth ancestors, expander.HasRoom limit depth ancestors → Prop}
    (step
      : ∀ {depth ancestors} (room : expander.HasRoom limit depth ancestors),
          (∀ {name} (nested : name ∈ expander.schema.nestedNames) (free : name ∉ ancestors),
            motive (depth + 1) (insert name ancestors) (room.next nested free)) →
          motive depth ancestors room)
    {depth : Int} {ancestors : Finset String} (room : expander.HasRoom limit depth ancestors)
    : motive depth ancestors room := by
  induction left : (expander.schema.nestedNames \ ancestors).card generalizing depth ancestors with
  | zero =>
      apply step room
      intro name nested free
      have none := Finset.card_eq_zero.mp left
      exact absurd (Finset.mem_sdiff.mpr ⟨nested, free⟩) (none ▸ Finset.notMem_empty name)
  | succ size ih =>
      apply step room
      intro name nested free
      apply ih (room.next nested free)
      have fewer := card_sdiff_insert nested free
      omega

-----------------------------------------------------------------------------------------
-- Nothing is cut off
-----------------------------------------------------------------------------------------

section
variable {exampleOf : String → Except Error Example}

def ShowsUncut (exampleOf : String → Except Error Example) : Prop :=
  ∀ name value, exampleOf name = .ok value → value.IsUncut

theorem isUncut_listed {value : Example} (uncut : value.IsUncut) (isArray : Bool)
    : (if isArray then Example.list value else value).IsUncut := by
  cases isArray with
  | true => exact uncut
  | false => exact uncut

theorem isUncut_argumentExample (shows : ShowsUncut exampleOf) {base : String} {argument : Field}
    {value : Example} (made : argumentExample exampleOf base argument = .ok value)
    : value.IsUncut := by
  unfold argumentExample at made
  split at made
  · cases made
    trivial
  split at made
  · cases made
    trivial
  split at made
  · cases made
    trivial
  · exact shows base value made

/-- Nothing of arguments is cut off, by induction on the arguments. -/
theorem areUncut_argumentExamples (shows : ShowsUncut exampleOf) {arguments : List Field}
    {entries : Entries} (made : expander.argumentExamples exampleOf arguments = .ok entries)
    : entries.AreUncut := by
  induction arguments generalizing entries with
  | nil =>
      cases made
      trivial
  | cons argument rest ih =>
      rw [argumentExamples] at made
      obtain ⟨base, -, made⟩ := bind_eq_ok.mp made
      obtain ⟨resolved, -, made⟩ := bind_eq_ok.mp made
      obtain ⟨value, valued, made⟩ := bind_eq_ok.mp made
      obtain ⟨others, othersMade, made⟩ := bind_eq_ok.mp made
      cases made
      exact ⟨isUncut_listed (isUncut_argumentExample shows valued) _, trivial, ih othersMade⟩

theorem isUncut_fieldExample (shows : ShowsUncut exampleOf) {field : Field} {value : Example}
    (made : expander.fieldExample exampleOf field = .ok value) : value.IsUncut := by
  rw [fieldExample] at made
  obtain ⟨resolved, -, made⟩ := bind_eq_ok.mp made
  obtain ⟨inner, shown, made⟩ := bind_eq_ok.mp made
  cases made
  have uncut := shows resolved.name inner shown
  apply isUncut_listed
  cases resolved.isConnection with
  | true => exact uncut
  | false => exact uncut

/-- Nothing of members is cut off, by induction on the members. -/
theorem areUncut_memberExamples (shows : ShowsUncut exampleOf) {members : List Field}
    {entries : Entries} (made : expander.memberExamples exampleOf members = .ok entries)
    : entries.AreUncut := by
  induction members generalizing entries with
  | nil =>
      cases made
      trivial
  | cons member rest ih =>
      rw [memberExamples] at made
      obtain ⟨value, valued, made⟩ := bind_eq_ok.mp made
      obtain ⟨arguments, given, made⟩ := bind_eq_ok.mp made
      obtain ⟨others, othersMade, made⟩ := bind_eq_ok.mp made
      cases made
      exact ⟨isUncut_fieldExample shows valued, areUncut_argumentExamples shows given,
        ih othersMade⟩

end

/-- Where there is room nothing is cut off. -/
theorem HasRoom.showsUncut (room : expander.HasRoom limit depth ancestors)
    : ShowsUncut (expander.exampleBelow limit depth ancestors) := by
  induction room using HasRoom.step_induction with
  | step room below =>
      intro name value made
      cases exampleBelow_eq_ok_iff.mp made with
      | builtin => trivial
      | sentinel => trivial
      | leaf _ _ leaf =>
          obtain ⟨shown, rfl⟩ := exists_literal_of_leaf? leaf
          trivial
      | truncated found free nested cut =>
          exact absurd cut (room.inside (mem_nestedNames_of_leaf? found nested) free)
      | object found free nested _ entriesMade =>
          exact areUncut_memberExamples (below (mem_nestedNames_of_leaf? found nested) free)
            entriesMade

/-- Where there is room under both of two limits, they give the same outcome. -/
theorem HasRoom.exampleBelow_eq (room : expander.HasRoom limit depth ancestors)
    (otherRoom : expander.HasRoom other depth ancestors)
    : expander.exampleBelow limit depth ancestors
      = expander.exampleBelow other depth ancestors := by
  induction room using HasRoom.step_induction with
  | step room below =>
      funext name
      rw [exampleBelow, exampleBelow]
      cases found : expander.definition name with
      | error cause => rfl
      | ok defined =>
          cases defined with
          | none => rfl
          | some type =>
              show (if name ∈ _ then _ else _) = (if name ∈ _ then _ else _)
              split
              case isTrue => rfl
              case isFalse free =>
                cases leaf : leaf? type name with
                | error cause => rfl
                | ok shown =>
                    cases shown with
                    | some value => rfl
                    | none =>
                        have nested := mem_nestedNames_of_leaf? found leaf
                        show dite _ _ _ = dite _ _ _
                        rw [dif_neg (room.inside nested free),
                          dif_neg (otherRoom.inside nested free),
                          below nested free (otherRoom.next nested free)]

/-- The guard alone ends every expansion. With a limit of as many levels as the schema has types
with members, what a name, a field or arguments show from an empty guard is nowhere cut off,
whatever cycles the types form; and each such limit gives the same outcome, be it an example or a
failure.
-/
theorem isUncut_of_nested_length_le (expander : Expander) {limit : Int}
    (enough : (expander.schema.nested.length : Int) ≤ limit)
    : (∀ name value,
        Expansion.fromEmpty (expander.expandIn (roomAt limit 0) name) = .ok value → value.IsUncut)
      ∧ (∀ field value,
          Expansion.fromEmpty (expander.fieldValue (expander.expandIn (roomAt limit 0)) field)
              = .ok value →
            value.IsUncut)
      ∧ (∀ arguments entries,
          Expansion.fromEmpty
              (expander.argumentEntries (expander.expandIn (roomAt limit 0)) arguments)
              = .ok entries →
            entries.AreUncut)
      ∧ ∀ other : Int,
          (expander.schema.nested.length : Int) ≤ other →
            (∀ name,
              Expansion.fromEmpty (expander.expandIn (roomAt other 0) name)
                = Expansion.fromEmpty (expander.expandIn (roomAt limit 0) name))
            ∧ (∀ field,
                Expansion.fromEmpty (expander.fieldValue (expander.expandIn (roomAt other 0)) field)
                  = Expansion.fromEmpty
                    (expander.fieldValue (expander.expandIn (roomAt limit 0)) field))
            ∧ ∀ arguments,
                Expansion.fromEmpty
                    (expander.argumentEntries (expander.expandIn (roomAt other 0)) arguments)
                  = Expansion.fromEmpty
                    (expander.argumentEntries (expander.expandIn (roomAt limit 0)) arguments) := by
  have room := hasRoom_empty enough
  refine ⟨?_, ?_, ?_, ?_⟩
  · intro name value made
    rw [fromEmpty_expandIn] at made
    exact room.showsUncut name value made
  · intro field value made
    rw [fromEmpty_fieldValue] at made
    exact isUncut_fieldExample room.showsUncut made
  · intro arguments entries made
    rw [fromEmpty_argumentEntries] at made
    exact areUncut_argumentExamples room.showsUncut made
  · intro other otherEnough
    have same := (hasRoom_empty otherEnough).exampleBelow_eq room
    refine ⟨?_, ?_, ?_⟩
    · intro name
      rw [fromEmpty_expandIn, fromEmpty_expandIn, same]
    · intro field
      rw [fromEmpty_fieldValue, fromEmpty_fieldValue, same]
    · intro arguments
      rw [fromEmpty_argumentEntries, fromEmpty_argumentEntries, same]

/-- Three types of the forum have members, and three levels show posts and users in full. -/
theorem isUncut_forum
    : forum.schema.nested.length = 3
      ∧ (∃ value, Expansion.fromEmpty (forum.expandIn (roomAt 3 0) "User") = .ok value
          ∧ value.IsUncut)
      ∧ Expansion.fromEmpty (forum.expandIn (roomAt 8 0) "User")
        = Expansion.fromEmpty (forum.expandIn (roomAt 3 0) "User") := by
  have nested : forum.schema.nested.length = 3 := by decide +kernel
  have enough : (forum.schema.nested.length : Int) ≤ 3 := by omega
  have whole := isUncut_of_nested_length_le forum enough
  have shown : Succeeds (Expansion.fromEmpty (forum.expandIn (roomAt 3 0) "User")) := by
    decide +kernel
  obtain ⟨value, made⟩ := shown
  exact ⟨nested, ⟨value, made, whole.1 "User" value made⟩, (whole.2.2.2 8 (by omega)).1 "User"⟩

end Expander

end RubySchema
