import RubySchema.Proofs.Example.Cut
import RubySchema.Proofs.Example.Tracing
import RubySchema.Proofs.Generation.Pieces
import RubySchema.Proofs.Registry.Suffixes

/-!
In every example that expansion shows, no type is opened twice on the way down, a sentinel stands
for a type that was opened, and a member or an argument of a type that was opened shows its
sentinel. The guard of an expansion holds the types of the objects that have been opened on the way
down.
-/

namespace RubySchema

-----------------------------------------------------------------------------------------
-- Ways down a trace
-----------------------------------------------------------------------------------------

mutual

/-- The parts of a trace, each with the types that objects were opened for on the way down to it,
the part included. The last type comes first.
-/
def Trace.visits (above : List String) : Trace → List (List String × Trace)
  | .leaf shown => [(above, .leaf shown)]
  | .object opened entries =>
      (opened :: above, .object opened entries) :: entries.visits (opened :: above)
  | .list item => (above, .list item) :: item.visits above
  | .connection node => (above, .connection node) :: node.visits above

def TraceEntries.visits (above : List String) : TraceEntries → List (List String × Trace)
  | .nil => []
  | .cons _ value arguments rest =>
      value.visits above ++ arguments.visits above ++ rest.visits above

end

/-- A place where a member or an argument is shown, below the types that objects were opened for. -/
structure Occurrence where
  opened : List String
  isArgument : Bool
  field : Field
  value : Trace

mutual

/-- The places in a trace where members and arguments are shown. -/
def Trace.occurrences (above : List String) : Trace → List Occurrence
  | .leaf _ => []
  | .object opened entries => entries.occurrences false (opened :: above)
  | .list item => item.occurrences above
  | .connection node => node.occurrences above

def TraceEntries.occurrences (isArgument : Bool) (above : List String)
    : TraceEntries → List Occurrence
  | .nil => []
  | .cons field value arguments rest =>
      { opened := above, isArgument, field, value }
        :: (value.occurrences above ++ arguments.occurrences true above
          ++ rest.occurrences isArgument above)

end

/-- An example in the connection and in the list that a use of its type is. -/
def Resolved.around (use : Resolved) (value : Example) : Example :=
  let value := if use.isConnection then .connection value else value
  if use.isArray then .list value else value

theorem Trace.shown_listed (tree : Trace) (isArray : Bool)
    : (if isArray then Trace.list tree else tree).shown
      = if isArray then .list tree.shown else tree.shown := by
  cases isArray <;> rfl

theorem Trace.shown_connected (tree : Trace) (isConnection : Bool)
    : (if isConnection then Trace.connection tree else tree).shown
      = if isConnection then .connection tree.shown else tree.shown := by
  cases isConnection <;> rfl

/-- A use that is resolved is one of the name of its type, without a `Connection` at its end. -/
theorem Resolved.stripped_of_ofField {classified : Classified} {field : Field} {use : Resolved}
    {base name : String} {isConnection : Bool} (resolves : ofField classified field = .ok use)
    (named : field.type.name = .string base) (strips : Naming.Strips base name isConnection)
    : use.name = name ∧ use.isConnection = isConnection := by
  obtain ⟨-, -, -, same⟩ := exists_of_ofField resolves
  rw [named] at same
  exact Prod.mk.inj (same.trans (Naming.strips_iff.mp strips))

/-- On the way down to a part of a trace, no type was opened twice. If the part is a leaf, it is a
literal, an object that was cut off, or the sentinel of a type that was opened.
-/
structure IsSoundVisit (opened : List String) (part : Trace) : Prop where
  once : opened.Nodup
  leaf
    : ∀ shown,
        part = .leaf shown
        → (∃ value, shown = .literal value)
          ∨ shown = .truncated
          ∨ ∃ name ∈ opened, shown = .sentinel name

/-- A member or an argument of a type that was opened shows the sentinel of the type, in its list.
That of a member is in the member's connection, too. An argument of a type that arguments show
without expansion is left aside.
-/
def Occurrence.IsCut (classified : Classified) (occurrence : Occurrence) : Prop :=
  ∀ base name isConnection,
    occurrence.field.type.name = .string base
    → Naming.Strips base name isConnection
    → name ∈ occurrence.opened
    → (occurrence.isArgument = true → name ∉ Expander.plainTypes)
    → ∃ use,
        Resolved.ofField classified occurrence.field = .ok use
        ∧ use.isConnection = isConnection
        ∧ occurrence.value.shown
          = (if occurrence.isArgument then { use with isConnection := false } else use).around
            (.sentinel name)

/-- Below types that were opened, each part of a trace is sound and each member and argument of such
a type is cut.
-/
structure Trace.IsFaithful (classified : Classified) (above : List String) (tree : Trace)
    : Prop where
  visit : ∀ opened part, (opened, part) ∈ tree.visits above → IsSoundVisit opened part
  cut : ∀ occurrence ∈ tree.occurrences above, occurrence.IsCut classified

structure TraceEntries.AreFaithful (classified : Classified) (isArgument : Bool)
    (above : List String) (entries : TraceEntries) : Prop where
  visit : ∀ opened part, (opened, part) ∈ entries.visits above → IsSoundVisit opened part
  cut : ∀ occurrence ∈ entries.occurrences isArgument above, occurrence.IsCut classified

section
variable {classified : Classified} {above : List String}

theorem Trace.isFaithful_leaf (once : above.Nodup) {shown : Example}
    (leaf
      : (∃ value, shown = .literal value)
        ∨ shown = .truncated
        ∨ ∃ name ∈ above, shown = .sentinel name)
    : IsFaithful classified above (.leaf shown) where
  visit opened part member := by
    obtain ⟨rfl, rfl⟩ := Prod.mk.inj (List.mem_singleton.mp member)
    refine ⟨once, fun other same => ?_⟩
    cases same
    exact leaf
  cut occurrence member := by cases member

theorem Trace.IsFaithful.list (once : above.Nodup) {item : Trace}
    (faithful : item.IsFaithful classified above) : IsFaithful classified above (.list item) where
  visit opened part member := by
    rcases List.mem_cons.mp member with same | member
    · obtain ⟨rfl, rfl⟩ := Prod.mk.inj same
      exact ⟨once, nofun⟩
    · exact faithful.visit opened part member
  cut := faithful.cut

theorem Trace.IsFaithful.connection (once : above.Nodup) {node : Trace}
    (faithful : node.IsFaithful classified above)
    : IsFaithful classified above (.connection node) where
  visit opened part member := by
    rcases List.mem_cons.mp member with same | member
    · obtain ⟨rfl, rfl⟩ := Prod.mk.inj same
      exact ⟨once, nofun⟩
    · exact faithful.visit opened part member
  cut := faithful.cut

theorem Trace.IsFaithful.listed (once : above.Nodup) {tree : Trace}
    (faithful : tree.IsFaithful classified above) (isArray : Bool)
    : (if isArray then .list tree else tree : Trace).IsFaithful classified above := by
  cases isArray with
  | true => exact faithful.list once
  | false => exact faithful

theorem Trace.IsFaithful.connected (once : above.Nodup) {tree : Trace}
    (faithful : tree.IsFaithful classified above) (isConnection : Bool)
    : (if isConnection then .connection tree else tree : Trace).IsFaithful classified above := by
  cases isConnection with
  | true => exact faithful.connection once
  | false => exact faithful

/-- An object that is opened for a new type is faithful if its entries are, below the type too. -/
theorem TraceEntries.AreFaithful.object {opened : String} (once : (opened :: above).Nodup)
    {entries : TraceEntries} (faithful : entries.AreFaithful classified false (opened :: above))
    : Trace.IsFaithful classified above (.object opened entries) where
  visit names part member := by
    rcases List.mem_cons.mp member with same | member
    · obtain ⟨rfl, rfl⟩ := Prod.mk.inj same
      exact ⟨once, nofun⟩
    · exact faithful.visit names part member
  cut := faithful.cut

theorem TraceEntries.areFaithful_nil {isArgument : Bool}
    : AreFaithful classified isArgument above .nil where
  visit opened part member := by cases member
  cut occurrence member := by cases member

theorem TraceEntries.AreFaithful.cons {isArgument : Bool} {field : Field} {value : Trace}
    {arguments rest : TraceEntries}
    (cut : Occurrence.IsCut classified { opened := above, isArgument, field, value })
    (valueFaithful : value.IsFaithful classified above)
    (argumentsFaithful : arguments.AreFaithful classified true above)
    (restFaithful : rest.AreFaithful classified isArgument above)
    : AreFaithful classified isArgument above (.cons field value arguments rest) where
  visit opened part member := by
    rw [TraceEntries.visits, List.mem_append, List.mem_append] at member
    rcases member with (member | member) | member
    · exact valueFaithful.visit opened part member
    · exact argumentsFaithful.visit opened part member
    · exact restFaithful.visit opened part member
  cut occurrence member := by
    rw [TraceEntries.occurrences, List.mem_cons, List.mem_append, List.mem_append] at member
    rcases member with rfl | (member | member) | member
    · exact cut
    · exact valueFaithful.cut occurrence member
    · exact argumentsFaithful.cut occurrence member
    · exact restFaithful.cut occurrence member

end

-----------------------------------------------------------------------------------------
-- Steps that give the guard back
-----------------------------------------------------------------------------------------

namespace Expansion

/-- A step from a guard fails, or it comes to a result of some kind and leaves the guard as it was.
-/
def Yields {α : Type} (guard : Guard) (step : Expansion α) (kind : α → Prop) : Prop :=
  ∀ value after, step guard = .ok value after → after = guard ∧ kind value

section
variable {α β : Type} {guard : Guard} {kind : α → Prop} {other : β → Prop}

theorem yields_pure {value : α} (holds : kind value) : Yields guard (pure value) kind := by
  intro result after made
  cases made
  exact ⟨rfl, holds⟩

theorem yields_ofExcept (outcome : Except Error α)
    : Yields guard (ofExcept outcome) fun value => outcome = .ok value := by
  intro value after made
  cases outcome with
  | ok result =>
      cases made
      exact ⟨rfl, rfl⟩
  | error cause => cases made

theorem yields_get : Yields guard get fun current => current = guard := by
  intro value after made
  cases made
  exact ⟨rfl, rfl⟩

theorem Yields.bind {first : Expansion α} {next : α → Expansion β}
    (here : Yields guard first kind) (later : ∀ value, kind value → Yields guard (next value) other)
    : Yields guard (first >>= next) other := by
  intro value after made
  change EStateM.bind first next guard = _ at made
  unfold EStateM.bind at made
  split at made
  case h_1 middle left same =>
    obtain ⟨rfl, holds⟩ := here middle left same
    exact later middle holds value after made
  case h_2 => cases made

/-- A step may hold a name that the guard did not hold. -/
theorem Yields.holding {step : Expansion α} {name : String} (free : name ∉ guard.held)
    (inside : Yields (guard.hold name) step kind) : Yields guard (holding name step) kind := by
  intro value after made
  unfold Expansion.holding at made
  split at made
  case h_1 result left same =>
    obtain ⟨rfl, holds⟩ := inside result left same
    cases made
    exact ⟨Guard.release_hold free, holds⟩
  case h_2 => cases made

end

end Expansion

-----------------------------------------------------------------------------------------
-- Traces below a guard
-----------------------------------------------------------------------------------------

namespace Expander

open Expansion

/-- A trace of a name is faithful below what a guard holds. If the guard holds the name, it is the
sentinel of the name.
-/
structure IsBelow (expander : Expander) (guard : Guard) (name : String) (tree : Trace) : Prop where
  faithful : tree.IsFaithful expander.classified guard.held
  sentinel : name ∈ guard.held → tree = .leaf (.sentinel name)

section
variable {expander : Expander} {guard : Guard} {trace : String → Expansion Trace}
variable (once : guard.held.Nodup)
  (shows : ∀ name, Yields guard (trace name) (expander.IsBelow guard name))
include once shows

/-- An argument is shown faithfully, by the sentinel of its type unless the type is not expanded. -/
theorem yields_argumentTrace (base : String) (argument : Field)
    : Yields guard (argumentTrace trace base argument) fun tree =>
        tree.IsFaithful expander.classified guard.held
        ∧ (base ∉ plainTypes → expander.IsBelow guard base tree) := by
  have literal (value : Json) : Trace.IsFaithful expander.classified guard.held
      (.leaf (.literal value)) :=
    Trace.isFaithful_leaf once (.inl ⟨value, rfl⟩)
  unfold argumentTrace
  split
  case isTrue number =>
    have plain : base ∈ plainTypes := by
      simp only [Bool.or_eq_true, beq_iff_eq] at number
      rcases number with rfl | rfl <;> decide
    exact yields_pure ⟨literal _, fun other => absurd plain other⟩
  split
  case isTrue truth =>
    have plain : base ∈ plainTypes := eq_of_beq truth ▸ by decide
    exact yields_pure ⟨literal _, fun other => absurd plain other⟩
  split
  case isTrue text =>
    have plain : base ∈ plainTypes := eq_of_beq text ▸ by decide
    exact yields_pure ⟨literal _, fun other => absurd plain other⟩
  case isFalse =>
    intro tree after made
    obtain ⟨same, below⟩ := shows base tree after made
    exact ⟨same, below.faithful, fun _ => below⟩

/-- Arguments are shown faithfully, by induction on them. -/
theorem yields_argumentTraces (arguments : List Field)
    : Yields guard (expander.argumentTraces trace arguments)
        (TraceEntries.AreFaithful expander.classified true guard.held) := by
  induction arguments with
  | nil => exact yields_pure TraceEntries.areFaithful_nil
  | cons argument rest ih =>
      unfold argumentTraces
      refine (yields_ofExcept _).bind fun base isText => ?_
      refine (yields_ofExcept _).bind fun use resolves => ?_
      refine (yields_argumentTrace once shows _ argument).bind fun tree known => ?_
      obtain ⟨faithful, below⟩ := known
      refine ih.bind fun entries restFaithful => yields_pure ?_
      refine .cons ?_ (faithful.listed once use.isArray) TraceEntries.areFaithful_nil restFaithful
      intro text name isConnection named strips held expanded
      rw [named] at isText
      cases isText
      rw [Naming.strips_iff.mp strips] at below
      refine ⟨use, resolves, (Resolved.stripped_of_ofField resolves named strips).2, ?_⟩
      show (if use.isArray then Trace.list tree else tree).shown = _
      rw [Trace.shown_listed, (below (expanded rfl)).sentinel held]
      rfl

theorem yields_fieldTrace (field : Field)
    : Yields guard (expander.fieldTrace trace field) fun tree =>
        tree.IsFaithful expander.classified guard.held
        ∧ Occurrence.IsCut expander.classified
          { opened := guard.held, isArgument := false, field, value := tree } := by
  unfold fieldTrace
  refine (yields_ofExcept _).bind fun use resolves => ?_
  refine (shows use.name).bind fun tree below => yields_pure ?_
  refine ⟨(below.faithful.connected once use.isConnection).listed once use.isArray, ?_⟩
  intro base name isConnection named strips held _
  obtain ⟨rfl, same⟩ := Resolved.stripped_of_ofField resolves named strips
  refine ⟨use, resolves, same, ?_⟩
  dsimp only
  rw [Trace.shown_listed, Trace.shown_connected, below.sentinel held]
  rfl

/-- Members are shown faithfully, each with its arguments, by induction on them. -/
theorem yields_memberTraces (members : List Field)
    : Yields guard (expander.memberTraces trace members)
        (TraceEntries.AreFaithful expander.classified false guard.held) := by
  induction members with
  | nil => exact yields_pure TraceEntries.areFaithful_nil
  | cons member rest ih =>
      unfold memberTraces
      refine (yields_fieldTrace once shows member).bind fun tree known => ?_
      obtain ⟨faithful, cut⟩ := known
      refine (yields_argumentTraces once shows member.arguments).bind fun arguments shown => ?_
      exact ih.bind fun entries restFaithful => yields_pure (.cons cut faithful shown restFaithful)

end

/-- The guard holds names of types that the schema defines, each once. -/
structure IsOpened (expander : Expander) (guard : Guard) : Prop where
  once : guard.held.Nodup
  defined : ∀ name ∈ guard.held, ∃ type, expander.definition name = .ok (some type)

theorem IsOpened.hold {expander : Expander} {guard : Guard} (isOpened : expander.IsOpened guard)
    {name : String} {type : TypeDef} (free : name ∉ guard.held)
    (found : expander.definition name = .ok (some type)) : expander.IsOpened (guard.hold name) where
  once := by simpa [Guard.hold, free] using isOpened.once
  defined other held := by
    have either : other = name ∨ other ∈ guard.held := by simpa [Guard.hold, free] using held
    rcases either with rfl | held
    · exact ⟨type, found⟩
    · exact isOpened.defined other held

/-- The trace of a type is faithful below the types that the guard holds, if that is so with less
room: the guard takes hold of the type for what stands below it.
-/
theorem yields_traceIn_of_less {expander : Expander} {room : Nat}
    (less
      : ∀ size, room = size + 1
        → ∀ guard, expander.IsOpened guard
        → ∀ name, Yields guard (expander.traceIn size name) (expander.IsBelow guard name))
    {guard : Guard} (isOpened : expander.IsOpened guard) (name : String)
    : Yields guard (expander.traceIn room name) (expander.IsBelow guard name) := by
  unfold traceIn
  refine (yields_ofExcept _).bind fun defined found => ?_
  cases defined with
  | none =>
      refine yields_pure ⟨Trace.isFaithful_leaf isOpened.once (.inl ⟨_, rfl⟩), fun held => ?_⟩
      obtain ⟨type, other⟩ := isOpened.defined name held
      rw [found] at other
      cases other
  | some type =>
      refine yields_get.bind fun current same => ?_
      rw [same]
      split
      case isTrue active =>
        have held : name ∈ guard.held := of_decide_eq_true active
        exact yields_pure ⟨Trace.isFaithful_leaf isOpened.once (.inr (.inr ⟨name, held, rfl⟩)),
          fun _ => rfl⟩
      case isFalse idle =>
        have free : name ∉ guard.held := fun held => idle (decide_eq_true held)
        refine (yields_ofExcept _).bind fun leaf leafFound => ?_
        cases leaf with
        | some leaf =>
            exact yields_pure ⟨Trace.isFaithful_leaf isOpened.once
              (.inl (exists_literal_of_leaf? leafFound)), fun held => absurd held free⟩
        | none =>
            cases room with
            | zero =>
                exact yields_pure ⟨Trace.isFaithful_leaf isOpened.once (.inr (.inl rfl)),
                  fun held => absurd held free⟩
            | succ size =>
                have inside := isOpened.hold free found
                have shows := less size rfl (guard.hold name) inside
                have below : (guard.hold name).held = name :: guard.held := by
                  simp [Guard.hold, free]
                refine .holding free ?_
                refine (yields_memberTraces inside.once shows type.members).bind
                  fun entries faithful => yields_pure ⟨?_, fun held => absurd held free⟩
                rw [below] at faithful
                exact faithful.object (below ▸ inside.once)

/-- The trace of a type is faithful below the types that the guard holds, by induction on the room.
-/
theorem yields_traceIn (expander : Expander) (room : Nat) {guard : Guard}
    (isOpened : expander.IsOpened guard) (name : String)
    : Yields guard (expander.traceIn room name) (expander.IsBelow guard name) := by
  induction room generalizing guard name with
  | zero =>
      exact yields_traceIn_of_less (fun size same => absurd same.symm (Nat.succ_ne_zero size))
        isOpened name
  | succ size ih =>
      refine yields_traceIn_of_less (fun other same => ?_) isOpened name
      cases same
      exact fun guard isOpened name => ih isOpened name

/-- In every example that is shown from an empty guard, no type is opened twice on the way down, and
a leaf is a literal, an object that was cut off, or the sentinel of a type that was opened. Each
member of a type that was opened shows the sentinel of the type in the member's list or connection.
So does each argument, in its list, unless its type is one that arguments show without expansion.
-/
theorem exists_faithful_trace {expander : Expander} {limit : Int} {name : String} {value : Example}
    (expands : Expansion.fromEmpty (expander.expandIn (roomAt limit 0) name) = .ok value)
    : ∃ tree,
        Expansion.fromEmpty (expander.traceIn (roomAt limit 0) name) = .ok tree
        ∧ tree.shown = value
        ∧ (∀ opened part, (opened, part) ∈ tree.visits [] → opened.Nodup)
        ∧ (∀ opened shown,
            (opened, .leaf shown) ∈ tree.visits []
            → (∃ value, shown = .literal value)
              ∨ shown = .truncated
              ∨ ∃ name ∈ opened, shown = .sentinel name)
        ∧ ∀ occurrence ∈ tree.occurrences [], occurrence.IsCut expander.classified := by
  obtain ⟨tree, made, shown⟩ := exists_trace_of_fromEmpty expands
  have isOpened : expander.IsOpened Guard.empty := ⟨List.nodup_nil, nofun⟩
  have faithful : tree.IsFaithful expander.classified [] := by
    unfold Expansion.fromEmpty at made
    split at made
    case h_1 result after ran =>
      cases made
      exact (yields_traceIn expander _ isOpened name tree after ran).2.faithful
    case h_2 => cases made
  exact ⟨tree, made, shown, fun opened part member => (faithful.visit opened part member).once,
    fun opened shown member => (faithful.visit opened _ member).leaf shown rfl, faithful.cut⟩

/-- Users and posts of a forum are cut where they show each other. -/
theorem exists_faithful_trace_forum
    : ∃ tree,
        Expansion.fromEmpty (forum.traceIn (roomAt 3 0) "User") = .ok tree
        ∧ (∀ opened part, (opened, part) ∈ tree.visits [] → opened.Nodup)
        ∧ ∀ occurrence ∈ tree.occurrences [], occurrence.IsCut forum.classified := by
  have shown : Succeeds (Expansion.fromEmpty (forum.expandIn (roomAt 3 0) "User")) := by
    decide +kernel
  obtain ⟨value, expands⟩ := shown
  obtain ⟨tree, made, -, once, -, cut⟩ := exists_faithful_trace expands
  exact ⟨tree, made, once, cut⟩

/-- Users have a name that is asked for by a connection of users. -/
def crowd : Expander :=
  let field (name type : String) (arguments : List Field) : Field :=
    { (default : Field) with
      name := .string name
      type := .named (.string type) none
      arguments
      defaultValue := .null }
  let entry (name : String) : String × NameMapping :=
    (name, {
      schemaName := name
      targetName := "Types::" ++ name
      category := .types
      baseType := none
    })
  {
    schema :=
      { (default : Schema) with
        types := [
          { (default : TypeDef) with
            name := .string "User"
            kind := .object
            fields := some [field "name" "Name" [field "near" "UserConnection" []]] },
          { (default : TypeDef) with name := .string "Name", kind := .scalar }
        ] }
    classified := { mappings := [entry "User", entry "Name"] }
  }

/-- An argument of a connection shows no connection: the sentinel of a type that was opened stands
there by itself.
-/
theorem not_around_crowd
    : ¬∀ tree,
        Expansion.fromEmpty (crowd.traceIn (roomAt 5 0) "User") = .ok tree
        → ∀ occurrence ∈ tree.occurrences [],
          ∀ use, Resolved.ofField crowd.classified occurrence.field = .ok use
            → use.name ∈ occurrence.opened
            → use.name ∉ plainTypes
            → occurrence.value.shown = use.around (.sentinel use.name) := by
  decide +kernel

end Expander

end RubySchema
