import RubySchema.Proofs.Example.Ancestors

/-!
Without what is remembered, a trace is the example that expansion shows, under any guard. Each
object of a trace remembers the type that it was opened for, and each entry the member or argument
that it shows.
-/

namespace RubySchema

mutual

/-- An example whose objects remember the type that they were opened for. -/
inductive Trace where
  | leaf (shown : Example)
  | object (opened : String) (entries : TraceEntries)
  | list (item : Trace)
  | connection (node : Trace)

inductive TraceEntries where
  | nil
  | cons (field : Field) (value : Trace) (arguments : TraceEntries) (rest : TraceEntries)

end

mutual

def Trace.shown : Trace → Example
  | .leaf shown => shown
  | .object _ entries => .object entries.shown
  | .list item => .list item.shown
  | .connection node => .connection node.shown

def TraceEntries.shown : TraceEntries → Entries
  | .nil => .nil
  | .cons field value arguments rest =>
      .cons field.name value.shown arguments.shown rest.shown

end

namespace Expander

-----------------------------------------------------------------------------------------
-- Expansion with a trace
-----------------------------------------------------------------------------------------

def argumentTrace (trace : String → Expansion Trace) (base : String) (argument : Field)
    : Expansion Trace :=
  if base == "Int" || base == "Float" then pure (.leaf (.literal (.string base)))
  else if base == "Boolean" then
    let default := argument.defaultValue
    pure (.leaf (.literal (if default.isVoid then .string base else default)))
  else if base == "String" then pure (.leaf (.literal (inQuotes "")))
  else trace base

def argumentTraces (expander : Expander) (trace : String → Expansion Trace)
    : List Field → Expansion TraceEntries
  | [] => pure .nil
  | argument :: rest => do
      let base ← Expansion.ofExcept argument.type.name.asText
      let resolved ← Expansion.ofExcept (Resolved.ofField expander.classified argument)
      let value ← argumentTrace trace (Naming.stripConnection base).1 argument
      let value := if resolved.isArray then .list value else value
      return .cons argument value .nil (← expander.argumentTraces trace rest)

def fieldTrace (expander : Expander) (trace : String → Expansion Trace) (field : Field)
    : Expansion Trace := do
  let resolved ← Expansion.ofExcept (Resolved.ofField expander.classified field)
  let value ← trace resolved.name
  let value := if resolved.isConnection then .connection value else value
  return if resolved.isArray then .list value else value

def memberTraces (expander : Expander) (trace : String → Expansion Trace)
    : List Field → Expansion TraceEntries
  | [] => pure .nil
  | member :: rest => do
      let value ← expander.fieldTrace trace member
      let arguments ← expander.argumentTraces trace member.arguments
      return .cons member value arguments (← expander.memberTraces trace rest)

/-- Expansion of a type, with the name of the type on the object that it opens. -/
def traceIn (expander : Expander) (room : Nat) (name : String) : Expansion Trace := do
  match ← Expansion.ofExcept (expander.definition name) with
  | none => return .leaf (.literal (inQuotes name))
  | some type =>
      if (← get).isActive name then return .leaf (.sentinel name)
      else
        match ← Expansion.ofExcept (leaf? type name) with
        | some leaf => return .leaf leaf
        | none =>
            match room with
            | 0 => return .leaf .truncated
            | room + 1 =>
                Expansion.holding name do
                  return .object name
                    (← expander.memberTraces (expander.traceIn room) type.members)

-----------------------------------------------------------------------------------------
-- Without what is remembered
-----------------------------------------------------------------------------------------

theorem map_holding {α β : Type} (f : α → β) (name : String) (step : Expansion α)
    : f <$> Expansion.holding name step = Expansion.holding name (f <$> step) := by
  funext guard
  show EStateM.map f (Expansion.holding name step) guard
    = Expansion.holding name (EStateM.map f step) guard
  unfold EStateM.map Expansion.holding
  dsimp only
  cases step (guard.hold name) <;> rfl

section
variable {expander : Expander} {trace : String → Expansion Trace}

theorem shown_argumentTrace (base : String) (argument : Field)
    : Trace.shown <$> argumentTrace trace base argument
      = argumentValue (fun name => Trace.shown <$> trace name) base argument := by
  unfold argumentTrace argumentValue
  split
  · rfl
  split
  · rfl
  split
  · rfl
  · rfl

theorem shown_argumentTraces (arguments : List Field)
    : TraceEntries.shown <$> expander.argumentTraces trace arguments
      = expander.argumentEntries (fun name => Trace.shown <$> trace name) arguments := by
  induction arguments with
  | nil => rfl
  | cons argument rest ih =>
      unfold argumentTraces argumentEntries
      simp only [← ih, ← shown_argumentTrace, map_bind, bind_map_left, map_pure]
      refine bind_congr fun base => bind_congr fun resolved => bind_congr fun value =>
        bind_congr fun entries => ?_
      cases resolved.isArray <;> rfl

theorem shown_fieldTrace (field : Field)
    : Trace.shown <$> expander.fieldTrace trace field
      = expander.fieldValue (fun name => Trace.shown <$> trace name) field := by
  unfold fieldTrace fieldValue
  simp only [map_bind, bind_map_left, map_pure]
  refine bind_congr fun resolved => bind_congr fun value => ?_
  cases resolved.isConnection <;> cases resolved.isArray <;> rfl

theorem shown_memberTraces (members : List Field)
    : TraceEntries.shown <$> expander.memberTraces trace members
      = expander.memberEntries (fun name => Trace.shown <$> trace name) members := by
  induction members with
  | nil => rfl
  | cons member rest ih =>
      unfold memberTraces memberEntries
      simp only [← ih, ← shown_fieldTrace, ← shown_argumentTraces, map_bind, bind_map_left,
        map_pure]
      rfl

end

/-- The trace of a type is its example if that is so with less room. -/
theorem shown_traceIn_of_less {expander : Expander} {room : Nat}
    (less
      : ∀ size, room = size + 1
        → ∀ name, Trace.shown <$> expander.traceIn size name = expander.expandIn size name)
    (name : String) : Trace.shown <$> expander.traceIn room name = expander.expandIn room name := by
  unfold traceIn expandIn
  rw [map_bind]
  refine bind_congr fun defined => ?_
  cases defined with
  | none => rfl
  | some type =>
      rw [map_bind]
      refine bind_congr fun guard => ?_
      split
      · rfl
      rw [map_bind]
      refine bind_congr fun leaf => ?_
      cases leaf with
      | some leaf => rfl
      | none =>
          cases room with
          | zero => rfl
          | succ size =>
              dsimp only
              rw [map_holding, ← funext (less size rfl), ← shown_memberTraces]
              simp only [map_bind, bind_map_left, map_pure]
              rfl

/-- Without what is remembered, a trace is the example that expansion shows. By induction on the
room.
-/
theorem shown_traceIn (expander : Expander) (room : Nat) (name : String)
    : Trace.shown <$> expander.traceIn room name = expander.expandIn room name := by
  induction room generalizing name with
  | zero => exact shown_traceIn_of_less (fun _ same => absurd same.symm (Nat.succ_ne_zero _)) name
  | succ size ih =>
      refine shown_traceIn_of_less (fun other same => ?_) name
      cases same
      exact ih

theorem fromEmpty_map {α β : Type} (f : α → β) (step : Expansion α)
    : Expansion.fromEmpty (f <$> step) = f <$> Expansion.fromEmpty step := by
  have mapped : (f <$> step) Guard.empty = EStateM.map f step Guard.empty := rfl
  unfold Expansion.fromEmpty
  rw [mapped, EStateM.map]
  cases step Guard.empty <;> rfl

/-- What expansion shows from an empty guard has left a trace. -/
theorem exists_trace_of_fromEmpty {expander : Expander} {room : Nat} {name : String}
    {value : Example} (expands : Expansion.fromEmpty (expander.expandIn room name) = .ok value)
    : ∃ tree,
        Expansion.fromEmpty (expander.traceIn room name) = .ok tree ∧ tree.shown = value := by
  rw [← shown_traceIn, fromEmpty_map] at expands
  cases made : Expansion.fromEmpty (expander.traceIn room name) with
  | ok tree =>
      rw [made] at expands
      exact ⟨tree, rfl, Except.ok.inj expands⟩
  | error cause =>
      rw [made] at expands
      cases expands

end Expander

end RubySchema
