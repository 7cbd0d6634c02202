import Mathlib.Data.List.Induction
import RubySchema.Proofs.Registry.Places

/-!
Whatever calls are made on a registry, no two generated types share a place, a mapping stays until a
built-in type takes its name, and a failed classification changes nothing. Calls come in any order
and with failures among them. The table of mappings and the table of places are written by different
calls: a built-in type takes over a name but no place, and the name that held the place still holds
it. What relates the two tables is that a mapping of a generated type has its place, and that a
place is held by a name that was classified.
-/

namespace RubySchema

namespace Registry

inductive Call where
  | registerBuiltin (name : String)
  | classify (type : TypeDef)

/-- Classification on the tables themselves, so that one that fails leaves what it has written: the
mapping is written under its name and the name under its place.
-/
def classifyInPlace (type : TypeDef) : ExceptT Error (StateM Registry) NameMapping := do
  let name ← type.name.asText
  let registry ← get
  match registry.get? name with
  | some mapping => return mapping
  | none =>
      let mapping := registry.mappingFor type name
      match Table.get? registry.targets mapping.targetName with
      | some previous =>
          if previous != name then throw (.duplicateTarget mapping.targetName previous name)
      | none => pure ()
      modify fun registry =>
        { registry with mappings := registry.mappings.put mapping.schemaName mapping }
      modify fun registry =>
        { registry with targets := registry.targets.put mapping.targetName mapping.schemaName }
      return mapping

/-- What a call returns, and what it leaves of the registry. -/
def perform (registry : Registry) : Call → Except Error NameMapping × Registry
  | .registerBuiltin name => (.ok (registry.builtinMapping name), registry.registerBuiltin name)
  | .classify type => (classifyInPlace type).run.run registry

def afterCalls (registry : Registry) (calls : List Call) : Registry :=
  calls.foldl (fun registry call => (registry.perform call).2) registry

theorem afterCalls_cons (registry : Registry) (call : Call) (rest : List Call)
    : registry.afterCalls (call :: rest) = (registry.perform call).2.afterCalls rest :=
  rfl

theorem afterCalls_append (registry : Registry) (first second : List Call)
    : registry.afterCalls (first ++ second) = (registry.afterCalls first).afterCalls second :=
  List.foldl_append

theorem afterCalls_concat (registry : Registry) (calls : List Call) (call : Call)
    : registry.afterCalls (calls ++ [call]) = ((registry.afterCalls calls).perform call).2 :=
  afterCalls_append registry calls [call]

-----------------------------------------------------------------------------------------
-- What one call comes to
-----------------------------------------------------------------------------------------

section
variable {registry : Registry} {type : TypeDef} {name : String} {mapping : NameMapping}

/-- Classification in place under a name, with what it reads of the tables spelled out. -/
theorem perform_of_name (registry : Registry) (named : type.name = .string name)
    : registry.perform (.classify type)
      = match registry.get? name with
        | some mapping => (.ok mapping, registry)
        | none =>
            let mapping := registry.mappingFor type name
            match registry.targets.get? mapping.targetName with
            | some previous =>
                if previous = name then (.ok mapping, registry.extend mapping)
                else (.error (.duplicateTarget mapping.targetName previous name), registry)
            | none => (.ok mapping, registry.extend mapping) := by
  have opened (next : String → Registry → ExceptT Error (StateM Registry) NameMapping)
      : (liftM (Json.string name).asText >>= fun name => get >>= next name).run.run registry
        = (next name registry).run.run registry := rfl
  rw [perform, classifyInPlace, named, opened]
  dsimp only
  cases found : registry.get? name with
  | some mapping => rfl
  | none =>
      cases held : registry.targets.get? (registry.mappingFor type name).targetName with
      | none => rfl
      | some previous =>
          dsimp only
          by_cases same : previous = name
          · have free : ¬(previous != name) = true := by simp [same]
            rw [if_neg free, if_pos same]
            rfl
          · have taken : (previous != name) = true := bne_iff_ne.mpr same
            rw [if_pos taken, if_neg same]
            rfl

theorem perform_of_unnamed (unnamed : ¬∃ name, type.name = .string name)
    : registry.perform (.classify type) = (.error .illTyped, registry) := by
  rw [perform, classifyInPlace]
  cases shape : type.name with
  | string name => exact absurd ⟨name, shape⟩ unnamed
  | _ => rfl

/-- Classification in place is classification that leaves the registry when it fails. -/
theorem perform_classify (registry : Registry) (type : TypeDef)
    : registry.perform (.classify type)
      = match registry.classify type with
        | .ok (mapping, next) => (.ok mapping, next)
        | .error cause => (.error cause, registry) := by
  by_cases texts : ∃ name, type.name = .string name
  case neg =>
    have fails : registry.classify type = .error .illTyped := by
      rw [classify]
      cases shape : type.name with
      | string name => exact absurd ⟨name, shape⟩ texts
      | _ => rfl
    rw [perform_of_unnamed texts, fails]
  obtain ⟨name, named⟩ := texts
  rw [perform_of_name registry named, classify_of_name registry named]
  cases registry.get? name with
  | some mapping => rfl
  | none =>
      dsimp only
      cases registry.targets.get? (registry.mappingFor type name).targetName with
      | none => rfl
      | some previous =>
          by_cases same : previous = name
          · simp [same]
          · simp [same]

/-- What classification comes to: the mapping of a known name, a new mapping whose place no other
name holds, or a failure.
-/
inductive Classifies (registry : Registry) (type : TypeDef)
    : Except Error NameMapping × Registry → Prop where
  | known {name : String} {mapping : NameMapping} (named : type.name = .string name)
      (found : registry.get? name = some mapping)
    : Classifies registry type (.ok mapping, registry)
  | placed {name : String} (named : type.name = .string name) (new : registry.get? name = none)
      (free
        : ∀ {other},
          registry.targets.get? (registry.mappingFor type name).targetName = some other
            → other = name)
    : Classifies registry type
        (.ok (registry.mappingFor type name), registry.extend (registry.mappingFor type name))
  | taken {name previous : String} (named : type.name = .string name)
      (held
        : registry.targets.get? (registry.mappingFor type name).targetName = some previous)
      (other : previous ≠ name)
    : Classifies registry type
        (.error (.duplicateTarget (registry.mappingFor type name).targetName previous name),
          registry)
  | unnamed (none : ¬∃ name, type.name = .string name)
    : Classifies registry type (.error .illTyped, registry)

theorem classifies_perform (registry : Registry) (type : TypeDef)
    : registry.Classifies type (registry.perform (.classify type)) := by
  by_cases texts : ∃ name, type.name = .string name
  case neg =>
    rw [perform_of_unnamed texts]
    exact .unnamed texts
  obtain ⟨name, named⟩ := texts
  rw [perform_of_name registry named]
  cases found : registry.get? name with
  | some mapping => exact .known named found
  | none =>
      dsimp only
      cases held : registry.targets.get? (registry.mappingFor type name).targetName with
      | none => exact .placed named found (by simp [held])
      | some previous =>
          dsimp only
          split
          case isTrue same => exact .placed named found (by simp [held, same])
          case isFalse other => exact .taken named held other

/-- A mapping is left under its name unless a built-in type takes the name. -/
theorem get?_perform {call : Call} (found : registry.get? name = some mapping)
    (other : call ≠ .registerBuiltin name)
    : (registry.perform call).2.get? name = some mapping := by
  cases call with
  | registerBuiltin builtin =>
      have apart : builtin ≠ name := fun same => other (congrArg Call.registerBuiltin same)
      show (registry.mappings.put builtin _).get? name = some mapping
      rw [Table.get?_put, if_neg apart]
      exact found
  | classify type =>
      have comes := classifies_perform registry type
      generalize registry.perform (.classify type) = result at comes
      cases comes with
      | known => exact found
      | @placed added named new free =>
          have apart : added ≠ name := by
            rintro rfl
            rw [found] at new
            cases new
          show (registry.mappings.put added _).get? name = some mapping
          rw [Table.get?_put, if_neg apart]
          exact found
      | taken => exact found
      | unnamed => exact found

/-- A mapping is left through further calls, by induction on them. -/
theorem get?_afterCalls {calls : List Call} (found : registry.get? name = some mapping)
    (other : .registerBuiltin name ∉ calls)
    : (registry.afterCalls calls).get? name = some mapping := by
  induction calls generalizing registry with
  | nil => exact found
  | cons call rest ih =>
      obtain ⟨here, later⟩ := not_or.mp fun member => other (List.mem_cons.mpr member)
      exact ih (get?_perform found (Ne.symm here)) later

theorem builtinNamespace_perform (registry : Registry) (call : Call)
    : (registry.perform call).2.builtinNamespace = registry.builtinNamespace := by
  cases call with
  | registerBuiltin name => rfl
  | classify type =>
      have comes := classifies_perform registry type
      generalize registry.perform (.classify type) = result at comes
      cases comes <;> rfl

/-- A built-in type that is registered again gets the mapping it has. -/
theorem get?_afterCalls_of_builtin {calls : List Call}
    (found : registry.get? name = some (registry.builtinMapping name))
    : (registry.afterCalls calls).get? name = some (registry.builtinMapping name) := by
  induction calls generalizing registry with
  | nil => exact found
  | cons call rest ih =>
      have same : (registry.perform call).2.builtinMapping name = registry.builtinMapping name := by
        rw [builtinMapping, builtinNamespace_perform, builtinMapping]
      have here : (registry.perform call).2.get? name = some (registry.builtinMapping name) := by
        by_cases again : call = .registerBuiltin name
        · subst again
          show (registry.mappings.put name _).get? name = _
          rw [Table.get?_put, if_pos rfl]
        · exact get?_perform found again
      rw [afterCalls_cons, ← same]
      exact ih (same ▸ here)

end

-----------------------------------------------------------------------------------------
-- The two tables after calls
-----------------------------------------------------------------------------------------

/-- Among calls on a registry a type of a name was classified, and got a place. -/
def HasPlaced (start : Registry) (calls : List Call) (name target : String) : Prop :=
  ∃ earlier later type mapping next,
    calls = earlier ++ .classify type :: later
      ∧ (start.afterCalls earlier).perform (.classify type) = (.ok mapping, next)
      ∧ type.name = .string name
      ∧ mapping.targetName = target

theorem HasPlaced.concat {start : Registry} {calls : List Call} {name target : String}
    (placed : start.HasPlaced calls name target) (call : Call)
    : start.HasPlaced (calls ++ [call]) name target := by
  obtain ⟨earlier, later, type, mapping, next, rfl, made⟩ := placed
  exact ⟨earlier, later ++ [call], type, mapping, next, by simp, made⟩

/-- How the two tables of a registry belong together after calls on an empty one. A mapping of a
generated type has its place; a place may be that of a name that a built-in type has taken since.
-/
structure Agrees (start registry : Registry) (calls : List Call) : Prop where
  unique : registry.mappings.names.Nodup
  own : ∀ {name mapping}, registry.get? name = some mapping → mapping.schemaName = name
  builtin
    : ∀ {name mapping},
      registry.get? name = some mapping
        → mapping.isBuiltin = true
        → mapping = registry.builtinMapping name
  held
    : ∀ {name mapping},
      registry.get? name = some mapping
        → mapping.isBuiltin = false
        → registry.targets.get? mapping.targetName = some name
  met
    : ∀ {target name},
      registry.targets.get? target = some name
        → start.HasPlaced calls name target ∧ ∃ mapping, registry.get? name = some mapping

section
variable {start registry : Registry} {calls : List Call}

theorem agrees_nil (builtinNamespace : String) (baseOverrides : Table String)
    : Agrees (empty builtinNamespace baseOverrides) (empty builtinNamespace baseOverrides) [] where
  unique := List.nodup_nil
  own := nofun
  builtin := nofun
  held := nofun
  met := nofun

/-- A further call that changes no table adds to the history alone. -/
theorem Agrees.of_unchanged (agrees : Agrees start registry calls) (call : Call)
    : Agrees start registry (calls ++ [call]) where
  unique := agrees.unique
  own := agrees.own
  builtin := agrees.builtin
  held := agrees.held
  met held := (agrees.met held).imp_left fun placed => placed.concat call

/-- A built-in type takes a name over, and its place stays that of the name. -/
theorem Agrees.registerBuiltin (agrees : Agrees start registry calls) (name : String)
    : Agrees start (registry.registerBuiltin name) (calls ++ [.registerBuiltin name]) := by
  have after (other : String)
      : (registry.registerBuiltin name).get? other
        = if name = other then some (registry.builtinMapping name) else registry.get? other :=
    Table.get?_put _ _ _ _
  constructor
  case unique => exact Table.nodup_names_put agrees.unique _ _
  case own =>
    intro other mapping found
    rw [after] at found
    split at found
    case isTrue same =>
      cases found
      exact same
    case isFalse => exact agrees.own found
  case builtin =>
    intro other mapping found provided
    rw [after] at found
    split at found
    case isTrue same =>
      cases found
      exact same ▸ rfl
    case isFalse => exact agrees.builtin found provided
  case held =>
    intro other mapping found generated
    rw [after] at found
    split at found
    case isTrue =>
      cases found
      cases generated
    case isFalse => exact agrees.held found generated
  case met =>
    intro target other held
    obtain ⟨placed, mapping, found⟩ := agrees.met held
    refine ⟨placed.concat _, ?_⟩
    rw [after]
    split
    · exact ⟨_, rfl⟩
    · exact ⟨mapping, found⟩

/-- A new mapping gets a place that no other mapping has. -/
theorem Agrees.extend (agrees : Agrees start registry calls) {mapping : NameMapping} {call : Call}
    (generated : mapping.isBuiltin = false) (new : registry.get? mapping.schemaName = none)
    (free
      : ∀ {other}, registry.targets.get? mapping.targetName = some other
          → other = mapping.schemaName)
    (placed : start.HasPlaced (calls ++ [call]) mapping.schemaName mapping.targetName)
    : Agrees start (registry.extend mapping) (calls ++ [call]) := by
  have after (other : String)
      : (registry.extend mapping).get? other
        = if mapping.schemaName = other then some mapping else registry.get? other :=
    Table.get?_put _ _ _ _
  have places (target : String)
      : (registry.extend mapping).targets.get? target
        = if mapping.targetName = target then some mapping.schemaName
          else registry.targets.get? target :=
    Table.get?_put _ _ _ _
  constructor
  case unique => exact Table.nodup_names_put agrees.unique _ _
  case own =>
    intro name other found
    rw [after] at found
    split at found
    case isTrue same =>
      cases found
      exact same
    case isFalse => exact agrees.own found
  case builtin =>
    intro name other found provided
    rw [after] at found
    split at found
    case isTrue =>
      cases found
      rw [generated] at provided
      cases provided
    case isFalse => exact agrees.builtin found provided
  case held =>
    intro name other found otherGenerated
    rw [after] at found
    split at found
    case isTrue same =>
      cases found
      rw [places, if_pos rfl, same]
    case isFalse =>
      have place := agrees.held found otherGenerated
      -- Who had the place would be the new name, which has no mapping yet.
      have apart : mapping.targetName ≠ other.targetName := by
        intro same
        rw [← same] at place
        rw [free place, new] at found
        cases found
      rw [places, if_neg apart]
      exact place
  case met =>
    intro target name held
    rw [places] at held
    split at held
    case isTrue same =>
      cases held
      exact ⟨same ▸ placed, mapping, by rw [after, if_pos rfl]⟩
    case isFalse =>
      obtain ⟨before, other, found⟩ := agrees.met held
      refine ⟨before.concat call, ?_⟩
      rw [after]
      split
      · exact ⟨mapping, rfl⟩
      · exact ⟨other, found⟩

/-- The tables belong together after any call, whether or not it fails. -/
theorem Agrees.perform (agrees : Agrees start (start.afterCalls calls) calls) (call : Call)
    : Agrees start (start.afterCalls (calls ++ [call])) (calls ++ [call]) := by
  rw [afterCalls_concat]
  cases call with
  | registerBuiltin name => exact agrees.registerBuiltin name
  | classify type =>
      have comes := classifies_perform (start.afterCalls calls) type
      generalize made : (start.afterCalls calls).perform (.classify type) = result at comes ⊢
      cases comes with
      | known => exact agrees.of_unchanged _
      | @placed name named new free =>
          exact agrees.extend (place_isBuiltin _ (name, type)) new free
            ⟨calls, [], type, _, _, rfl, made, named, rfl⟩
      | taken => exact agrees.of_unchanged _
      | unnamed => exact agrees.of_unchanged _

end

/-- The tables belong together after all calls on an empty registry, by induction on the calls from
the last one.
-/
theorem agrees_afterCalls (builtinNamespace : String) (baseOverrides : Table String)
    (calls : List Call)
    : Agrees (empty builtinNamespace baseOverrides)
        ((empty builtinNamespace baseOverrides).afterCalls calls) calls := by
  induction calls using List.reverseRecOn with
  | nil => exact agrees_nil builtinNamespace baseOverrides
  | append_singleton calls call ih => exact ih.perform call

/-- What can be relied on once calls have been made on a registry. -/
structure IsSound (start : Registry) (calls : List Call) : Prop where
  /-- Each name has one mapping, which is of that name. -/
  unique : (start.afterCalls calls).mappings.names.Nodup
  own : ∀ entry ∈ (start.afterCalls calls).mappings, entry.2.schemaName = entry.1
  /-- No two generated types have one place. -/
  apart
    : ∀ first ∈ (start.afterCalls calls).mappings,
      ∀ second ∈ (start.afterCalls calls).mappings,
        first.2.isBuiltin = false
          → second.2.isBuiltin = false
          → first.2.targetName = second.2.targetName
          → first = second
  /-- A mapping that classification returns is that of the type's name from then on. -/
  mapped
    : ∀ {type mapping next},
      (start.afterCalls calls).perform (.classify type) = (.ok mapping, next)
        → type.name = .string mapping.schemaName ∧ next.get? mapping.schemaName = some mapping
  stays
    : ∀ {name mapping} (more : List Call),
      (start.afterCalls calls).get? name = some mapping
        → .registerBuiltin name ∉ more
        → (start.afterCalls (calls ++ more)).get? name = some mapping
  /-- Nothing takes the name of a built-in type. -/
  builtin
    : ∀ {name mapping} (more : List Call),
      (start.afterCalls calls).get? name = some mapping
        → mapping.isBuiltin = true
        → (start.afterCalls (calls ++ more)).get? name = some mapping
  known
    : ∀ {type name mapping},
      type.name = .string name
        → (start.afterCalls calls).get? name = some mapping
        → (start.afterCalls calls).perform (.classify type)
          = (.ok mapping, start.afterCalls calls)
  /-- A classification that fails changes nothing. -/
  failed
    : ∀ {type cause next},
      (start.afterCalls calls).perform (.classify type) = (.error cause, next)
        → next = start.afterCalls calls
  /-- A place that is taken was given to another type by an earlier classification. -/
  taken
    : ∀ {type target first second next},
      (start.afterCalls calls).perform (.classify type)
          = (.error (.duplicateTarget target first second), next)
        → type.name = .string second
          ∧ target = ((start.afterCalls calls).mappingFor type second).targetName
          ∧ first ≠ second
          ∧ start.HasPlaced calls first target

/-- Whatever calls are made on an empty registry, in whatever order and with whatever failures, its
tables are sound after every one.
-/
theorem isSound_of_calls (builtinNamespace : String) (baseOverrides : Table String)
    (calls : List Call) : IsSound (empty builtinNamespace baseOverrides) calls := by
  have agrees := agrees_afterCalls builtinNamespace baseOverrides calls
  generalize empty builtinNamespace baseOverrides = start at agrees
  have lookup {entry : String × NameMapping} (member : entry ∈ (start.afterCalls calls).mappings)
      : (start.afterCalls calls).get? entry.1 = some entry.2 :=
    (Table.get?_eq_some_iff agrees.unique).mpr member
  constructor
  case unique => exact agrees.unique
  case own => exact fun entry member => agrees.own (lookup member)
  case apart =>
    intro first firstMember second secondMember firstGenerated secondGenerated same
    have firstPlace := agrees.held (lookup firstMember) firstGenerated
    have secondPlace := agrees.held (lookup secondMember) secondGenerated
    rw [same, secondPlace] at firstPlace
    have names := Option.some.inj firstPlace
    have mappings := lookup firstMember
    rw [← names, lookup secondMember] at mappings
    exact Prod.ext names.symm (Option.some.inj mappings).symm
  case mapped =>
    intro type mapping next made
    have comes := classifies_perform (start.afterCalls calls) type
    rw [made] at comes
    cases comes with
    | known named found =>
        have own := agrees.own found
        exact ⟨own ▸ named, own ▸ found⟩
    | placed named new free =>
        refine ⟨named, ?_⟩
        show ((start.afterCalls calls).mappings.put _ _).get? _ = _
        rw [Table.get?_put, if_pos rfl]
  case stays =>
    intro name mapping more found other
    rw [afterCalls_append]
    exact get?_afterCalls found other
  case builtin =>
    intro name mapping more found provided
    obtain rfl := agrees.builtin found provided
    rw [afterCalls_append]
    exact get?_afterCalls_of_builtin found
  case known =>
    intro type name mapping named found
    rw [perform_of_name _ named, found]
  case failed =>
    intro type cause next made
    have comes := classifies_perform (start.afterCalls calls) type
    rw [made] at comes
    cases comes <;> rfl
  case taken =>
    intro type target first second next made
    have comes := classifies_perform (start.afterCalls calls) type
    rw [made] at comes
    cases comes with
    | taken named held other => exact ⟨named, rfl, other, (agrees.met held).1⟩

end Registry

end RubySchema
