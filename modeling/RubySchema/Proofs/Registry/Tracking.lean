import RubySchema.Dependency
import RubySchema.Proofs.Registry.Calls

/-!
Names that references may lead to. Whether a reference counts is told by the latest mapping to the
name it leads to, and that may be the mapping of a built-in type. A name counts exactly when it is
that of a generated type, unless a built-in type of the same name has been registered behind it; and
none has when built-in types are registered before all others.
-/

namespace RubySchema

namespace Classified

variable {classified : Classified} {target : String}

def Generates (classified : Classified) (target : String) : Prop :=
  ∃ entry ∈ classified.mappings, entry.2.isBuiltin = false ∧ entry.2.targetName = target

theorem isTracked_iff
    : classified.isTracked target = true
      ↔ ∃ mapping, classified.byTarget? target = some mapping ∧ mapping.isBuiltin = false := by
  unfold isTracked
  cases classified.byTarget? target <;> simp

/-- What is found under a generated name is a mapping to it. -/
theorem exists_of_byTarget? {mapping : NameMapping}
    (found : classified.byTarget? target = some mapping)
    : (∃ entry ∈ classified.mappings, entry.2 = mapping) ∧ mapping.targetName = target := by
  unfold byTarget? at found
  have named := List.find?_some found
  exact ⟨List.mem_map.mp (List.mem_reverse.mp (List.mem_of_find?_eq_some found)), eq_of_beq named⟩

theorem generates_of_isTracked (tracked : classified.isTracked target = true)
    : classified.Generates target := by
  obtain ⟨mapping, found, own⟩ := isTracked_iff.mp tracked
  obtain ⟨⟨entry, member, rfl⟩, named⟩ := exists_of_byTarget? found
  exact ⟨entry, member, own, named⟩

/-- No built-in type stands behind a generated type of the same generated name. -/
def IsUnshadowed (classified : Classified) : Prop :=
  classified.mappings.values.Pairwise fun first second =>
    first.isBuiltin = false
    → second.isBuiltin = true
    → second.targetName ≠ first.targetName

/-- Where no built-in type has the generated name of another type, none is shadowed. -/
theorem isUnshadowed_of_apart
    (apart
      : ∀ entry ∈ classified.mappings,
          entry.2.isBuiltin = false → ∀ other ∈ classified.mappings,
            other.2.isBuiltin = true → other.2.targetName ≠ entry.2.targetName)
    : classified.IsUnshadowed := by
  refine List.pairwise_map.mpr (List.pairwise_of_forall_mem_list ?_)
  exact fun entry member other among own => apart entry member own other among

/-- The names that count are those of generated types: what is found under such a name is the type
itself, or another generated one behind it.
-/
theorem IsUnshadowed.isTracked_iff_generates (unshadowed : classified.IsUnshadowed)
    : classified.isTracked target = true ↔ classified.Generates target := by
  refine ⟨generates_of_isTracked, fun ⟨entry, member, own, named⟩ => ?_⟩
  rw [isTracked_iff]
  have among : entry.2 ∈ classified.mappings.values.reverse :=
    List.mem_reverse.mpr (List.mem_map_of_mem member)
  cases found : classified.byTarget? target with
  | none => exact absurd (beq_iff_eq.mpr named) (List.find?_eq_none.mp found _ among)
  | some mapping =>
      -- the mapping that is found is the last one, so the other stands before it
      refine ⟨mapping, rfl, ?_⟩
      obtain ⟨same, behind, before, split, others⟩ := List.find?_eq_some_iff_append.mp found
      have apart := List.pairwise_reverse.mpr unshadowed
      rw [split] at among apart
      rcases List.mem_append.mp among with later | here
      · exact absurd (others _ later) (by simp [named])
      rcases List.mem_cons.mp here with rfl | earlier
      · exact own
      · rw [← Bool.not_eq_true]
        intro builtin
        have differs := (List.pairwise_cons.mp (List.pairwise_append.mp apart).2.1).1 _ earlier
        exact differs own builtin ((eq_of_beq same).trans named.symm)

end Classified

namespace Registry

/-- Among calls the built-in types are registered before all classifications. -/
def BuiltinsFirst (calls : List Call) : Prop :=
  ∃ (builtins : List String) (types : List TypeDef),
    calls = builtins.map .registerBuiltin ++ types.map .classify

variable {builtinNamespace : String} {baseOverrides : Table String} {calls : List Call}

/-- Classification leaves the mappings there are, or adds a place behind them. -/
theorem mappings_perform_classify (registry : Registry) (type : TypeDef)
    : (registry.perform (.classify type)).2.mappings = registry.mappings
      ∨ ∃ name,
          (registry.perform (.classify type)).2.mappings
          = registry.mappings ++ [(name, registry.place (name, type))] := by
  have comes := classifies_perform registry type
  generalize registry.perform (.classify type) = result at comes
  cases comes with
  | known => exact .inl rfl
  | @placed name named new free => exact .inr ⟨name, Table.put_of_get?_eq_none new⟩
  | taken => exact .inl rfl
  | unnamed => exact .inl rfl

/-- The mapping of a generated type is a place of a type of its name, by induction on the calls from
the last one.
-/
theorem exists_place_of_calls {entry : String × NameMapping}
    (member : entry ∈ ((empty builtinNamespace baseOverrides).afterCalls calls).mappings)
    (own : entry.2.isBuiltin = false)
    : ∃ (registry : Registry) (type : TypeDef), entry.2 = registry.place (entry.1, type) := by
  induction calls using List.reverseRecOn with
  | nil => cases member
  | append_singleton calls call ih =>
      rw [afterCalls_concat] at member
      cases call with
      | registerBuiltin name =>
          rcases Table.mem_put member with rfl | before
          · cases own
          · exact ih before
      | classify type =>
          rcases mappings_perform_classify _ type with same | ⟨name, added⟩
          · exact ih (same ▸ member)
          · rw [added, List.mem_append, List.mem_singleton] at member
            rcases member with before | rfl
            · exact ih before
            · exact ⟨_, type, rfl⟩

/-- The mappings of built-in types that were registered first stand before all others. -/
theorem BuiltinsFirst.exists_split (first : BuiltinsFirst calls)
    : ∃ before after : Table NameMapping,
        ((empty builtinNamespace baseOverrides).afterCalls calls).mappings = before ++ after
        ∧ (∀ entry ∈ before, entry.2.isBuiltin = true)
        ∧ ∀ entry ∈ after, entry.2.isBuiltin = false := by
  obtain ⟨builtins, types, rfl⟩ := first
  induction types using List.reverseRecOn with
  | nil =>
      refine ⟨_, [], (List.append_nil _).symm, ?_, nofun⟩
      rw [List.map_nil, List.append_nil]
      induction builtins using List.reverseRecOn with
      | nil => exact nofun
      | append_singleton builtins builtin ih =>
          intro entry member
          rw [List.map_append, List.map_singleton, afterCalls_concat] at member
          rcases Table.mem_put member with rfl | earlier
          · rfl
          · exact ih entry earlier
  | append_singleton types type ih =>
      obtain ⟨before, after, split, provided, own⟩ := ih
      rw [List.map_append, List.map_singleton, ← List.append_assoc, afterCalls_concat]
      rcases mappings_perform_classify _ type with same | ⟨name, added⟩
      · exact ⟨before, after, same.trans split, provided, own⟩
      · rw [split, List.append_assoc] at added
        refine ⟨before, _, added, provided, fun entry member => ?_⟩
        rcases List.mem_append.mp member with earlier | last
        · exact own entry earlier
        · rw [List.mem_singleton.mp last]
          exact place_isBuiltin _ (name, type)

/-- Built-in types that were registered first shadow no generated type. -/
theorem BuiltinsFirst.isUnshadowed (first : BuiltinsFirst calls)
    : ((empty builtinNamespace baseOverrides).afterCalls calls).finalize.IsUnshadowed := by
  obtain ⟨before, after, split, provided, own⟩ :=
    @exists_split builtinNamespace baseOverrides calls first
  unfold Classified.IsUnshadowed finalize Table.values
  rw [split, List.map_append, List.pairwise_append, List.pairwise_map, List.pairwise_map]
  refine ⟨?_, ?_, ?_⟩
  · refine List.pairwise_of_forall_mem_list fun entry member _ _ generated => ?_
    cases (provided entry member).symm.trans generated
  · refine List.pairwise_of_forall_mem_list fun _ _ entry member _ builtin => ?_
    cases (own entry member).symm.trans builtin
  · rintro _ member _ - generated
    obtain ⟨entry, among, rfl⟩ := List.mem_map.mp member
    cases (provided entry among).symm.trans generated

end Registry

end RubySchema
