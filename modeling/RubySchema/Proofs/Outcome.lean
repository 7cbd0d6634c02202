import Mathlib.Data.List.Forall2
import RubySchema.Error

/-!
Outcomes of steps that may fail: when a chain of steps comes to a value, and what each step of a
list has come to then.
-/

namespace RubySchema

/-- An outcome is a value and not a failure. -/
def Succeeds {α : Type} (outcome : Except Error α) : Prop :=
  ∃ value, outcome = .ok value

variable {α β : Type}

/-- Whether an outcome is a value with a property can be found out by cases on the outcome. -/
instance decidableExistsOk {outcome : Except Error α} {holds : α → Prop} [DecidablePred holds]
    : Decidable (∃ value, outcome = .ok value ∧ holds value) :=
  match outcome with
  | .ok value =>
      decidable_of_iff (holds value)
        ⟨fun here => ⟨value, rfl, here⟩, fun ⟨_, same, here⟩ => Except.ok.inj same ▸ here⟩
  | .error _ => isFalse fun ⟨_, same, _⟩ => nomatch same

/-- Whether a value with a property is all that an outcome can be is found out in the same way. -/
instance decidableForallOk {outcome : Except Error α} {holds : α → Prop} [DecidablePred holds]
    : Decidable (∀ value, outcome = .ok value → holds value) :=
  match outcome with
  | .ok value =>
      decidable_of_iff (holds value)
        ⟨fun here _ same => Except.ok.inj same ▸ here, fun each => each value rfl⟩
  | .error _ => isTrue fun _ same => nomatch same

instance decidableSucceeds {outcome : Except Error α} : Decidable (Succeeds outcome) :=
  match outcome with
  | .ok value => isTrue ⟨value, rfl⟩
  | .error _ => isFalse fun ⟨_, same⟩ => nomatch same

theorem ok_bind (value : α) (next : α → Except Error β)
    : (Except.ok value >>= next) = next value :=
  rfl

theorem bind_eq_ok {ε : Type} {first : Except ε α} {next : α → Except ε β} {value : β}
    : (first >>= next) = .ok value ↔ ∃ middle, first = .ok middle ∧ next middle = .ok value := by
  cases first with
  | ok middle => exact ⟨fun same => ⟨middle, rfl, same⟩, fun ⟨_, rfl, same⟩ => same⟩
  | error cause => exact ⟨fun same => (nomatch same), fun ⟨_, same, _⟩ => (nomatch same)⟩

theorem toOption_eq_some_iff {ε α : Type} {outcome : Except ε α} {value : α}
    : outcome.toOption = some value ↔ outcome = .ok value := by
  cases outcome <;> simp [Except.toOption]

theorem succeeds_ok (value : α) : Succeeds (.ok value) :=
  ⟨value, rfl⟩

theorem Succeeds.ite {condition : Prop} [Decidable condition] {first second : Except Error α}
    (here : Succeeds first) (there : Succeeds second)
    : Succeeds (if condition then first else second) := by
  split
  · exact here
  · exact there

theorem Succeeds.bind {first : Except Error α} {next : α → Except Error β} (here : Succeeds first)
    (after : ∀ value, first = .ok value → Succeeds (next value)) : Succeeds (first >>= next) := by
  obtain ⟨value, rfl⟩ := here
  exact after value rfl

/-- When the next step cannot fail, the first decides. -/
theorem succeeds_bind_iff {first : Except Error α} {next : α → Except Error β}
    (after : ∀ value, Succeeds (next value)) : Succeeds (first >>= next) ↔ Succeeds first := by
  constructor
  · rintro ⟨value, made⟩
    obtain ⟨middle, here, -⟩ := bind_eq_ok.mp made
    exact ⟨middle, here⟩
  · intro here
    exact here.bind fun value _ => after value

theorem succeeds_map_iff {outcome : Except Error α} {change : α → β}
    : Succeeds (outcome.map change) ↔ Succeeds outcome := by
  cases outcome with
  | ok value => exact ⟨fun _ => succeeds_ok value, fun _ => succeeds_ok (change value)⟩
  | error cause => exact ⟨fun ⟨_, same⟩ => (nomatch same), fun ⟨_, same⟩ => (nomatch same)⟩

/-- Steps over a list succeed when each does, by induction on the list. -/
theorem succeeds_mapM {items : List α} {step : α → Except Error β}
    (each : ∀ item ∈ items, Succeeds (step item)) : Succeeds (items.mapM step) := by
  induction items with
  | nil => exact succeeds_ok []
  | cons item rest ih =>
      rw [List.mapM_cons]
      apply (each item (by simp)).bind
      intro value _
      apply (ih fun other member => each other (List.mem_cons_of_mem item member)).bind
      intro values _
      exact succeeds_ok (value :: values)

/-- Steps over a list that do not fail come to their values, by induction on the list. -/
theorem mapM_eq_ok {items : List α} {step : α → Except Error β} {value : α → β}
    (each : ∀ item ∈ items, step item = .ok (value item))
    : items.mapM step = .ok (items.map value) := by
  induction items with
  | nil => rfl
  | cons item rest ih =>
      rw [List.mapM_cons, each item List.mem_cons_self,
        ih fun other member => each other (List.mem_cons_of_mem item member)]
      rfl

/-- Steps over a list that succeed each succeed, by induction on the list. -/
theorem succeeds_of_mapM {items : List α} {step : α → Except Error β}
    (made : Succeeds (items.mapM step)) : ∀ item ∈ items, Succeeds (step item) := by
  induction items with
  | nil => exact fun _ member => (nomatch member)
  | cons item rest ih =>
      obtain ⟨values, made⟩ := made
      rw [List.mapM_cons] at made
      obtain ⟨first, here, made⟩ := bind_eq_ok.mp made
      obtain ⟨more, later, -⟩ := bind_eq_ok.mp made
      intro other member
      rcases List.mem_cons.mp member with rfl | member
      · exact ⟨first, here⟩
      · exact ih ⟨more, later⟩ other member

/-- Outcomes that all succeed are their values, by induction on the list. -/
theorem eq_map_ok_of_succeeds {outcomes : List (Except Error α)}
    (each : ∀ outcome ∈ outcomes, Succeeds outcome)
    : outcomes = (outcomes.filterMap Except.toOption).map .ok := by
  induction outcomes with
  | nil => rfl
  | cons outcome rest ih =>
      obtain ⟨value, rfl⟩ := each outcome List.mem_cons_self
      have later := ih fun other member => each other (List.mem_cons_of_mem _ member)
      show Except.ok value :: rest
        = .ok value :: (rest.filterMap Except.toOption).map Except.ok
      rw [← later]

/-- What a list has come to are the values of its items, by induction on the list. -/
theorem exists_of_mem_mapM {items : List α} {step : α → Except Error β} {values : List β}
    {value : β} (made : items.mapM step = .ok values) (member : value ∈ values)
    : ∃ item ∈ items, step item = .ok value := by
  induction items generalizing values with
  | nil =>
      cases made
      cases member
  | cons item rest ih =>
      rw [List.mapM_cons] at made
      obtain ⟨first, here, made⟩ := bind_eq_ok.mp made
      obtain ⟨more, later, made⟩ := bind_eq_ok.mp made
      cases made
      rcases List.mem_cons.mp member with rfl | member
      · exact ⟨item, List.mem_cons_self, here⟩
      · obtain ⟨other, among, found⟩ := ih later member
        exact ⟨other, List.mem_cons_of_mem item among, found⟩

/-- Items stand beside what they have come to, by induction on the items. -/
theorem forall₂_of_mapM {items : List α} {step : α → Except Error β} {values : List β}
    {related : α → β → Prop}
    (each : ∀ item ∈ items, ∀ value, step item = .ok value → related item value)
    (made : items.mapM step = .ok values) : List.Forall₂ related items values := by
  induction items generalizing values with
  | nil =>
      cases made
      exact .nil
  | cons item rest ih =>
      rw [List.mapM_cons] at made
      obtain ⟨first, here, made⟩ := bind_eq_ok.mp made
      obtain ⟨more, later, made⟩ := bind_eq_ok.mp made
      cases made
      exact .cons (each item List.mem_cons_self first here)
        (ih (fun other member => each other (List.mem_cons_of_mem item member)) later)

/-- What is told by the items of a list is told by what they have come to. -/
theorem map_of_mapM {γ : Type} {items : List α} {step : α → Except Error β} {values : List β}
    {view : β → γ} {key : α → γ}
    (each : ∀ item ∈ items, ∀ value, step item = .ok value → view value = key item)
    (made : items.mapM step = .ok values) : values.map view = items.map key := by
  have beside : List.Forall₂ (fun item value => view value = key item) items values :=
    forall₂_of_mapM each made
  rw [← List.forall₂_eq_eq_eq, List.forall₂_map_left_iff, List.forall₂_map_right_iff]
  exact beside.flip

/-- Tests that do not fail keep the items that pass, by induction on the list; what has been kept so
far comes first, backwards.
-/
theorem filterAuxM_eq_ok {items kept : List α} {test : α → Except Error Bool} {passes : α → Bool}
    (each : ∀ item ∈ items, test item = .ok (passes item))
    : items.filterAuxM test kept = .ok ((items.filter passes).reverse ++ kept) := by
  induction items generalizing kept with
  | nil => rfl
  | cons item rest ih =>
      have tail := fun kept' => @ih kept' fun other member =>
        each other (List.mem_cons_of_mem item member)
      rw [List.filterAuxM, each item (by simp)]
      show List.filterAuxM test rest (bif passes item then item :: kept else kept) = _
      rw [tail]
      cases passing : passes item <;> simp [passing]

/-- Tests that do not fail keep the items that pass. -/
theorem filterM_eq_ok {items : List α} {test : α → Except Error Bool} {passes : α → Bool}
    (each : ∀ item ∈ items, test item = .ok (passes item))
    : items.filterM test = .ok (items.filter passes) := by
  rw [List.filterM, filterAuxM_eq_ok each]
  show Except.ok _ = _
  simp

/-- Tests over a list that do not fail together do not fail one by one, by induction on the list,
whatever has been kept so far.
-/
theorem succeeds_of_filterAuxM {items kept : List α} {test : α → Except Error Bool}
    (made : Succeeds (items.filterAuxM test kept)) : ∀ item ∈ items, Succeeds (test item) := by
  induction items generalizing kept with
  | nil => exact fun _ member => (nomatch member)
  | cons item rest ih =>
      obtain ⟨values, made⟩ := made
      rw [List.filterAuxM] at made
      obtain ⟨passes, here, made⟩ := bind_eq_ok.mp made
      intro other member
      rcases List.mem_cons.mp member with rfl | member
      · exact ⟨passes, here⟩
      · exact ih ⟨values, made⟩ other member

theorem succeeds_of_filterM {items : List α} {test : α → Except Error Bool}
    (made : Succeeds (items.filterM test)) : ∀ item ∈ items, Succeeds (test item) := by
  obtain ⟨values, made⟩ := made
  obtain ⟨kept, made, -⟩ := bind_eq_ok.mp made
  exact succeeds_of_filterAuxM ⟨kept, made⟩

/-- Tests over a list that do not fail keep the items that pass. -/
theorem eq_filter_of_filterM {items kept : List α} {test : α → Except Error Bool}
    (made : items.filterM test = .ok kept)
    : kept = items.filter fun item => (test item).toOption.getD false := by
  have each : ∀ item ∈ items, test item = .ok ((test item).toOption.getD false) := by
    intro item member
    obtain ⟨passes, found⟩ := succeeds_of_filterM ⟨kept, made⟩ item member
    rw [found]
    rfl
  exact Except.ok.inj (made.symm.trans (filterM_eq_ok each))

end RubySchema
