import RubySchema.Proofs.Dependency

/-!
A graph of references that has each source once, and each target of a source once, tells exactly its
references: which there are, which of them are pairs, and all of them in order.
-/

namespace RubySchema

def TextLt (a b : String) : Prop :=
  textLe a b = true ∧ a ≠ b

theorem pairwise_textLt_sortTexts {texts : List String} (unique : texts.Nodup)
    : (sortTexts texts).Pairwise TextLt :=
  (List.pairwise_mergeSort textLe_trans textLe_total texts).and
    ((List.mergeSort_perm texts textLe).nodup_iff.mpr unique)

/-- Without duplicates a list is what is left of it when items are deleted. -/
theorem eraseDups_sublist {α : Type} [BEq α] (items : List α) : items.eraseDups.Sublist items := by
  cases items with
  | nil => exact .slnil
  | cons first rest =>
      rw [List.eraseDups_cons]
      exact ((eraseDups_sublist _).trans List.filter_sublist).cons_cons first
termination_by items.length
decreasing_by exact Nat.lt_succ_of_le (List.length_filter_le _ _)

theorem nodup_eraseDups {α : Type} [BEq α] [LawfulBEq α] (items : List α)
    : items.eraseDups.Nodup := by
  cases items with
  | nil => exact .nil
  | cons first rest =>
      rw [List.eraseDups_cons]
      refine List.nodup_cons.mpr ⟨fun again => ?_, nodup_eraseDups _⟩
      simpa using (List.mem_filter.mp (List.mem_eraseDups.mp again)).2
termination_by items.length
decreasing_by exact Nat.lt_succ_of_le (List.length_filter_le _ _)

namespace DependencyGraph

variable {graph : DependencyGraph} {source target : String}

def PairLt (first second : String × String) : Prop :=
  pairLe first second = true ∧ first ≠ second

def record (graph : DependencyGraph) (source target : String) : Bool × DependencyGraph :=
  ((graph.insert source target).closes source target, graph.insert source target)

structure Tells (graph : DependencyGraph) (refers : String → String → Prop) : Prop where
  dependsOn : ∀ first second, graph.dependsOn first second = true ↔ refers first second
  mutualPairs
    : ∀ first second,
        (first, second) ∈ graph.mutualPairs
        ↔ TextLt first second ∧ refers first second ∧ refers second first
  pairsInOrder : graph.mutualPairs.Pairwise PairLt
  sorted
    : ∀ first second,
        (∃ targets, (first, targets) ∈ graph.sorted ∧ second ∈ targets) ↔ refers first second
  sourcesInOrder : graph.sorted.names.Pairwise TextLt
  targetsInOrder : ∀ entry ∈ graph.sorted, entry.2 ≠ [] ∧ entry.2.Pairwise TextLt

/-- Each source stands once in the graph, with some targets, each once. -/
structure IsOfSets (graph : DependencyGraph) : Prop where
  sources : graph.HasUniqueSources
  targets : ∀ entry ∈ graph.edges, entry.2 ≠ [] ∧ entry.2.Nodup

theorem isOfSets_empty : empty.IsOfSets :=
  ⟨List.nodup_nil, nofun⟩

theorem IsOfSets.nodup_targetsOf (sets : graph.IsOfSets) (source : String)
    : (graph.targetsOf source).Nodup := by
  unfold targetsOf
  cases found : graph.edges.get? source with
  | none => exact List.nodup_nil
  | some targets => exact (sets.targets _ (Table.mem_of_get? found)).2

theorem IsOfSets.insert (sets : graph.IsOfSets) (source target : String)
    : (graph.insert source target).IsOfSets := by
  refine ⟨sets.sources.insert source target, fun entry member => ?_⟩
  rcases Table.mem_put member with rfl | before
  · split
    case isTrue known => exact ⟨List.ne_nil_of_mem known, sets.nodup_targetsOf source⟩
    case isFalse new =>
      refine ⟨by simp, ?_⟩
      rw [← List.concat_eq_append]
      exact List.Nodup.concat new (sets.nodup_targetsOf source)
  · exact sets.targets entry before

/-- A name with a reference does not refer to itself by it, unless it does so already. -/
theorem record_fst_iff
    : (graph.record source target).1 = true
      ↔ source ≠ target ∧ graph.dependsOn target source = true := by
  unfold record closes
  rw [Bool.and_eq_true, bne_iff_ne, dependsOn_insert]
  refine and_congr_right fun different => ?_
  constructor
  · exact fun refers => refers.resolve_right fun same => different same.2
  · exact .inl

theorem sortPair_of_textLt {first second : String} (lt : TextLt first second)
    : sortPair first second = (first, second) := by
  rw [sortPair, if_pos lt.1]

/-- Each pair is made as two different names in order. -/
theorem textLt_of_mem_mutualPairs {pair : String × String} (member : pair ∈ graph.mutualPairs)
    : TextLt pair.1 pair.2 := by
  unfold mutualPairs at member
  dsimp only at member
  rw [List.mem_eraseDups, List.mem_mergeSort, List.mem_flatMap] at member
  obtain ⟨entry, -, made⟩ := member
  obtain ⟨target, passes, rfl⟩ := List.mem_map.mp made
  have different : entry.1 ≠ target :=
    bne_iff_ne.mp (Bool.and_eq_true_iff.mp (List.mem_filter.mp passes).2).1
  unfold sortPair
  split
  case isTrue le => exact ⟨le, different⟩
  case isFalse gt =>
    have total := textLe_total entry.1 target
    rw [Bool.eq_false_iff.mpr gt, Bool.false_or] at total
    exact ⟨total, different.symm⟩

/-- A graph of sets tells its own references. -/
theorem IsOfSets.tells (sets : graph.IsOfSets)
    : graph.Tells fun first second => graph.dependsOn first second = true where
  dependsOn _ _ := Iff.rfl
  mutualPairs first second := by
    constructor
    · intro member
      have lt := textLt_of_mem_mutualPairs member
      rw [← sortPair_of_textLt lt, mem_mutualPairs_iff sets.sources] at member
      exact ⟨lt, member.2⟩
    · rintro ⟨lt, both⟩
      rw [← sortPair_of_textLt lt, mem_mutualPairs_iff sets.sources]
      exact ⟨lt.2, both⟩
  pairsInOrder := by
    refine List.Pairwise.and ?_ (nodup_eraseDups _)
    exact (List.pairwise_mergeSort pairLe_trans pairLe_total _).sublist (eraseDups_sublist _)
  sorted first second := by
    rw [← exists_mem_edges_iff sets.sources]
    constructor
    · rintro ⟨targets, member, among⟩
      obtain ⟨entry, isEntry, same⟩ := List.mem_map.mp member
      obtain ⟨rfl, rfl⟩ := Prod.mk.inj same
      exact ⟨entry, List.mem_mergeSort.mp isEntry, rfl, List.mem_mergeSort.mp among⟩
    · rintro ⟨entry, member, rfl, among⟩
      exact ⟨sortTexts entry.2, List.mem_map.mpr ⟨entry, List.mem_mergeSort.mpr member, rfl⟩,
        List.mem_mergeSort.mpr among⟩
  sourcesInOrder := by
    have names : graph.sorted.names
        = (graph.edges.mergeSort fun a b => textLe a.1 b.1).map Prod.fst := by
      simp [DependencyGraph.sorted, Table.names, Function.comp_def]
    rw [names]
    refine List.Pairwise.and ?_ ?_
    · let le (a b : String × List String) := textLe a.1 b.1
      have transitive : ∀ a b c, le a b = true → le b c = true → le a c = true :=
        fun a b c => textLe_trans a.1 b.1 c.1
      have total : ∀ a b, (le a b || le b a) = true := fun a b => textLe_total a.1 b.1
      exact List.pairwise_map.mpr (List.pairwise_mergeSort transitive total _)
    · exact (((List.mergeSort_perm _ _).map Prod.fst).nodup_iff).mpr sets.sources
  targetsInOrder entry member := by
    obtain ⟨original, isEntry, rfl⟩ := List.mem_map.mp member
    obtain ⟨some, nodup⟩ := sets.targets original (List.mem_mergeSort.mp isEntry)
    refine ⟨fun none => some ?_, pairwise_textLt_sortTexts nodup⟩
    exact List.Perm.eq_nil (none ▸ (List.mergeSort_perm original.2 textLe).symm)

theorem Tells.congr {refers others : String → String → Prop} (tells : graph.Tells refers)
    (same : ∀ first second, refers first second ↔ others first second) : graph.Tells others := by
  have equal : refers = others := funext fun first => funext fun second => propext (same _ _)
  exact equal ▸ tells

end DependencyGraph

end RubySchema
