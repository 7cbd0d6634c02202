import RubySchema.Dependency
import RubySchema.Proofs.Runs
import RubySchema.Proofs.Table

/-!
Graphs of references. What a graph says of its pairs and of its order depends on its references
only, and the declaration of a name tells the name.
-/

namespace RubySchema

namespace DependencyGraph

variable {graph other : DependencyGraph} {source target name : String}

/-- A reference from a name changes only what that name refers to. -/
theorem targetsOf_insert (graph : DependencyGraph) (source target name : String)
    : (graph.insert source target).targetsOf name
      = if source = name then
          (if target ∈ graph.targetsOf source then graph.targetsOf source
            else graph.targetsOf source ++ [target])
        else graph.targetsOf name := by
  unfold insert targetsOf
  dsimp only
  rw [Table.get?_put]
  by_cases same : source = name
  · rw [if_pos same, if_pos same, Option.getD_some]
  · rw [if_neg same, if_neg same]

/-- A graph with a reference has that reference and those it had. -/
theorem dependsOn_insert {first second : String}
    : (graph.insert source target).dependsOn first second = true
      ↔ graph.dependsOn first second = true ∨ first = source ∧ second = target := by
  unfold dependsOn
  rw [targetsOf_insert, decide_eq_true_eq, decide_eq_true_eq]
  by_cases same : source = first
  · subst same
    rw [if_pos rfl]
    split
    case isTrue known =>
      constructor
      · exact .inl
      · rintro (member | ⟨-, rfl⟩)
        · exact member
        · exact known
    case isFalse => simp
  · rw [if_neg same]
    simp [Ne.symm same]

def HasUniqueSources (graph : DependencyGraph) : Prop :=
  graph.edges.names.Nodup

theorem HasUniqueSources.insert (unique : graph.HasUniqueSources) (source target : String)
    : (graph.insert source target).HasUniqueSources :=
  Table.nodup_names_put unique source _

theorem sortPair_eq {a b c d : String} (same : sortPair a b = sortPair c d)
    : a = c ∧ b = d ∨ a = d ∧ b = c := by
  unfold sortPair at same
  split at same <;> split at same <;> obtain ⟨rfl, rfl⟩ := Prod.mk.inj same <;> simp

theorem exists_mem_edges_iff (unique : graph.HasUniqueSources) {name other : String}
    : (∃ entry ∈ graph.edges, entry.1 = name ∧ other ∈ entry.2)
      ↔ graph.dependsOn name other = true := by
  unfold dependsOn targetsOf
  rw [decide_eq_true_eq]
  constructor
  · rintro ⟨⟨_, targets⟩, member, rfl, among⟩
    rw [(Table.get?_eq_some_iff unique).mpr member]
    exact among
  · intro among
    cases found : Table.get? graph.edges name with
    | none => simp [found] at among
    | some targets =>
        rw [found] at among
        exact ⟨(name, targets), Table.mem_of_get? found, rfl, among⟩

/-- A pair stands for two different names that refer to each other. -/
theorem mem_mutualPairs_iff (unique : graph.HasUniqueSources) {first second : String}
    : sortPair first second ∈ graph.mutualPairs
      ↔ first ≠ second
        ∧ graph.dependsOn first second = true ∧ graph.dependsOn second first = true := by
  unfold mutualPairs
  dsimp only
  rw [List.mem_eraseDups, List.mem_mergeSort, List.mem_flatMap]
  constructor
  · rintro ⟨entry, member, made⟩
    obtain ⟨target, passes, same⟩ := List.mem_map.mp made
    obtain ⟨among, test⟩ := List.mem_filter.mp passes
    rw [Bool.and_eq_true, bne_iff_ne] at test
    have forth := (exists_mem_edges_iff unique).mp ⟨entry, member, rfl, among⟩
    -- the pair is made at one of its two sources
    rcases sortPair_eq same with ⟨rfl, rfl⟩ | ⟨rfl, rfl⟩
    · exact ⟨test.1, forth, test.2⟩
    · exact ⟨Ne.symm test.1, test.2, forth⟩
  · rintro ⟨different, forth, back⟩
    obtain ⟨entry, member, rfl, among⟩ := (exists_mem_edges_iff unique).mpr forth
    refine ⟨entry, member, List.mem_map.mpr ⟨second, List.mem_filter.mpr ⟨among, ?_⟩, rfl⟩⟩
    rw [Bool.and_eq_true, bne_iff_ne]
    exact ⟨different, back⟩

theorem pairLe_iff {p q : String × String}
    : pairLe p q = true
      ↔ p.1 = q.1 ∧ textLe p.2 q.2 = true ∨ p.1 ≠ q.1 ∧ textLe p.1 q.1 = true := by
  unfold pairLe
  by_cases same : p.1 = q.1 <;> simp [same]

theorem pairLe_total (p q : String × String) : (pairLe p q || pairLe q p) = true := by
  rw [Bool.or_eq_true, pairLe_iff, pairLe_iff]
  by_cases same : p.1 = q.1
  · rcases Bool.or_eq_true _ _ ▸ textLe_total p.2 q.2 with le | le
    · exact .inl (.inl ⟨same, le⟩)
    · exact .inr (.inl ⟨same.symm, le⟩)
  · rcases Bool.or_eq_true _ _ ▸ textLe_total p.1 q.1 with le | le
    · exact .inl (.inr ⟨same, le⟩)
    · exact .inr (.inr ⟨Ne.symm same, le⟩)

theorem pairLe_antisymm (p q : String × String) (first : pairLe p q = true)
    (second : pairLe q p = true) : p = q := by
  rw [pairLe_iff] at first second
  rcases first with ⟨same, le⟩ | ⟨different, le⟩
  · rcases second with ⟨-, ge⟩ | ⟨different, -⟩
    · exact Prod.ext same (textLe_antisymm _ _ le ge)
    · exact absurd same.symm different
  · rcases second with ⟨same, -⟩ | ⟨-, ge⟩
    · exact absurd same.symm different
    · exact absurd (textLe_antisymm _ _ le ge) different

theorem pairLe_trans (p q r : String × String) (first : pairLe p q = true)
    (second : pairLe q r = true) : pairLe p r = true := by
  rw [pairLe_iff] at first second ⊢
  rcases first with ⟨same, le⟩ | ⟨different, le⟩
  · rcases second with ⟨again, more⟩ | ⟨other, more⟩
    · exact .inl ⟨same.trans again, textLe_trans _ _ _ le more⟩
    · exact .inr ⟨same ▸ other, same ▸ more⟩
  · rcases second with ⟨again, more⟩ | ⟨other, more⟩
    · exact .inr ⟨again ▸ different, again ▸ le⟩
    · refine .inr ⟨?_, textLe_trans _ _ _ le more⟩
      intro same
      exact different (textLe_antisymm _ _ le (same ▸ more))

/-- What a name refers to does not depend on the order of the sources. -/
theorem targetsOf_perm (perm : graph.edges.Perm other.edges) (unique : graph.HasUniqueSources)
    (name : String) : graph.targetsOf name = other.targetsOf name := by
  unfold targetsOf
  rw [Table.get?_perm perm unique]

/-- The pairs do not depend on the order of the sources. -/
theorem mutualPairs_perm (perm : graph.edges.Perm other.edges) (unique : graph.HasUniqueSources)
    : graph.mutualPairs = other.mutualPairs := by
  have same (first second : String)
      : graph.dependsOn first second = other.dependsOn first second := by
    unfold dependsOn
    rw [targetsOf_perm perm unique]
  unfold mutualPairs
  simp only [same]
  congr 1
  exact mergeSort_perm_eq pairLe_trans pairLe_total (fun p _ q _ => pairLe_antisymm p q)
    (perm.flatMap_right _)

/-- The references in order do not depend on the order of the sources. -/
theorem sorted_perm (perm : graph.edges.Perm other.edges) (unique : graph.HasUniqueSources)
    : graph.sorted = other.sorted := by
  unfold sorted
  congr 1
  refine mergeSort_perm_eq (fun a b c => textLe_trans a.1 b.1 c.1)
    (fun a b => textLe_total a.1 b.1) ?_ perm
  intro a aMember b bMember le ge
  exact List.inj_on_of_nodup_map unique aMember bMember (textLe_antisymm _ _ le ge)

end DependencyGraph

namespace ForwardDeclaration

/-- A declaration has its name behind the word `class` and before a blank, or behind the word
`module` and before a semicolon.
-/
theorem toList_text (classified : Classified) (schemaNamespace target : String)
    : (∃ base,
        (text classified schemaNamespace target).toList
          = "class ".toList ++ ((schemaNamespace ++ "::").toList ++ (target.toList ++ ' ' :: base)))
      ∨ (text classified schemaNamespace target).toList
        = "module ".toList
          ++ ((schemaNamespace ++ "::").toList ++ (target.toList ++ "; end\n".toList)) := by
  have ofClass (base : Option String)
      : ("class " ++ (schemaNamespace ++ "::" ++ target) ++ " < " ++ schemaNamespace ++ "::"
            ++ base.getD "None" ++ "; end\n").toList
        = "class ".toList ++ ((schemaNamespace ++ "::").toList
          ++ (target.toList ++ ' ' :: '<' :: ' '
            :: (schemaNamespace ++ "::" ++ base.getD "None" ++ "; end\n").toList)) := by
    simp
  unfold text
  dsimp only
  split
  · exact .inl ⟨_, ofClass none⟩
  split
  · exact .inr (by simp)
  · exact .inl ⟨_, ofClass _⟩

/-- The declaration of a name tells the name, unless a blank stands in it. -/
theorem text_injective {classified : Classified} {schemaNamespace first second : String}
    (firstFree : ' ' ∉ first.toList) (secondFree : ' ' ∉ second.toList)
    (same : text classified schemaNamespace first = text classified schemaNamespace second)
    : first = second := by
  have lists := congrArg String.toList same
  apply String.toList_injective
  -- the declaration of a class is never that of a module: they differ in the first character
  rcases toList_text classified schemaNamespace first with ⟨base, firstShape⟩ | firstShape
  · rcases toList_text classified schemaNamespace second with ⟨more, secondShape⟩ | secondShape
    · rw [firstShape, secondShape] at lists
      exact eq_of_append_cons firstFree secondFree
        (List.append_cancel_left (List.append_cancel_left lists))
    · rw [firstShape, secondShape] at lists
      exact absurd lists (by simp)
  · rcases toList_text classified schemaNamespace second with ⟨more, secondShape⟩ | secondShape
    · rw [firstShape, secondShape] at lists
      exact absurd lists (by simp)
    · rw [firstShape, secondShape] at lists
      exact List.append_cancel_right (List.append_cancel_left (List.append_cancel_left lists))

end ForwardDeclaration

end RubySchema
