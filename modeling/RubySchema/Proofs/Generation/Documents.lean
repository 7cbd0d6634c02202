import RubySchema.Proofs.Generation.Run

/-!
What the documents of a type hold. Outside its preamble a document holds what its type places there;
the preamble of a schema document holds the declarations of the names that its type declares, each
once.
-/

namespace RubySchema

section
variable {plan : Plan} {graph : DependencyGraph} {source : String} {document : Document}
variable {contribution : Contribution} {contributions : List Contribution} {place : Section}

theorem Document.fragments_placeOnce (fragment : String) (other : place ≠ .preamble)
    : (document.placeOnce .preamble fragment).fragments place = document.fragments place := by
  unfold Document.placeOnce
  split
  · rfl
  · rw [Document.fragments_place, if_neg (Ne.symm other), List.append_nil]

/-- Outside the preamble of a schema document, a document gets what the contribution places there.
-/
theorem Document.fragments_receive (outside : place = .preamble → document.kind ≠ .schema)
    : (document.receive plan graph source contribution).fragments place
      = document.fragments place ++ (contribution.placed? document.kind place).toList := by
  cases contribution with
  | fragment own area text =>
      simp only [Document.receive, Contribution.placed?]
      by_cases same : own = document.kind <;> by_cases here : area = place <;> simp [same, here]
  | closing own text =>
      have finished
          : (document.finish text).fragments place
            = document.fragments place ++ (if Section.postamble = place then [text] else []) :=
        Document.fragments_place
      simp only [Document.receive, Contribution.placed?]
      by_cases same : own = document.kind <;> by_cases here : Section.postamble = place <;>
        simp [same, here, finished]
  | reference target | declaration target | listed field arguments =>
      simp only [Document.receive, Contribution.placed?]
      split
      case h_1 ofSchema _ =>
        have other : place ≠ .preamble := fun same => outside same ofSchema
        simp [Document.fragments_placeOnce _ other]
      case h_2 => simp

/-- The preamble of a schema document gets the declaration of a name that the contribution declares,
unless it has it.
-/
theorem Document.preamble_receive (ofSchema : document.kind = .schema)
    (quiet : contribution.placed? .schema .preamble = none)
    : (document.receive plan graph source contribution).fragments .preamble
      = match contribution.declared? plan graph source with
        | none => document.fragments .preamble
        | some target =>
            if plan.declaration target ∈ document.fragments .preamble then
              document.fragments .preamble
            else document.fragments .preamble ++ [plan.declaration target] := by
  cases contribution with
  | fragment own area text =>
      simp only [Contribution.placed?, ite_eq_right_iff, reduceCtorEq, imp_false] at quiet
      simp only [Document.receive, Contribution.declared?, ofSchema]
      split
      case isTrue same => simp [not_and.mp quiet same]
      case isFalse => rfl
  | closing own text =>
      simp only [Document.receive, Contribution.declared?, ofSchema]
      split
      · have finished
            : (document.finish text).fragments .preamble
              = document.fragments .preamble
                ++ (if Section.postamble = Section.preamble then [text] else []) :=
          Document.fragments_place
        simp [finished]
      · rfl
  | reference target | declaration target | listed field arguments =>
      simp only [Document.receive, ofSchema]
      split
      case h_1 target declared =>
        simp only [declared, Document.placeOnce]
        split
        · rfl
        · simp
      case h_2 other =>
        split
        case h_1 => rfl
        case h_2 target declared => exact absurd declared (other target rfl)

/-- Outside the preamble of a schema document, a document holds what contributions place there, in
order.
-/
theorem Document.fragments_foldl_receive (outside : place = .preamble → document.kind ≠ .schema)
    : (contributions.foldl (Document.receive plan graph source) document).fragments place
      = document.fragments place
        ++ contributions.filterMap (Contribution.placed? document.kind place) := by
  induction contributions generalizing document with
  | nil => simp
  | cons contribution rest ih =>
      have sameKind
          : (document.receive plan graph source contribution).kind = document.kind :=
        Document.kind_receive document source
      rw [List.foldl_cons, ih fun same => sameKind ▸ outside same,
        Document.fragments_receive outside, sameKind, List.append_assoc]
      cases placed : contribution.placed? document.kind place with
      | none => rw [List.filterMap_cons_none placed]; rfl
      | some text => rw [List.filterMap_cons_some placed]; rfl

/-- The preamble of a schema document holds the declarations of the names that are declared. -/
theorem Document.mem_preamble_foldl_receive {fragment : String}
    (ofSchema : document.kind = .schema)
    (quiet : ∀ contribution ∈ contributions, contribution.placed? .schema .preamble = none)
    : fragment
          ∈ (contributions.foldl (Document.receive plan graph source) document).fragments .preamble
      ↔ fragment ∈ document.fragments .preamble
        ∨ ∃ contribution ∈ contributions,
            ∃ target,
              contribution.declared? plan graph source = some target
              ∧ fragment = plan.declaration target := by
  induction contributions generalizing document with
  | nil => simp
  | cons contribution rest ih =>
      have later := fun other member => quiet other (List.mem_cons_of_mem contribution member)
      -- a declaration that the preamble has already is not placed again, but is there
      have here
          : fragment ∈ (document.receive plan graph source contribution).fragments .preamble
            ↔ fragment ∈ document.fragments .preamble
              ∨ ∃ target,
                  contribution.declared? plan graph source = some target
                  ∧ fragment = plan.declaration target := by
        rw [Document.preamble_receive ofSchema (quiet contribution List.mem_cons_self)]
        cases contribution.declared? plan graph source with
        | none => simp
        | some target =>
            dsimp only
            split
            case isTrue known =>
              constructor
              · exact .inl
              · rintro (member | ⟨_, same, rfl⟩)
                · exact member
                · exact Option.some.inj same ▸ known
            case isFalse => simp
      rw [List.foldl_cons, ih ((Document.kind_receive document source).trans ofSchema) later, here,
        List.exists_mem_cons_iff, or_assoc]

theorem Document.nodup_preamble_foldl_receive (ofSchema : document.kind = .schema)
    (quiet : ∀ contribution ∈ contributions, contribution.placed? .schema .preamble = none)
    (unique : (document.fragments .preamble).Nodup)
    : ((contributions.foldl (Document.receive plan graph source) document).fragments
        .preamble).Nodup := by
  induction contributions generalizing document with
  | nil => exact unique
  | cons contribution rest ih =>
      have later := fun other member => quiet other (List.mem_cons_of_mem contribution member)
      apply ih ((Document.kind_receive document source).trans ofSchema) later
      rw [Document.preamble_receive ofSchema (quiet contribution List.mem_cons_self)]
      split
      · exact unique
      · split
        case isTrue => exact unique
        case isFalse new =>
          rw [List.nodup_append]
          refine ⟨unique, by simp, ?_⟩
          rintro fragment member other single rfl
          exact new (List.mem_singleton.mp single ▸ member)

/-- A document other than the schema document depends neither on the plan nor on the references made
before.
-/
theorem Document.foldl_receive_of_ne_schema {otherPlan : Plan} {otherGraph : DependencyGraph}
    (notSchema : document.kind ≠ .schema)
    : contributions.foldl (Document.receive plan graph source) document
      = contributions.foldl (Document.receive otherPlan otherGraph source) document := by
  induction contributions generalizing document with
  | nil => rfl
  | cons contribution rest ih =>
      have same
          : document.receive plan graph source contribution
            = document.receive otherPlan otherGraph source contribution := by
        cases contribution <;> simp [Document.receive, notSchema]
      rw [List.foldl_cons, List.foldl_cons, ← same]
      exact ih (Document.kind_receive document source ▸ notSchema)

theorem Artifacts.targetName_foldl_receive (artifacts : Artifacts)
    : (contributions.foldl (Artifacts.receive plan graph) artifacts).targetName
      = artifacts.targetName := by
  induction contributions generalizing artifacts with
  | nil => rfl
  | cons contribution rest ih => exact ih _

/-- A document of a type after contributions is that document after them. -/
theorem Artifacts.document?_foldl_receive (artifacts : Artifacts) (kind : DocumentKind)
    : (contributions.foldl (Artifacts.receive plan graph) artifacts).document? kind
      = (artifacts.document? kind).map fun document =>
        contributions.foldl (Document.receive plan graph artifacts.targetName) document := by
  induction contributions generalizing artifacts with
  | nil => simp
  | cons contribution rest ih =>
      rw [List.foldl_cons, ih, Artifacts.document?_receive, Option.map_map]
      rfl

end

end RubySchema
