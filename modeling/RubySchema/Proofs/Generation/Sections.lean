import Mathlib.Data.List.Sort
import RubySchema.Proofs.Generation.Script
import RubySchema.Proofs.Outcome

/-!
Documents that are filled in any order. What a document holds in a section is told by the additions
to that section alone, and a document shows its sections in the order of their slots. Main
statement: two orders of additions that are the same for each section come to the same text, in
which the end of the document is last; and a document that has been closed stays as it is.
-/

namespace RubySchema

/-- The slot of a section; a document shows its sections from the lowest slot on. -/
def Section.slot : Section → Nat
  | .preamble => 5
  | .header => 10
  | .interfaces => 12
  | .possibleTypes => 15
  | .includes => 20
  | .defMethods => 25
  | .fields => 30
  | .postamble => 50

theorem Section.slot_injective : Function.Injective slot := by
  intro first second same
  cases first <;> cases second <;> first | rfl | cases same

theorem Section.mem_inOrder (place : Section) : place ∈ inOrder := by
  cases place <;> decide

theorem Section.pairwise_inOrder : inOrder.Pairwise fun first second => first.slot < second.slot :=
  by decide

namespace Document

-----------------------------------------------------------------------------------------
-- Calls on a document
-----------------------------------------------------------------------------------------

/-- An addition to a section: of a fragment in any case, or once, unless the section has an equal
one.
-/
structure Addition where
  place : Section
  fragment : String
  isOnce : Bool
  deriving DecidableEq

inductive Call where
  | addition (addition : Addition)
  | close (fragment : String)

def addFragment (document : Document) (addition : Addition) : Except Error Document :=
  if addition.isOnce then (document.addOnce addition.place addition.fragment).map Prod.snd
  else document.add addition.place addition.fragment

def perform (document : Document) : Call → Except Error Document
  | .addition addition => document.addFragment addition
  | .close fragment => document.close fragment

def afterCalls (document : Document) (calls : List Call) : Document :=
  calls.foldl (fun current call => (current.perform call).toOption.getD current) document

/-- An empty document with additions in order, then closed with a fragment. -/
def ofAdditions (owner : String) (kind : DocumentKind) (additions : List Addition)
    (postamble : String) : Except Error Document := do
  (← additions.foldlM addFragment (empty owner kind)).close postamble

-----------------------------------------------------------------------------------------
-- What additions come to
-----------------------------------------------------------------------------------------

/-- Fragments with that of an addition behind them, unless it is made once and is among them. -/
def hold (held : List (Section × String)) (addition : Addition) : List (Section × String) :=
  if addition.isOnce ∧ (addition.place, addition.fragment) ∈ held then held
  else held ++ [(addition.place, addition.fragment)]

def held (additions : List Addition) : List (Section × String) :=
  additions.foldl hold []

/-- A fragment is in the slot of another, or in a lower one. -/
def slotLe (first second : Section × String) : Bool :=
  first.1.slot ≤ second.1.slot

/-- Fragments in the order of their slots, and for one slot in the order of time. -/
def inSlots (fragments : List (Section × String)) : List String :=
  (fragments.mergeSort slotLe).map Prod.snd

/-- What additions and an end come to in a document: fragments that are not empty, by section. -/
def shown (additions : List Addition) (postamble : String) : List String :=
  (inSlots (held additions ++ [(.postamble, postamble)])).filter fun text => !text.isEmpty

section
variable {document : Document} {addition : Addition} {additions : List Addition} {place : Section}
  {fragments : List (Section × String)} {postamble : String}

theorem mem_fragments {fragment : String}
    : fragment ∈ document.fragments place ↔ (place, fragment) ∈ document.placed := by
  simp only [fragments, List.mem_filterMap, Option.ite_none_right_eq_some, Option.some.injEq]
  constructor
  · rintro ⟨entry, member, rfl, rfl⟩
    exact member
  · intro member
    exact ⟨(place, fragment), member, rfl, rfl⟩

/-- An open document takes an addition among its fragments. -/
theorem addFragment_of_open (isOpen : document.isClosed = false)
    : document.addFragment addition
      = .ok { document with placed := hold document.placed addition } := by
  unfold addFragment hold
  cases addition.isOnce with
  | false => exact add_of_open isOpen
  | true =>
      rw [if_pos rfl, addOnce, if_neg (by simp [isOpen]), add_of_open isOpen]
      simp only [mem_fragments, true_and]
      split <;> rfl

/-- Additions to an open document come to its fragments, by induction on the additions. -/
theorem foldlM_addFragment (isOpen : document.isClosed = false)
    : additions.foldlM addFragment document
      = .ok { document with placed := additions.foldl hold document.placed } := by
  induction additions generalizing document with
  | nil => rfl
  | cons addition rest ih =>
      rw [List.foldlM_cons, addFragment_of_open isOpen, ok_bind]
      exact ih isOpen

/-- Additions to an empty document and its end succeed, and the document has what they come to. -/
theorem ofAdditions_eq (owner : String) (kind : DocumentKind)
    : ofAdditions owner kind additions postamble
      = .ok
        {
          owner
          kind
          placed := held additions ++ [(.postamble, postamble)]
          isClosed := true
        } := by
  have isOpen : (empty owner kind).isClosed = false := rfl
  rw [ofAdditions, foldlM_addFragment isOpen, ok_bind]
  exact close_of_open isOpen

-----------------------------------------------------------------------------------------
-- One section at a time
-----------------------------------------------------------------------------------------

/-- In a section there is what the additions to the section come to, by induction on the additions.
-/
theorem filter_foldl_hold (place : Section)
    : (additions.foldl hold fragments).filter (fun entry => entry.1 = place)
      = (additions.filter fun addition => addition.place = place).foldl hold
        (fragments.filter fun entry => entry.1 = place) := by
  induction additions generalizing fragments with
  | nil => rfl
  | cons addition rest ih =>
      rw [List.foldl_cons, ih]
      by_cases here : addition.place = place
      · rw [List.filter_cons_of_pos (by simpa using here), List.foldl_cons]
        congr 1
        have among
            : (addition.place, addition.fragment)
                ∈ fragments.filter (fun entry => entry.1 = place)
              ↔ (addition.place, addition.fragment) ∈ fragments := by
          simp [here]
        simp only [hold, among]
        split
        · rfl
        · simp [here]
      · rw [List.filter_cons_of_neg (by simpa using here)]
        congr 1
        unfold hold
        split
        · rfl
        · simp [here]

/-- Additions that are the same for each section come to the same fragments in each. -/
theorem filter_held {first second : List Addition}
    (same
      : ∀ place,
          first.filter (fun addition => addition.place = place)
            = second.filter fun addition => addition.place = place)
    (place : Section)
    : (held first).filter (fun entry => entry.1 = place)
      = (held second).filter fun entry => entry.1 = place := by
  unfold held
  rw [filter_foldl_hold, filter_foldl_hold, same]

-----------------------------------------------------------------------------------------
-- Sections in order
-----------------------------------------------------------------------------------------

theorem slotLe_trans (a b c : Section × String) (first : slotLe a b = true)
    (second : slotLe b c = true) : slotLe a c = true :=
  decide_eq_true (Nat.le_trans (of_decide_eq_true first) (of_decide_eq_true second))

theorem slotLe_total (a b : Section × String) : (slotLe a b || slotLe b a) = true := by
  simpa [slotLe] using Nat.le_total a.1.slot b.1.slot

/-- Fragments sorted by their slots stay in order within each section. -/
theorem filter_mergeSort (place : Section)
    : (fragments.mergeSort slotLe).filter (fun entry => entry.1 = place)
      = fragments.filter fun entry => entry.1 = place := by
  -- what is in one section is sorted already, so it stands in the sorted list as it is
  have sorted
      : (fragments.filter fun entry => entry.1 = place).Pairwise fun a b => slotLe a b = true := by
    rw [List.pairwise_filter]
    apply List.pairwise_of_forall
    intro a b aHere bHere
    have aPlace : a.1 = place := of_decide_eq_true aHere
    have bPlace : b.1 = place := of_decide_eq_true bHere
    simp [slotLe, aPlace, bPlace]
  have within := List.sublist_mergeSort slotLe_trans slotLe_total sorted List.filter_sublist
  have again := within.filter fun entry => entry.1 = place
  rw [List.filter_filter] at again
  simp only [Bool.and_self] at again
  refine (again.eq_of_length ?_).symm
  exact ((List.mergeSort_perm fragments slotLe).filter _).length_eq.symm

/-- Of sorted fragments those of the lowest section stand in front, by induction on them. -/
theorem eq_append_of_sorted
    (sorted : fragments.Pairwise fun first second => first.1.slot ≤ second.1.slot)
    (lowest : ∀ entry ∈ fragments, place.slot ≤ entry.1.slot)
    : fragments
      = (fragments.filter fun entry => entry.1 = place)
        ++ fragments.filter fun entry => entry.1 ≠ place := by
  induction fragments with
  | nil => rfl
  | cons entry rest ih =>
      obtain ⟨below, sorted⟩ := List.pairwise_cons.mp sorted
      have later := ih sorted fun other member => lowest other (List.mem_cons_of_mem entry member)
      by_cases here : entry.1 = place
      · rw [List.filter_cons_of_pos (by simpa using here),
          List.filter_cons_of_neg (by simpa using here), List.cons_append, ← later]
      · -- whatever stands behind the entry is in a higher section as well
        have above : place.slot < entry.1.slot :=
          Nat.lt_of_le_of_ne (lowest entry List.mem_cons_self)
            fun same => here (Section.slot_injective same.symm)
        have others : ∀ other ∈ entry :: rest, other.1 ≠ place := by
          intro other member same
          rcases List.mem_cons.mp member with rfl | member
          · exact here same
          · have le := below other member
            rw [same] at le
            omega
        rw [List.filter_eq_nil_iff.mpr (by simpa using others), List.nil_append,
          List.filter_eq_self.mpr (by simpa using others)]

/-- Sorted fragments are those of each section in turn, by induction on the sections that they are
in.
-/
theorem eq_flatMap_of_sorted {places : List Section}
    (ordered : places.Pairwise fun first second => first.slot < second.slot)
    (sorted : fragments.Pairwise fun first second => first.1.slot ≤ second.1.slot)
    (covered : ∀ entry ∈ fragments, entry.1 ∈ places)
    : fragments
      = places.flatMap fun place => fragments.filter fun entry => entry.1 = place := by
  induction places generalizing fragments with
  | nil =>
      cases fragments with
      | nil => rfl
      | cons entry rest => cases covered entry List.mem_cons_self
  | cons first rest ih =>
      obtain ⟨below, ordered⟩ := List.pairwise_cons.mp ordered
      have lowest : ∀ entry ∈ fragments, first.slot ≤ entry.1.slot := by
        intro entry member
        rcases List.mem_cons.mp (covered entry member) with same | later
        · rw [same]
        · exact Nat.le_of_lt (below _ later)
      have others
          : (fragments.filter fun entry => entry.1 ≠ first)
            = rest.flatMap fun place =>
              (fragments.filter fun entry => entry.1 ≠ first).filter fun entry =>
                entry.1 = place := by
        refine ih ordered (sorted.filter _) fun entry member => ?_
        obtain ⟨member, different⟩ := List.mem_filter.mp member
        have listed := List.mem_cons.mp (covered entry member)
        exact listed.resolve_left (of_decide_eq_true different)
      have again
          : ∀ place ∈ rest,
              (fragments.filter fun entry => entry.1 ≠ first).filter (fun entry => entry.1 = place)
                = fragments.filter fun entry => entry.1 = place := by
        intro place member
        rw [List.filter_filter]
        apply List.filter_congr
        intro entry _
        have higher : place ≠ first := by
          rintro rfl
          exact Nat.lt_irrefl _ (below place member)
        by_cases here : entry.1 = place <;> simp [here, higher]
      rw [List.flatMap_cons, ← List.flatMap_congr again, ← others]
      exact eq_append_of_sorted sorted lowest

/-- Fragments in the order of their slots are those of each section in turn. -/
theorem inSlots_eq (fragments : List (Section × String))
    : inSlots fragments
      = Section.inOrder.flatMap fun place =>
        (fragments.filter fun entry => entry.1 = place).map Prod.snd := by
  have sorted
      : (fragments.mergeSort slotLe).Pairwise fun first second => first.1.slot ≤ second.1.slot :=
    (List.pairwise_mergeSort slotLe_trans slotLe_total fragments).imp of_decide_eq_true
  have inTurn := eq_flatMap_of_sorted Section.pairwise_inOrder sorted
    fun entry _ => Section.mem_inOrder entry.1
  unfold inSlots
  rw [inTurn, List.map_flatMap]
  simp only [filter_mergeSort]

theorem fragments_eq (document : Document) (place : Section)
    : document.fragments place
      = (document.placed.filter fun entry => entry.1 = place).map Prod.snd := by
  unfold Document.fragments
  rw [← List.filterMap_eq_map, List.filterMap_filter]
  simp

/-- A document shows its fragments in the order of their slots, but for the empty ones. -/
theorem render_eq (document : Document)
    : document.render
      = "\n".intercalate ((inSlots document.placed).filter fun text => !text.isEmpty) := by
  unfold render
  rw [inSlots_eq, funext document.fragments_eq]

/-- The end of a document stands behind all other fragments. -/
theorem inSlots_concat_postamble (fragments : List (Section × String)) (postamble : String)
    : ∃ front, inSlots (fragments ++ [(.postamble, postamble)]) = front ++ [postamble] := by
  have order
      : Section.inOrder
        = [
            .preamble, .header, .interfaces, .possibleTypes, .includes, .defMethods, .fields
          ] ++ [.postamble] := rfl
  rw [inSlots_eq, order, List.flatMap_append, List.flatMap_singleton, List.filter_append,
    List.map_append, ← List.append_assoc]
  exact ⟨_, rfl⟩

/-- A closed document refuses every call. -/
theorem perform_of_closed (closed : document.isClosed = true) (call : Call)
    : document.perform call = .error (.closedDocument document.kind.word document.owner) := by
  cases call with
  | addition addition =>
      unfold perform addFragment
      cases addition.isOnce <;> simp [add, addOnce, closed, Except.map]
  | close fragment => simp [perform, close, add, closed, bind, Except.bind]

/-- A closed document stays as it is, by induction on the calls. -/
theorem afterCalls_of_closed (closed : document.isClosed = true) (calls : List Call)
    : document.afterCalls calls = document := by
  induction calls with
  | nil => rfl
  | cons call rest ih =>
      unfold afterCalls at ih ⊢
      rw [List.foldl_cons, perform_of_closed closed]
      exact ih

end

/-- Additions may be made to a document in any order that is the same for each section: the document
shows the same text, which is that of the fragments they come to, by section and in order within
each. The end of the document is last, and when it is there nothing changes the document.
-/
theorem render_of_same_sections (owner : String) (kind : DocumentKind) (postamble : String)
    {first second : List Addition}
    (same
      : ∀ place,
          first.filter (fun addition => addition.place = place)
            = second.filter fun addition => addition.place = place)
    : ∃ one other,
        ofAdditions owner kind first postamble = .ok one
        ∧ ofAdditions owner kind second postamble = .ok other
        ∧ one.render = other.render
        ∧ one.render = "\n".intercalate (shown first postamble)
        ∧ (postamble.isEmpty = false → ∃ front, shown first postamble = front ++ [postamble])
        ∧ ∀ later call,
            (one.afterCalls later).perform call = .error (.closedDocument kind.word owner)
            ∧ (one.afterCalls later).render = one.render := by
  refine ⟨_, _, ofAdditions_eq owner kind, ofAdditions_eq owner kind, ?_, render_eq _, ?_, ?_⟩
  · simp only [render_eq, inSlots_eq, List.filter_append, filter_held same]
  · intro filled
    obtain ⟨front, last⟩ := inSlots_concat_postamble (held first) postamble
    rw [shown, last, List.filter_append]
    exact ⟨_, congrArg _ (List.filter_cons_of_pos (by simpa using filled))⟩
  · intro later call
    rw [afterCalls_of_closed rfl]
    exact ⟨perform_of_closed rfl call, rfl⟩

/-- A declaration that is made twice, a header, nothing to include, and fields with two equal lines,
section by section.
-/
def additionsInOrder : List Addition :=
  [
    ⟨.preamble, "class A; end", true⟩, ⟨.preamble, "class A; end", true⟩,
    ⟨.header, "class B", false⟩, ⟨.includes, "", false⟩, ⟨.fields, "field :a", false⟩,
    ⟨.fields, "end", false⟩, ⟨.fields, "field :b", true⟩, ⟨.fields, "end", false⟩,
    ⟨.postamble, "rest", false⟩
  ]

def additionsByField : List Addition :=
  [
    ⟨.postamble, "rest", false⟩, ⟨.fields, "field :a", false⟩, ⟨.preamble, "class A; end", true⟩,
    ⟨.fields, "end", false⟩, ⟨.header, "class B", false⟩, ⟨.fields, "field :b", true⟩,
    ⟨.preamble, "class A; end", true⟩, ⟨.includes, "", false⟩, ⟨.fields, "end", false⟩
  ]

theorem render_of_same_sections_byField
    : (∀ place,
        additionsInOrder.filter (fun addition => addition.place = place)
          = additionsByField.filter fun addition => addition.place = place)
      ∧ ∃ one other,
          ofAdditions "Types::B" .schema additionsInOrder "end" = .ok one
          ∧ ofAdditions "Types::B" .schema additionsByField "end" = .ok other
          ∧ one.render = other.render
          ∧ one.render = "class A; end\nclass B\nfield :a\nend\nfield :b\nend\nrest\nend"
          ∧ one.perform (.close "end") = .error (.closedDocument "schema" "Types::B") := by
  have same
      : ∀ place,
          additionsInOrder.filter (fun addition => addition.place = place)
            = additionsByField.filter fun addition => addition.place = place := by
    intro place
    cases place <;> decide
  have text
      : (ofAdditions "Types::B" .schema additionsInOrder "end").map render
        = .ok "class A; end\nclass B\nfield :a\nend\nfield :b\nend\nrest\nend" := by
    decide +kernel
  obtain ⟨one, other, made, otherMade, equal, -, -, final⟩ :=
    render_of_same_sections "Types::B" .schema "end" same
  rw [made] at text
  exact ⟨same, one, other, made, otherMade, equal, Except.ok.inj text, (final [] (.close "end")).1⟩

end Document

end RubySchema
