import RubySchema.Proofs.Registry.Suffixes
import RubySchema.Proofs.Schema.Chains

/-!
Resolution comes to what the wrappers of a use tell when they are read from the outermost on, and
marks a field only when it has a result. It walks the wrappers from the named type outwards and
moves what it knows from level to level.
-/

namespace RubySchema

/-- A level around a named type. -/
inductive Wrapper where
  | nonNull
  | list
  deriving DecidableEq

def TypeRef.wrapped (wrappers : List Wrapper) (name : Json) (kind : Option TypeKind) : TypeRef :=
  match wrappers with
  | [] => .named name kind
  | .nonNull :: rest => .nonNull (wrapped rest name kind)
  | .list :: rest => .list (wrapped rest name kind)

def Wrapper.node : Wrapper → ChainNode
  | .nonNull => .nonNull
  | .list => .list

/-- A use whose chain is wrappers in front of a name is the use of the name in these wrappers, by
induction on the wrappers.
-/
theorem TypeRef.eq_wrapped {type : TypeRef} {wrappers : List Wrapper} {name : Json}
    {kind : Option TypeKind}
    (chained : type.chain = wrappers.map Wrapper.node ++ [.named name kind])
    : type = wrapped wrappers name kind := by
  induction wrappers generalizing type with
  | nil =>
      cases type with
      | named => simpa [chain, wrapped] using chained
      | list item => cases (List.cons.inj chained).1
      | nonNull inner => cases (List.cons.inj chained).1
  | cons wrapper rest ih =>
      cases type with
      | named other otherKind => cases wrapper <;> cases (List.cons.inj chained).1
      | list item =>
          cases wrapper with
          | nonNull => cases (List.cons.inj chained).1
          | list => exact congrArg TypeRef.list (ih (List.cons.inj chained).2)
      | nonNull inner =>
          cases wrapper with
          | nonNull => exact congrArg TypeRef.nonNull (ih (List.cons.inj chained).2)
          | list => cases (List.cons.inj chained).1

/-- An item of the outermost list may be null; so may what is in no list. -/
def Wrapper.isItemNullable : List Wrapper → Bool
  | [] => true
  | .nonNull :: rest => isItemNullable rest
  | .list :: rest => rest.head? != some .nonNull

/-- In one list at most, items may be null unless the list is right around a wrapper that says
otherwise.
-/
theorem Wrapper.isItemNullable_iff {wrappers : List Wrapper} (single : wrappers.count .list ≤ 1)
    : isItemNullable wrappers = true
      ↔ ∀ before after, wrappers = before ++ .list :: after → after.head? ≠ some .nonNull := by
  induction wrappers with
  | nil => simp [isItemNullable]
  | cons wrapper rest ih =>
      cases wrapper with
      | nonNull =>
          rw [isItemNullable, ih (by simpa using single)]
          constructor
          · intro items before after split
            cases before with
            | nil => cases split
            | cons first before => exact items before after (List.cons.inj split).2
          · intro items before after split
            exact items (.nonNull :: before) after (congrArg (List.cons .nonNull) split)
      | list =>
          -- the one list that there can be is this one
          have none : .list ∉ rest := by
            rw [← List.count_eq_zero]
            rw [List.count_cons_self] at single
            omega
          rw [isItemNullable, bne_iff_ne]
          constructor
          · intro item before after split
            cases before with
            | nil => exact (List.cons.inj split).2 ▸ item
            | cons first before =>
                have member : Wrapper.list ∈ before ++ .list :: after := by simp
                exact absurd ((List.cons.inj split).2 ▸ member) none
          · exact fun items => items [] rest rfl

namespace Resolved

def fromOutside (name : String) (mapping : NameMapping) (wrappers : List Wrapper) : Resolved :=
  {
    name := (Naming.stripConnection name).1
    targetName := mapping.targetName
    isNullable := wrappers.head? != some .nonNull
    isArray := decide (.list ∈ wrappers)
    isItemNullable := Wrapper.isItemNullable wrappers
    isConnection := (Naming.stripConnection name).2
  }

section
variable {classified : Classified} {mapping : NameMapping} {name : String}

/-- A name without a mapping has no use, whatever is around it. -/
theorem ofTypeRef_of_unknown (owner : Json) (wrappers : List Wrapper) (kind : Option TypeKind)
    (unknown : classified.get? (Naming.stripConnection name).1 = none)
    : ofTypeRef classified owner (.wrapped wrappers (.string name) kind)
      = .error (.unknownType (Naming.stripConnection name).1) := by
  induction wrappers with
  | nil =>
      show (classified.lookup (Naming.stripConnection name).1 >>= _) = _
      rw [Classified.lookup, unknown]
      rfl
  | cons wrapper rest ih =>
      cases wrapper <;>
        · rw [TypeRef.wrapped, ofTypeRef, ih]
          rfl

/-- A name that has a mapping has the use that the wrappers tell, unless two of them are lists. By
induction on the wrappers: what the walk has behind each of them is what those read so far tell.
-/
theorem ofTypeRef_of_known (owner : Json) (wrappers : List Wrapper) (kind : Option TypeKind)
    (known : classified.get? (Naming.stripConnection name).1 = some mapping)
    : ofTypeRef classified owner (.wrapped wrappers (.string name) kind)
      = if 2 ≤ wrappers.count .list then .error (.listOfLists owner)
        else .ok (fromOutside name mapping wrappers) := by
  induction wrappers with
  | nil =>
      show (classified.lookup (Naming.stripConnection name).1 >>= _) = _
      rw [Classified.lookup, known]
      rfl
  | cons wrapper rest ih =>
      cases wrapper with
      | nonNull =>
          have lists : (Wrapper.nonNull :: rest).count .list = rest.count .list :=
            List.count_cons_of_ne (by decide)
          rw [TypeRef.wrapped, ofTypeRef, ih, lists]
          split
          · rfl
          · show Except.ok _ = Except.ok _
            simp [fromOutside, Wrapper.isItemNullable]
      | list =>
          rw [TypeRef.wrapped, ofTypeRef, ih, List.count_cons_self]
          by_cases nested : .list ∈ rest
          · have further : 0 < rest.count .list := List.count_pos_iff.mpr nested
            rw [if_pos (by omega : 2 ≤ rest.count .list + 1)]
            split
            · rfl
            · show (if decide (.list ∈ rest) then _ else _) = _
              rw [if_pos (decide_eq_true nested)]
              rfl
          · have bare : rest.count .list = 0 := List.count_eq_zero.mpr nested
            rw [if_neg (by omega), if_neg (by omega)]
            show (if decide (.list ∈ rest) then _ else _) = _
            rw [if_neg (by simpa using nested)]
            show Except.ok _ = Except.ok _
            simp [fromOutside, Wrapper.isItemNullable]

/-- Resolution of a field comes to what its wrappers tell, read from the outermost on. -/
theorem ofField_wrapped {field : Field} {wrappers : List Wrapper} {kind : Option TypeKind}
    (chained : field.type = .wrapped wrappers (.string name) kind)
    : ofField classified field
      = match classified.get? (Naming.stripConnection name).1 with
        | none => .error (.unknownType (Naming.stripConnection name).1)
        | some mapping =>
            if 2 ≤ wrappers.count .list then .error (.listOfLists field.name)
            else if (Naming.stripConnection name).2 ∧ .list ∈ wrappers then
              .error (.listOfConnections field.name)
            else .ok (fromOutside name mapping wrappers) := by
  rw [ofField, chained]
  cases known : classified.get? (Naming.stripConnection name).1 with
  | none =>
      rw [ofTypeRef_of_unknown _ _ _ known]
      rfl
  | some mapping =>
      rw [ofTypeRef_of_known _ _ _ known]
      dsimp only
      split
      · rfl
      · show (if (Naming.stripConnection name).2 && decide (.list ∈ wrappers) then _ else _) = _
        simp only [Bool.and_eq_true, decide_eq_true_eq]
        rfl

end

-----------------------------------------------------------------------------------------
-- Marks on fields
-----------------------------------------------------------------------------------------

/-- Resolution on the field itself: a walk along its chain from the end, which keeps a result from
node to node, and marks on the field behind it.
-/
def inPlace (classified : Classified) (field : Field) : ExceptT Error (StateM Marks) Resolved := do
  let result ←
    field.type.chain.reverse.foldlM (fun result node => behind classified field.name result node)
      none
  match result with
  | none => throw .illTyped
  | some resolved =>
      if resolved.isConnection && resolved.isArray then throw (.listOfConnections field.name)
      modify fun marks => { marks with isArray := resolved.isArray }
      modify fun marks => { marks with isConnection := resolved.isConnection }
      return resolved

/-- Steps that touch no marks leave them, by induction on the steps. -/
theorem run_foldlM {α β : Type} (step : β → α → Except Error β) (items : List α) (start : β)
    (marks : Marks)
    : (items.foldlM (fun result item => (liftM (step result item) : ExceptT Error (StateM Marks) β))
        start).run.run marks
      = (items.foldlM step start, marks) := by
  induction items generalizing start with
  | nil => rfl
  | cons item rest ih =>
      rw [List.foldlM_cons, List.foldlM_cons]
      cases step start item with
      | error cause => rfl
      | ok next => exact ih next

/-- A field that is resolved in place has the result and the marks that resolution gives. -/
theorem run_inPlace (classified : Classified) (field : Field) (marks : Marks)
    : (inPlace classified field).run.run marks
      = (ofField classified field, marks.after (ofField classified field)) := by
  have walked
      : (field.type.chain.reverse.foldlM (fun result node =>
            (liftM (behind classified field.name result node)
              : ExceptT Error (StateM Marks) (Option Resolved)))
          none).run.run marks
        = ((ofTypeRef classified field.name field.type).map some, marks) := by
    rw [run_foldlM, foldlM_chain]
  unfold inPlace
  rw [ExceptT.run_bind, StateT.run_bind, walked, ofField]
  cases ofTypeRef classified field.name field.type with
  | error cause => rfl
  | ok resolved =>
      obtain ⟨_, _, _, isArray, _, isConnection⟩ := resolved
      cases isArray <;> cases isConnection <;> rfl

-----------------------------------------------------------------------------------------
-- What wrappers tell
-----------------------------------------------------------------------------------------

/-- The use of a named type is what the wrappers around it tell: null is allowed unless the first
wrapper says otherwise, and the items of a list may be null unless the wrapper right within it does.
-/
structure IsTold (wrappers : List Wrapper) (resolved : Resolved) : Prop where
  isNullable : resolved.isNullable = true ↔ wrappers.head? ≠ some .nonNull
  isArray : resolved.isArray = true ↔ .list ∈ wrappers
  isItemNullable
    : resolved.isItemNullable = true
      ↔ ∀ before after, wrappers = before ++ .list :: after → after.head? ≠ some .nonNull

theorem isTold_fromOutside (name : String) (mapping : NameMapping) {wrappers : List Wrapper}
    (single : wrappers.count .list ≤ 1) : IsTold wrappers (fromOutside name mapping wrappers) where
  isNullable := bne_iff_ne
  isArray := decide_eq_true_iff
  isItemNullable := Wrapper.isItemNullable_iff single

/-- Resolution of wrappers around a name. It fails exactly for a name without a mapping, for a list
within a list and for a list of connections, and then the field keeps its marks. Otherwise the use
is of the name without a `Connection` at its end and is what the wrappers tell, and the marks are
those of the use.
-/
theorem inPlace_wrapped {classified : Classified} {field : Field} {wrappers : List Wrapper}
    {name stem : String} {kind : Option TypeKind} {isConnection : Bool}
    (chained : field.type.chain = wrappers.map Wrapper.node ++ [.named (.string name) kind])
    (strips : Naming.Strips name stem isConnection) (marks : Marks)
    : (inPlace classified field).run.run marks
        = (ofField classified field, marks.after (ofField classified field))
      ∧ (∀ cause,
          ofField classified field = .error cause
          → marks.after (ofField classified field) = marks)
      ∧ ((∃ missing, ofField classified field = .error (.unknownType missing))
        ↔ classified.get? stem = none)
      ∧ ∀ mapping,
          classified.get? stem = some mapping
          → (ofField classified field = .error (.listOfLists field.name)
              ↔ 2 ≤ wrappers.count .list)
            ∧ (ofField classified field = .error (.listOfConnections field.name)
              ↔ wrappers.count .list = 1 ∧ isConnection = true)
            ∧ (¬(2 ≤ wrappers.count .list ∨ wrappers.count .list = 1 ∧ isConnection = true)
              → ∃ resolved,
                  ofField classified field = .ok resolved
                  ∧ resolved.name = stem
                  ∧ resolved.targetName = mapping.targetName
                  ∧ resolved.IsTold wrappers
                  ∧ resolved.isConnection = isConnection
                  ∧ marks.after (ofField classified field)
                    = { isArray := resolved.isArray, isConnection := resolved.isConnection }) := by
  have stripped := Naming.strips_iff.mp strips
  have outcome := @ofField_wrapped classified name field wrappers kind (TypeRef.eq_wrapped chained)
  rw [stripped] at outcome
  dsimp only at outcome
  refine ⟨run_inPlace classified field marks, fun cause failed => by rw [failed]; rfl, ?_,
    fun mapping known => ?_⟩
  · rw [outcome]
    cases classified.get? stem with
    | none => exact iff_of_true ⟨stem, rfl⟩ rfl
    | some mapping =>
        refine iff_of_false ?_ nofun
        rintro ⟨missing, failed⟩
        dsimp only at failed
        split at failed
        · cases failed
        · split at failed <;> cases failed
  · rw [known] at outcome
    dsimp only at outcome
    rw [outcome]
    by_cases nested : 2 ≤ wrappers.count .list
    · have several : wrappers.count .list ≠ 1 := by omega
      simp [nested, several]
    rw [if_neg nested]
    by_cases connections : isConnection = true ∧ .list ∈ wrappers
    · have listed := List.count_pos_iff.mpr connections.2
      have single : wrappers.count .list = 1 := by omega
      simp [connections, single]
    · have none : ¬(wrappers.count .list = 1 ∧ isConnection = true) := fun ⟨single, isConnection⟩ =>
        connections ⟨isConnection, List.count_pos_iff.mp (by omega)⟩
      rw [if_neg connections]
      refine ⟨by simp [nested], by simp [none], fun _ => ⟨_, rfl, ?_⟩⟩
      exact ⟨congrArg Prod.fst stripped, rfl, isTold_fromOutside name mapping (by omega),
        congrArg Prod.snd stripped, rfl⟩

def tagMappings : Classified :=
  {
    mappings := [
      ("Tag",
        {
          schemaName := "Tag"
          targetName := "Types::Tag"
          category := .types
          baseType := some "Types::BaseObject"
        })
    ]
  }

def wrappedTags (wrappers : List Wrapper) (name : String) : Field :=
  { (default : Field) with
    name := .string "tags"
    type := .wrapped wrappers (.string name) none }

/-- A list in a list fails, with a wrapper said twice between them. One list around the same
wrappers has items that may not be null, and a list of pages of tags fails.
-/
theorem inPlace_wrapped_tags
    : ofField tagMappings (wrappedTags [.list, .nonNull, .nonNull, .list] "Tag")
        = .error (.listOfLists (.string "tags"))
      ∧ (∃ resolved,
          ofField tagMappings (wrappedTags [.list, .nonNull, .nonNull] "Tag") = .ok resolved
          ∧ resolved.IsTold [.list, .nonNull, .nonNull])
      ∧ ofField tagMappings (wrappedTags [.list] "TagConnection")
        = .error (.listOfConnections (.string "tags")) := by
  have tag : Naming.Strips "Tag" "Tag" false := Naming.strips_iff.mpr (by decide +kernel)
  have connection : Naming.Strips "TagConnection" "Tag" true := .connection rfl
  obtain ⟨-, -, -, nested⟩ := @inPlace_wrapped tagMappings
    (wrappedTags [.list, .nonNull, .nonNull, .list] "Tag") [.list, .nonNull, .nonNull, .list]
    _ _ none _ rfl tag Marks.none
  obtain ⟨-, -, -, single⟩ := @inPlace_wrapped tagMappings
    (wrappedTags [.list, .nonNull, .nonNull] "Tag") [.list, .nonNull, .nonNull]
    _ _ none _ rfl tag Marks.none
  obtain ⟨-, -, -, pages⟩ := @inPlace_wrapped tagMappings (wrappedTags [.list] "TagConnection")
    [.list] _ _ none _ rfl connection Marks.none
  obtain ⟨resolved, resolves, -, -, told, -⟩ := (single _ rfl).2.2 (by decide)
  exact ⟨(nested _ rfl).1.mpr (by decide), ⟨resolved, resolves, told⟩,
    (pages _ rfl).2.1.mpr (by decide)⟩

end Resolved

end RubySchema
