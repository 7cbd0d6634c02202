import RubySchema.Proofs.Outcome
import RubySchema.Resolution
import RubySchema.Schema.Introspection

/-!
Whatever a document holds, if it is read then every chain in the schema is wrappers and one name, so
that no walk marks a result before there is one. A reference is a chain of nodes, outermost first:
reading collects them in one loop, and resolution walks them back in another, which relies on a name
to stand at the end.
-/

namespace RubySchema

open Introspection

-----------------------------------------------------------------------------------------
-- Chains
-----------------------------------------------------------------------------------------

inductive ChainNode where
  | nonNull
  | list
  | named (name : Json) (kind : Option TypeKind)
  deriving DecidableEq, Inhabited

def ChainNode.IsWrapper : ChainNode → Prop
  | .named _ _ => False
  | _ => True

def TypeRef.chain : TypeRef → List ChainNode
  | .named name kind => [.named name kind]
  | .list item => .list :: item.chain
  | .nonNull inner => .nonNull :: inner.chain

/-- A chain ends with the name of the type, by induction on the wrappers. -/
theorem TypeRef.getLast?_chain (type : TypeRef)
    : ∃ kind, type.chain.getLast? = some (.named type.name kind) := by
  induction type with
  | named name kind => exact ⟨kind, rfl⟩
  | list item ih =>
      obtain ⟨kind, last⟩ := ih
      exact ⟨kind, by rw [chain, List.getLast?_cons, last]; rfl⟩
  | nonNull inner ih =>
      obtain ⟨kind, last⟩ := ih
      exact ⟨kind, by rw [chain, List.getLast?_cons, last]; rfl⟩

/-- A chain of wrappers and one named node at the end, whose name is not null. -/
def IsClosedChain (chain : List ChainNode) : Prop :=
  ∃ wrappers name kind,
    chain = wrappers ++ [.named name kind]
    ∧ (∀ node ∈ wrappers, node.IsWrapper)
    ∧ name ≠ .null

theorem IsClosedChain.singleton {name : Json} (kind : Option TypeKind) (notNull : name ≠ .null)
    : IsClosedChain [.named name kind] :=
  ⟨[], name, kind, rfl, fun _ member => (nomatch member), notNull⟩

theorem IsClosedChain.cons {node : ChainNode} {chain : List ChainNode} (wraps : node.IsWrapper)
    (closed : IsClosedChain chain) : IsClosedChain (node :: chain) := by
  obtain ⟨wrappers, name, kind, rfl, each, notNull⟩ := closed
  refine ⟨node :: wrappers, name, kind, rfl, ?_, notNull⟩
  intro other member
  rcases List.mem_cons.mp member with rfl | member
  · exact wraps
  · exact each other member

-----------------------------------------------------------------------------------------
-- Reading a chain
-----------------------------------------------------------------------------------------

namespace Introspection

/-- The nodes that nested references hold, outermost first. The first that is no unnamed wrapper is
the last one, and a void reference ends the nodes before it.
-/
def nodes (owner : Json) : Json → Except Error (List ChainNode)
  | .object entries =>
      if entries.isEmpty then .ok []
      else
        let kind := (Table.get? entries "kind").getD .null
        let name := (Table.get? entries "name").getD .null
        if kind == .string "NON_NULL" && name.isVoid then
          match _found : Table.get? entries "ofType" with
          | some inner => do return .nonNull :: (← nodes owner inner)
          | none => .ok [.nonNull]
        else if kind == .string "LIST" && name.isVoid then
          match _found : Table.get? entries "ofType" with
          | some inner => do return .list :: (← nodes owner inner)
          | none => .ok [.list]
        else do return [.named name (← referenceKind owner kind)]
  | node => if node.isVoid then .ok [] else .error .illTyped
termination_by node => sizeOf node
decreasing_by all_goals exact sizeOf_get?_lt (by assumption)

def closed (owner : Json) (chain : List ChainNode) : Except Error (List ChainNode) :=
  match chain.getLast? with
  | some (.named name _) => if name == .null then .error (.openReference owner) else .ok chain
  | _ => .error (.openReference owner)

/-- Nodes that are accepted are left as they are. -/
theorem eq_of_closed {owner : Json} {chain result : List ChainNode}
    (named : closed owner chain = .ok result) : chain = result := by
  unfold closed at named
  split at named
  next =>
    split at named
    · cases named
    · exact Except.ok.inj named
  next => cases named

/-- A wrapper in front does not change whether the last node has a name. -/
theorem closed_cons (owner : Json) {node : ChainNode} (wraps : node.IsWrapper)
    (chain : List ChainNode)
    : closed owner (node :: chain) = (closed owner chain).map (node :: ·) := by
  cases chain with
  | nil =>
      cases node with
      | named name kind => exact wraps.elim
      | nonNull => rfl
      | list => rfl
  | cons next rest =>
      rw [closed, closed, List.getLast?_cons_cons]
      split
      next name kind _ => cases name == .null <;> rfl
      next => rfl

/-- Nodes behind a wrapper are looked at together with it. -/
theorem closed_wrapped (owner : Json) (node : ChainNode) (wraps : node.IsWrapper)
    (rest : Except Error (List ChainNode))
    : (do return node :: (← rest)) >>= closed owner
      = (rest >>= closed owner).map (node :: ·) := by
  cases rest with
  | ok chain => exact closed_cons owner wraps chain
  | error cause => rfl

/-- The nodes that have been collected, if the last has a name, are those of the use of a type that
is read. By induction on the loop that collects them.
-/
theorem nodes_closed (owner reference : Json)
    : (nodes owner reference >>= closed owner) = (typeRef owner reference).map TypeRef.chain := by
  fun_induction nodes owner reference with
  | case1 entries empty =>
      rw [typeRef, if_pos empty]
      rfl
  | case2 entries filled kind name nonNull inner found ih =>
      rw [closed_wrapped owner .nonNull trivial, ih, typeRef, if_neg filled,
        if_pos nonNull]
      split
      next _ again =>
        cases found.symm.trans again
        cases typeRef owner inner <;> rfl
      next missing => cases found.symm.trans missing
  | case3 entries filled kind name nonNull missing =>
      rw [typeRef, if_neg filled, if_pos nonNull]
      split
      next _ found => cases missing.symm.trans found
      next => rfl
  | case4 entries filled kind name notNonNull list inner found ih =>
      rw [closed_wrapped owner .list trivial, ih, typeRef, if_neg filled, if_neg notNonNull,
        if_pos list]
      split
      next _ again =>
        cases found.symm.trans again
        cases typeRef owner inner <;> rfl
      next missing => cases found.symm.trans missing
  | case5 entries filled kind name notNonNull list missing =>
      rw [typeRef, if_neg filled, if_neg notNonNull, if_pos list]
      split
      next _ found => cases missing.symm.trans found
      next => rfl
  | case6 entries filled kind name notNonNull notList =>
      rw [typeRef, if_neg filled, if_neg notNonNull, if_neg notList]
      cases referenceKind owner kind with
      | error cause => rfl
      | ok found =>
          show (if name == .null then _ else _) = _
          cases name == .null <;> rfl
  | case7 node notObject void =>
      rw [typeRef, if_pos void]
      · rfl
      · exact notObject
  | case8 node notObject filled =>
      rw [typeRef, if_neg filled]
      · rfl
      · exact notObject

theorem notNull_of_closed {owner : Json} {type : TypeRef} {chain : List ChainNode}
    (named : closed owner type.chain = .ok chain) : type.name ≠ .null := by
  obtain ⟨kind, last⟩ := type.getLast?_chain
  intro null
  rw [closed, last, null] at named
  cases named

end Introspection

/-- The chain of a use of a named type is closed, by induction on the wrappers. -/
theorem TypeRef.isClosedChain {type : TypeRef} (notNull : type.name ≠ .null)
    : IsClosedChain type.chain := by
  induction type with
  | named name kind => exact .singleton kind notNull
  | list item ih => exact .cons trivial (ih notNull)
  | nonNull inner ih => exact .cons trivial (ih notNull)

-----------------------------------------------------------------------------------------
-- Walking a chain
-----------------------------------------------------------------------------------------

namespace Resolved

/-- A result as it stands behind one more node of a chain. A wrapper marks the result that is there,
and fails when there is none yet.
-/
def behind (classified : Classified) (owner : Json) (result : Option Resolved)
    : ChainNode → Except Error (Option Resolved)
  | .named name _ => do return some (← ofName classified name)
  | .nonNull =>
      match result with
      | none => .error .illTyped
      | some resolved => .ok (some { resolved with isNullable := false })
  | .list =>
      match result with
      | none => .error .illTyped
      | some resolved =>
          if resolved.isArray then .error (.listOfLists owner)
          else
            .ok (some {
              resolved with
              isArray := true
              isItemNullable := resolved.isNullable
              isNullable := true
            })

/-- The result of a walk along a chain from its end, with none at first. -/
def ofChain (classified : Classified) (owner : Json) (chain : List ChainNode)
    : Except Error Resolved := do
  match ← chain.reverse.foldlM (behind classified owner) none with
  | none => throw .illTyped
  | some resolved =>
      if resolved.isConnection && resolved.isArray then throw (.listOfConnections owner)
      else return resolved

/-- A walk over wrappers alone marks a result that is not there. -/
theorem ofChain_of_wrappers (classified : Classified) (owner : Json) {chain : List ChainNode}
    (wrap : ∀ node ∈ chain, node.IsWrapper)
    : ofChain classified owner chain = .error .illTyped := by
  rw [ofChain]
  cases back : chain.reverse with
  | nil => rfl
  | cons last rest =>
      have wraps : last.IsWrapper := wrap last (by
        rw [← List.mem_reverse, back]
        exact List.mem_cons_self)
      cases last with
      | named name kind => exact wraps.elim
      | nonNull => rfl
      | list => rfl

/-- Along the chain of a use of a type, a walk comes to what the use is resolved to: there is a
result at every wrapper. By induction on the wrappers.
-/
theorem foldlM_chain (classified : Classified) (owner : Json) (type : TypeRef)
    : type.chain.reverse.foldlM (behind classified owner) none
      = (ofTypeRef classified owner type).map some := by
  induction type with
  | named name kind =>
      show ((do pure (some (← ofName classified name))) >>= pure) = _
      rw [ofTypeRef]
      cases ofName classified name <;> rfl
  | list item ih =>
      rw [TypeRef.chain, List.reverse_cons, List.foldlM_append, ih, ofTypeRef]
      cases ofTypeRef classified owner item with
      | error cause => rfl
      | ok resolved =>
          show (behind classified owner (some resolved) .list >>= pure) = _
          show ((if resolved.isArray then _ else _) >>= pure)
            = Except.map some (if resolved.isArray then _ else _)
          cases resolved.isArray <;> rfl
  | nonNull inner ih =>
      rw [TypeRef.chain, List.reverse_cons, List.foldlM_append, ih, ofTypeRef]
      cases ofTypeRef classified owner inner <;> rfl

theorem ofChain_chain (classified : Classified) (field : Field)
    : ofChain classified field.name field.type.chain = ofField classified field := by
  rw [ofChain, foldlM_chain, ofField]
  cases ofTypeRef classified field.name field.type <;> rfl

end Resolved

-----------------------------------------------------------------------------------------
-- Fields at any depth
-----------------------------------------------------------------------------------------

/-- A field is one of some fields, or an argument of one of them, or an argument of an argument. -/
inductive Field.IsWithin (field : Field) : List Field → Prop where
  | here {fields : List Field} (member : field ∈ fields) : field.IsWithin fields
  | argument {owner : Field} {fields : List Field} (member : owner ∈ fields)
      (within : field.IsWithin owner.arguments) : field.IsWithin fields

/-- A field is a field, an input field or an argument of a type, at any depth. -/
def TypeDef.Holds (type : TypeDef) (field : Field) : Prop :=
  field.IsWithin (type.fields.getD []) ∨ field.IsWithin (type.inputFields.getD [])

/-- The name of a field is that of an entry, and the chain of its type is what the loop collects
from the reference of that entry.
-/
def Field.IsRead (field : Field) : Prop :=
  ∃ entries : Table Json,
    Table.get? entries "name" = some field.name
    ∧ (nodes field.name ((Table.get? entries "type").getD .null) >>= closed field.name)
      = .ok field.type.chain

theorem Field.isRead_of_typeRef {field : Field} {entries : Table Json}
    (named : Table.get? entries "name" = some field.name)
    (typed : typeRef field.name ((Table.get? entries "type").getD .null) = .ok field.type)
    : field.IsRead := by
  refine ⟨entries, named, ?_⟩
  rw [nodes_closed, typed]
  rfl

/-- A chain that has been collected is closed: its last node had to have a name. -/
theorem Field.IsRead.isClosedChain {field : Field} (read : field.IsRead)
    : IsClosedChain field.type.chain := by
  obtain ⟨entries, -, collected⟩ := read
  obtain ⟨chain, -, ended⟩ := bind_eq_ok.mp collected
  obtain rfl := eq_of_closed ended
  exact field.type.isClosedChain (notNull_of_closed ended)

theorem Field.not_isWithin_nil {field : Field} : ¬field.IsWithin [] := by
  rintro (⟨member⟩ | ⟨member, -⟩) <;> cases member

/-- Within a list of fields is within its first, or within the others. -/
theorem Field.isWithin_cons {field first : Field} {rest : List Field}
    (within : field.IsWithin (first :: rest))
    : field = first ∨ field.IsWithin first.arguments ∨ field.IsWithin rest := by
  cases within with
  | here member =>
      rcases List.mem_cons.mp member with rfl | member
      · exact .inl rfl
      · exact .inr (.inr (.here member))
  | argument member within =>
      rcases List.mem_cons.mp member with rfl | member
      · exact .inr (.inl within)
      · exact .inr (.inr (.argument member within))

namespace Introspection

/-- A field that is read has the type of its reference, and arguments that are read if it has any.
-/
theorem field_eq_ok {entries : Table Json} {item : Field}
    (read : field (.object entries) = .ok item)
    : item.IsRead
      ∧ (item.arguments = []
        ∨ ∃ items, Table.get? entries "args" = some (.array items)
            ∧ fieldList items = .ok item.arguments) := by
  rw [field] at read
  split at read
  next name named =>
    obtain ⟨type, typed, read⟩ := bind_eq_ok.mp read
    split at read
    next items found =>
      obtain ⟨arguments, listed, read⟩ := bind_eq_ok.mp read
      cases read
      exact ⟨Field.isRead_of_typeRef named typed, .inr ⟨items, found, listed⟩⟩
    next other found =>
      split at read
      · cases read
        exact ⟨Field.isRead_of_typeRef named typed, .inl rfl⟩
      · cases read
    next =>
      cases read
      exact ⟨Field.isRead_of_typeRef named typed, .inl rfl⟩
  next => cases read

/-- Fields are read with all that is within them, by induction on the entries and their arguments.
-/
theorem isRead_of_fieldList {items : List Json} {fields : List Field}
    (read : fieldList items = .ok fields) {item : Field} (within : item.IsWithin fields)
    : item.IsRead := by
  refine (field.mutual_induct
    (fun entry => ∀ first, field entry = .ok first →
      first.IsRead ∧ ∀ item : Field, item.IsWithin first.arguments → item.IsRead)
    (fun items => ∀ fields, fieldList items = .ok fields →
      ∀ item : Field, item.IsWithin fields → item.IsRead)
    ?object ?nameless ?other ?nil ?cons).2 items fields read item within
  case object =>
    intro entries name named arguments first read
    obtain ⟨here, none | ⟨items, found, listed⟩⟩ := field_eq_ok read
    · exact ⟨here, fun item within => (Field.not_isWithin_nil (none ▸ within)).elim⟩
    · exact ⟨here, arguments items found first.arguments listed⟩
  case nameless =>
    intro entries nameless first read
    rw [field] at read
    split at read
    next name named => exact (nameless name named).elim
    next => cases read
  case other =>
    intro entry notObject first read
    rw [field] at read
    · cases read
    · exact notObject
  case nil =>
    intro fields read item within
    rw [fieldList] at read
    cases read
    exact (Field.not_isWithin_nil within).elim
  case cons =>
    intro entry rest ofEntry ofRest fields read item within
    rw [fieldList] at read
    obtain ⟨first, here, read⟩ := bind_eq_ok.mp read
    obtain ⟨more, later, read⟩ := bind_eq_ok.mp read
    cases read
    rcases Field.isWithin_cons within with rfl | within | within
    · exact (ofEntry item here).1
    · exact (ofEntry first here).2 item within
    · exact ofRest more later item within

/-- Fields under a key are none, or those of the entries that the value holds. -/
theorem fields_eq_ok {value : Json} {items : Option (List Field)}
    (read : fields value = .ok items)
    : items = none
      ∨ ∃ entries list,
          value.elements = .ok entries ∧ fieldList entries = .ok list ∧ items = some list := by
  rw [fields] at read
  split at read
  · exact .inl (Except.ok.inj read).symm
  · obtain ⟨entries, held, read⟩ := bind_eq_ok.mp read
    obtain ⟨list, listed, read⟩ := bind_eq_ok.mp read
    exact .inr ⟨entries, list, held, listed, (Except.ok.inj read).symm⟩

theorem isRead_of_fields {value : Json} {items : Option (List Field)}
    (read : fields value = .ok items) {item : Field} (within : item.IsWithin (items.getD []))
    : item.IsRead := by
  rcases fields_eq_ok read with rfl | ⟨entries, list, -, listed, rfl⟩
  · exact (Field.not_isWithin_nil within).elim
  · exact isRead_of_fieldList listed within

/-- A void value holds nothing. -/
theorem eq_nil_of_isVoid {value : Json} {entries : List Json} (void : value.isVoid = true)
    (held : value.elements = .ok entries) : entries = [] := by
  cases value with
  | null => cases held
  | bool value => cases held
  | number value => cases held
  | string text =>
      obtain rfl := String.isEmpty_iff.mp void
      exact (Except.ok.inj held).symm
  | array items =>
      obtain rfl := List.isEmpty_iff.mp void
      exact (Except.ok.inj held).symm
  | object items =>
      obtain rfl := List.isEmpty_iff.mp void
      exact (Except.ok.inj held).symm

theorem fields_of_isVoid {value : Json} {items : Option (List Field)} (void : value.isVoid = true)
    (read : fields value = .ok items) : items.getD [] = [] := by
  rcases fields_eq_ok read with rfl | ⟨entries, list, held, listed, rfl⟩
  · rfl
  · obtain rfl := eq_nil_of_isVoid void held
    rw [fieldList] at listed
    exact (Except.ok.inj listed).symm

/-- The kind of a type is none of the two that wrap. -/
theorem not_isWrapper_of_topKind {type kind : Json} {found : TypeKind}
    (read : topKind type kind = .ok found) : found.isWrapper = false := by
  unfold topKind at read
  split at read
  next =>
    split at read
    next =>
      split at read
      · cases read
      next notWrapper =>
        cases read
        exact Bool.eq_false_iff.mpr notWrapper
    next => cases read
  next => cases read

/-- A type that is read has a name, a kind of its own, fields of one kind at most, and fields that
are read at any depth.
-/
theorem typeDef_eq_ok {entry : Json} {type : TypeDef} (read : typeDef entry = .ok type)
    : type.name.isVoid = false
      ∧ type.kind.isWrapper = false
      ∧ (type.fields.getD [] = [] ∨ type.inputFields.getD [] = [])
      ∧ ∀ field, type.Holds field → field.IsRead := by
  unfold typeDef at read
  obtain ⟨name, -, read⟩ := bind_eq_ok.mp read
  split at read
  · cases read
  next named =>
  obtain ⟨word, -, read⟩ := bind_eq_ok.mp read
  obtain ⟨kind, kinded, read⟩ := bind_eq_ok.mp read
  obtain ⟨fieldEntries, -, read⟩ := bind_eq_ok.mp read
  obtain ⟨inputEntries, -, read⟩ := bind_eq_ok.mp read
  split at read
  · cases read
  next ofOneKind =>
  obtain ⟨fields, ofFields, read⟩ := bind_eq_ok.mp read
  obtain ⟨inputFields, ofInputs, read⟩ := bind_eq_ok.mp read
  -- what is read behind the fields is left aside: mentions, values, description and mark
  iterate 11 obtain ⟨_, -, read⟩ := bind_eq_ok.mp read
  cases read
  refine ⟨Bool.eq_false_iff.mpr named, not_isWrapper_of_topKind kinded, ?_, ?_⟩
  · cases void : fieldEntries.isVoid with
    | true => exact .inl (fields_of_isVoid void ofFields)
    | false =>
        rw [void] at ofOneKind
        exact .inr (fields_of_isVoid (by simpa using ofOneKind) ofInputs)
  · rintro field (within | within)
    · exact isRead_of_fields ofFields within
    · exact isRead_of_fields ofInputs within

end Introspection

-----------------------------------------------------------------------------------------
-- Walks along the chains of a schema
-----------------------------------------------------------------------------------------

/-- From a name that is a text, a use of a type is resolved unless the name has no place or a list
is in a list. By induction on the wrappers.
-/
theorem Resolved.ofTypeRef_cases (classified : Classified) (owner : Json) {type : TypeRef}
    {base : String} (named : type.name = .string base)
    : Succeeds (ofTypeRef classified owner type)
      ∨ ofTypeRef classified owner type = .error (.unknownType (Naming.stripConnection base).1)
      ∨ ofTypeRef classified owner type = .error (.listOfLists owner) := by
  induction type with
  | named name kind =>
      obtain rfl : name = .string base := named
      show Succeeds (classified.lookup (Naming.stripConnection base).1 >>= _)
        ∨ (classified.lookup (Naming.stripConnection base).1 >>= _) = _
        ∨ (classified.lookup (Naming.stripConnection base).1 >>= _) = _
      rw [Classified.lookup]
      cases classified.get? (Naming.stripConnection base).1 with
      | none => exact .inr (.inl rfl)
      | some mapping => exact .inl ⟨_, rfl⟩
  | nonNull inner ih =>
      rw [ofTypeRef]
      rcases ih named with ⟨resolved, found⟩ | unknown | nested
      · exact .inl ⟨_, by rw [found]; rfl⟩
      · exact .inr (.inl (by rw [unknown]; rfl))
      · exact .inr (.inr (by rw [nested]; rfl))
  | list item ih =>
      rw [ofTypeRef]
      rcases ih named with ⟨resolved, found⟩ | unknown | nested
      · rw [found, ok_bind]
        split
        · exact .inr (.inr rfl)
        · exact .inl ⟨_, rfl⟩
      · exact .inr (.inl (by rw [unknown]; rfl))
      · exact .inr (.inr (by rw [nested]; rfl))

theorem Resolved.ofField_cases (classified : Classified) {field : Field} {base : String}
    (named : field.type.name = .string base)
    : Succeeds (ofField classified field)
      ∨ ofField classified field = .error (.unknownType (Naming.stripConnection base).1)
      ∨ ofField classified field = .error (.listOfLists field.name)
      ∨ ofField classified field = .error (.listOfConnections field.name) := by
  rw [ofField]
  rcases ofTypeRef_cases classified field.name named with ⟨resolved, found⟩ | unknown | nested
  · rw [found, ok_bind]
    split
    · exact .inr (.inr (.inr rfl))
    · exact .inl ⟨resolved, rfl⟩
  · exact .inr (.inl (by rw [unknown]; rfl))
  · exact .inr (.inr (.inl (by rw [nested]; rfl)))

namespace Introspection

/-- Whatever a document holds, a schema that is read from it is well formed. Every type has a name,
a kind that is no wrapper, and fields or input fields but not both. Every field, input field and
argument at any depth has the chain that the loop collects, which is wrappers and then a name. From
a name that is a text, the walk along this chain comes to a result, or fails because the name has no
place or because of a list of lists or of connections; no wrapper comes before a result is there.
-/
theorem chains_of_schema {document : Json} {schema : Schema}
    (read : Introspection.schema document = .ok schema)
    : ∀ type ∈ schema.types,
        type.name.isVoid = false
        ∧ type.kind ∈ [.scalar, .object, .interface, .union, .enum, .inputObject]
        ∧ (type.fields.getD [] = [] ∨ type.inputFields.getD [] = [])
        ∧ ∀ field, type.Holds field →
            field.IsRead
            ∧ IsClosedChain field.type.chain
            ∧ ∀ classified base, field.type.name = .string base →
                let walk := Resolved.ofChain classified field.name field.type.chain
                walk = Resolved.ofField classified field
                ∧ (Succeeds walk
                  ∨ walk = .error (.unknownType (Naming.stripConnection base).1)
                  ∨ walk = .error (.listOfLists field.name)
                  ∨ walk = .error (.listOfConnections field.name)) := by
  intro type member
  obtain ⟨outline, -, completed⟩ := bind_eq_ok.mp read
  obtain ⟨types, typed, completed⟩ := bind_eq_ok.mp completed
  cases completed
  obtain ⟨entry, -, typed⟩ := exists_of_mem_mapM typed member
  obtain ⟨named, notWrapper, ofOneKind, each⟩ := typeDef_eq_ok typed
  refine ⟨named, ?_, ofOneKind, fun field held => ?_⟩
  · cases kind : type.kind <;> simp [kind, TypeKind.isWrapper] at notWrapper ⊢
  · refine ⟨each field held, (each field held).isClosedChain, fun classified base known => ?_⟩
    refine ⟨Resolved.ofChain_chain classified field, ?_⟩
    rw [Resolved.ofChain_chain]
    exact Resolved.ofField_cases classified known

/-- A document whose references are untidy: a wrapper with an empty name, one without, a named type
that calls itself a list, and an argument of an argument.
-/
def pagedDocument : Json :=
  let size : Json :=
    .object [
      ("name", .string "size"),
      ("type",
        .object [("kind", .string "NON_NULL"), ("ofType", .object [("name", .string "Int")])])
    ]
  let page : Json :=
    .object [
      ("name", .string "page"),
      ("args", .array [size]),
      ("type", .object [("kind", .string "LIST"), ("name", .string "Page")])
    ]
  let reference : Json :=
    .object [
      ("kind", .string "NON_NULL"),
      ("name", .string ""),
      ("ofType",
        .object [("kind", .string "LIST"), ("ofType", .object [("name", .string "Query")])])
    ]
  let query : Json :=
    .object [
      ("kind", .string "OBJECT"),
      ("name", .string "Query"),
      ("fields", .array [
        .object [("name", .string "all"), ("args", .array [page]), ("type", reference)]]),
      ("inputFields", .object [])
    ]
  .object [("__schema", .object [("types", .array [query])])]

def sizeArgument : Field :=
  {
    name := .string "size"
    type := .nonNull (.named (.string "Int") none)
    arguments := []
    description := .null
    isDeprecated := false
    defaultValue := .null
  }

def pagedSchema : Schema :=
  let page : Field :=
    {
      name := .string "page"
      type := .named (.string "Page") (some .list)
      arguments := [sizeArgument]
      description := .null
      isDeprecated := false
      defaultValue := .null
    }
  let all : Field :=
    {
      name := .string "all"
      type := .nonNull (.list (.named (.string "Query") none))
      arguments := [page]
      description := .null
      isDeprecated := false
      defaultValue := .null
    }
  {
    queryType := .null
    mutationType := .null
    subscriptionType := .null
    directives := []
    types :=
      [
        {
          name := .string "Query"
          kind := .object
          fields := some [all]
          inputFields := some []
          interfaces := []
          possibleTypes := []
          enumValues := []
          description := .null
          isDeprecated := false
        }
      ]
    description := .null
  }

/-- The argument of an argument has a closed chain, and its walk is resolution. -/
theorem chains_of_pagedDocument
    : Introspection.schema pagedDocument = .ok pagedSchema
      ∧ (∀ type ∈ pagedSchema.types, type.Holds sizeArgument)
      ∧ IsClosedChain sizeArgument.type.chain
      ∧ ∀ classified : Classified,
          Resolved.ofChain classified sizeArgument.name sizeArgument.type.chain
            = Resolved.ofField classified sizeArgument := by
  have read : Introspection.schema pagedDocument = .ok pagedSchema := by
    rw [Introspection.schema]
    simp [pagedDocument, pagedSchema, sizeArgument, outline, unwrap, withoutSchemaKey, withoutData,
      rootName, schemaKeys, Outline.complete, typeDef, topKind, fields, fieldList, field, typeRef,
      referenceKind, flag, TypeKind.ofWord?, TypeKind.all, TypeKind.word, TypeKind.isWrapper,
      Json.elementsIfAny, Json.elements, Json.part, Json.entries, Json.isVoid, Json.isKey,
      Table.get?, Table.names, bind, Except.bind, pure, Except.pure]
  have held : ∀ type ∈ pagedSchema.types, type.Holds sizeArgument := by
    intro type member
    obtain rfl := List.mem_singleton.mp member
    refine .inl (.argument List.mem_cons_self ?_)
    exact .argument List.mem_cons_self (.here List.mem_cons_self)
  have query := chains_of_schema read _ List.mem_cons_self
  obtain ⟨-, closed, each⟩ := query.2.2.2 sizeArgument (held _ List.mem_cons_self)
  exact ⟨read, held, closed, fun classified => (each classified "Int" rfl).1⟩

end Introspection

end RubySchema
