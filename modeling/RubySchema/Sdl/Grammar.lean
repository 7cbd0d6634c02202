import RubySchema.Sdl.Document
import RubySchema.Sdl.Token

/-!
Reading documents from tokens, by the grammar of the schema definition language. A document has at
least one definition, and brackets that are written enclose at least one thing, those of selections
and of list and object literals excepted. What can hold its like, nests to a limit.
-/

namespace RubySchema.Sdl

/-- A reading takes tokens from the front; it may fail. -/
abbrev Reading :=
  StateT (List Token) Option

namespace Reading

/-- The next token, which stays. -/
def peek? : Reading (Option Token) := do
  return (← get).head?

/-- The next token is a given one, which stays. -/
def sees (token : Token) : Reading Bool := do
  return (← peek?) == some token

def take : Reading Token := fun tokens =>
  match tokens with
  | [] => none
  | token :: rest => some (token, rest)

/-- Nothing can be read. -/
def refuse {α : Type} : Reading α := fun _ => none

/-- A given token, which must come next. -/
def expect (token : Token) : Reading Unit := do
  if (← take) != token then refuse

/-- A given token is taken if it comes next. -/
def skip (token : Token) : Reading Bool := do
  if ← sees token then
    let _ ← take
    return true
  else return false

/-- A punctuator. -/
def mark (text : String) : Token := .mark text

def word (text : String) : Token := .name text

def name : Reading String := do
  match ← take with
  | .name text => return text
  | _ => refuse

/-- Things up to a closing token, which is taken. Each takes a token at least. -/
def upTo {α : Type} (fuel : Nat) (closing : Token) (thing : Reading α) : Reading (List α) := do
  match fuel with
  | 0 => refuse
  | fuel + 1 =>
      if ← skip closing then return []
      else
        let first ← thing
        return first :: (← upTo fuel closing thing)

/-- Things between two tokens, of which there is at least one. -/
def many {α : Type} (fuel : Nat) (opening closing : String) (thing : Reading α)
    : Reading (List α) := do
  expect (mark opening)
  let first ← thing
  return first :: (← upTo fuel (mark closing) thing)

/-- Things between two tokens, of which there is at least one; none when the opening token is
missing.
-/
def optionalMany {α : Type} (fuel : Nat) (opening closing : String) (thing : Reading α)
    : Reading (List α) := do
  if ← sees (mark opening) then many fuel opening closing thing else return []

/-- Further things, each after a separator. -/
def furtherBy {α : Type} (fuel : Nat) (separator : String) (thing : Reading α)
    : Reading (List α) := do
  match fuel with
  | 0 => refuse
  | fuel + 1 =>
      if ← skip (mark separator) then
        let next ← thing
        return next :: (← furtherBy fuel separator thing)
      else return []

/-- Things with a separator between them, and possibly one in front. -/
def separated {α : Type} (fuel : Nat) (separator : String) (thing : Reading α)
    : Reading (List α) := do
  let _ ← skip (mark separator)
  let first ← thing
  return first :: (← furtherBy fuel separator thing)

-----------------------------------------------------------------------------------------
-- Literals, types, applications of directives
-----------------------------------------------------------------------------------------

/-- How many list and object literals, list types and selections may stand inside each other. -/
def maxNesting : Nat := 200

/-- A literal; a constant one holds no variable. In it, `room` lists and objects may stand inside
each other.
-/
def literal (fuel : Nat) (isConstant : Bool) (room : Nat) : Reading Literal := do
  match ← take with
  | .int text => return .int text
  | .float text => return .float text
  | .string text isBlock => return .string text isBlock
  | .name "true" => return .boolean true
  | .name "false" => return .boolean false
  | .name "null" => return .null
  | .name text => return .enum text
  | .mark "$" => if isConstant then refuse else return .variable (← name)
  | .mark "[" =>
      match room with
      | 0 => refuse
      | room + 1 => return .list (← upTo fuel (mark "]") (literal fuel isConstant room))
  | .mark "\x7b" =>
      match room with
      | 0 => refuse
      | room + 1 =>
          let field : Reading (String × Literal) := do
            let key ← name
            expect (mark ":")
            return (key, ← literal fuel isConstant room)
          return .object (← upTo fuel (mark "\x7d") field)
  | _ => refuse

/-- A use of a type, with a number of lists inside each other. -/
def use (room : Nat) : Reading Use := do
  let inner ←
    if ← skip (mark "[") then
      match room with
      | 0 => refuse
      | room + 1 => do
          let item ← use room
          expect (mark "]")
          pure (Use.list item)
    else do pure (Use.named (← name))
  if ← skip (mark "!") then return .nonNull inner else return inner

def argument (fuel : Nat) (isConstant : Bool) (room : Nat) : Reading (String × Literal) := do
  let key ← name
  expect (mark ":")
  return (key, ← literal fuel isConstant room)

/-- Applications of directives, up to a number of them. -/
def applicationsUpTo (fuel : Nat) (isConstant : Bool) (room : Nat)
    : Nat → Reading (List Application)
  | 0 => refuse
  | count + 1 => do
      if ← skip (mark "@") then
        let key ← name
        let arguments ← optionalMany fuel "(" ")" (argument fuel isConstant room)
        return ⟨key, arguments⟩ :: (← applicationsUpTo fuel isConstant room count)
      else return []

/-- Applications of directives inside selections. -/
def innerApplications (fuel room : Nat) : Reading (List Application) :=
  applicationsUpTo fuel false room fuel

/-- Applications of directives outside selections. -/
def applications (fuel : Nat) (isConstant : Bool) : Reading (List Application) :=
  applicationsUpTo fuel isConstant maxNesting fuel

/-- A description, if there is one. -/
def description? : Reading (Option String) := do
  match ← peek? with
  | some (.string text _) =>
      let _ ← take
      return some text
  | _ => return none

-----------------------------------------------------------------------------------------
-- Parts of types
-----------------------------------------------------------------------------------------

/-- An argument or an input field. -/
def inputValue (fuel : Nat) : Reading InputValue := do
  let description ← description?
  let key ← name
  expect (mark ":")
  let type ← use maxNesting
  let default ← if ← skip (mark "=") then some <$> literal fuel true maxNesting else pure none
  return { name := key, description, type, default, applications := ← applications fuel true }

def fieldDef (fuel : Nat) : Reading FieldDef := do
  let description ← description?
  let key ← name
  let arguments ← optionalMany fuel "(" ")" (inputValue fuel)
  expect (mark ":")
  let type ← use maxNesting
  return { name := key, description, arguments, type, applications := ← applications fuel true }

/-- A value of an enumeration; the names of other literals are taken. -/
def valueDef (fuel : Nat) : Reading ValueDef := do
  let description ← description?
  let key ← name
  if key == "true" || key == "false" || key == "null" then refuse
  else return { name := key, description, applications := ← applications fuel true }

/-- A root of the schema: the kind of operation and its type. -/
def rootDef : Reading (String × String) := do
  let kind ← name
  if kind == "query" || kind == "mutation" || kind == "subscription" then
    expect (mark ":")
    return (kind, ← name)
  else refuse

def interfaces (fuel : Nat) : Reading (List String) := do
  if ← skip (word "implements") then separated fuel "&" name else return []

def members (fuel : Nat) : Reading (List String) := do
  if ← skip (mark "=") then separated fuel "|" name else return []

-----------------------------------------------------------------------------------------
-- Definitions
-----------------------------------------------------------------------------------------

/-- A place where a directive may be applied. -/
def location : Reading String := do
  let place ← name
  if directiveLocations.contains place then return place else refuse

/-- The schema, after its keyword. An extension adds something. -/
def schemaBlock (fuel : Nat) (isExtension : Bool) (description : Option String)
    : Reading Definition := do
  let applications ← applications fuel true
  let roots ←
    if isExtension then optionalMany fuel "\x7b" "\x7d" rootDef
    else many fuel "\x7b" "\x7d" rootDef
  if isExtension && applications.isEmpty && roots.isEmpty then refuse
  else return .schema { isExtension, description, applications, roots }

/-- The kind of type that a keyword begins. -/
def kindOfWord? : String → Option TypeKind
  | "scalar" => some .scalar
  | "type" => some .object
  | "interface" => some .interface
  | "union" => some .union
  | "enum" => some .enum
  | "input" => some .inputObject
  | _ => none

/-- A type, after its keyword. An extension adds something. -/
def typeBlock (fuel : Nat) (kind : TypeKind) (isExtension : Bool) (description : Option String)
    : Reading Definition := do
  let key ← name
  let hasFields := kind == .object || kind == .interface
  let interfaces ← if hasFields then interfaces fuel else pure []
  let applications ← applications fuel true
  let fields ← if hasFields then optionalMany fuel "\x7b" "\x7d" (fieldDef fuel) else pure []
  let members ← if kind == .union then members fuel else pure []
  let values ←
    if kind == .enum then optionalMany fuel "\x7b" "\x7d" (valueDef fuel) else pure []
  let inputFields ←
    if kind == .inputObject then optionalMany fuel "\x7b" "\x7d" (inputValue fuel) else pure []
  if isExtension && applications.isEmpty && interfaces.isEmpty && fields.isEmpty
      && members.isEmpty && values.isEmpty && inputFields.isEmpty then refuse
  else
    return .type {
      kind
      isExtension
      name := key
      description
      applications
      interfaces
      fields
      members
      values
      inputFields
    }

/-- A directive, after its keyword. -/
def directiveDef (fuel : Nat) (description : Option String) : Reading Definition := do
  expect (mark "@")
  let key ← name
  let arguments ← optionalMany fuel "(" ")" (inputValue fuel)
  let applications ← applications fuel true
  let isRepeatable ← skip (word "repeatable")
  expect (word "on")
  let locations ← separated fuel "|" location
  return .directive {
    name := key
    description
    arguments
    applications
    isRepeatable
    locations
  }

/-- An extension of a directive, after its keywords. -/
def directiveExtension (fuel : Nat) : Reading Definition := do
  expect (mark "@")
  let key ← name
  let applications ← applications fuel true
  if applications.isEmpty then refuse
  else return .directiveExtension { name := key, applications }

-----------------------------------------------------------------------------------------
-- Operations
-----------------------------------------------------------------------------------------

/-- What several parts of an operation use. -/
def joined (parts : List Operation) : Operation :=
  {
    typeNames := parts.flatMap Operation.typeNames
    uses := parts.flatMap Operation.uses
    argumentLists := parts.flatMap Operation.argumentLists
  }

/-- Applications of directives at a place of an operation. -/
def usesAt (place : String) (applications : List Application) : Operation :=
  { typeNames := [], uses := [(place, applications)], argumentLists := [] }

/-- A selection of fields, between braces, which may be empty. In it, `room` lists, objects and
selections may stand inside each other.
-/
def selections (fuel : Nat) : Nat → Reading Operation
  | 0 => refuse
  | room + 1 => do
      let nested : Reading Operation := do
        if ← sees (mark "\x7b") then selections fuel room else return joined []
      let fragment : Reading Operation := do
        match ← peek? with
        | some (.name "on") =>
            let _ ← take
            let type ← name
            let applied ← innerApplications fuel room
            let inner ← selections fuel room
            return joined [⟨[type], [], []⟩, usesAt "INLINE_FRAGMENT" applied, inner]
        | some (.name _) =>
            let _ ← take
            return usesAt "FRAGMENT_SPREAD" (← innerApplications fuel room)
        | _ =>
            let applied ← innerApplications fuel room
            return joined [usesAt "INLINE_FRAGMENT" applied, ← selections fuel room]
      let field : Reading Operation := do
        let _ ← name
        if ← skip (mark ":") then
          let _ ← name
        let arguments ← optionalMany fuel "(" ")" (argument fuel false room)
        let applied ← innerApplications fuel room
        return joined [usesAt "FIELD" applied, ⟨[], [], [arguments]⟩, ← nested]
      let selection : Reading Operation := do
        if ← skip (mark "...") then fragment else field
      expect (mark "\x7b")
      return joined (← upTo fuel (mark "\x7d") selection)

def variableDef (fuel : Nat) : Reading Operation := do
  let _ ← description?
  expect (mark "$")
  let _ ← name
  expect (mark ":")
  let type ← use maxNesting
  let default ←
    if ← skip (mark "=") then (fun value => [value]) <$> literal fuel true maxNesting else pure []
  let applied ← applications fuel true
  return joined [
    ⟨[type.name], [], [default.map fun value => ("", value)]⟩,
    usesAt "VARIABLE_DEFINITION" applied
  ]

/-- An operation, after its keyword. -/
def operation (fuel : Nat) (place : String) : Reading Definition := do
  match ← peek? with
  | some (.name _) =>
      let _ ← take
  | _ => pure ()
  let parameters ← optionalMany fuel "(" ")" (variableDef fuel)
  let applied ← applications fuel false
  let inner ← selections fuel maxNesting
  return .operation (joined (parameters ++ [usesAt place applied, inner]))

/-- A fragment, after its keyword. -/
def fragment (fuel : Nat) : Reading Definition := do
  if (← name) == "on" then refuse
  else
    expect (word "on")
    let type ← name
    let applied ← applications fuel false
    let inner ← selections fuel maxNesting
    return .operation (joined [⟨[type], [], []⟩, usesAt "FRAGMENT_DEFINITION" applied, inner])

/-- A definition, an extension or an operation. An extension has no description. -/
def definition (fuel : Nat) : Reading Definition := do
  if ← sees (mark "\x7b") then return .operation (← selections fuel maxNesting)
  else
    let description ← description?
    let keyword ← name
    match kindOfWord? keyword, keyword with
    | some kind, _ => typeBlock fuel kind false description
    | none, "schema" => schemaBlock fuel false description
    | none, "directive" => directiveDef fuel description
    | none, "query" => operation fuel "QUERY"
    | none, "mutation" => operation fuel "MUTATION"
    | none, "subscription" => operation fuel "SUBSCRIPTION"
    | none, "fragment" => fragment fuel
    | none, "extend" =>
        if description.isSome then refuse
        else
          let extended ← name
          match kindOfWord? extended, extended with
          | some kind, _ => typeBlock fuel kind true none
          | none, "schema" => schemaBlock fuel true none
          | none, "directive" => directiveExtension fuel
          | none, _ => refuse
    | none, _ => refuse

/-- Definitions up to the end of the tokens. -/
def definitions (fuel : Nat) : Nat → Reading Document
  | 0 => refuse
  | count + 1 => do
      if (← peek?).isNone then return []
      else
        let first ← definition fuel
        return first :: (← definitions fuel count)

end Reading

/-- The document that a text holds; none when the text does not follow the grammar or holds no
definition.
-/
def Document.ofText? (text : String) : Option Document := do
  let tokens ← Token.ofText? text
  let fuel := tokens.length + 1
  let (document, _) ← Reading.definitions fuel fuel tokens
  if document.isEmpty then none else some document

end RubySchema.Sdl
