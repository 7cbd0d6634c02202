import RubySchema.Error
import RubySchema.Sdl.Rules

/-!
What makes the declared types a schema: roots that are objects, members in the right positions,
interfaces that are kept, default values that fit, and input objects that can be built.
-/

namespace RubySchema.Sdl

/-- What can be reached from the pending nodes through the remaining ones. Every step takes a node
out of the remaining ones.
-/
def reached {α : Type} [DecidableEq α] (next : α → List α) (remaining pending : List α)
    : List α :=
  match _found : pending.find? remaining.contains with
  | none => []
  | some node => node :: reached next (remaining.erase node) (next node ++ pending)
termination_by remaining.length
decreasing_by
  have member : node ∈ remaining := List.contains_iff_mem.mp (List.find?_some _found)
  have shorter := List.length_erase_of_mem member
  have positive := List.length_pos_of_mem member
  omega

/-- Some node can be reached from itself. -/
def hasCycle {α : Type} [DecidableEq α] (next : α → List α) (nodes : List α) : Bool :=
  nodes.any fun node => (reached next nodes (next node)).contains node

namespace Use

/-- The item of a list, with or without a demand for a value. -/
def item? : Use → Option Use
  | .list item => some item
  | .nonNull inner => inner.item?
  | .named _ => none

end Use

namespace Document

-----------------------------------------------------------------------------------------
-- Positions
-----------------------------------------------------------------------------------------

/-- The type of a name is of one of some kinds. -/
def isOneOf (document : Document) (kinds : List TypeKind) (name : String) : Bool :=
  match document.type? name with
  | some type => kinds.contains type.kind
  | none => false

/-- The type may be that of an argument or an input field. -/
def isInput (document : Document) : String → Bool :=
  document.isOneOf [.scalar, .enum, .inputObject]

/-- The type may be that of a field. -/
def isOutput (document : Document) : String → Bool :=
  document.isOneOf [.scalar, .object, .interface, .union, .enum]

def isObject (document : Document) : String → Bool :=
  document.isOneOf [.object]

/-- The query root is there, every root is an object, and no two roots are one. -/
def hasRoots (document : Document) : Bool :=
  let query := document.root? "query" "Query"
  let roots :=
    [query, document.root? "mutation" "Mutation", document.root? "subscription" "Subscription"]
      |>.filterMap id
  query.isSome && roots.all document.isObject && roots.Nodup

/-- The name is kept for the types through which a schema describes itself. -/
def isReserved (name : String) : Bool :=
  ['_', '_'].isPrefixOf name.toList

-----------------------------------------------------------------------------------------
-- Literals
-----------------------------------------------------------------------------------------

/-- The whole numbers that fit. -/
def isInt32 (text : String) : Bool :=
  match text.toInt? with
  | some value => -2147483648 ≤ value && value ≤ 2147483647
  | none => false

/-- A literal without parts that stands for a scalar; a declared scalar takes every literal. -/
def fitsScalar (name : String) : Literal → Bool
  | .int text => name != "String" && name != "Boolean" && (name != "Int" || isInt32 text)
  | .float _ => name != "Int" && name != "String" && name != "Boolean" && name != "ID"
  | .string _ _ => name != "Int" && name != "Float" && name != "Boolean"
  | .boolean _ => name == "Boolean" || (standardScalar? name).isNone
  | _ => (standardScalar? name).isNone

/-- A literal without parts that stands for a type. -/
def fitsLeaf (document : Document) (name : String) (literal : Literal) : Bool :=
  match document.type? name, literal with
  | some type, .enum value =>
      match type.kind with
      | .scalar => fitsScalar name literal
      | .enum => type.values.any fun known => known.name == value
      | _ => false
  | some type, _ => type.kind == .scalar && fitsScalar name literal
  | none, _ => false

/-- The fields of an input object are alternatives, of which one is given. -/
def isAlternatives (type : Declared) : Bool :=
  type.applications.any fun application => application.name == "oneOf"

/-- Fields of an object literal stand for an input object: each is known, none that is required is
missing, and of alternatives exactly one is given, with a value.
-/
def fitsFields (type : Declared) (fields : List (String × Literal)) : Bool :=
  let isNull (field : String × Literal) : Bool :=
    match field.2 with
    | .null => true
    | _ => false
  (fields.all fun field => type.inputFields.any fun known => known.name == field.1)
    && (type.inputFields.filter InputValue.isRequired).all (fun known =>
      fields.any fun field => field.1 == known.name)
    && (!isAlternatives type || (fields.length == 1 && !fields.any isNull))

mutual

/-- A literal stands for a value of a use of a type. What is not a list stands for a list of one. -/
def fits (document : Document) (use : Use) : Literal → Bool
  | .null => !use.isNonNull
  | .list items =>
      match use.item? with
      | some item => fitAll document item items
      | none => document.isOneOf [.scalar] use.name && (standardScalar? use.name).isNone
  | .object fields =>
      match document.type? use.name with
      | some type =>
          if type.kind == .inputObject then
            fitsFields type fields && fitEach document type.inputFields fields
          else type.kind == .scalar && (standardScalar? use.name).isNone
      | none => false
  | literal => document.fitsLeaf use.name literal

/-- Every item stands for a value of a use of a type. -/
def fitAll (document : Document) (use : Use) : List Literal → Bool
  | [] => true
  | item :: rest => fits document use item && fitAll document use rest

/-- Every field stands for a value of the input field of its name. -/
def fitEach (document : Document) (known : List InputValue) : List (String × Literal) → Bool
  | [] => true
  | (name, value) :: rest =>
      (match known.find? fun field => field.name == name with
        | some field => fits document field.type value
        | none => false)
      && fitEach document known rest

end

/-- An argument or input field has a name of its own, a type for input, no deprecation where it is
required, and a default that fits.
-/
def isSoundInput (document : Document) (value : InputValue) : Bool :=
  !isReserved value.name
    && document.isInput value.type.name
    && !(value.isRequired && isDeprecated value.applications)
    && value.default.all (document.fits value.type)

-----------------------------------------------------------------------------------------
-- Interfaces
-----------------------------------------------------------------------------------------

/-- A type stands where an abstract one is used: it is a member of the union, or implements the
interface.
-/
def isSubType (document : Document) (super sub : String) : Bool :=
  match document.type? super, document.type? sub with
  | some abstract, some concrete =>
      match abstract.kind with
      | .union => abstract.members.contains sub
      | .interface =>
          (concrete.kind == .object || concrete.kind == .interface)
            && concrete.interfaces.contains super
      | _ => false
  | _, _ => false

/-- A use of a type stands where another is used. -/
def isSubUse (document : Document) : Use → Use → Bool
  | .nonNull sub, .nonNull super => document.isSubUse sub super
  | _, .nonNull _ => false
  | .nonNull sub, super => document.isSubUse sub super
  | .list sub, .list super => document.isSubUse sub super
  | .named sub, .named super => sub == super || document.isSubType super sub
  | _, _ => false

/-- A field stands for the field of an interface: its type stands where the other does, the
arguments are the same and further ones are not required, and it is not deprecated alone.
-/
def keepsField (document : Document) (own kept : FieldDef) : Bool :=
  document.isSubUse own.type kept.type
    && kept.arguments.all (fun argument =>
      own.arguments.any fun other => other.name == argument.name && other.type == argument.type)
    && own.arguments.all (fun argument =>
      !argument.isRequired || kept.arguments.any fun other => other.name == argument.name)
    && (!isDeprecated own.applications || isDeprecated kept.applications)

/-- A type keeps an interface: it is another type, with all that the interface implements and has.
-/
def keepsInterface (document : Document) (type : Declared) (name : String) : Bool :=
  match document.type? name with
  | some interface =>
      interface.kind == .interface
        && name != type.name
        && interface.interfaces.all type.interfaces.contains
        && interface.fields.all fun kept =>
          type.fields.any fun own => own.name == kept.name && document.keepsField own kept
  | none => false

-----------------------------------------------------------------------------------------
-- Types
-----------------------------------------------------------------------------------------

/-- Fields have names of their own, types for output and sound arguments, and there is one at least.
-/
def hasSoundFields (document : Document) (type : Declared) : Bool :=
  !type.fields.isEmpty
    && type.fields.all fun field =>
      !isReserved field.name
        && document.isOutput field.type.name
        && field.arguments.all document.isSoundInput

/-- Alternatives may be left out, and nothing stands in for them. -/
def isSoundAlternative (field : InputValue) : Bool :=
  !field.type.isNonNull && field.default.isNone

def isSoundType (document : Document) (type : Declared) : Bool :=
  !isReserved type.name
    && match type.kind with
      | .object | .interface =>
          document.hasSoundFields type
            && type.interfaces.Nodup
            && type.interfaces.all (document.keepsInterface type)
      | .union =>
          !type.members.isEmpty && type.members.Nodup && type.members.all document.isObject
      | .enum => !type.values.isEmpty && type.values.all fun value => !isReserved value.name
      | .inputObject =>
          !type.inputFields.isEmpty
            && type.inputFields.all document.isSoundInput
            && (!isAlternatives type || type.inputFields.all isSoundAlternative)
      | _ => true

/-- Directives and their arguments are sound. -/
def hasSoundDirectives (document : Document) : Bool :=
  document.directives.all fun directive =>
    !isReserved directive.name && directive.arguments.all document.isSoundInput

-----------------------------------------------------------------------------------------
-- Input objects that hold each other
-----------------------------------------------------------------------------------------

def inputObject? (document : Document) (name : String) : Option Declared :=
  (document.type? name).filter fun type => type.kind == .inputObject

/-- An input object can be built when others are buildable. An ordinary one needs each input object
that it demands a value of; of alternatives, one has to be a list, buildable, or no input object.
-/
def isBuildable (inputs buildable : List String) (type : Declared) : Bool :=
  let holds (name : String) : Bool := !inputs.contains name || buildable.contains name
  if isAlternatives type then
    type.inputFields.any fun field =>
      match field.type with
      | .named inner | .nonNull (.named inner) => holds inner
      | _ => true
  else
    type.inputFields.all fun field =>
      match field.type with
      | .nonNull (.named inner) => holds inner
      | _ => true

/-- The input objects that can be built once some are, in a number of rounds. -/
def buildableAfter (inputs : List Declared) (rounds : Nat) (buildable : List String)
    : List String :=
  match rounds with
  | 0 => buildable
  | rounds + 1 =>
      let names := inputs.map Declared.name
      let more := (inputs.filter (isBuildable names buildable)).map Declared.name
      if more.length == buildable.length then buildable
      else buildableAfter inputs rounds more

/-- The fields of an input object that hold input objects and that a literal leaves out. -/
def leftOut (document : Document) (type : Declared) (given : List String)
    : List (String × String) :=
  (type.inputFields.filter fun field =>
    document.isOneOf [.inputObject] field.type.name && !given.contains field.name).map fun field =>
      (type.name, field.name)

mutual

/-- The fields whose defaults stand in where a literal of an input object leaves them out. -/
def standIns (document : Document) (name : String) : Literal → List (String × String)
  | .list items => standInsOfItems document name items
  | .object fields =>
      match document.inputObject? name with
      | some type =>
          document.leftOut type (fields.map Prod.fst)
            ++ standInsOfFields document type.inputFields fields
      | none => []
  | _ => []

/-- The fields whose defaults stand in where the items of a list leave them out. -/
def standInsOfItems (document : Document) (name : String) : List Literal → List (String × String)
  | [] => []
  | item :: rest => standIns document name item ++ standInsOfItems document name rest

/-- The fields whose defaults stand in where the fields of an object leave them out. -/
def standInsOfFields (document : Document) (known : List InputValue)
    : List (String × Literal) → List (String × String)
  | [] => []
  | (name, value) :: rest =>
      (match known.find? fun field => field.name == name with
        | some field => standIns document field.type.name value
        | none => [])
      ++ standInsOfFields document known rest

end

/-- The fields whose defaults the default of a field draws on. -/
def drawsOn (document : Document) (place : String × String) : List (String × String) :=
  match document.inputObject? place.1 with
  | some type =>
      match type.inputFields.find? fun field => field.name == place.2 with
      | some field => (field.default.map (document.standIns field.type.name)).getD []
      | none => []
  | none => []

/-- Every input object can be built, and no default draws on itself. -/
def canBuildInputs (document : Document) : Bool :=
  let inputs := document.types.filter fun type => type.kind == .inputObject
  let buildable := buildableAfter inputs inputs.length []
  let places := inputs.flatMap fun type => type.inputFields.map fun field => (type.name, field.name)
  (inputs.all fun type => buildable.contains type.name) && !hasCycle document.drawsOn places

-----------------------------------------------------------------------------------------
-- The check of a schema
-----------------------------------------------------------------------------------------

mutual

/-- A literal stands, in whole or in part, where a value of a type for output alone would be. -/
def strays (document : Document) (use : Use) : Literal → Bool
  | .null => false
  | .list items =>
      match use.item? with
      | some item => straysInItems document item items
      | none => document.isOneOf [.object, .interface, .union] use.name
  | .object fields =>
      match document.inputObject? use.name with
      | some type => straysInFields document type.inputFields fields
      | none => document.isOneOf [.object, .interface, .union] use.name
  | _ => document.isOneOf [.object, .interface, .union] use.name

/-- An item of a list stands where a value of a type for output alone would be. -/
def straysInItems (document : Document) (use : Use) : List Literal → Bool
  | [] => false
  | item :: rest => strays document use item || straysInItems document use rest

/-- A field of an object stands where a value of a type for output alone would be. -/
def straysInFields (document : Document) (known : List InputValue)
    : List (String × Literal) → Bool
  | [] => false
  | (name, value) :: rest =>
      (known.find? fun field => field.name == name).any (fun field =>
        strays document field.type value)
      || straysInFields document known rest

end

/-- The default of an argument or an input field cannot be looked at. -/
def hasStrayDefault (document : Document) (value : InputValue) : Bool :=
  value.default.any (document.strays value.type)

/-- What ends the check of a schema early: a default that cannot be looked at, or a value of an
enumeration whose deprecation has no readable reason, whichever comes first. Directives are looked
at before types.
-/
def interruption? (document : Document) : Option Error :=
  let ofInputs (inputs : List InputValue) : Option Error :=
    if inputs.any document.hasStrayDefault then some .invalidSdl else none
  let ofType (type : Declared) : Option Error :=
    if type.values.all fun value => hasReadableReason value.applications then
      ofInputs (type.fields.flatMap FieldDef.arguments ++ type.inputFields)
    else some .unreadableDeprecation
  (ofInputs (document.directives.flatMap DirectiveDef.arguments)).or
    (document.types.findSome? ofType)

/-- The declared types and directives make a schema. -/
def isSchema (document : Document) : Bool :=
  document.hasRoots
    && document.hasSoundDirectives
    && (document.types.filter fun type => (standardType? type.name).isNone).all
      document.isSoundType
    && document.canBuildInputs

end Document

end RubySchema.Sdl
