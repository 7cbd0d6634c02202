import RubySchema.Json.Message

/-!
Why a run stops, and the text that says so.
-/

namespace RubySchema

/-- A cause that stops a run. -/
inductive Error where
  | documentNotObject
  | noSchemaObject
  | unreadableSdl
  | unreadableJson (file : String)
  | unnamedType (entry : Json)
  | fieldsOfTwoKinds (type : Json)
  | openReference (owner : Json)
  | strayInterface (type target : Json)
  | strayMember (type member : Json)
  | unknownElements (keys : List String)
  | unexpectedKind (type kind : Json)
  | wrapperKind (type kind : Json)
  | unexpectedReferenceKind (owner kind : Json)
  | listOfLists (field : Json)
  | listOfConnections (field : Json)
  | connectionArgument (name : String)
  | subscriptionRoot (root : Json)
  | duplicateTarget (target first second : String)
  | unknownType (name : String)
  | missingRoot (operation : String)
  | closedDocument (kind owner : String)
  | noBuiltins (directory : String)
  | noSchemaPath
  | missingKey (key : String)
  | tooManyDigits (count : Nat)
  | pathWithNull
  | unencodable (half first last : Nat)
  | tooDeep
  | illTyped
  | invalidSdl
  | unreadableDeprecation
  | malformedTemplate
  | undefinedVariable
  | fileSystem
  deriving DecidableEq, Repr, Inhabited

namespace Error

/-- The cause lies in the schema, the settings or the reference library, and its text says so. All
others are faults of form: values that are not what their use needs, and files that cannot be used.
-/
def isReported : Error → Bool
  | .noSchemaPath | .missingKey _ | .tooManyDigits _ | .pathWithNull | .unencodable _ _ _ | .tooDeep
  | .illTyped | .invalidSdl | .unreadableDeprecation | .malformedTemplate | .undefinedVariable
  | .fileSystem => false
  | _ => true

/-- The text of a cause; causes that lie outside the schema's own terms have none. -/
def message : Error → String
  | .documentNotObject => "Schema document must be a JSON object"
  | .noSchemaObject => "Schema document has no '__schema' object"
  | .unreadableSdl => "Could not build schema from SDL"
  | .unreadableJson file => file ++ " is not valid JSON"
  | .unnamedType entry => "Found a type without a name: " ++ entry.inspect
  | .fieldsOfTwoKinds type => "Type " ++ type.display ++ " has both 'fields' and 'inputFields'"
  | .openReference owner =>
      "Type reference of " ++ owner.display ++ " does not end in a named type"
  | .strayInterface type target =>
      "Type " ++ type.display ++ " implements interface " ++ target.display
        ++ ", but that reference has an unexpected kind or ofType"
  | .strayMember type member =>
      "Type " ++ type.display ++ " has possible type " ++ member.display
        ++ ", but that reference has an unexpected kind or ofType"
  | .unknownElements keys =>
      "Unrecognized schema element(s) " ++ (Json.array (keys.map .string)).inspect
        ++ "; the loader needs to be updated to support them"
  | .unexpectedKind type kind =>
      "Type " ++ type.display ++ " has unexpected kind " ++ kind.inspect
  | .wrapperKind type kind =>
      "Type " ++ type.display ++ " has wrapper kind " ++ kind.display ++ " at top level"
  | .unexpectedReferenceKind owner kind =>
      "Field " ++ owner.display ++ " references a type of unexpected kind " ++ kind.inspect
  | .listOfLists field =>
      "Field '" ++ field.display ++ "' has a list of lists, which cannot be generated"
  | .listOfConnections field =>
      "Field '" ++ field.display ++ "' is a list of connections, which cannot be generated"
  | .connectionArgument name => "Connection type '" ++ name ++ "Connection' used as an argument"
  | .subscriptionRoot root =>
      "Found a subscription entry point (" ++ root.display
        ++ "); subscriptions cannot be generated yet"
  | .duplicateTarget target first second =>
      "Types '" ++ first ++ "' and '" ++ second ++ "' both map to '" ++ target
        ++ "'. Rename one of them or add an explicit mapping."
  | .unknownType name => "No name mapping for type '" ++ name ++ "'"
  | .missingRoot operation => "Did not find name of " ++ operation ++ " entry in schema"
  | .closedDocument kind owner => kind ++ " document for " ++ owner ++ " is already closed"
  | .noBuiltins directory =>
      "No built-in type classes found under " ++ directory
        ++ ". Expected a graphql-ruby checkout."
  | .noSchemaPath => "No schema path given"
  | .missingKey key => key
  | .tooManyDigits count =>
      "Exceeds the limit (4300 digits) for integer string conversion: value has " ++ toString count
        ++ " digits; use sys.set_int_max_str_digits() to increase the limit"
  | .pathWithNull => "embedded null byte"
  | .unencodable half first last =>
      "'utf-8' codec can't encode character"
        ++ (if first = last then
            " '\\" ++ "u" ++ String.ofList (Text.hex 4 half) ++ "' in position " ++ toString first
          else "s in position " ++ toString first ++ "-" ++ toString last)
        ++ ": surrogates not allowed"
  | .tooDeep | .illTyped | .invalidSdl | .unreadableDeprecation | .malformedTemplate
  | .undefinedVariable | .fileSystem => ""

end Error

end RubySchema
