import MetadataRegistry.Json.Record

/-!
Typed metadata of a segment, and the file paths of its compacted artifacts by role. A number without
fraction and exponent is an integer if it fits sixty-four bits, and a floating-point number else.
-/

namespace MetadataRegistry

inductive MetadataValue where
  | bool (value : Bool)
  | integer (value : Int64)
  | real (value : Binary64)
  | text (value : String)
  deriving DecidableEq

abbrev Metadata := Dictionary MetadataValue

abbrev FilePaths := Dictionary (List String)

namespace MetadataValue

def toJson : MetadataValue → Json
  | bool value => .bool value
  | integer value => .ofInt64 value
  | real value => .ofReal value
  | text value => .ofText value

def ofNumber : JsonNumber → MetadataValue
  | .integer value =>
      if isInt64 value then .integer (.ofInt value)
      else .real (.ofNat value.toNat)
  | .real value => .real value

def ofJson? : Json → Option MetadataValue
  | .bool value => some (bool value)
  | .number literal => (Json.number literal).number?.map ofNumber
  | .string body => (Json.string body).text?.map text
  | _ => none

end MetadataValue

def Metadata.toJson (metadata : Metadata) : Json := .ofDictionary MetadataValue.toJson metadata

def Metadata.ofJson? (document : Json) : Option Metadata := document.dictionaryOf? MetadataValue.ofJson?

def FilePaths.toJson (paths : FilePaths) : Json := .ofDictionary (Json.ofList Json.ofText) paths

def FilePaths.ofJson? (document : Json) : Option FilePaths :=
  document.dictionaryOf? (Json.listOf? Json.text?)

end MetadataRegistry
