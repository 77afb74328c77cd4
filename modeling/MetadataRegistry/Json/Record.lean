import MetadataRegistry.Dictionary
import MetadataRegistry.Identifier
import MetadataRegistry.Instant.Printer
import MetadataRegistry.Instant.Reader
import MetadataRegistry.Json.Number

/-!
Instants, identifiers and records as documents. Instants and identifiers are strings, written in one form and read in
any form that their readers take. A record is an object whose known fields appear at most once and whose other
fields are ignored, or an array that holds the values of all fields in their declared order. An
optional field may be left out or null.
-/

namespace MetadataRegistry

abbrev Fields := List (String × Json)

namespace Json

def ofInstant (instant : Instant) : Json := ofText instant.text

def instant? (document : Json) : Option Instant := document.text?.bind Instant.parse?

def ofIdentifier {kind : IdentifierKind} (id : Identifier kind) : Json := ofText id.text

def identifier? {kind : IdentifierKind} (document : Json) : Option (Identifier kind) :=
  document.text?.bind Identifier.parse?

def fields? (names : List String) : Json → Option Fields
  | .object members => do
    let named ← (Json.object members).members?
    let known := named.filter fun field => names.contains field.1
    if (known.map (·.1)).Nodup then some known else none
  | .array items => if items.length = names.length then some (names.zip items) else none
  | _ => none

/-- A word out of a fixed choice, also as the only label of an object whose value is null. -/
def wordOf? {α : Type} (read : String → Option α) : Json → Option α
  | .string body => ((Json.string body).text?).bind read
  | .object [(label, .null)] => ((Json.string label).text?).bind read
  | _ => none

def listOf? {α : Type} (read : Json → Option α) (document : Json) : Option (List α) :=
  document.items?.bind fun items => items.mapM read

def dictionaryOf? {α : Type} (read : Json → Option α) (document : Json) : Option (Dictionary α) := do
  let members ← document.members?
  let entries ← members.mapM fun (label, value) => (read value).map fun read => (label, read)
  return .ofEntries entries

def ofOption {α : Type} (write : α → Json) : Option α → Json
  | none => .null
  | some value => write value

def ofList {α : Type} (write : α → Json) (values : List α) : Json := .array (values.map write)

def ofDictionary {α : Type} (write : α → Json) (dictionary : Dictionary α) : Json :=
  ofMembers (dictionary.entries.map fun entry => (entry.1, write entry.2))

end Json

namespace Fields

def required {α : Type} (fields : Fields) (name : String) (read : Json → Option α) : Option α :=
  (fields.lookup name).bind read

def optional {α : Type} (fields : Fields) (name : String) (read : Json → Option α) : Option (Option α) :=
  match fields.lookup name with
  | none => some none
  | some .null => some none
  | some value => (read value).map some

end Fields

end MetadataRegistry
