import MetadataRegistry.Json.Record

/-!
Logical databases of a tenant. A database is active until it is deleted; it then waits, soft-deleted,
for a sweep. The requests that concern databases, and the documents of all of them.
-/

namespace MetadataRegistry

inductive DatabaseState where
  | active
  | softDeleted
  deriving DecidableEq, Repr

namespace DatabaseState

def text : DatabaseState → String
  | active => "active"
  | softDeleted => "soft_deleted"

def parse? : String → Option DatabaseState
  | "active" => some active
  | "soft_deleted" => some softDeleted
  | _ => none

def initial : DatabaseState := active

def toJson (state : DatabaseState) : Json := .ofText state.text

def ofJson? (document : Json) : Option DatabaseState := document.wordOf? parse?

end DatabaseState

structure Database where
  id : DatabaseId
  name : String
  tenant : String
  ts : Int64
  state : DatabaseState
  deletedAt : Option Instant
  createdAt : Instant
  updatedAt : Instant
  deriving DecidableEq

structure DatabaseCreation where
  id : String
  name : String
  tenant : String
  deriving DecidableEq

structure DatabaseKey where
  name : String
  tenant : String
  deriving DecidableEq

structure DatabasePage where
  tenant : String
  limit : Option UInt32
  offset : Option UInt32
  deriving DecidableEq

structure DeletionCutoff where
  cutoff : Instant
  deriving DecidableEq

namespace Database

def create (id : DatabaseId) (name tenant : String) (now : Instant) : Database :=
  ⟨id, name, tenant, 0, .initial, none, now, now⟩

def isDeleted (database : Database) : Bool := database.state == .softDeleted

def toJson (database : Database) : Json :=
  .ofMembers [("id", .ofIdentifier database.id), ("name", .ofText database.name),
    ("tenant", .ofText database.tenant), ("ts", .ofInt64 database.ts), ("state", database.state.toJson),
    ("deleted_at", .ofOption .ofInstant database.deletedAt),
    ("created_at", .ofInstant database.createdAt), ("updated_at", .ofInstant database.updatedAt)]

def ofJson? (document : Json) : Option Database := do
  let fields ← document.fields?
    ["id", "name", "tenant", "ts", "state", "deleted_at", "created_at", "updated_at"]
  return {
    id := ← fields.required "id" Json.identifier?
    name := ← fields.required "name" Json.text?
    tenant := ← fields.required "tenant" Json.text?
    ts := ← fields.required "ts" Json.int64?
    state := ← fields.required "state" DatabaseState.ofJson?
    deletedAt := ← fields.optional "deleted_at" Json.instant?
    createdAt := ← fields.required "created_at" Json.instant?
    updatedAt := ← fields.required "updated_at" Json.instant?
  }

end Database

namespace DatabaseCreation

def toJson (request : DatabaseCreation) : Json :=
  .ofMembers [("id", .ofText request.id), ("name", .ofText request.name), ("tenant", .ofText request.tenant)]

def ofJson? (document : Json) : Option DatabaseCreation := do
  let fields ← document.fields? ["id", "name", "tenant"]
  return {
    id := ← fields.required "id" Json.text?
    name := ← fields.required "name" Json.text?
    tenant := ← fields.required "tenant" Json.text?
  }

end DatabaseCreation

namespace DatabaseKey

def toJson (request : DatabaseKey) : Json :=
  .ofMembers [("name", .ofText request.name), ("tenant", .ofText request.tenant)]

def ofJson? (document : Json) : Option DatabaseKey := do
  let fields ← document.fields? ["name", "tenant"]
  return {
    name := ← fields.required "name" Json.text?
    tenant := ← fields.required "tenant" Json.text?
  }

end DatabaseKey

namespace DatabasePage

def toJson (request : DatabasePage) : Json :=
  .ofMembers [("tenant", .ofText request.tenant), ("limit", .ofOption .ofUInt32 request.limit),
    ("offset", .ofOption .ofUInt32 request.offset)]

def ofJson? (document : Json) : Option DatabasePage := do
  let fields ← document.fields? ["tenant", "limit", "offset"]
  return {
    tenant := ← fields.required "tenant" Json.text?
    limit := ← fields.optional "limit" Json.uint32?
    offset := ← fields.optional "offset" Json.uint32?
  }

end DatabasePage

namespace DeletionCutoff

def toJson (request : DeletionCutoff) : Json := .ofMembers [("cutoff", .ofInstant request.cutoff)]

def ofJson? (document : Json) : Option DeletionCutoff := do
  let fields ← document.fields? ["cutoff"]
  return { cutoff := ← fields.required "cutoff" Json.instant? }

end DeletionCutoff

end MetadataRegistry
