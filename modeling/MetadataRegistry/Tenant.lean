import MetadataRegistry.Json.Record

/-!
Tenants: a name that is the identifier, a resource name that is bound at most once, and a
compaction checkpoint in epoch seconds. The requests that concern tenants, and the documents of
all of them.
-/

namespace MetadataRegistry

structure Tenant where
  id : String
  resourceName : Option String
  lastCompactionTime : Int64
  createdAt : Instant
  updatedAt : Instant
  deriving DecidableEq

structure TenantCheckpoint where
  tenantId : String
  lastCompactionTime : Int64
  deriving DecidableEq

structure TenantName where
  name : String
  deriving DecidableEq

structure ResourceBinding where
  id : String
  resourceName : String
  deriving DecidableEq

namespace Tenant

def neverCompactedTime : Int64 := 0

def create (name : String) (now : Instant) : Tenant :=
  ⟨name, none, neverCompactedTime, now, now⟩

def neverCompacted (tenant : Tenant) : Bool := tenant.lastCompactionTime == neverCompactedTime

def toJson (tenant : Tenant) : Json :=
  .ofMembers [("id", .ofText tenant.id), ("resource_name", .ofOption .ofText tenant.resourceName),
    ("last_compaction_time", .ofInt64 tenant.lastCompactionTime),
    ("created_at", .ofInstant tenant.createdAt), ("updated_at", .ofInstant tenant.updatedAt)]

def ofJson? (document : Json) : Option Tenant := do
  let fields ← document.fields? ["id", "resource_name", "last_compaction_time", "created_at", "updated_at"]
  return {
    id := ← fields.required "id" Json.text?
    resourceName := ← fields.optional "resource_name" Json.text?
    lastCompactionTime := ← fields.required "last_compaction_time" Json.int64?
    createdAt := ← fields.required "created_at" Json.instant?
    updatedAt := ← fields.required "updated_at" Json.instant?
  }

end Tenant

namespace TenantCheckpoint

def toJson (checkpoint : TenantCheckpoint) : Json :=
  .ofMembers [("tenant_id", .ofText checkpoint.tenantId),
    ("last_compaction_time", .ofInt64 checkpoint.lastCompactionTime)]

def ofJson? (document : Json) : Option TenantCheckpoint := do
  let fields ← document.fields? ["tenant_id", "last_compaction_time"]
  return {
    tenantId := ← fields.required "tenant_id" Json.text?
    lastCompactionTime := ← fields.required "last_compaction_time" Json.int64?
  }

end TenantCheckpoint

namespace TenantName

def toJson (request : TenantName) : Json := .ofMembers [("name", .ofText request.name)]

def ofJson? (document : Json) : Option TenantName := do
  let fields ← document.fields? ["name"]
  return { name := ← fields.required "name" Json.text? }

end TenantName

namespace ResourceBinding

def toJson (request : ResourceBinding) : Json :=
  .ofMembers [("id", .ofText request.id), ("resource_name", .ofText request.resourceName)]

def ofJson? (document : Json) : Option ResourceBinding := do
  let fields ← document.fields? ["id", "resource_name"]
  return {
    id := ← fields.required "id" Json.text?
    resourceName := ← fields.required "resource_name" Json.text?
  }

end ResourceBinding

end MetadataRegistry
