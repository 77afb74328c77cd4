import MetadataRegistry.TableCall

/-!
Direct calls on the tables by name, with their arguments as documents: a record, or an object whose
members are the arguments.
-/

namespace MetadataRegistry

namespace TableCall

def arguments? (names : List String) (request : Json) : Option Fields :=
  match request with
  | .object _ => request.fields? names
  | _ => none

def read? (metadata : Json → Option Metadata) (call : String) (request : Json) : Option TableCall :=
  match call with
  | "tenants.insert" => (Tenant.ofJson? request).map insertTenant
  | "tenants.list" => some listTenants
  | "tenants.get" => do
    let fields ← arguments? ["id"] request
    return getTenant (← fields.required "id" Json.text?)
  | "tenants.update_last_compaction_time" => do
    let fields ← arguments? ["id", "time"] request
    return advanceCheckpoint (← fields.required "id" Json.text?) (← fields.required "time" Json.int64?)
  | "tenants.set_resource_name" => do
    let fields ← arguments? ["id", "resource_name"] request
    return bindResourceName (← fields.required "id" Json.text?) (← fields.required "resource_name" Json.text?)
  | "tenants.last_compaction_times" => do
    let fields ← arguments? ["ids"] request
    return checkpoints (← fields.required "ids" (Json.listOf? Json.text?))
  | "databases.insert" => (Database.ofJson? request).map insertDatabase
  | "databases.get" => do
    let fields ← arguments? ["id"] request
    return getDatabase (← fields.required "id" Json.identifier?)
  | "databases.get_by_name" => do
    let fields ← arguments? ["tenant", "name"] request
    return getDatabaseByName (← fields.required "tenant" Json.text?) (← fields.required "name" Json.text?)
  | "databases.list" => do
    let fields ← arguments? ["tenant", "limit", "offset"] request
    return listDatabases (← fields.required "tenant" Json.text?) (← fields.optional "limit" Json.uint32?)
      (← fields.optional "offset" Json.uint32?)
  | "databases.soft_delete" => do
    let fields ← arguments? ["tenant", "name"] request
    return softDelete (← fields.required "tenant" Json.text?) (← fields.required "name" Json.text?)
  | "databases.finish_deletion" => do
    let fields ← arguments? ["cutoff"] request
    return finishDeletion (← fields.required "cutoff" Json.instant?)
  | "segments.insert" => (Segment.read? metadata request).map insertSegment
  | "segments.get" => do
    let fields ← arguments? ["id"] request
    return getSegment (← fields.required "id" Json.identifier?)
  | "segments.list" => some listSegments
  | "segments.update" => (SegmentUpdate.read? metadata request).map updateSegment
  | "segments.flush_compaction" => (SegmentFlush.ofJson? request).map flushSegment
  | "segments.flush_collection_compaction" => (CollectionFlush.ofJson? request).map flushCollection
  | _ => none

end TableCall

end MetadataRegistry
