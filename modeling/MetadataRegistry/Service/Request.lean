import MetadataRegistry.Service

/-!
Calls of the service's operations by name, with their requests as documents. The reader of
segment metadata is a parameter.
-/

namespace MetadataRegistry

namespace ServiceCall

def read? (metadata : Json → Option Metadata) (operation : String) (request : Json) : Option ServiceCall :=
  match operation with
  | "create_tenant" => (TenantName.ofJson? request).map createTenant
  | "get_tenant" => (TenantName.ofJson? request).map getTenant
  | "set_tenant_resource_name" => (ResourceBinding.ofJson? request).map setTenantResourceName
  | "set_tenant_last_compaction_time" => (TenantCheckpoint.ofJson? request).map setTenantLastCompactionTime
  | "get_tenant_last_compaction_times" => (request.listOf? Json.text?).map getTenantLastCompactionTimes
  | "create_database" => (DatabaseCreation.ofJson? request).map createDatabase
  | "get_database" => (DatabaseKey.ofJson? request).map getDatabase
  | "list_databases" => (DatabasePage.ofJson? request).map listDatabases
  | "delete_database" => (DatabaseKey.ofJson? request).map deleteDatabase
  | "finish_database_deletion" => (DeletionCutoff.ofJson? request).map finishDatabaseDeletion
  | "create_segment" => (SegmentCreation.read? metadata request).map createSegment
  | "get_segments" => (SegmentFilter.ofJson? request).map getSegments
  | "update_segment" => (SegmentUpdate.read? metadata request).map updateSegment
  | "flush_segment_compaction" => (SegmentFlush.ofJson? request).map flushSegmentCompaction
  | "flush_collection_compaction" => (CollectionFlush.ofJson? request).map flushCollectionCompaction
  | _ => none

end ServiceCall

end MetadataRegistry
