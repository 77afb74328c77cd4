import MetadataRegistry.Access

/-!
Direct calls on the tables, and what they answer.
-/

namespace MetadataRegistry

inductive Answer where
  | done
  | count (value : Nat)
  | tenant (value : Option Tenant)
  | tenants (values : List Tenant)
  | checkpoints (values : List TenantCheckpoint)
  | database (value : Option Database)
  | databases (values : List Database)
  | segment (value : Option Segment)
  | segments (values : List Segment)

/-- The checkpoints of no tenants are none, and the store is not asked. -/
def Access.checkpoints (ids : List String) : Access (List TenantCheckpoint) :=
  if ids.isEmpty then pure [] else .query (Store.checkpoints ids)

def Access.flushCollection (flush : CollectionFlush) : Access Unit := .transaction do
  flush.segments.forM fun segment => .write fun now => Store.flushSegment now (some flush.collectionId) segment
  .write fun now => Store.advanceCheckpoint now flush.tenantId flush.compactionTime

inductive TableCall where
  | insertTenant (tenant : Tenant)
  | listTenants
  | getTenant (id : String)
  | advanceCheckpoint (id : String) (time : Int64)
  | bindResourceName (id resourceName : String)
  | checkpoints (ids : List String)
  | insertDatabase (database : Database)
  | getDatabase (id : DatabaseId)
  | getDatabaseByName (tenant name : String)
  | listDatabases (tenant : String) (limit offset : Option UInt32)
  | softDelete (tenant name : String)
  | finishDeletion (cutoff : Instant)
  | insertSegment (segment : Segment)
  | getSegment (id : SegmentId)
  | listSegments
  | updateSegment (update : SegmentUpdate)
  | flushSegment (flush : SegmentFlush)
  | flushCollection (flush : CollectionFlush)

namespace TableCall

def writing (change : Instant → Store → Except Failure Store) : Access Answer := do
  Access.write change
  return .done

def run : TableCall → Access Answer
  | insertTenant tenant => writing fun _ => Store.insertTenant tenant
  | listTenants => return .tenants (← .query Store.listTenants)
  | getTenant id => return .tenant (← .query (Store.getTenant id))
  | advanceCheckpoint id time => writing fun now => Store.advanceCheckpoint now id time
  | bindResourceName id resourceName => writing fun now => Store.bindResourceName now id resourceName
  | checkpoints ids => return .checkpoints (← Access.checkpoints ids)
  | insertDatabase database => writing fun _ => Store.insertDatabase database
  | getDatabase id => return .database (← .query (Store.getDatabase id))
  | getDatabaseByName tenant name => return .database (← .query (Store.getDatabaseByName tenant name))
  | listDatabases tenant limit offset => return .databases (← .query (Store.listDatabases tenant limit offset))
  | softDelete tenant name => writing fun now => Store.softDelete now tenant name
  | finishDeletion cutoff => return .count (← .statement fun _ => Store.finishDeletion cutoff)
  | insertSegment segment => writing fun _ => Store.insertSegment segment
  | getSegment id => return .segment (← .query (Store.getSegment id))
  | listSegments => return .segments (← .query Store.listSegments)
  | updateSegment update => writing fun now => Store.updateSegment now update
  | flushSegment flush => writing fun now => Store.flushSegment now none flush
  | flushCollection flush => do Access.flushCollection flush; return .done

end TableCall

end MetadataRegistry
