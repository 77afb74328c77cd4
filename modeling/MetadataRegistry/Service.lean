import MetadataRegistry.TableCall
import MetadataRegistry.Segment.Filter

/-!
The operations offered to callers. Each brings its request into normal form, or refuses it before
the store is touched; then it runs under a deadline and tells a failure as a status.
-/

namespace MetadataRegistry

abbrev Service (α : Type) := ReaderT Circumstances (ExceptT Status (StateM Store)) α

def required (field value : String) : Except Status String :=
  let trimmed := trimText value
  if trimmed.isEmpty then .error (.invalidArgument s!"{field} cannot be empty") else .ok trimmed

def requiredDatabaseName (value : String) : Except Status String := do
  let name ← required "name" value
  if longestDatabaseName < name.length then
    .error (.invalidArgument s!"name must be at most {longestDatabaseName} characters")
  else return name

def requiredDatabaseId (value : String) : Except Status DatabaseId :=
  match Identifier.parse (trimText value) with
  | .ok id => .ok id
  | .error fault => .error (.invalidArgument s!"invalid database id: {fault.message}")

def requiredTime (field : String) (time : Int64) : Except Status Int64 :=
  if time < 0 then .error (.invalidArgument s!"{field} cannot be negative") else .ok time

def requiredRoles (flush : SegmentFlush) : Except Status Unit :=
  if flush.filePaths.keys.any fun role => (trimText role).isEmpty then
    .error (.invalidArgument s!"segment {flush.id.text} has a file path entry without a role")
  else .ok ()

def SegmentFilter.normalized (filter : SegmentFilter) : SegmentFilter where
  id := meantIdentifier filter.id
  segmentType := (filter.segmentType.map trimText).filter fun segmentType => !segmentType.isEmpty
  scope := filter.scope
  collectionId := meantIdentifier filter.collectionId

namespace Service

def validated {α : Type} (checked : Except Status α) : Service α := fun _ store => (checked, store)

def perform {α : Type} (operation : String) (access : Access α) : Service α := fun circumstances store =>
  match access circumstances store with
  | (.ok value, after) => (.ok value, after)
  | (.error (.failed failure), after) => (.error (.ofFailure operation failure), after)
  | (.error .stalled, after) => (.error (.deadlineExceeded operation), after)

def now : Service Instant := return (← read).now

end Service

open Service

def findTenant (tenant : String) : Access Tenant := do
  Access.reach .tenants
  match ← Access.query (Store.getTenant tenant) with
  | some found => return found
  | none => Access.fail (.notFound "tenant" tenant)

/-- Looks for the database first; when there is none, a missing tenant is told ahead of it. -/
def findDatabase (tenant name : String) : Access Database := do
  Access.reach .databases
  match ← Access.query (Store.getDatabaseByName tenant name) with
  | some found => return found
  | none =>
      let _ ← findTenant tenant
      Access.fail (.notFound "database" (Store.qualifiedName tenant name))

def listTenantDatabases (tenant : String) (limit offset : Option UInt32) : Access (List Database) := do
  let _ ← findTenant tenant
  Access.reach .databases
  Access.query (Store.listDatabases tenant limit offset)

def segmentCandidates (id : Option SegmentId) : Access (List Segment) := do
  Access.reach .segments
  match id with
  | some id => return (← Access.query (Store.getSegment id)).toList
  | none => Access.query Store.listSegments

def writeTo (table : Table) (change : Instant → Store → Except Failure Store) : Access Unit := do
  Access.reach table
  Access.write change

def createTenant (request : TenantName) : Service Tenant := do
  let name ← validated (required "name" request.name)
  let tenant := Tenant.create name (← now)
  perform "create_tenant" (writeTo .tenants fun _ => Store.insertTenant tenant)
  return tenant

def getTenant (request : TenantName) : Service Tenant := do
  let name ← validated (required "name" request.name)
  perform "get_tenant" (findTenant name)

def setTenantResourceName (request : ResourceBinding) : Service Unit := do
  let id ← validated (required "id" request.id)
  let resourceName ← validated (required "resource_name" request.resourceName)
  perform "set_tenant_resource_name" (writeTo .tenants fun now => Store.bindResourceName now id resourceName)

def setTenantLastCompactionTime (request : TenantCheckpoint) : Service Unit := do
  let id ← validated (required "tenant_id" request.tenantId)
  let time ← validated (requiredTime "last_compaction_time" request.lastCompactionTime)
  perform "set_tenant_last_compaction_time" (writeTo .tenants fun now => Store.advanceCheckpoint now id time)

/-- The names are looked up as they are given. -/
def getTenantLastCompactionTimes (ids : List String) : Service (List TenantCheckpoint) :=
  perform "get_tenant_last_compaction_times" do
    Access.reach .tenants
    Access.checkpoints ids

def createDatabase (request : DatabaseCreation) : Service Database := do
  let id ← validated (requiredDatabaseId request.id)
  let name ← validated (requiredDatabaseName request.name)
  let tenant ← validated (required "tenant" request.tenant)
  let database := Database.create id name tenant (← now)
  perform "create_database" (writeTo .databases fun _ => Store.insertDatabase database)
  return database

def getDatabase (request : DatabaseKey) : Service Database := do
  let name ← validated (requiredDatabaseName request.name)
  let tenant ← validated (required "tenant" request.tenant)
  perform "get_database" (findDatabase tenant name)

def listDatabases (request : DatabasePage) : Service (List Database) := do
  let tenant ← validated (required "tenant" request.tenant)
  perform "list_databases" (listTenantDatabases tenant request.limit request.offset)

def deleteDatabase (request : DatabaseKey) : Service Unit := do
  let name ← validated (requiredDatabaseName request.name)
  let tenant ← validated (required "tenant" request.tenant)
  perform "delete_database" (writeTo .databases fun now => Store.softDelete now tenant name)

def finishDatabaseDeletion (request : DeletionCutoff) : Service Nat :=
  perform "finish_database_deletion" do
    Access.reach .databases
    Access.statement fun _ => Store.finishDeletion request.cutoff

def createSegment (request : SegmentCreation) : Service Segment := do
  let segmentType ← validated (required "segment_type" request.segmentType)
  validated <|
    if request.id.isNil || request.collectionId.isNil then
      .error (.invalidArgument "segment id and collection id are required")
    else .ok ()
  let segment := Segment.create request.id segmentType request.scope request.collectionId request.metadata (← now)
  perform "create_segment" (writeTo .segments fun _ => Store.insertSegment segment)
  return segment

def getSegments (request : SegmentFilter) : Service (List Segment) := do
  let filter := request.normalized
  let candidates ← perform "get_segments" (segmentCandidates filter.id)
  return filter.apply candidates

def updateSegment (request : SegmentUpdate) : Service Unit := do
  validated <|
    if request.collectionId.any Identifier.isNil then .error (.invalidArgument "collection id cannot be nil")
    else .ok ()
  perform "update_segment" (writeTo .segments fun now => Store.updateSegment now request)

def flushSegmentCompaction (request : SegmentFlush) : Service Unit := do
  validated (requiredRoles request)
  perform "flush_segment_compaction" (writeTo .segments fun now => Store.flushSegment now none request)

def flushCollectionCompaction (request : CollectionFlush) : Service Unit := do
  let tenantId ← validated (required "tenant_id" request.tenantId)
  let compactionTime ← validated (requiredTime "compaction_time" request.compactionTime)
  validated (request.segments.forM requiredRoles)
  let flush := { request with tenantId, compactionTime }
  perform "flush_collection_compaction" do
    Access.reach .segments
    Access.flushCollection flush

inductive ServiceCall where
  | createTenant (request : TenantName)
  | getTenant (request : TenantName)
  | setTenantResourceName (request : ResourceBinding)
  | setTenantLastCompactionTime (request : TenantCheckpoint)
  | getTenantLastCompactionTimes (ids : List String)
  | createDatabase (request : DatabaseCreation)
  | getDatabase (request : DatabaseKey)
  | listDatabases (request : DatabasePage)
  | deleteDatabase (request : DatabaseKey)
  | finishDatabaseDeletion (request : DeletionCutoff)
  | createSegment (request : SegmentCreation)
  | getSegments (request : SegmentFilter)
  | updateSegment (request : SegmentUpdate)
  | flushSegmentCompaction (request : SegmentFlush)
  | flushCollectionCompaction (request : CollectionFlush)

def ServiceCall.run : ServiceCall → Service Answer
  | createTenant request => return .tenant (some (← MetadataRegistry.createTenant request))
  | getTenant request => return .tenant (some (← MetadataRegistry.getTenant request))
  | setTenantResourceName request => do MetadataRegistry.setTenantResourceName request; return .done
  | setTenantLastCompactionTime request => do MetadataRegistry.setTenantLastCompactionTime request; return .done
  | getTenantLastCompactionTimes ids => return .checkpoints (← MetadataRegistry.getTenantLastCompactionTimes ids)
  | createDatabase request => return .database (some (← MetadataRegistry.createDatabase request))
  | getDatabase request => return .database (some (← MetadataRegistry.getDatabase request))
  | listDatabases request => return .databases (← MetadataRegistry.listDatabases request)
  | deleteDatabase request => do MetadataRegistry.deleteDatabase request; return .done
  | finishDatabaseDeletion request => return .count (← MetadataRegistry.finishDatabaseDeletion request)
  | createSegment request => return .segment (some (← MetadataRegistry.createSegment request))
  | getSegments request => return .segments (← MetadataRegistry.getSegments request)
  | updateSegment request => do MetadataRegistry.updateSegment request; return .done
  | flushSegmentCompaction request => do MetadataRegistry.flushSegmentCompaction request; return .done
  | flushCollectionCompaction request => do MetadataRegistry.flushCollectionCompaction request; return .done

def sweepCutoff? (grace : Period) (now : Instant) : Option Instant :=
  if grace.nanos.natAbs ≤ Period.longest then now.add? (-grace) else none

inductive SweepOutcome where
  | removed (count : Nat)
  | failed
  | aborted
  deriving DecidableEq, Repr

def sweep (grace : Period) (circumstances : Circumstances) (store : Store) : SweepOutcome × Store :=
  match sweepCutoff? grace circumstances.now with
  | none => (.aborted, store)
  | some cutoff =>
      match finishDatabaseDeletion ⟨cutoff⟩ circumstances store with
      | (.ok count, after) => (.removed count, after)
      | (.error _, after) => (.failed, after)

end MetadataRegistry
