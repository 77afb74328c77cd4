import MetadataRegistry.Database
import MetadataRegistry.Json.Reader
import MetadataRegistry.Json.Printer
import MetadataRegistry.Segment
import MetadataRegistry.Store.Cell
import MetadataRegistry.Tenant

/-!
The store: three tables of rows, each in the order of insertion. Rows are records written into
cells; times are kept as text of milliseconds, the time of a deletion as a number of them, and
metadata and file paths as documents. Reading a row back reports the first cell that cannot be read.
-/

namespace MetadataRegistry

structure TenantRow where
  id : Cell
  resourceName : Cell
  lastCompactionTime : Cell
  createdAt : Cell
  updatedAt : Cell
  deriving DecidableEq

structure DatabaseRow where
  databaseId : Cell
  name : Cell
  tenantId : Cell
  ts : Cell
  state : Cell
  deletedAt : Cell
  createdAt : Cell
  updatedAt : Cell
  deriving DecidableEq

structure SegmentRow where
  segmentId : Cell
  segmentType : Cell
  scope : Cell
  collectionId : Cell
  metadata : Cell
  ts : Cell
  filePaths : Cell
  createdAt : Cell
  updatedAt : Cell
  deriving DecidableEq

structure Store where
  tenants : List TenantRow
  databases : List DatabaseRow
  segments : List SegmentRow
  deriving DecidableEq

def Store.empty : Store := ⟨[], [], []⟩

namespace Cell

def ofInstant (instant : Instant) : Cell := .text instant.storedText

def ofMillis (instant : Instant) : Cell := .integer (.ofInt instant.epochMillis)

def ofIdentifier {kind : IdentifierKind} (id : Identifier kind) : Cell := .bytes id.bytes

def ofDocument (document : Json) : Cell := .text document.text

end Cell

def readTime (column text : String) : Except Failure Instant :=
  match Instant.parseStored? text with
  | some instant => .ok instant
  | none => .error (.internal (.unreadableTime column))

def readMillis (column : String) (millis : Int64) : Except Failure Instant :=
  match Instant.ofEpochMillis? millis.toInt with
  | some instant => .ok instant
  | none => .error (.internal (.timeOutOfRange column millis.toInt))

def readIdentifier {kind : IdentifierKind} (bytes : List UInt8) : Except Failure (Identifier kind) :=
  match Identifier.ofBytes bytes with
  | .ok id => .ok id
  | .error _ => .error (.internal .malformedIdentifier)

def readDocumentText {α : Type} (read : Json → Option α) (text : String) : Except Failure α :=
  match (Json.parse? text).bind read with
  | some value => .ok value
  | none => .error (.internal .unreadableDocument)

def TenantRow.ofTenant (tenant : Tenant) : TenantRow where
  id := .text tenant.id
  resourceName := .ofOption .text tenant.resourceName
  lastCompactionTime := .integer tenant.lastCompactionTime
  createdAt := .ofInstant tenant.createdAt
  updatedAt := .ofInstant tenant.updatedAt

def TenantRow.tenant (row : TenantRow) : Except Failure Tenant := do
  let createdAt ← row.createdAt.readText "created_at"
  let updatedAt ← row.updatedAt.readText "updated_at"
  return {
    id := ← row.id.readText "id"
    resourceName := ← row.resourceName.readOptional (Cell.readText "resource_name")
    lastCompactionTime := ← row.lastCompactionTime.readInteger "last_compaction_time"
    createdAt := ← readTime "created_at" createdAt
    updatedAt := ← readTime "updated_at" updatedAt
  }

def TenantRow.checkpoint (row : TenantRow) : Except Failure TenantCheckpoint := do
  return {
    tenantId := ← row.id.readText "id"
    lastCompactionTime := ← row.lastCompactionTime.readInteger "last_compaction_time"
  }

def DatabaseRow.ofDatabase (database : Database) : DatabaseRow where
  databaseId := .ofIdentifier database.id
  name := .text database.name
  tenantId := .text database.tenant
  ts := .integer database.ts
  state := .text database.state.text
  deletedAt := .ofOption .ofMillis database.deletedAt
  createdAt := .ofInstant database.createdAt
  updatedAt := .ofInstant database.updatedAt

def readState (text : String) : Except Failure DatabaseState :=
  match DatabaseState.parse? text with
  | some state => .ok state
  | none => .error (.internal (.unknownState text))

def DatabaseRow.database (row : DatabaseRow) : Except Failure Database := do
  let id ← readIdentifier (← row.databaseId.readBytes "database_id")
  let state ← readState (← row.state.readText "state")
  let deletedAt ← match ← row.deletedAt.readOptional (Cell.readInteger "deleted_at") with
    | none => pure none
    | some millis => (readMillis "deleted_at" millis).map some
  let createdAt ← row.createdAt.readText "created_at"
  let updatedAt ← row.updatedAt.readText "updated_at"
  return {
    id, state, deletedAt
    name := ← row.name.readText "name"
    tenant := ← row.tenantId.readText "tenant_id"
    ts := ← row.ts.readInteger "ts"
    createdAt := ← readTime "created_at" createdAt
    updatedAt := ← readTime "updated_at" updatedAt
  }

def SegmentRow.ofSegment (segment : Segment) : SegmentRow where
  segmentId := .ofIdentifier segment.id
  segmentType := .text segment.segmentType
  scope := .text segment.scope.text
  collectionId := .ofIdentifier segment.collectionId
  metadata := .ofOption (fun metadata => .ofDocument (Metadata.toJson metadata)) segment.metadata
  ts := .integer segment.ts
  filePaths := .ofDocument (FilePaths.toJson segment.filePaths)
  createdAt := .ofInstant segment.createdAt
  updatedAt := .ofInstant segment.updatedAt

def readScope (text : String) : Except Failure SegmentScope :=
  match SegmentScope.parse? text with
  | some scope => .ok scope
  | none => .error (.internal (.unknownScope text))

def SegmentRow.segment (row : SegmentRow) : Except Failure Segment := do
  let idBytes ← row.segmentId.readBytes "segment_id"
  let collectionBytes ← row.collectionId.readBytes "collection_id"
  let id ← readIdentifier idBytes
  let collectionId ← readIdentifier collectionBytes
  let scope ← readScope (← row.scope.readText "scope")
  let metadata ← match ← row.metadata.readOptional (Cell.readText "metadata") with
    | none => pure none
    | some text => (readDocumentText Metadata.ofJson? text).map some
  let filePaths ← readDocumentText FilePaths.ofJson? (← row.filePaths.readText "file_paths")
  let createdAt ← row.createdAt.readText "created_at"
  let updatedAt ← row.updatedAt.readText "updated_at"
  return {
    id, collectionId, scope, metadata, filePaths
    segmentType := ← row.segmentType.readText "segment_type"
    ts := ← row.ts.readInteger "ts"
    createdAt := ← readTime "created_at" createdAt
    updatedAt := ← readTime "updated_at" updatedAt
  }

def updateRows {α : Type} (condition : α → Bool) (change : α → α) (rows : List α) : Option (List α) :=
  if rows.any condition then some (rows.map fun row => if condition row then change row else row) else none

def sortRows {α : Type} (first second : α → Cell) (rows : List α) : List α :=
  rows.mergeSort fun left right =>
    ((first left).compare (first right)).then ((second left).compare (second right)) |>.isLE

end MetadataRegistry
