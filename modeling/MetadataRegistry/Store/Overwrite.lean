import MetadataRegistry.Store.Databases
import MetadataRegistry.Store.Segments

/-!
Overwriting one cell of one row behind the operations' back. The checks on values are off; missing
values, uniqueness and references are still enforced.
-/

namespace MetadataRegistry

structure Column (Row : Type) where
  name : String
  affinity : Affinity
  nullable : Bool
  write : Row → Cell → Row

def tenantColumns : List (Column TenantRow) := [
  ⟨"id", .text, false, fun row cell => { row with id := cell }⟩,
  ⟨"resource_name", .text, true, fun row cell => { row with resourceName := cell }⟩,
  ⟨"last_compaction_time", .integer, false, fun row cell => { row with lastCompactionTime := cell }⟩,
  ⟨"created_at", .text, false, fun row cell => { row with createdAt := cell }⟩,
  ⟨"updated_at", .text, false, fun row cell => { row with updatedAt := cell }⟩]

def databaseColumns : List (Column DatabaseRow) := [
  ⟨"database_id", .bytes, false, fun row cell => { row with databaseId := cell }⟩,
  ⟨"name", .text, false, fun row cell => { row with name := cell }⟩,
  ⟨"tenant_id", .text, false, fun row cell => { row with tenantId := cell }⟩,
  ⟨"ts", .integer, false, fun row cell => { row with ts := cell }⟩,
  ⟨"state", .text, false, fun row cell => { row with state := cell }⟩,
  ⟨"deleted_at", .integer, true, fun row cell => { row with deletedAt := cell }⟩,
  ⟨"created_at", .text, false, fun row cell => { row with createdAt := cell }⟩,
  ⟨"updated_at", .text, false, fun row cell => { row with updatedAt := cell }⟩]

def segmentColumns : List (Column SegmentRow) := [
  ⟨"segment_id", .bytes, false, fun row cell => { row with segmentId := cell }⟩,
  ⟨"segment_type", .text, false, fun row cell => { row with segmentType := cell }⟩,
  ⟨"scope", .text, false, fun row cell => { row with scope := cell }⟩,
  ⟨"collection_id", .bytes, false, fun row cell => { row with collectionId := cell }⟩,
  ⟨"metadata", .text, true, fun row cell => { row with metadata := cell }⟩,
  ⟨"ts", .integer, false, fun row cell => { row with ts := cell }⟩,
  ⟨"file_paths", .text, false, fun row cell => { row with filePaths := cell }⟩,
  ⟨"created_at", .text, false, fun row cell => { row with createdAt := cell }⟩,
  ⟨"updated_at", .text, false, fun row cell => { row with updatedAt := cell }⟩]

def distinctBy {α : Type} (agree : α → α → Bool) : List α → Bool
  | [] => true
  | row :: rest => rest.all (fun other => !agree row other) && distinctBy agree rest

namespace Store

def sameActiveName (left right : DatabaseRow) : Bool :=
  left.isActive && right.isActive && left.tenantId.same right.tenantId && left.name.same right.name

def isSound (store : Store) : Bool :=
  distinctBy (fun left right => left.id.same right.id) store.tenants &&
    distinctBy (fun left right => left.databaseId.same right.databaseId) store.databases &&
    distinctBy sameActiveName store.databases &&
    distinctBy (fun left right => left.segmentId.same right.segmentId) store.segments &&
    store.databases.all fun row => store.tenants.any fun tenant => row.tenantId.same tenant.id

end Store

inductive RowAddress where
  | tenant (id : String)
  | database (id : DatabaseId)
  | segment (id : SegmentId)

def overwriteRows {Row : Type} (columns : List (Column Row)) (column : String) (cell : Cell)
    (addressed : Row → Bool) (rows : List Row) : Option (Nat × List Row) := do
  let found ← columns.find? fun candidate => candidate.name == column
  let written := found.affinity.apply cell
  if !rows.any addressed then return (0, rows)
  else if written.isNull && !found.nullable then none
  else return (1, rows.map fun row => if addressed row then found.write row written else row)

def Store.overwriteUnchecked (address : RowAddress) (column : String) (cell : Cell) (store : Store) :
    Option (Nat × Store) :=
  match address with
  | .tenant id => (overwriteRows tenantColumns column cell (fun row => row.id.same (.text id)) store.tenants).map
      fun (count, tenants) => (count, { store with tenants })
  | .database id =>
      (overwriteRows databaseColumns column cell (fun row => row.databaseId.same (.ofIdentifier id))
        store.databases).map fun (count, databases) => (count, { store with databases })
  | .segment id => (overwriteRows segmentColumns column cell (Store.isSegment id) store.segments).map
      fun (count, segments) => (count, { store with segments })

def Store.overwrite (address : RowAddress) (column : String) (cell : Cell) (store : Store) :
    Option (Nat × Store) :=
  (store.overwriteUnchecked address column cell).filter fun (_, changed) => changed.isSound

end MetadataRegistry
