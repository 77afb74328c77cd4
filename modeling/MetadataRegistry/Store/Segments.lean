import MetadataRegistry.Json.Merge
import MetadataRegistry.Store.Tenants

/-!
Operations on the segment table. Metadata updates and file-path flushes write different columns.
-/

namespace MetadataRegistry

namespace Store

def isSegment (id : SegmentId) (row : SegmentRow) : Bool := row.segmentId.same (.ofIdentifier id)

def insertSegment (segment : Segment) (store : Store) : Except Failure Store :=
  if store.segments.any (isSegment segment.id) then
    .error ((StoreError.violation .unique).failure "segment" segment.id.text)
  else .ok { store with segments := store.segments ++ [.ofSegment segment] }

def getSegment (id : SegmentId) (store : Store) : Except Failure (Option Segment) :=
  match store.segments.find? (isSegment id) with
  | none => .ok none
  | some row => row.segment.map some

def listSegments (store : Store) : Except Failure (List Segment) :=
  (sortRows (·.createdAt) (·.segmentId) store.segments).mapM SegmentRow.segment

/-- The text that a stored document is merged as: null counts as an empty object, bytes as text. -/
def mergeableText : Cell → Option String
  | .null => some "{}"
  | .text text => some text
  | .bytes bytes => textOfBytes bytes
  | _ => none

def mergeMetadata (stored : Cell) (metadata : Metadata) : Option Cell := do
  let text ← mergeableText stored
  let document ← Json.parse? text
  return .ofDocument (document.merge (Metadata.toJson metadata))

def updatedMetadata (update : SegmentUpdate) (stored : Cell) : Option Cell :=
  match update.resetMetadata, update.metadata with
  | true, none => some .null
  | true, some metadata => some (.ofDocument (Metadata.toJson metadata))
  | false, none => some stored
  | false, some metadata => mergeMetadata stored metadata

def updateSegmentRow (now : Instant) (update : SegmentUpdate) (row : SegmentRow) : Option SegmentRow := do
  let metadata ← updatedMetadata update row.metadata
  return { row with
    metadata
    ts := (update.ts.map Cell.integer).getD row.ts
    collectionId := (update.collectionId.map Cell.ofIdentifier).getD row.collectionId
    updatedAt := .ofInstant now }

def updateSegment (now : Instant) (update : SegmentUpdate) (store : Store) : Except Failure Store :=
  if store.segments.any (isSegment update.id) then
    match store.segments.mapM fun row =>
        if isSegment update.id row then updateSegmentRow now update row else some row with
    | some segments => .ok { store with segments }
    | none => .error (.internal .store)
  else .error (.notFound "segment" update.id.text)

def flushSegment (now : Instant) (collectionId : Option CollectionId) (flush : SegmentFlush) (store : Store) :
    Except Failure Store :=
  let flushed (row : SegmentRow) : Bool :=
    isSegment flush.id row && collectionId.all fun id => row.collectionId.same (.ofIdentifier id)
  let replace (row : SegmentRow) : SegmentRow :=
    { row with filePaths := .ofDocument (FilePaths.toJson flush.filePaths), updatedAt := .ofInstant now }
  match updateRows flushed replace store.segments with
  | some segments => .ok { store with segments }
  | none => .error (.notFound "segment" flush.id.text)

end Store

end MetadataRegistry
