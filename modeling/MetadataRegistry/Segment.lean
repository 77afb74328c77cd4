import MetadataRegistry.Json.Record
import MetadataRegistry.Segment.Metadata

/-!
Storage segments of a collection. The requests that concern segments, and the documents of all of
them. The readers of requests with metadata take the reader of the metadata as a parameter.
-/

namespace MetadataRegistry

inductive SegmentScope where
  | vector
  | metadata
  | record
  deriving DecidableEq, Repr

namespace SegmentScope

def text : SegmentScope → String
  | vector => "vector"
  | metadata => "metadata"
  | record => "record"

def ofWord? : String → Option SegmentScope
  | "vector" => some vector
  | "metadata" => some metadata
  | "record" => some record
  | _ => none

/-- Letters of either case are the same; letters outside ASCII have no case. -/
def parse? (text : String) : Option SegmentScope :=
  ofWord? (String.ofList (text.toList.map Char.toLower))

def toJson (scope : SegmentScope) : Json := .ofText scope.text

def ofJson? (document : Json) : Option SegmentScope := document.wordOf? ofWord?

end SegmentScope

structure Segment where
  id : SegmentId
  segmentType : String
  scope : SegmentScope
  collectionId : CollectionId
  metadata : Option Metadata
  ts : Int64
  filePaths : FilePaths
  createdAt : Instant
  updatedAt : Instant
  deriving DecidableEq

structure SegmentCreation where
  id : SegmentId
  segmentType : String
  scope : SegmentScope
  collectionId : CollectionId
  metadata : Option Metadata
  deriving DecidableEq

/-- With `resetMetadata` the stored map becomes the given one, or none; without it the given map is
merged into the stored one. A given collection moves the segment. -/
structure SegmentUpdate where
  id : SegmentId
  collectionId : Option CollectionId
  metadata : Option Metadata
  resetMetadata : Bool
  ts : Option Int64
  deriving DecidableEq

structure SegmentFlush where
  id : SegmentId
  filePaths : FilePaths
  deriving DecidableEq

structure CollectionFlush where
  tenantId : String
  collectionId : CollectionId
  segments : List SegmentFlush
  compactionTime : Int64
  deriving DecidableEq

namespace Segment

def create (id : SegmentId) (segmentType : String) (scope : SegmentScope) (collectionId : CollectionId)
    (metadata : Option Metadata) (now : Instant) : Segment :=
  ⟨id, segmentType, scope, collectionId, metadata, 0, .empty, now, now⟩

def toJson (segment : Segment) : Json :=
  .ofMembers [("id", .ofIdentifier segment.id), ("segment_type", .ofText segment.segmentType),
    ("scope", segment.scope.toJson), ("collection_id", .ofIdentifier segment.collectionId),
    ("metadata", .ofOption Metadata.toJson segment.metadata), ("ts", .ofInt64 segment.ts),
    ("file_paths", FilePaths.toJson segment.filePaths),
    ("created_at", .ofInstant segment.createdAt), ("updated_at", .ofInstant segment.updatedAt)]

def read? (metadata : Json → Option Metadata) (document : Json) : Option Segment := do
  let fields ← document.fields? ["id", "segment_type", "scope", "collection_id", "metadata", "ts",
    "file_paths", "created_at", "updated_at"]
  return {
    id := ← fields.required "id" Json.identifier?
    segmentType := ← fields.required "segment_type" Json.text?
    scope := ← fields.required "scope" SegmentScope.ofJson?
    collectionId := ← fields.required "collection_id" Json.identifier?
    metadata := ← fields.optional "metadata" metadata
    ts := ← fields.required "ts" Json.int64?
    filePaths := ← fields.required "file_paths" FilePaths.ofJson?
    createdAt := ← fields.required "created_at" Json.instant?
    updatedAt := ← fields.required "updated_at" Json.instant?
  }

def ofJson? (document : Json) : Option Segment := read? Metadata.ofJson? document

end Segment

namespace SegmentCreation

def toJson (request : SegmentCreation) : Json :=
  .ofMembers [("id", .ofIdentifier request.id), ("segment_type", .ofText request.segmentType),
    ("scope", request.scope.toJson), ("collection_id", .ofIdentifier request.collectionId),
    ("metadata", .ofOption Metadata.toJson request.metadata)]

def read? (metadata : Json → Option Metadata) (document : Json) : Option SegmentCreation := do
  let fields ← document.fields? ["id", "segment_type", "scope", "collection_id", "metadata"]
  return {
    id := ← fields.required "id" Json.identifier?
    segmentType := ← fields.required "segment_type" Json.text?
    scope := ← fields.required "scope" SegmentScope.ofJson?
    collectionId := ← fields.required "collection_id" Json.identifier?
    metadata := ← fields.optional "metadata" metadata
  }

def ofJson? (document : Json) : Option SegmentCreation := read? Metadata.ofJson? document

end SegmentCreation

namespace SegmentUpdate

def toJson (request : SegmentUpdate) : Json :=
  .ofMembers [("id", .ofIdentifier request.id), ("collection_id", .ofOption .ofIdentifier request.collectionId),
    ("metadata", .ofOption Metadata.toJson request.metadata),
    ("reset_metadata", .bool request.resetMetadata), ("ts", .ofOption .ofInt64 request.ts)]

def read? (metadata : Json → Option Metadata) (document : Json) : Option SegmentUpdate := do
  let fields ← document.fields? ["id", "collection_id", "metadata", "reset_metadata", "ts"]
  return {
    id := ← fields.required "id" Json.identifier?
    collectionId := ← fields.optional "collection_id" Json.identifier?
    metadata := ← fields.optional "metadata" metadata
    resetMetadata := ← fields.required "reset_metadata" Json.bool?
    ts := ← fields.optional "ts" Json.int64?
  }

def ofJson? (document : Json) : Option SegmentUpdate := read? Metadata.ofJson? document

end SegmentUpdate

namespace SegmentFlush

def toJson (request : SegmentFlush) : Json :=
  .ofMembers [("id", .ofIdentifier request.id), ("file_paths", FilePaths.toJson request.filePaths)]

def ofJson? (document : Json) : Option SegmentFlush := do
  let fields ← document.fields? ["id", "file_paths"]
  return {
    id := ← fields.required "id" Json.identifier?
    filePaths := ← fields.required "file_paths" FilePaths.ofJson?
  }

end SegmentFlush

namespace CollectionFlush

def toJson (request : CollectionFlush) : Json :=
  .ofMembers [("tenant_id", .ofText request.tenantId), ("collection_id", .ofIdentifier request.collectionId),
    ("segments", .ofList SegmentFlush.toJson request.segments),
    ("compaction_time", .ofInt64 request.compactionTime)]

def ofJson? (document : Json) : Option CollectionFlush := do
  let fields ← document.fields? ["tenant_id", "collection_id", "segments", "compaction_time"]
  return {
    tenantId := ← fields.required "tenant_id" Json.text?
    collectionId := ← fields.required "collection_id" Json.identifier?
    segments := ← fields.required "segments" (Json.listOf? SegmentFlush.ofJson?)
    compactionTime := ← fields.required "compaction_time" Json.int64?
  }

end CollectionFlush

end MetadataRegistry
