import MetadataRegistry.Segment

/-!
Selecting segments. Every criterion that is given must match; a criterion that is not given, or a
nil identifier, matches everything.
-/

namespace MetadataRegistry

structure SegmentFilter where
  id : Option SegmentId
  segmentType : Option String
  scope : Option SegmentScope
  collectionId : Option CollectionId
  deriving DecidableEq

def meantIdentifier {kind : IdentifierKind} (id : Option (Identifier kind)) : Option (Identifier kind) :=
  id.filter fun id => !id.isNil

def criterionHolds {α : Type} [DecidableEq α] (criterion : Option α) (value : α) : Bool :=
  criterion.all fun expected => decide (value = expected)

def segmentMatches (segment : Segment) (id : Option SegmentId) (segmentType : Option String)
    (scope : Option SegmentScope) (collectionId : Option CollectionId) : Bool :=
  criterionHolds (meantIdentifier id) segment.id && criterionHolds segmentType segment.segmentType &&
    criterionHolds scope segment.scope && criterionHolds (meantIdentifier collectionId) segment.collectionId

namespace SegmentFilter

def admits (filter : SegmentFilter) (segment : Segment) : Bool :=
  segmentMatches segment filter.id filter.segmentType filter.scope filter.collectionId

def apply (filter : SegmentFilter) (segments : List Segment) : List Segment := segments.filter filter.admits

def toJson (filter : SegmentFilter) : Json :=
  .ofMembers [("id", .ofOption .ofIdentifier filter.id), ("segment_type", .ofOption .ofText filter.segmentType),
    ("scope", .ofOption SegmentScope.toJson filter.scope),
    ("collection_id", .ofOption .ofIdentifier filter.collectionId)]

def ofJson? (document : Json) : Option SegmentFilter := do
  let fields ← document.fields? ["id", "segment_type", "scope", "collection_id"]
  return {
    id := ← fields.optional "id" Json.identifier?
    segmentType := ← fields.optional "segment_type" Json.text?
    scope := ← fields.optional "scope" SegmentScope.ofJson?
    collectionId := ← fields.optional "collection_id" Json.identifier?
  }

end SegmentFilter

end MetadataRegistry
