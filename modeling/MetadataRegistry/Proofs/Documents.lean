import MetadataRegistry.Database
import MetadataRegistry.Proofs.ExactMetadata
import MetadataRegistry.Proofs.Json.Records
import MetadataRegistry.Segment.Filter
import MetadataRegistry.Tenant

/-!
The documents of all records and requests. Each is read back as the record it was written for: times with their
nanoseconds and in any year, identifiers, words, texts and the paths of files as they are, and metadata if its
numbers are exact.
-/

namespace MetadataRegistry

@[simp] theorem isSpelled_state (state : DatabaseState) : state.toJson.IsSpelled := isSpelled_ofText state.text

@[simp] theorem ofJson?_toJson_state (state : DatabaseState) : DatabaseState.ofJson? state.toJson = some state := by
  rw [DatabaseState.ofJson?, DatabaseState.toJson, wordOf?_ofText]
  cases state <;> rfl

@[simp] theorem isSpelled_scope (scope : SegmentScope) : scope.toJson.IsSpelled := isSpelled_ofText scope.text

@[simp] theorem ofJson?_null_scope : SegmentScope.ofJson? .null = none := by
  simp only [SegmentScope.ofJson?, Json.wordOf?]

@[simp] theorem ofJson?_toJson_scope (scope : SegmentScope) : SegmentScope.ofJson? scope.toJson = some scope := by
  rw [SegmentScope.ofJson?, SegmentScope.toJson, wordOf?_ofText]
  cases scope <;> rfl

theorem represents_tenant (tenant : Tenant) : tenant.toJson.Represents Tenant.ofJson? tenant where
  spelled := isSpelled_ofMembers _ (by simp)
  found := by simp [Tenant.ofJson?, Tenant.toJson]

theorem represents_tenantCheckpoint (checkpoint : TenantCheckpoint) :
    checkpoint.toJson.Represents TenantCheckpoint.ofJson? checkpoint where
  spelled := isSpelled_ofMembers _ (by simp)
  found := by simp [TenantCheckpoint.ofJson?, TenantCheckpoint.toJson]

theorem represents_tenantName (request : TenantName) : request.toJson.Represents TenantName.ofJson? request where
  spelled := isSpelled_ofMembers _ (by simp)
  found := by simp [TenantName.ofJson?, TenantName.toJson]

theorem represents_resourceBinding (request : ResourceBinding) :
    request.toJson.Represents ResourceBinding.ofJson? request where
  spelled := isSpelled_ofMembers _ (by simp)
  found := by simp [ResourceBinding.ofJson?, ResourceBinding.toJson]

theorem represents_database (database : Database) : database.toJson.Represents Database.ofJson? database where
  spelled := isSpelled_ofMembers _ (by simp)
  found := by simp [Database.ofJson?, Database.toJson]

theorem represents_databaseCreation (request : DatabaseCreation) :
    request.toJson.Represents DatabaseCreation.ofJson? request where
  spelled := isSpelled_ofMembers _ (by simp)
  found := by simp [DatabaseCreation.ofJson?, DatabaseCreation.toJson]

theorem represents_databaseKey (request : DatabaseKey) : request.toJson.Represents DatabaseKey.ofJson? request where
  spelled := isSpelled_ofMembers _ (by simp)
  found := by simp [DatabaseKey.ofJson?, DatabaseKey.toJson]

theorem represents_databasePage (request : DatabasePage) :
    request.toJson.Represents DatabasePage.ofJson? request where
  spelled := isSpelled_ofMembers _ (by simp)
  found := by simp [DatabasePage.ofJson?, DatabasePage.toJson]

theorem represents_deletionCutoff (request : DeletionCutoff) :
    request.toJson.Represents DeletionCutoff.ofJson? request where
  spelled := isSpelled_ofMembers _ (by simp)
  found := by simp [DeletionCutoff.ofJson?, DeletionCutoff.toJson]

theorem represents_metadata {metadata : Metadata} (exact : metadata.IsExact) :
    (Metadata.toJson metadata).Represents Metadata.ofJson? metadata where
  spelled := isSpelled_metadata metadata
  found := ofJson?_toJson_metadata exact

theorem represents_filePaths (paths : FilePaths) : (FilePaths.toJson paths).Represents FilePaths.ofJson? paths where
  spelled := isSpelled_filePaths paths
  found := ofJson?_toJson_filePaths paths

theorem optional_metadata {metadata : Option Metadata} (exact : ∀ given ∈ metadata, given.IsExact) (fields : Fields) :
    Fields.optional (("metadata", .ofOption Metadata.toJson metadata) :: fields) "metadata" Metadata.ofJson? =
      some metadata :=
  Fields.optional_self fields "metadata" rfl fun given belongs => ofJson?_toJson_metadata (exact given belongs)

theorem represents_segment {segment : Segment} (exact : ∀ metadata ∈ segment.metadata, metadata.IsExact) :
    segment.toJson.Represents Segment.ofJson? segment where
  spelled := isSpelled_ofMembers _ (by simp [isSpelled_metadata])
  found := by simp [Segment.ofJson?, Segment.read?, Segment.toJson, optional_metadata exact]

theorem represents_segmentCreation {request : SegmentCreation}
    (exact : ∀ metadata ∈ request.metadata, metadata.IsExact) :
    request.toJson.Represents SegmentCreation.ofJson? request where
  spelled := isSpelled_ofMembers _ (by simp [isSpelled_metadata])
  found := by simp [SegmentCreation.ofJson?, SegmentCreation.read?, SegmentCreation.toJson, optional_metadata exact]

theorem represents_segmentUpdate {request : SegmentUpdate}
    (exact : ∀ metadata ∈ request.metadata, metadata.IsExact) :
    request.toJson.Represents SegmentUpdate.ofJson? request where
  spelled := isSpelled_ofMembers _ (by simp [isSpelled_metadata])
  found := by simp [SegmentUpdate.ofJson?, SegmentUpdate.read?, SegmentUpdate.toJson, optional_metadata exact]

theorem represents_segmentFlush (request : SegmentFlush) :
    request.toJson.Represents SegmentFlush.ofJson? request where
  spelled := isSpelled_ofMembers _ (by simp)
  found := by simp [SegmentFlush.ofJson?, SegmentFlush.toJson]

theorem represents_collectionFlush (request : CollectionFlush) :
    request.toJson.Represents CollectionFlush.ofJson? request where
  spelled := by
    have flushes := isSpelled_ofList request.segments fun flush _ => (represents_segmentFlush flush).spelled
    exact isSpelled_ofMembers _ (by simp [flushes])
  found := by
    have flushes := listOf?_ofList request.segments fun flush _ => (represents_segmentFlush flush).found
    simp [CollectionFlush.ofJson?, CollectionFlush.toJson, flushes]

theorem represents_segmentFilter (filter : SegmentFilter) :
    filter.toJson.Represents SegmentFilter.ofJson? filter where
  spelled := isSpelled_ofMembers _ (by simp)
  found := by simp [SegmentFilter.ofJson?, SegmentFilter.toJson]

/-- The records and the requests that callers exchange with the registry. Creating and finding a tenant take a name
alike, finding and deleting a database a key, and setting a checkpoint takes a checkpoint. -/
inductive Exchanged where
  | tenant (record : Tenant)
  | tenantCheckpoint (record : TenantCheckpoint)
  | database (record : Database)
  | segment (record : Segment)
  | segmentFilter (record : SegmentFilter)
  | metadata (record : Metadata)
  | filePaths (record : FilePaths)
  | tenantName (request : TenantName)
  | resourceBinding (request : ResourceBinding)
  | databaseCreation (request : DatabaseCreation)
  | databaseKey (request : DatabaseKey)
  | databasePage (request : DatabasePage)
  | deletionCutoff (request : DeletionCutoff)
  | segmentCreation (request : SegmentCreation)
  | segmentUpdate (request : SegmentUpdate)
  | segmentFlush (request : SegmentFlush)
  | collectionFlush (request : CollectionFlush)

namespace Exchanged

def heldMetadata : Exchanged → Option Metadata
  | segment record => record.metadata
  | metadata record => some record
  | segmentCreation request => request.metadata
  | segmentUpdate request => request.metadata
  | _ => none

def IsExact (exchanged : Exchanged) : Prop := ∀ metadata ∈ exchanged.heldMetadata, metadata.IsExact

def RoundTrips : Exchanged → Prop
  | tenant record => Recovers Tenant.toJson Tenant.ofJson? record
  | tenantCheckpoint record => Recovers TenantCheckpoint.toJson TenantCheckpoint.ofJson? record
  | database record => Recovers Database.toJson Database.ofJson? record
  | segment record => Recovers Segment.toJson Segment.ofJson? record
  | segmentFilter record => Recovers SegmentFilter.toJson SegmentFilter.ofJson? record
  | metadata record => Recovers Metadata.toJson Metadata.ofJson? record
  | filePaths record => Recovers FilePaths.toJson FilePaths.ofJson? record
  | tenantName request => Recovers TenantName.toJson TenantName.ofJson? request
  | resourceBinding request => Recovers ResourceBinding.toJson ResourceBinding.ofJson? request
  | databaseCreation request => Recovers DatabaseCreation.toJson DatabaseCreation.ofJson? request
  | databaseKey request => Recovers DatabaseKey.toJson DatabaseKey.ofJson? request
  | databasePage request => Recovers DatabasePage.toJson DatabasePage.ofJson? request
  | deletionCutoff request => Recovers DeletionCutoff.toJson DeletionCutoff.ofJson? request
  | segmentCreation request => Recovers SegmentCreation.toJson SegmentCreation.ofJson? request
  | segmentUpdate request => Recovers SegmentUpdate.toJson SegmentUpdate.ofJson? request
  | segmentFlush request => Recovers SegmentFlush.toJson SegmentFlush.ofJson? request
  | collectionFlush request => Recovers CollectionFlush.toJson CollectionFlush.ofJson? request

end Exchanged

/-- The text that is written for a record or a request is read as the same record or request. -/
theorem exchanged_round_trips (exchanged : Exchanged) (exact : exchanged.IsExact) : exchanged.RoundTrips := by
  cases exchanged with
  | tenant record => exact recovers_of_represents (represents_tenant record)
  | tenantCheckpoint record => exact recovers_of_represents (represents_tenantCheckpoint record)
  | database record => exact recovers_of_represents (represents_database record)
  | segment record => exact recovers_of_represents (represents_segment exact)
  | segmentFilter record => exact recovers_of_represents (represents_segmentFilter record)
  | metadata record => exact recovers_of_represents (represents_metadata (exact record rfl))
  | filePaths record => exact recovers_of_represents (represents_filePaths record)
  | tenantName request => exact recovers_of_represents (represents_tenantName request)
  | resourceBinding request => exact recovers_of_represents (represents_resourceBinding request)
  | databaseCreation request => exact recovers_of_represents (represents_databaseCreation request)
  | databaseKey request => exact recovers_of_represents (represents_databaseKey request)
  | databasePage request => exact recovers_of_represents (represents_databasePage request)
  | deletionCutoff request => exact recovers_of_represents (represents_deletionCutoff request)
  | segmentCreation request => exact recovers_of_represents (represents_segmentCreation exact)
  | segmentUpdate request => exact recovers_of_represents (represents_segmentUpdate exact)
  | segmentFlush request => exact recovers_of_represents (represents_segmentFlush request)
  | collectionFlush request => exact recovers_of_represents (represents_collectionFlush request)

def variedMetadata : Metadata :=
  .ofEntries [("real", .real ⟨4607182418800017408⟩), ("integer", .integer 1), ("half", .real ⟨4602678819172646912⟩),
    ("truth", .bool true), ("text \"", .text "a\n\x00é")]

def variedSegment : Segment where
  id := ⟨List.replicate 16 7, rfl⟩
  segmentType := "urn:\t\"type\""
  scope := .metadata
  collectionId := .nil
  metadata := some variedMetadata
  ts := Int64.minValue
  filePaths := .ofEntries [("role", ["second", "first"]), ("", [])]
  createdAt := ⟨253402304400, 123456789, by decide, by decide⟩
  updatedAt := ⟨-61, 1500000000, by decide, by decide⟩

theorem exchanged_round_trips_varied :
    (Exchanged.segment variedSegment).IsExact ∧
      (Json.parse? variedSegment.toJson.text).bind Segment.ofJson? = some variedSegment := by
  have exact : (Exchanged.segment variedSegment).IsExact := by
    intro metadata held
    cases held
    decide +kernel
  exact ⟨exact, exchanged_round_trips (.segment variedSegment) exact⟩

end MetadataRegistry
