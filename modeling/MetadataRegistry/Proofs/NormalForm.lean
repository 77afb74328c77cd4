import MetadataRegistry.Proofs.InsertedRows
import MetadataRegistry.Proofs.TenantIsolation
import MetadataRegistry.Proofs.TenantNames

/-!
Records in normal form. The service checks what it writes, so whatever calls and sweeps come in turn, names are their
own trims and not empty, identifiers are given, and a database has a time of deletion if it is soft-deleted. Look-ups
bring their requests into the same form, so each record is found by what is stored of it.
-/

namespace MetadataRegistry

def Cell.HoldsName (cell : Cell) : Prop := ∃ name, IsName name ∧ cell = .text name

structure TenantRow.IsNormal (row : TenantRow) : Prop where
  id : row.id.HoldsName
  resourceName : row.resourceName = .null ∨ row.resourceName.HoldsName

structure DatabaseRow.IsNormal (row : DatabaseRow) : Prop where
  name : ∃ name, IsName name ∧ name.length ≤ 128 ∧ row.name = .text name
  tenantId : row.tenantId.HoldsName
  deletion : (row.state = .text "active" ∧ row.deletedAt = .null) ∨
    (row.state = .text "soft_deleted" ∧
      ∃ deletedAt : Instant, row.deletedAt = .integer (.ofInt deletedAt.epochMillis))

def FilePaths.HasRoles (paths : FilePaths) : Prop := ∀ role ∈ paths.keys, trimText role ≠ ""

structure SegmentRow.IsNormal (row : SegmentRow) : Prop where
  id : ∃ id : SegmentId, id ≠ .nil ∧ row.segmentId = .ofIdentifier id
  segmentType : row.segmentType.HoldsName
  collectionId : ∃ id : CollectionId, id ≠ .nil ∧ row.collectionId = .ofIdentifier id
  filePaths : ∃ paths : FilePaths, paths.HasRoles ∧ row.filePaths = .ofDocument (FilePaths.toJson paths)

structure Store.IsNormal (store : Store) : Prop where
  tenants : ∀ row ∈ store.tenants, row.IsNormal
  databases : ∀ row ∈ store.databases, row.IsNormal
  segments : ∀ row ∈ store.segments, row.IsNormal

theorem isNormal_empty : Store.empty.IsNormal where
  tenants := fun _ member => nomatch member
  databases := fun _ member => nomatch member
  segments := fun _ member => nomatch member

section Changes

variable {now : Instant}

theorem TenantRow.IsNormal.advanced {row : TenantRow} (normal : row.IsNormal) (id : String) (time : Int64) :
    (row.advanced now id time).IsNormal := by
  unfold TenantRow.advanced
  split
  · exact { normal with }
  · exact normal

theorem TenantRow.IsNormal.bound {row : TenantRow} (normal : row.IsNormal) (id : String) {resourceName : String}
    (named : IsName resourceName) : (row.bound now id resourceName).IsNormal := by
  unfold TenantRow.bound
  split
  · exact { normal with resourceName := Or.inr ⟨resourceName, named, rfl⟩ }
  · exact normal

theorem DatabaseRow.IsNormal.deleted {row : DatabaseRow} (normal : row.IsNormal) (tenant name : String) :
    (row.deleted now tenant name).IsNormal := by
  unfold DatabaseRow.deleted
  split
  · exact { normal with deletion := Or.inr ⟨rfl, now, rfl⟩ }
  · exact normal

theorem SegmentRow.IsNormal.updated {row : SegmentRow} (normal : row.IsNormal) {update : SegmentUpdate}
    (moved : ∀ id ∈ update.collectionId, id ≠ .nil) : (row.updated now update).IsNormal := by
  rw [SegmentRow.updated, updateSegmentRow_eq]
  split
  · cases Store.updatedMetadata update row.metadata with
    | none => exact normal
    | some metadata =>
        refine { normal with collectionId := ?_ }
        cases given : update.collectionId with
        | none => exact normal.collectionId
        | some id => exact ⟨id, moved id given, rfl⟩
  · exact normal

theorem SegmentRow.IsNormal.withPaths {row : SegmentRow} (normal : row.IsNormal) {paths : FilePaths}
    (visible : paths.HasRoles) : (row.withPaths now paths).IsNormal :=
  { normal with filePaths := ⟨paths, visible, rfl⟩ }

theorem SegmentRow.IsNormal.flushed {row : SegmentRow} (normal : row.IsNormal) (collectionId : Option CollectionId)
    {flush : SegmentFlush} (visible : flush.filePaths.HasRoles) : (row.flushed now collectionId flush).IsNormal := by
  unfold SegmentRow.flushed
  split
  · exact normal.withPaths visible
  · exact normal

theorem SegmentRow.IsNormal.flushedRow {row : SegmentRow} (normal : row.IsNormal) {flush : CollectionFlush}
    (visible : ∀ listed ∈ flush.segments, listed.filePaths.HasRoles) : (flush.flushedRow now row).IsNormal := by
  unfold CollectionFlush.flushedRow
  split
  · split
    · rename_i listed last
      exact normal.withPaths (visible listed (List.mem_reverse.mp (List.mem_of_find?_eq_some last)))
    · exact normal
  · exact normal

end Changes

def Write.IsNormal : Write → Prop
  | insertTenant tenant => (TenantRow.ofTenant tenant).IsNormal
  | bindResourceName _ resourceName => IsName resourceName
  | insertDatabase database => (DatabaseRow.ofDatabase database).IsNormal
  | insertSegment segment => (SegmentRow.ofSegment segment).IsNormal
  | updateSegment update => ∀ id ∈ update.collectionId, id ≠ .nil
  | flushSegment _ flush => flush.filePaths.HasRoles
  | flushCollection flush => ∀ listed ∈ flush.segments, listed.filePaths.HasRoles
  | advanceCheckpoint _ _ | softDelete _ _ | finishDeletion _ => True

theorem isNormal_of_did {now : Instant} {write : Write} {before after : Store} (did : write.Did now before after)
    (keeps : write.IsNormal) (normal : before.IsNormal) : after.IsNormal := by
  cases write with
  | insertTenant tenant =>
      obtain ⟨_, rfl⟩ := did
      exact { normal with tenants := (all_append_iff normal.tenants _).mpr keeps }
  | advanceCheckpoint id time =>
      obtain ⟨_, rfl⟩ := did
      exact { normal with
        tenants := List.forall_mem_map.mpr fun row member => (normal.tenants row member).advanced id time }
  | bindResourceName id resourceName =>
      obtain ⟨_, rfl⟩ := did
      exact { normal with
        tenants := List.forall_mem_map.mpr fun row member => (normal.tenants row member).bound id keeps }
  | insertDatabase database =>
      obtain ⟨_, _, _, rfl⟩ := did
      exact { normal with databases := (all_append_iff normal.databases _).mpr keeps }
  | softDelete tenant name =>
      obtain ⟨_, rfl⟩ := did
      exact { normal with
        databases := List.forall_mem_map.mpr fun row member => (normal.databases row member).deleted tenant name }
  | finishDeletion cutoff =>
      obtain ⟨kept, sublist, _, rfl⟩ := did
      exact { normal with databases := fun row member => normal.databases row (sublist.subset member) }
  | insertSegment segment =>
      obtain ⟨_, rfl⟩ := did
      exact { normal with segments := (all_append_iff normal.segments _).mpr keeps }
  | updateSegment update =>
      obtain ⟨_, _, rfl⟩ := did
      exact { normal with
        segments := List.forall_mem_map.mpr fun row member => (normal.segments row member).updated keeps }
  | flushSegment collectionId flush =>
      obtain ⟨_, rfl⟩ := did
      exact { normal with
        segments := List.forall_mem_map.mpr fun row member => (normal.segments row member).flushed collectionId keeps }
  | flushCollection flush =>
      obtain ⟨_, rfl⟩ := did
      exact { normal with
        tenants := List.forall_mem_map.mpr fun row member =>
          (normal.tenants row member).advanced flush.tenantId flush.compactionTime
        segments := List.forall_mem_map.mpr fun row member => (normal.segments row member).flushedRow keeps }

theorem isNormal_create_tenant {name : String} (named : IsName name) (now : Instant) :
    (TenantRow.ofTenant (.create name now)).IsNormal :=
  ⟨⟨name, named, rfl⟩, Or.inl rfl⟩

theorem isNormal_create_database {name tenant : String} (named : IsName name)
    (short : name.length ≤ longestDatabaseName) (owned : IsName tenant) (id : DatabaseId) (now : Instant) :
    (DatabaseRow.ofDatabase (.create id name tenant now)).IsNormal :=
  ⟨⟨name, named, short, rfl⟩, ⟨tenant, owned, rfl⟩, Or.inl ⟨rfl, rfl⟩⟩

theorem isNormal_create_segment {id : SegmentId} {collectionId : CollectionId} {segmentType : String}
    (identified : id ≠ .nil) (collected : collectionId ≠ .nil) (typed : IsName segmentType) (scope : SegmentScope)
    (metadata : Option Metadata) (now : Instant) :
    (SegmentRow.ofSegment (.create id segmentType scope collectionId metadata now)).IsNormal :=
  ⟨⟨id, identified, rfl⟩, ⟨segmentType, typed, rfl⟩, ⟨collectionId, collected, rfl⟩, ⟨.empty, nofun, rfl⟩⟩

theorem ServiceCall.Writes.isNormal {now : Instant} {call : ServiceCall} {write : Write}
    (writes : call.Writes now write) : write.IsNormal := by
  cases writes with
  | createTenant named => exact isNormal_create_tenant (isName_of_required named) now
  | setTenantResourceName named bound => exact isName_of_required bound
  | createDatabase identified named owned =>
      obtain ⟨_, _, short⟩ := requiredDatabaseName_eq_ok_iff.mp named
      exact isNormal_create_database (isName_of_requiredDatabaseName named) short (isName_of_required owned) _ now
  | createSegment typed identified =>
      obtain ⟨given, collected⟩ := requiredSegmentIds_eq_ok_iff.mp identified
      exact isNormal_create_segment given collected (isName_of_required typed) _ _ now
  | updateSegment moved => exact requiredCollectionId_eq_ok_iff.mp moved
  | flushSegmentCompaction visible => exact requiredRoles_eq_ok_iff.mp visible
  | flushCollectionCompaction named reached visible =>
      exact fun listed member => requiredRoles_eq_ok_iff.mp (forM_requiredRoles_eq_ok_iff.mp visible listed member)
  | setTenantLastCompactionTime | deleteDatabase | finishDatabaseDeletion => trivial

theorem ServiceCall.Writes.readsBack {now : Instant} {call : ServiceCall} {write : Write}
    (writes : call.Writes now write) (inYears : now.HasStoredYear)
    (finite : ∀ metadata ∈ call.metadata?, metadata.IsFinite) : write.ReadsBack now := by
  cases writes with
  | createTenant => exact ⟨inYears, inYears⟩
  | createDatabase => exact ⟨inYears, inYears, fun _ impossible => nomatch impossible⟩
  | createSegment => exact ⟨inYears, inYears, finite⟩
  | updateSegment => exact ⟨inYears, fun _ => finite⟩
  | finishDatabaseDeletion => trivial
  | setTenantResourceName | setTenantLastCompactionTime | deleteDatabase | flushSegmentCompaction
  | flushCollectionCompaction => exact inYears

def Operation.metadata? : Operation → Option Metadata
  | service call _ => call.metadata?
  | sweep _ _ | table _ | transaction _ _ | overwrite _ _ _ | migrate | close => none

structure Step.IsStorable (step : Step) : Prop where
  inYears : step.clock.HasStoredYear
  finite : ∀ metadata ∈ step.operation.metadata?, metadata.IsFinite

instance : DecidablePred Step.IsStorable := fun step =>
  decidable_of_iff (step.clock.HasStoredYear ∧ ∀ metadata ∈ step.operation.metadata?, metadata.IsFinite)
    ⟨fun ⟨inYears, finite⟩ => ⟨inYears, finite⟩, fun storable => ⟨storable.inYears, storable.finite⟩⟩

section Runs

variable {operation : Operation} {step : Step} {now : Instant} {write : Write}

theorem Operation.IsOffered.isNormal (offered : operation.IsOffered) (makes : operation.write? now = some write) :
    write.IsNormal := by
  rcases offered.writes makes with ⟨call, _, _, writes⟩ | ⟨cutoff, rfl⟩
  · exact writes.isNormal
  · trivial

theorem Step.IsStorable.readsBack (storable : step.IsStorable) (offered : step.operation.IsOffered)
    (makes : step.operation.write? step.clock = some write) : write.ReadsBack step.clock := by
  rcases offered.writes makes with ⟨call, stalled, same, writes⟩ | ⟨cutoff, rfl⟩
  · have finite := storable.finite
    rw [same] at finite
    exact writes.readsBack storable.inYears finite
  · trivial

theorem isNormal_after (clock : Instant) (steps : List Step) (offered : ∀ step ∈ steps, step.operation.IsOffered) :
    ((Session.start clock).after steps).store.IsNormal :=
  Session.store_after_keeps_of_single Store.IsNormal (·.operation.IsOffered) (fun _ offered => offered.isSingle)
    (fun _ _ _ _ offered makes did normal => isNormal_of_did did (offered.isNormal makes) normal) steps
    (Session.start clock) offered hasIdentifiers_empty isNormal_empty

theorem isReadable_after (clock : Instant) (steps : List Step) (offered : ∀ step ∈ steps, step.operation.IsOffered)
    (storable : ∀ step ∈ steps, step.IsStorable) : ((Session.start clock).after steps).store.IsReadable :=
  Session.store_after_keeps_of_single Store.IsReadable (fun step => step.operation.IsOffered ∧ step.IsStorable)
    (fun _ admitted => admitted.1.isSingle)
    (fun _ _ _ _ admitted makes did readable =>
      (isReadable_iff_of_did readable did).mpr (admitted.2.readsBack admitted.1 makes))
    steps (Session.start clock) (fun step member => ⟨offered step member, storable step member⟩) hasIdentifiers_empty
    isReadable_empty

end Runs

/-! Records are found by what is read of them. -/

section Tenants

variable {store : Store} {row : TenantRow} {tenant : Tenant}

theorem TenantRow.IsNormal.isName (normal : row.IsNormal) (read : row.tenant = .ok tenant) : IsName tenant.id := by
  obtain ⟨name, named, same⟩ := normal.id
  exact Cell.text.inj ((id_of_tenant read).symm.trans same) ▸ named

theorem getTenant_of_mem (integral : store.Integral) (member : row ∈ store.tenants) (read : row.tenant = .ok tenant) :
    store.getTenant tenant.id = .ok (some tenant) := by
  have named := id_of_tenant read
  have found : store.tenant? tenant.id = some row := by
    refine find?_eq_some_of_single member (decide_eq_true named) fun other also otherNamed => ?_
    exact List.inj_on_of_nodup_map integral.tenantIds also member ((of_decide_eq_true otherNamed).trans named.symm)
  simp only [getTenant_eq, found, read]
  rfl

end Tenants

section Databases

variable {store : Store} {row : DatabaseRow} {database : Database}

theorem parse?_eq_some_iff {text : String} {state : DatabaseState} :
    DatabaseState.parse? text = some state ↔ text = state.text := by
  constructor
  · intro parsed
    unfold DatabaseState.parse? at parsed
    split at parsed <;> cases parsed <;> rfl
  · rintro rfl
    cases state <;> rfl

theorem cells_of_database (read : row.database = .ok database) :
    row.name = .text database.name ∧ row.tenantId = .text database.tenant ∧ row.state = .text database.state.text := by
  rw [database_eq] at read
  simp only [bind_eq_ok_iff, Cell.readText_iff, readState_iff, parse?_eq_some_iff] at read
  obtain ⟨_, _, _, _, _, stored, _, rfl, _, _, _, _, _, _, _, named, _, owned, _, _, _, _, _, _, same⟩ := read
  cases same
  exact ⟨named, owned, stored⟩

theorem getDatabaseByName_of_mem (integral : store.Integral) (member : row ∈ store.databases)
    (read : row.database = .ok database) (active : database.state = .active) :
    store.getDatabaseByName database.tenant database.name = .ok (some database) := by
  obtain ⟨named, owned, stored⟩ := cells_of_database read
  rw [active] at stored
  have wanted : row.isActiveNamed database.tenant database.name = true :=
    (isActiveNamed_iff _ _ _).mpr ⟨owned, named, stored⟩
  have found : store.databases.find? (DatabaseRow.isActiveNamed database.tenant database.name) = some row :=
    find?_eq_some_of_single member wanted
      fun other also otherWanted => integral.same_activeNamed also member otherWanted wanted
  rw [Store.getDatabaseByName, found]
  simp only [read]
  rfl

theorem findDatabase_run {name tenant : String} {now : Instant} {stalled : List Table}
    (prompt : Table.databases ∉ stalled) (read : store.getDatabaseByName tenant name = .ok (some database)) :
    findDatabase tenant name ⟨now, stalled, true⟩ store = (.ok database, store) := by
  have reaches : ¬stalled.contains .databases = true := by simpa using prompt
  simp only [findDatabase, bind_run, Access.reach, if_neg reaches, Access.query_run, read]
  rfl

theorem outcome_getDatabase {session : Session} (opened : session.isOpen = true) {name tenant : String}
    (named : IsName name) (short : name.length ≤ longestDatabaseName) (owned : IsName tenant)
    (read : session.store.getDatabaseByName tenant name = .ok (some database)) (now : Instant) :
    session.outcome now [] (.getDatabase ⟨name, tenant⟩) = .answered (.database (some database)) := by
  refine outcome_of_run opened ?_
  simp only [ServiceCall.run, getDatabase, bind_run, Service.validated, named.requiredDatabaseName short,
    owned.required, Service.perform, findDatabase_run List.not_mem_nil read]
  rfl

end Databases

section Segments

variable {row : SegmentRow} {segment : Segment}

theorem segmentType_of_segment (read : row.segment = .ok segment) : row.segmentType = .text segment.segmentType := by
  rw [segment_eq] at read
  simp only [bind_eq_ok_iff, Cell.readText_iff] at read
  obtain ⟨_, _, _, _, _, _, _, _, _, _, _, _, _, _, _, _, _, _, _, _, _, _, _, typed, _, _, _, _, _, _, same⟩ := read
  cases same
  exact typed

theorem collectionId_of_segment {id : CollectionId} (collected : row.collectionId = .ofIdentifier id)
    (read : row.segment = .ok segment) : segment.collectionId = id := by
  have given := (gives_of_segment read).collectionId
  rw [collected, readIdentifier_ofIdentifier] at given
  exact (Except.ok.inj given).symm

structure Segment.IsAddressed (segment : Segment) : Prop where
  id : segment.id ≠ .nil
  segmentType : IsName segment.segmentType
  collectionId : segment.collectionId ≠ .nil

theorem SegmentRow.IsNormal.isAddressed (normal : row.IsNormal) (read : row.segment = .ok segment) :
    segment.IsAddressed := by
  obtain ⟨id, given, identified⟩ := normal.id
  obtain ⟨name, named, typed⟩ := normal.segmentType
  obtain ⟨collectionId, meant, collected⟩ := normal.collectionId
  exact {
    id := id_of_segment identified read ▸ given
    segmentType := Cell.text.inj ((segmentType_of_segment read).symm.trans typed) ▸ named
    collectionId := collectionId_of_segment collected read ▸ meant }

structure SegmentFilter.IsTakenFrom (request : SegmentFilter) (segment : Segment) : Prop where
  id : ∀ id ∈ request.id, segment.id = id
  segmentType : ∀ segmentType ∈ request.segmentType, segment.segmentType = segmentType
  scope : ∀ scope ∈ request.scope, segment.scope = scope
  collectionId : ∀ id ∈ request.collectionId, segment.collectionId = id

/-- Criteria that are taken from a segment in normal form are met by the segments that they could be taken from. -/
theorem selects_iff_isTakenFrom {request : SegmentFilter} (addressed : segment.IsAddressed)
    (own : request.IsTakenFrom segment) (other : Segment) : request.Selects other ↔ request.IsTakenFrom other := by
  constructor
  · intro selected
    refine ⟨?_, ?_, selected.scope, ?_⟩
    · exact fun id given => (selected.id id given).resolve_left fun missing =>
        addressed.id ((own.id id given).trans missing)
    · intro segmentType given
      have named : IsName segmentType := own.segmentType segmentType given ▸ addressed.segmentType
      have same := selected.segmentType segmentType given
      rw [named.trimmed] at same
      exact same.resolve_left named.notEmpty
    · exact fun id given => (selected.collectionId id given).resolve_left fun missing =>
        addressed.collectionId ((own.collectionId id given).trans missing)
  · intro taken
    refine ⟨fun id given => Or.inr (taken.id id given), ?_, taken.scope,
      fun id given => Or.inr (taken.collectionId id given)⟩
    intro segmentType given
    have named : IsName segmentType := own.segmentType segmentType given ▸ addressed.segmentType
    rw [named.trimmed]
    exact Or.inr (taken.segmentType segmentType given)

end Segments

structure Session.FindsRecords (now : Instant) (session : Session) : Prop where
  tenants : ∀ row ∈ session.store.tenants, ∃ tenant, row.tenant = .ok tenant ∧
    session.outcome now [] (.getTenant ⟨tenant.id⟩) = .answered (.tenant (some tenant))
  databases : ∀ row ∈ session.store.databases, ∃ database, row.database = .ok database ∧
    (database.state = .active →
      session.outcome now [] (.getDatabase ⟨database.name, database.tenant⟩) = .answered (.database (some database)))
  segments : ∀ row ∈ session.store.segments, ∃ segment, row.segment = .ok segment ∧
    ∀ request : SegmentFilter, request.IsTakenFrom segment → ∃ answered,
      session.outcome now [] (.getSegments request) = .answered (.segments answered) ∧ segment ∈ answered ∧
        ∀ other ∈ answered, request.IsTakenFrom other

theorem findsRecords_of_isNormal {session : Session} (live : session.IsLive) (normal : session.store.IsNormal)
    (readable : session.store.IsReadable) (identified : session.store.HasSegmentIds) (now : Instant) :
    session.FindsRecords now := by
  have integral := live.proper.integral
  constructor
  case tenants =>
    intro row member
    obtain ⟨tenant, read⟩ := readable.tenants row member
    have named := (normal.tenants row member).isName read
    exact ⟨tenant, read,
      outcome_getTenant live.isOpen (named.required "name") (getTenant_of_mem integral member read) now⟩
  case databases =>
    intro row member
    obtain ⟨database, read⟩ := readable.databases row member
    refine ⟨database, read, fun active => ?_⟩
    obtain ⟨named, owned, _⟩ := cells_of_database read
    obtain ⟨name, isName, short, same⟩ := (normal.databases row member).name
    obtain ⟨tenant, isTenant, ownedBy⟩ := (normal.databases row member).tenantId
    cases named.symm.trans same
    cases owned.symm.trans ownedBy
    exact outcome_getDatabase live.isOpen isName short isTenant
      (getDatabaseByName_of_mem integral member read active) now
  case segments =>
    intro row member
    obtain ⟨segment, read⟩ := readable.segments row member
    refine ⟨segment, read, fun request own => ?_⟩
    have chosen := selects_iff_isTakenFrom ((normal.segments row member).isAddressed read) own
    obtain ⟨listed, lists⟩ := readable.answers.segments
    obtain ⟨candidates, found, same⟩ := candidates_of_listed integral.segmentIds identified lists request
    have stillOpen : (Session.mk session.store session.isOpen now).isOpen = true := live.isOpen
    refine ⟨_, Session.perform_getSegments stillOpen List.not_mem_nil found, ?_⟩
    obtain ⟨id, named⟩ := identified row member
    have present : segment ∈ listed :=
      (mem_listed identified lists segment).mpr ⟨row, member, id_of_segment named read ▸ named, read⟩
    rw [same]
    constructor
    · exact List.mem_filter.mpr ⟨present, decide_eq_true ((chosen segment).mpr own)⟩
    · exact fun other among => (chosen other).mp (of_decide_eq_true (List.mem_filter.mp among).2)

def untidy : List Step :=
  [⟨firstOfJune, .service (.createTenant ⟨" acme\n"⟩) []⟩,
    ⟨firstOfJune, .service (.createDatabase ⟨"67e55044-10b1-426f-9247-bb680e5fe0c8", " main", "acme "⟩) []⟩,
    ⟨firstOfJune, .service (.createSegment ⟨.ofByte 1, " urn ", .vector, .ofByte 3, some oneHalf⟩) []⟩,
    ⟨firstOfJune, .service (.updateSegment ⟨.ofByte 1, some (.ofByte 4), none, false, none⟩) []⟩,
    ⟨firstOfJune, .service (.flushSegmentCompaction ⟨.ofByte 1, .ofEntries [("index", ["part"])]⟩) []⟩,
    ⟨firstOfJune, .service (.deleteDatabase ⟨"main ", " acme"⟩) []⟩]

end MetadataRegistry
