import MetadataRegistry.Proofs.Readability
import MetadataRegistry.Proofs.Runs

/-!
What the writes leave readable. Beside the rows that a write does not touch there is what it stores: times
are read back in years of four digits, the time of a deletion before the last leap second there could be,
and whole metadata if its numbers are finite. Every write that succeeds leaves a readable store readable
under exactly that condition on what it stores.
-/

namespace MetadataRegistry

theorem isTime_ofInstant (instant : Instant) : (Cell.ofInstant instant).IsTime ↔ instant.HasStoredYear := by
  constructor
  · rintro ⟨_, same, read⟩
    cases same
    by_cases inYears : instant.HasStoredYear
    · exact inYears
    · rw [parseStored?_storedText_outside instant inYears] at read
      cases read
  · intro inYears
    refine ⟨_, rfl, ?_⟩
    rw [parseStored?_storedText instant inYears]
    rfl

theorem isMillis_ofMillis (instant : Instant) : (Cell.ofMillis instant).IsMillis ↔ instant.HasStoredMillis := by
  rw [← ofEpochMillis?_epochMillis_isSome_iff]
  constructor
  · rintro ⟨_, same, read⟩
    cases same
    rwa [toInt_epochMillis] at read
  · intro read
    refine ⟨_, rfl, ?_⟩
    rwa [toInt_epochMillis]

theorem isIdentifier_ofIdentifier {kind : IdentifierKind} (id : Identifier kind) :
    (Cell.ofIdentifier id).IsIdentifier := ⟨id.bytes, rfl, id.sixteen⟩

theorem isWord_state (state : DatabaseState) : (Cell.text state.text).IsWord DatabaseState.parse? :=
  ⟨state.text, rfl, by cases state <;> rfl⟩

theorem isWord_scope (scope : SegmentScope) : (Cell.text scope.text).IsWord SegmentScope.parse? :=
  ⟨scope.text, rfl, by cases scope <;> decide⟩

theorem isDocument_filePaths (paths : FilePaths) :
    (Cell.ofDocument (FilePaths.toJson paths)).IsDocument FilePaths.ofJson? := by
  rw [isDocument_ofDocument _ (isSpelled_filePaths paths), ofJson?_toJson_filePaths]
  rfl

theorem isDocument_metadata (metadata : Metadata) :
    (Cell.ofDocument (Metadata.toJson metadata)).IsDocument Metadata.ofJson? ↔ metadata.IsFinite := by
  rw [isDocument_ofDocument _ (isSpelled_metadata metadata), ofJson?_toJson_isSome_iff]

theorem ofOption_iff {α : Type} {cell : α → Cell} {holds : Cell → Prop} {condition : α → Prop}
    (present : ∀ value, cell value ≠ .null) (same : ∀ value, holds (cell value) ↔ condition value)
    (given : Option α) :
    (Cell.ofOption cell given = .null ∨ holds (Cell.ofOption cell given)) ↔ ∀ value ∈ given, condition value := by
  cases given with
  | none => exact iff_of_true (Or.inl rfl) fun _ impossible => nomatch impossible
  | some value =>
      simp only [Cell.ofOption, present, false_or, same, Option.mem_def, Option.some.injEq, forall_eq']

theorem isReadable_ofTenant (tenant : Tenant) :
    (TenantRow.ofTenant tenant).IsReadable ↔ tenant.createdAt.HasStoredYear ∧ tenant.updatedAt.HasStoredYear := by
  have resourceName : (TenantRow.ofTenant tenant).resourceName = .null ∨
      (TenantRow.ofTenant tenant).resourceName.IsText :=
    (ofOption_iff (fun _ => Cell.noConfusion) (fun text => iff_of_true ⟨text, rfl⟩ trivial) _).mpr fun _ _ => trivial
  constructor
  · intro readable
    exact ⟨(isTime_ofInstant _).mp readable.createdAt, (isTime_ofInstant _).mp readable.updatedAt⟩
  · rintro ⟨createdAt, updatedAt⟩
    exact ⟨⟨_, rfl⟩, resourceName, ⟨_, rfl⟩, (isTime_ofInstant _).mpr createdAt, (isTime_ofInstant _).mpr updatedAt⟩

structure Database.HasStoredTimes (database : Database) : Prop where
  createdAt : database.createdAt.HasStoredYear
  updatedAt : database.updatedAt.HasStoredYear
  deletedAt : ∀ deletedAt ∈ database.deletedAt, deletedAt.HasStoredMillis

theorem isReadable_ofDatabase (database : Database) :
    (DatabaseRow.ofDatabase database).IsReadable ↔ database.HasStoredTimes := by
  have deletedAt : _ ↔ ∀ deletedAt ∈ database.deletedAt, deletedAt.HasStoredMillis :=
    ofOption_iff (fun _ => Cell.noConfusion) isMillis_ofMillis database.deletedAt
  constructor
  · intro readable
    exact ⟨(isTime_ofInstant _).mp readable.createdAt, (isTime_ofInstant _).mp readable.updatedAt,
      deletedAt.mp readable.deletedAt⟩
  · intro times
    exact ⟨isIdentifier_ofIdentifier database.id, ⟨_, rfl⟩, ⟨_, rfl⟩, ⟨_, rfl⟩, isWord_state database.state,
      deletedAt.mpr times.deletedAt, (isTime_ofInstant _).mpr times.createdAt,
      (isTime_ofInstant _).mpr times.updatedAt⟩

structure Segment.HasStoredValues (segment : Segment) : Prop where
  createdAt : segment.createdAt.HasStoredYear
  updatedAt : segment.updatedAt.HasStoredYear
  metadata : ∀ metadata ∈ segment.metadata, metadata.IsFinite

theorem isReadable_ofSegment (segment : Segment) :
    (SegmentRow.ofSegment segment).IsReadable ↔ segment.HasStoredValues := by
  have metadata : _ ↔ ∀ metadata ∈ segment.metadata, metadata.IsFinite :=
    ofOption_iff (fun _ => Cell.noConfusion) isDocument_metadata segment.metadata
  constructor
  · intro readable
    exact ⟨(isTime_ofInstant _).mp readable.createdAt, (isTime_ofInstant _).mp readable.updatedAt,
      metadata.mp readable.metadata⟩
  · intro values
    exact ⟨isIdentifier_ofIdentifier segment.id, ⟨_, rfl⟩, isWord_scope segment.scope,
      isIdentifier_ofIdentifier segment.collectionId, metadata.mpr values.metadata, ⟨_, rfl⟩,
      isDocument_filePaths segment.filePaths, (isTime_ofInstant _).mpr values.createdAt,
      (isTime_ofInstant _).mpr values.updatedAt⟩

theorem isInteger_laterCheckpoint {cell : Cell} (integer : cell.IsInteger) (time : Int64) :
    (laterCheckpoint time cell).IsInteger := by
  obtain ⟨old, rfl⟩ := integer
  exact ⟨max old time, rfl⟩

theorem isReadable_advanced {now : Instant} {id : String} {row : TenantRow} (readable : row.IsReadable)
    (addressed : row.id = .text id) (time : Int64) :
    (row.advanced now id time).IsReadable ↔ now.HasStoredYear := by
  rw [TenantRow.advanced, if_pos addressed]
  constructor
  · exact fun changed => (isTime_ofInstant now).mp changed.updatedAt
  · intro inYears
    exact { readable with
      lastCompactionTime := isInteger_laterCheckpoint readable.lastCompactionTime time
      updatedAt := (isTime_ofInstant now).mpr inYears }

theorem isReadable_bound {now : Instant} {id : String} {row : TenantRow} (readable : row.IsReadable)
    (addressed : row.id = .text id ∧ row.resourceName = .null) (resourceName : String) :
    (row.bound now id resourceName).IsReadable ↔ now.HasStoredYear := by
  rw [TenantRow.bound, if_pos addressed]
  constructor
  · exact fun changed => (isTime_ofInstant now).mp changed.updatedAt
  · intro inYears
    exact { readable with
      resourceName := Or.inr ⟨resourceName, rfl⟩
      updatedAt := (isTime_ofInstant now).mpr inYears }

theorem isReadable_deleted {now : Instant} {tenant name : String} {row : DatabaseRow} (readable : row.IsReadable)
    (addressed : row.HasActiveName tenant name) : (row.deleted now tenant name).IsReadable ↔ now.HasStoredYear := by
  rw [DatabaseRow.deleted, if_pos addressed]
  constructor
  · exact fun changed => (isTime_ofInstant now).mp changed.updatedAt
  · intro inYears
    exact { readable with
      state := isWord_state .softDeleted
      deletedAt := Or.inr ((isMillis_ofMillis now).mpr (hasStoredMillis_of_hasStoredYear inYears))
      updatedAt := (isTime_ofInstant now).mpr inYears }

theorem isReadable_withPaths {now : Instant} {row : SegmentRow} (readable : row.IsReadable) (paths : FilePaths) :
    (row.withPaths now paths).IsReadable ↔ now.HasStoredYear := by
  constructor
  · exact fun changed => (isTime_ofInstant now).mp changed.updatedAt
  · intro inYears
    exact { readable with
      filePaths := isDocument_filePaths paths
      updatedAt := (isTime_ofInstant now).mpr inYears }

theorem isReadable_updatedMetadata {update : SegmentUpdate} {stored changed : Cell}
    (readable : stored = .null ∨ stored.IsDocument Metadata.ofJson?)
    (done : Store.updatedMetadata update stored = some changed) :
    (changed = .null ∨ changed.IsDocument Metadata.ofJson?) ↔
      (update.resetMetadata = true → ∀ metadata ∈ update.metadata, metadata.IsFinite) := by
  unfold Store.updatedMetadata at done
  cases reset : update.resetMetadata with
  | true =>
      have written :
          changed = .ofOption (fun metadata => .ofDocument (Metadata.toJson metadata)) update.metadata := by
        rw [reset] at done
        cases given : update.metadata <;> rw [given] at done <;> cases done <;> rfl
      rw [written, ofOption_iff (fun _ => Cell.noConfusion) isDocument_metadata]
      exact ⟨fun finite _ => finite, fun finite => finite rfl⟩
  | false =>
      refine iff_of_true ?_ Bool.noConfusion
      rw [reset] at done
      cases given : update.metadata with
      | none =>
          rw [given] at done
          cases done
          exact readable
      | some metadata =>
          rw [given] at done
          exact Or.inr (isDocument_mergeMetadata readable done)

def SegmentUpdate.HasStoredMetadata (update : SegmentUpdate) : Prop :=
  update.resetMetadata = true → ∀ metadata ∈ update.metadata, metadata.IsFinite

instance : DecidablePred SegmentUpdate.HasStoredMetadata := fun _ => inferInstanceAs (Decidable (_ → _))

theorem isReadable_updated {now : Instant} {update : SegmentUpdate} {row : SegmentRow} (readable : row.IsReadable)
    (addressed : row.segmentId = .ofIdentifier update.id)
    (possible : (Store.updatedMetadata update row.metadata).isSome = true) :
    (row.updated now update).IsReadable ↔ now.HasStoredYear ∧ update.HasStoredMetadata := by
  obtain ⟨metadata, stored⟩ := Option.isSome_iff_exists.mp possible
  have read := isReadable_updatedMetadata readable.metadata stored
  rw [SegmentRow.updated, if_pos addressed, updateSegmentRow_eq, stored, Option.map_some, Option.getD_some]
  constructor
  · exact fun changed => ⟨(isTime_ofInstant now).mp changed.updatedAt, read.mp changed.metadata⟩
  · rintro ⟨inYears, finite⟩
    refine { readable with
      collectionId := ?_
      metadata := read.mpr finite
      ts := ?_
      updatedAt := (isTime_ofInstant now).mpr inYears }
    · cases given : update.collectionId with
      | none => exact readable.collectionId
      | some id => exact isIdentifier_ofIdentifier id
    · cases given : update.ts with
      | none => exact readable.ts
      | some ts => exact ⟨ts, rfl⟩

section Tables

variable {Row : Type} {reads : Row → Prop} {rows : List Row}

theorem all_append_iff (readable : ∀ row ∈ rows, reads row) (added : Row) :
    (∀ row ∈ rows ++ [added], reads row) ↔ reads added := by
  constructor
  · exact fun all => all added (List.mem_append_right rows (List.mem_singleton_self added))
  · intro read row member
    rcases List.mem_append.mp member with stored | new
    · exact readable row stored
    · exact List.mem_singleton.mp new ▸ read

theorem all_map_iff {addressed : Row → Prop} {change : Row → Row} {condition : Prop}
    (readable : ∀ row ∈ rows, reads row) (found : ∃ row ∈ rows, addressed row)
    (others : ∀ row, ¬addressed row → change row = row)
    (changed : ∀ row ∈ rows, addressed row → (reads (change row) ↔ condition)) :
    (∀ row ∈ rows.map change, reads row) ↔ condition := by
  rw [List.forall_mem_map]
  constructor
  · intro all
    obtain ⟨row, member, same⟩ := found
    exact (changed row member same).mp (all row member)
  · intro holds row member
    by_cases same : addressed row
    · exact (changed row member same).mpr holds
    · rw [others row same]
      exact readable row member

end Tables

/-- What a write stores of its own can be read back. A removal stores nothing. -/
def Write.ReadsBack (now : Instant) : Write → Prop
  | insertTenant tenant => tenant.createdAt.HasStoredYear ∧ tenant.updatedAt.HasStoredYear
  | insertDatabase database => database.HasStoredTimes
  | insertSegment segment => segment.HasStoredValues
  | updateSegment update => now.HasStoredYear ∧ update.HasStoredMetadata
  | advanceCheckpoint _ _ | bindResourceName _ _ | softDelete _ _ | flushSegment _ _ | flushCollection _ =>
      now.HasStoredYear
  | finishDeletion _ => True

namespace Store.IsReadable

variable {store : Store}

theorem withTenants (readable : store.IsReadable) (rows : List TenantRow) :
    { store with tenants := rows : Store }.IsReadable ↔ ∀ row ∈ rows, Reads row.tenant :=
  ⟨fun all => all.tenants, fun read => { readable with tenants := read }⟩

theorem withDatabases (readable : store.IsReadable) (rows : List DatabaseRow) :
    { store with databases := rows : Store }.IsReadable ↔ ∀ row ∈ rows, Reads row.database :=
  ⟨fun all => all.databases, fun read => { readable with databases := read }⟩

theorem withSegments (readable : store.IsReadable) (rows : List SegmentRow) :
    { store with segments := rows : Store }.IsReadable ↔ ∀ row ∈ rows, Reads row.segment :=
  ⟨fun all => all.segments, fun read => { readable with segments := read }⟩

theorem hasIdentifiers (readable : store.IsReadable) : store.HasIdentifiers := by
  intro row member
  obtain ⟨idBytes, read, _⟩ := ((reads_database_iff row).mp (readable.databases row member)).databaseId
  exact ⟨idBytes, (Cell.readBytes_iff "database_id" idBytes row.databaseId).mpr read⟩

theorem advanced (readable : store.IsReadable) {id : String} (found : ∃ row ∈ store.tenants, row.id = .text id)
    (now : Instant) (time : Int64) :
    (∀ row ∈ store.tenants.map (TenantRow.advanced now id time), Reads row.tenant) ↔ now.HasStoredYear := by
  refine all_map_iff readable.tenants found (fun row other => if_neg other) ?_
  intro row member addressed
  rw [reads_tenant_iff]
  exact isReadable_advanced ((reads_tenant_iff row).mp (readable.tenants row member)) addressed time

theorem bound (readable : store.IsReadable) {id : String}
    (found : ∃ row ∈ store.tenants, row.id = .text id ∧ row.resourceName = .null) (now : Instant)
    (resourceName : String) :
    (∀ row ∈ store.tenants.map (TenantRow.bound now id resourceName), Reads row.tenant) ↔ now.HasStoredYear := by
  refine all_map_iff readable.tenants found (fun row other => if_neg other) ?_
  intro row member addressed
  rw [reads_tenant_iff]
  exact isReadable_bound ((reads_tenant_iff row).mp (readable.tenants row member)) addressed resourceName

theorem deleted (readable : store.IsReadable) {tenant name : String}
    (found : ∃ row ∈ store.databases, row.HasActiveName tenant name) (now : Instant) :
    (∀ row ∈ store.databases.map (DatabaseRow.deleted now tenant name), Reads row.database) ↔ now.HasStoredYear := by
  refine all_map_iff readable.databases found (fun row other => if_neg other) ?_
  intro row member addressed
  rw [reads_database_iff]
  exact isReadable_deleted ((reads_database_iff row).mp (readable.databases row member)) addressed

theorem updated (readable : store.IsReadable) {update : SegmentUpdate}
    (found : ∃ row ∈ store.segments, row.segmentId = .ofIdentifier update.id)
    (possible : ∀ row ∈ store.segments, row.segmentId = .ofIdentifier update.id →
      (Store.updatedMetadata update row.metadata).isSome) (now : Instant) :
    (∀ row ∈ store.segments.map (SegmentRow.updated now update), Reads row.segment) ↔
      now.HasStoredYear ∧ update.HasStoredMetadata := by
  refine all_map_iff readable.segments found (fun row other => if_neg other) ?_
  intro row member addressed
  rw [reads_segment_iff]
  exact isReadable_updated ((reads_segment_iff row).mp (readable.segments row member)) addressed
    (possible row member addressed)

theorem flushed (readable : store.IsReadable) {collectionId : Option CollectionId} {flush : SegmentFlush}
    (found : ∃ row ∈ store.segments, row.IsIn collectionId flush.id) (now : Instant) :
    (∀ row ∈ store.segments.map (SegmentRow.flushed now collectionId flush), Reads row.segment) ↔
      now.HasStoredYear := by
  refine all_map_iff readable.segments found (fun row other => if_neg other) ?_
  intro row member addressed
  rw [reads_segment_iff, SegmentRow.flushed, if_pos addressed]
  exact isReadable_withPaths ((reads_segment_iff row).mp (readable.segments row member)) flush.filePaths

theorem flushedRow (readable : store.IsReadable) {now : Instant} (inYears : now.HasStoredYear)
    (flush : CollectionFlush) : ∀ row ∈ store.segments.map (flush.flushedRow now), Reads row.segment := by
  rw [List.forall_mem_map]
  intro row member
  have read := readable.segments row member
  unfold CollectionFlush.flushedRow
  split
  · split
    · rename_i listed _
      rw [reads_segment_iff] at read ⊢
      exact (isReadable_withPaths read listed.filePaths).mpr inYears
    · exact read
  · exact read

theorem applied (readable : store.IsReadable) {flush : CollectionFlush} (covered : flush.IsCovered store)
    (now : Instant) : (flush.applied now store).IsReadable ↔ now.HasStoredYear := by
  have tenants := readable.advanced covered.2 now flush.compactionTime
  constructor
  · exact fun all => tenants.mp all.tenants
  · intro inYears
    exact { readable with
      tenants := tenants.mpr inYears
      segments := readable.flushedRow inYears flush }

end Store.IsReadable

theorem isReadable_iff_of_did {now : Instant} {write : Write} {before after : Store} (readable : before.IsReadable)
    (did : write.Did now before after) : after.IsReadable ↔ write.ReadsBack now := by
  cases write with
  | insertTenant tenant =>
      obtain ⟨_, rfl⟩ := did
      rw [readable.withTenants, all_append_iff readable.tenants, reads_tenant_iff]
      exact isReadable_ofTenant tenant
  | advanceCheckpoint id time =>
      obtain ⟨found, rfl⟩ := did
      rw [readable.withTenants]
      exact readable.advanced found now time
  | bindResourceName id resourceName =>
      obtain ⟨found, rfl⟩ := did
      rw [readable.withTenants]
      exact readable.bound found now resourceName
  | insertDatabase database =>
      obtain ⟨_, _, _, rfl⟩ := did
      rw [readable.withDatabases, all_append_iff readable.databases, reads_database_iff]
      exact isReadable_ofDatabase database
  | softDelete tenant name =>
      obtain ⟨found, rfl⟩ := did
      rw [readable.withDatabases]
      exact readable.deleted found now
  | finishDeletion cutoff =>
      obtain ⟨kept, sublist, _, rfl⟩ := did
      rw [readable.withDatabases]
      exact iff_of_true (fun row member => readable.databases row (sublist.subset member)) trivial
  | insertSegment segment =>
      obtain ⟨_, rfl⟩ := did
      rw [readable.withSegments, all_append_iff readable.segments, reads_segment_iff]
      exact isReadable_ofSegment segment
  | updateSegment update =>
      obtain ⟨found, possible, rfl⟩ := did
      rw [readable.withSegments]
      exact readable.updated found possible now
  | flushSegment collectionId flush =>
      obtain ⟨found, rfl⟩ := did
      rw [readable.withSegments]
      exact readable.flushed found now
  | flushCollection flush =>
      obtain ⟨covered, rfl⟩ := did
      exact readable.applied covered now

/-- An operation that succeeds on a store whose rows can all be read leaves a store of this kind exactly if
all that it stores can be read back. Then tenants and segments are listed and every database is found;
otherwise one of these fails, as long as databases have identifiers of their own. -/
theorem readable_after_iff (operation : Operation) (session : Session) (single : operation.IsSingle)
    (readable : session.store.IsReadable) (success : ¬(session.perform operation).1.IsFailure) :
    ((session.perform operation).2.store.IsReadable ↔
        ∀ write ∈ operation.write? session.clock, write.ReadsBack session.clock) ∧
      ((session.perform operation).2.store.IsReadable → (session.perform operation).2.store.AnswersReads) ∧
      ((session.perform operation).2.store.FindsDatabases → (session.perform operation).2.store.AnswersReads →
        (session.perform operation).2.store.IsReadable) := by
  refine ⟨?_, Store.IsReadable.answers, fun finds answers => answers.isReadable finds⟩
  have performed := performed_perform operation session single readable.hasIdentifiers
  rcases result : session.perform operation with ⟨outcome, after⟩
  rw [result] at performed success
  cases performed with
  | failed failure _ => exact absurd failure success
  | done _ written =>
      cases write : operation.write? session.clock with
      | none =>
          rw [write] at written
          rw [← Except.ok.inj written]
          exact iff_of_true readable fun _ impossible => nomatch impossible
      | some single =>
          rw [write] at written
          rw [isReadable_iff_of_did readable (did_of_run readable.hasIdentifiers written)]
          simp only [Option.mem_def, Option.some.injEq, forall_eq']

def farFuture : Instant := ⟨253402300800, 0, by decide, by decide⟩

def farTenant : Operation := .table (.insertTenant ⟨"acme", none, 0, farFuture, firstOfJune⟩)

theorem readable_after_farTenant :
    ¬((Session.start firstOfJune).perform farTenant).2.store.IsReadable := by
  have stored := (readable_after_iff farTenant (Session.start firstOfJune) trivial isReadable_empty
    (by decide +kernel)).1
  rw [stored]
  intro reads
  have inYears : farFuture.HasStoredYear := (reads _ rfl).1
  exact absurd inYears (by decide +kernel)

/-- The tenant is accepted, and from then on no tenant can be listed. -/
theorem farTenant_breaks_list :
    ((Session.start firstOfJune).perform farTenant).1 = .answered .done ∧
      ((Session.start firstOfJune).perform farTenant).2.store.listTenants =
        .error (.internal (.unreadableTime "created_at")) := by
  refine ⟨rfl, ?_⟩
  show (sortRows _ _ [TenantRow.ofTenant ⟨"acme", none, 0, farFuture, firstOfJune⟩]).mapM TenantRow.tenant = _
  rw [sortRows, List.mergeSort_singleton]
  rfl

end MetadataRegistry
