import MetadataRegistry.Proofs.NormalForm
import MetadataRegistry.Proofs.TimeOrder

/-!
The times of records. A record is dated when it is created and once more with every change; the time of its creation
stays as it is. What is read of a time that was stored is this time, cut down to milliseconds.
-/

namespace MetadataRegistry

def Cell.HoldsTime (cell : Cell) (instant : Instant) : Prop :=
  ∃ text, cell = .text text ∧ Instant.parseStored? text = some instant

theorem holdsTime_ofInstant_iff {stored read : Instant} :
    (Cell.ofInstant stored).HoldsTime read ↔ stored.HasStoredYear ∧ read = stored.truncate := by
  constructor
  · rintro ⟨text, same, parsed⟩
    cases same
    by_cases inYears : stored.HasStoredYear
    · rw [parseStored?_storedText stored inYears] at parsed
      exact ⟨inYears, (Option.some.inj parsed).symm⟩
    · rw [parseStored?_storedText_outside stored inYears] at parsed
      cases parsed
  · rintro ⟨inYears, rfl⟩
    exact ⟨_, rfl, parseStored?_storedText stored inYears⟩

theorem times_of_tenant {row : TenantRow} {tenant : Tenant} (read : row.tenant = .ok tenant) :
    row.createdAt.HoldsTime tenant.createdAt ∧ row.updatedAt.HoldsTime tenant.updatedAt := by
  simp only [TenantRow.tenant, bind_eq_ok_iff, Cell.readText_iff, readTime_iff] at read
  obtain ⟨created, createdStored, updated, updatedStored, _, _, _, _, _, _, _, createdRead, _, updatedRead, same⟩ :=
    read
  cases same
  exact ⟨⟨created, createdStored, createdRead⟩, updated, updatedStored, updatedRead⟩

theorem times_of_database {row : DatabaseRow} {database : Database} (read : row.database = .ok database) :
    row.createdAt.HoldsTime database.createdAt ∧ row.updatedAt.HoldsTime database.updatedAt := by
  rw [database_eq] at read
  simp only [bind_eq_ok_iff, Cell.readText_iff, readTime_iff] at read
  obtain ⟨_, _, _, _, _, _, _, _, _, _, created, createdStored, updated, updatedStored, _, _, _, _, _, _, _,
    createdRead, _, updatedRead, same⟩ := read
  cases same
  exact ⟨⟨created, createdStored, createdRead⟩, updated, updatedStored, updatedRead⟩

theorem times_of_segment {row : SegmentRow} {segment : Segment} (read : row.segment = .ok segment) :
    row.createdAt.HoldsTime segment.createdAt ∧ row.updatedAt.HoldsTime segment.updatedAt := by
  rw [segment_eq] at read
  simp only [bind_eq_ok_iff, Cell.readText_iff, readTime_iff] at read
  obtain ⟨_, _, _, _, _, _, _, _, _, _, _, _, _, _, _, _, _, _, created, createdStored, updated, updatedStored, _, _, _,
    _, _, createdRead, _, updatedRead, same⟩ := read
  cases same
  exact ⟨⟨created, createdStored, createdRead⟩, updated, updatedStored, updatedRead⟩

structure Stamp where
  key : Cell
  createdAt : Cell
  updatedAt : Cell

def TenantRow.stamp (row : TenantRow) : Stamp := ⟨row.id, row.createdAt, row.updatedAt⟩

def DatabaseRow.stamp (row : DatabaseRow) : Stamp := ⟨row.databaseId, row.createdAt, row.updatedAt⟩

def SegmentRow.stamp (row : SegmentRow) : Stamp := ⟨row.segmentId, row.createdAt, row.updatedAt⟩

def Store.stamps (store : Store) : Table → List Stamp
  | .tenants => store.tenants.map TenantRow.stamp
  | .databases => store.databases.map DatabaseRow.stamp
  | .segments => store.segments.map SegmentRow.stamp

def Store.keys (store : Store) (table : Table) : List Cell := (store.stamps table).map Stamp.key

theorem stamps_empty (table : Table) : Store.empty.stamps table = [] := by
  cases table <;> rfl

theorem nodup_keys {store : Store} (integral : store.Integral) (table : Table) : (store.keys table).Nodup := by
  cases table with
  | tenants => simpa [Store.keys, Store.stamps, TenantRow.stamp, Function.comp_def] using integral.tenantIds
  | databases => simpa [Store.keys, Store.stamps, DatabaseRow.stamp, Function.comp_def] using integral.databaseIds
  | segments => simpa [Store.keys, Store.stamps, SegmentRow.stamp, Function.comp_def] using integral.segmentIds

/-- A change leaves the key and the time of creation alone, and the row keeps the time of its last change or is dated
anew. -/
structure Stamp.Redates (now : Instant) (before after : Stamp) : Prop where
  key : after.key = before.key
  created : after.createdAt = before.createdAt
  updated : after.updatedAt = before.updatedAt ∨ after.updatedAt = .ofInstant now

namespace Stamp.Redates

theorem refl (now : Instant) (stamp : Stamp) : stamp.Redates now stamp := ⟨rfl, rfl, .inl rfl⟩

theorem anew (now : Instant) (stamp : Stamp) : stamp.Redates now { stamp with updatedAt := .ofInstant now } :=
  ⟨rfl, rfl, .inr rfl⟩

end Stamp.Redates

section Changes

variable (now : Instant)

theorem redates_advanced (id : String) (time : Int64) (row : TenantRow) :
    row.stamp.Redates now (row.advanced now id time).stamp := by
  unfold TenantRow.advanced
  split
  · exact .anew now row.stamp
  · exact .refl now row.stamp

theorem redates_bound (id resourceName : String) (row : TenantRow) :
    row.stamp.Redates now (row.bound now id resourceName).stamp := by
  unfold TenantRow.bound
  split
  · exact .anew now row.stamp
  · exact .refl now row.stamp

theorem redates_deleted (tenant name : String) (row : DatabaseRow) :
    row.stamp.Redates now (row.deleted now tenant name).stamp := by
  unfold DatabaseRow.deleted
  split
  · exact .anew now row.stamp
  · exact .refl now row.stamp

theorem redates_updated (update : SegmentUpdate) (row : SegmentRow) :
    row.stamp.Redates now (row.updated now update).stamp := by
  rw [SegmentRow.updated, updateSegmentRow_eq]
  split
  · cases Store.updatedMetadata update row.metadata with
    | none => exact .refl now row.stamp
    | some metadata => exact .anew now row.stamp
  · exact .refl now row.stamp

theorem redates_flushed (collectionId : Option CollectionId) (flush : SegmentFlush) (row : SegmentRow) :
    row.stamp.Redates now (row.flushed now collectionId flush).stamp := by
  unfold SegmentRow.flushed
  split
  · exact .anew now row.stamp
  · exact .refl now row.stamp

theorem redates_flushedRow (flush : CollectionFlush) (row : SegmentRow) :
    row.stamp.Redates now (flush.flushedRow now row).stamp := by
  unfold CollectionFlush.flushedRow
  split
  · split
    · exact .anew now row.stamp
    · exact .refl now row.stamp
  · exact .refl now row.stamp

end Changes

def Write.times? : Write → Option (Instant × Instant)
  | insertTenant tenant => some (tenant.createdAt, tenant.updatedAt)
  | insertDatabase database => some (database.createdAt, database.updatedAt)
  | insertSegment segment => some (segment.createdAt, segment.updatedAt)
  | advanceCheckpoint _ _ | bindResourceName _ _ | softDelete _ _ | finishDeletion _ | updateSegment _
  | flushSegment _ _ | flushCollection _ => none

/-- Where the stamp of a row comes from that there is after a write. -/
inductive Stamp.ComesFrom (now : Instant) (write : Write) (earlier : List Stamp) (stamp : Stamp) : Prop where
  | row (old : Stamp) (member : old ∈ earlier) (redates : old.Redates now stamp)
  | insertion (created updated : Instant) (inserts : write.times? = some (created, updated))
      (absent : ∀ old ∈ earlier, old.key ≠ stamp.key) (createdAt : stamp.createdAt = .ofInstant created)
      (updatedAt : stamp.updatedAt = .ofInstant updated)

section Writes

variable {now : Instant} {write : Write} {before after : Store} {stamp : Stamp}

theorem comesFrom_self {stamps : List Stamp} (member : stamp ∈ stamps) : stamp.ComesFrom now write stamps :=
  .row stamp member (.refl now stamp)

theorem comesFrom_map {Row : Type} {stampOf : Row → Stamp} {rows : List Row} {change : Row → Row}
    (redates : ∀ row, (stampOf row).Redates now (stampOf (change row)))
    (member : stamp ∈ (rows.map change).map stampOf) : stamp.ComesFrom now write (rows.map stampOf) := by
  obtain ⟨_, changed, rfl⟩ := List.mem_map.mp member
  obtain ⟨row, old, rfl⟩ := List.mem_map.mp changed
  exact .row (stampOf row) (List.mem_map_of_mem old) (redates row)

theorem comesFrom_append {Row : Type} {stampOf : Row → Stamp} {rows : List Row} {row : Row}
    {created updated : Instant} (inserts : write.times? = some (created, updated))
    (absent : ∀ other ∈ rows, (stampOf other).key ≠ (stampOf row).key)
    (createdAt : (stampOf row).createdAt = .ofInstant created)
    (updatedAt : (stampOf row).updatedAt = .ofInstant updated) (member : stamp ∈ (rows ++ [row]).map stampOf) :
    stamp.ComesFrom now write (rows.map stampOf) := by
  obtain ⟨found, present, rfl⟩ := List.mem_map.mp member
  rcases List.mem_append.mp present with old | new
  · exact comesFrom_self (List.mem_map_of_mem old)
  · rw [List.mem_singleton.mp new]
    exact .insertion created updated inserts (List.forall_mem_map.mpr absent) createdAt updatedAt

theorem comesFrom_of_did_tenants (did : write.Did now before after) (member : stamp ∈ after.stamps .tenants) :
    stamp.ComesFrom now write (before.stamps .tenants) := by
  cases write with
  | insertTenant tenant =>
      obtain ⟨absent, rfl⟩ := did
      refine comesFrom_append rfl ?_ rfl rfl member
      exact fun row stored same => absent ⟨row, stored, same⟩
  | advanceCheckpoint id time =>
      obtain ⟨_, rfl⟩ := did
      exact comesFrom_map (redates_advanced now id time) member
  | bindResourceName id resourceName =>
      obtain ⟨_, rfl⟩ := did
      exact comesFrom_map (redates_bound now id resourceName) member
  | flushCollection flush =>
      obtain ⟨_, rfl⟩ := did
      exact comesFrom_map (redates_advanced now flush.tenantId flush.compactionTime) member
  | softDelete | insertSegment | flushSegment =>
      obtain ⟨_, rfl⟩ := did
      exact comesFrom_self member
  | updateSegment =>
      obtain ⟨_, _, rfl⟩ := did
      exact comesFrom_self member
  | insertDatabase | finishDeletion =>
      obtain ⟨_, _, _, rfl⟩ := did
      exact comesFrom_self member

theorem comesFrom_of_did_databases (did : write.Did now before after) (member : stamp ∈ after.stamps .databases) :
    stamp.ComesFrom now write (before.stamps .databases) := by
  cases write with
  | insertDatabase database =>
      obtain ⟨_, free, _, rfl⟩ := did
      refine comesFrom_append rfl ?_ rfl rfl member
      exact fun row stored same => free (.inl ⟨row, stored, same⟩)
  | softDelete tenant name =>
      obtain ⟨_, rfl⟩ := did
      exact comesFrom_map (redates_deleted now tenant name) member
  | finishDeletion cutoff =>
      obtain ⟨kept, sublist, _, rfl⟩ := did
      exact comesFrom_self (List.map_subset DatabaseRow.stamp sublist.subset member)
  | insertTenant | advanceCheckpoint | bindResourceName | insertSegment | flushSegment | flushCollection =>
      obtain ⟨_, rfl⟩ := did
      exact comesFrom_self member
  | updateSegment =>
      obtain ⟨_, _, rfl⟩ := did
      exact comesFrom_self member

theorem comesFrom_of_did_segments (did : write.Did now before after) (member : stamp ∈ after.stamps .segments) :
    stamp.ComesFrom now write (before.stamps .segments) := by
  cases write with
  | insertSegment segment =>
      obtain ⟨absent, rfl⟩ := did
      refine comesFrom_append rfl ?_ rfl rfl member
      exact fun row stored same => absent ⟨row, stored, same⟩
  | updateSegment update =>
      obtain ⟨_, _, rfl⟩ := did
      exact comesFrom_map (redates_updated now update) member
  | flushSegment collectionId flush =>
      obtain ⟨_, rfl⟩ := did
      exact comesFrom_map (redates_flushed now collectionId flush) member
  | flushCollection flush =>
      obtain ⟨_, rfl⟩ := did
      exact comesFrom_map (redates_flushedRow now flush) member
  | insertTenant | advanceCheckpoint | bindResourceName | softDelete =>
      obtain ⟨_, rfl⟩ := did
      exact comesFrom_self member
  | insertDatabase | finishDeletion =>
      obtain ⟨_, _, _, rfl⟩ := did
      exact comesFrom_self member

theorem comesFrom_of_did (did : write.Did now before after) {table : Table} (member : stamp ∈ after.stamps table) :
    stamp.ComesFrom now write (before.stamps table) := by
  cases table with
  | tenants => exact comesFrom_of_did_tenants did member
  | databases => exact comesFrom_of_did_databases did member
  | segments => exact comesFrom_of_did_segments did member

end Writes

def Stamp.IsDated (stamp : Stamp) : Prop :=
  ∃ created updated, stamp.createdAt = .ofInstant created ∧ stamp.updatedAt = .ofInstant updated

theorem compare_createdAt {left right : Stamp} {leftRead rightRead : Instant} (dated : left.IsDated)
    (rightDated : right.IsDated) (leftHolds : left.createdAt.HoldsTime leftRead)
    (rightHolds : right.createdAt.HoldsTime rightRead) :
    left.createdAt.compare right.createdAt = leftRead.compare rightRead := by
  obtain ⟨created, _, stored, _⟩ := dated
  obtain ⟨rightCreated, _, rightStored, _⟩ := rightDated
  rw [stored] at leftHolds ⊢
  rw [rightStored] at rightHolds ⊢
  obtain ⟨inYears, rfl⟩ := holdsTime_ofInstant_iff.mp leftHolds
  obtain ⟨rightInYears, rfl⟩ := holdsTime_ofInstant_iff.mp rightHolds
  exact compare_storedText inYears rightInYears

def Store.IsDated (store : Store) : Prop := ∀ table, ∀ stamp ∈ store.stamps table, stamp.IsDated

theorem isDated_empty : Store.empty.IsDated := by
  intro table stamp member
  rw [stamps_empty] at member
  cases member

theorem isDated_of_did {now : Instant} {write : Write} {before after : Store} (did : write.Did now before after)
    (dated : before.IsDated) : after.IsDated := by
  intro table stamp member
  cases comesFrom_of_did did member with
  | row old earlier redates =>
      obtain ⟨created, updated, createdStored, updatedStored⟩ := dated table old earlier
      have same := redates.created.trans createdStored
      rcases redates.updated with kept | anew
      · exact ⟨created, updated, same, kept.trans updatedStored⟩
      · exact ⟨created, now, same, anew⟩
  | insertion created updated _ _ createdStored updatedStored =>
      exact ⟨created, updated, createdStored, updatedStored⟩

theorem Session.isDated_after (steps : List Step) (session : Session)
    (ordinary : ∀ step ∈ steps, step.operation.IsOrdinary) (identified : session.store.HasIdentifiers)
    (dated : session.store.IsDated) : (session.after steps).store.IsDated :=
  store_after_keeps Store.IsDated (fun _ _ _ did held => isDated_of_did did held) steps session ordinary identified
    dated

end MetadataRegistry
