import MetadataRegistry.Proofs.Integrity
import MetadataRegistry.Proofs.Log

/-!
Rows as records. Every tenant and every database of the store is the row of a record, whatever was written;
so a resource name is a text or missing, a checkpoint an integer, and the time of a deletion a number of
milliseconds or missing. Metadata is not written back in the form of a record, so nothing is said of segments.
-/

namespace MetadataRegistry

structure Store.HoldsRecords (store : Store) : Prop where
  tenants : ∀ row ∈ store.tenants, ∃ tenant, row = .ofTenant tenant
  databases : ∀ row ∈ store.databases, ∃ database, row = .ofDatabase database

theorem holdsRecords_empty : Store.empty.HoldsRecords where
  tenants := fun _ member => nomatch member
  databases := fun _ member => nomatch member

theorem advanced_ofTenant (now : Instant) (id : String) (time : Int64) (tenant : Tenant) :
    (TenantRow.ofTenant tenant).advanced now id time = .ofTenant (if tenant.id = id then
      { tenant with lastCompactionTime := max tenant.lastCompactionTime time, updatedAt := now } else tenant) := by
  have named : (TenantRow.ofTenant tenant).id = .text id ↔ tenant.id = id := by simp [TenantRow.ofTenant]
  unfold TenantRow.advanced
  simp only [named]
  split
  · rfl
  · rfl

theorem bound_ofTenant (now : Instant) (id resourceName : String) (tenant : Tenant) :
    (TenantRow.ofTenant tenant).bound now id resourceName =
      .ofTenant (if tenant.id = id ∧ tenant.resourceName = none then
        { tenant with resourceName := some resourceName, updatedAt := now } else tenant) := by
  have unbound : (TenantRow.ofTenant tenant).resourceName = .null ↔ tenant.resourceName = none := by
    rw [TenantRow.ofTenant]
    cases tenant.resourceName <;> simp [Cell.ofOption]
  have named : (TenantRow.ofTenant tenant).id = .text id ↔ tenant.id = id := by simp [TenantRow.ofTenant]
  unfold TenantRow.bound
  simp only [named, unbound]
  split
  · rfl
  · rfl

theorem deleted_ofDatabase (now : Instant) (tenant name : String) (database : Database) :
    (DatabaseRow.ofDatabase database).deleted now tenant name =
      .ofDatabase (if database.tenant = tenant ∧ database.name = name ∧ database.state = .active then
        { database with state := .softDeleted, deletedAt := some now, updatedAt := now } else database) := by
  have named : (DatabaseRow.ofDatabase database).HasActiveName tenant name ↔
      database.tenant = tenant ∧ database.name = name ∧ database.state = .active := by
    rw [DatabaseRow.HasActiveName, state_ofDatabase_iff]
    simp [DatabaseRow.ofDatabase]
  unfold DatabaseRow.deleted
  simp only [named]
  split
  · rfl
  · rfl

section Tables

variable {Row Record : Type} {encode : Record → Row} {rows : List Row}

theorem records_append (records : ∀ row ∈ rows, ∃ record, row = encode record) (added : Record) :
    ∀ row ∈ rows ++ [encode added], ∃ record, row = encode record := by
  intro row member
  rcases List.mem_append.mp member with stored | new
  · exact records row stored
  · exact ⟨added, List.mem_singleton.mp new⟩

theorem records_map (records : ∀ row ∈ rows, ∃ record, row = encode record) {change : Row → Row}
    {changed : Record → Record} (same : ∀ record, change (encode record) = encode (changed record)) :
    ∀ row ∈ rows.map change, ∃ record, row = encode record := by
  rw [List.forall_mem_map]
  intro row member
  obtain ⟨record, rfl⟩ := records row member
  exact ⟨changed record, same record⟩

end Tables

theorem holdsRecords_of_did {now : Instant} {write : Write} {before after : Store}
    (did : write.Did now before after) (records : before.HoldsRecords) : after.HoldsRecords := by
  cases write with
  | insertTenant tenant =>
      obtain ⟨_, rfl⟩ := did
      exact { records with tenants := records_append records.tenants tenant }
  | advanceCheckpoint id time =>
      obtain ⟨_, rfl⟩ := did
      exact { records with tenants := records_map records.tenants (advanced_ofTenant now id time) }
  | bindResourceName id resourceName =>
      obtain ⟨_, rfl⟩ := did
      exact { records with tenants := records_map records.tenants (bound_ofTenant now id resourceName) }
  | insertDatabase database =>
      obtain ⟨_, _, _, rfl⟩ := did
      exact { records with databases := records_append records.databases database }
  | softDelete tenant name =>
      obtain ⟨_, rfl⟩ := did
      exact { records with databases := records_map records.databases (deleted_ofDatabase now tenant name) }
  | finishDeletion cutoff =>
      obtain ⟨kept, sublist, _, rfl⟩ := did
      exact { records with databases := fun row member => records.databases row (sublist.subset member) }
  | insertSegment segment =>
      obtain ⟨_, rfl⟩ := did
      exact { records with }
  | updateSegment update =>
      obtain ⟨_, _, rfl⟩ := did
      exact { records with }
  | flushSegment collectionId flush =>
      obtain ⟨_, rfl⟩ := did
      exact { records with }
  | flushCollection flush =>
      obtain ⟨_, rfl⟩ := did
      exact { records with
        tenants := records_map records.tenants (advanced_ofTenant now flush.tenantId flush.compactionTime) }

theorem Store.HoldsRecords.hasIdentifiers {store : Store} (records : store.HoldsRecords) : store.HasIdentifiers := by
  intro row member
  obtain ⟨database, rfl⟩ := records.databases row member
  exact ⟨database.id.bytes, rfl⟩

structure Store.IsProper (store : Store) : Prop where
  integral : store.Integral
  records : store.HoldsRecords

theorem Session.isProper_after (steps : List Step) (session : Session)
    (ordinary : ∀ step ∈ steps, step.operation.IsOrdinary) (proper : session.store.IsProper) :
    (session.after steps).store.IsProper :=
  store_after_keeps Store.IsProper
    (fun _ _ _ did proper => ⟨integral_of_did did proper.integral, holdsRecords_of_did did proper.records⟩)
    steps session ordinary proper.records.hasIdentifiers proper

theorem isProper_empty : Store.empty.IsProper := ⟨integral_empty, holdsRecords_empty⟩

structure Session.IsLive (session : Session) : Prop where
  isOpen : session.isOpen = true
  proper : session.store.IsProper

theorem isLive_start (clock : Instant) : (Session.start clock).IsLive := ⟨rfl, isProper_empty⟩

theorem isLive_perform (step : Step) (session : Session) (call : step.operation.IsCall) (live : session.IsLive) :
    (step.perform session).2.IsLive where
  isOpen := (isOpen_perform step.operation _ call).trans live.isOpen
  proper := Session.isProper_after [step] session (by simpa using call.isOrdinary) live.proper

theorem Session.isLive_after (steps : List Step) (session : Session) (calls : ∀ step ∈ steps, step.operation.IsCall)
    (live : session.IsLive) : (session.after steps).IsLive :=
  Session.after_keeps Session.IsLive _ isLive_perform steps session calls live

end MetadataRegistry
