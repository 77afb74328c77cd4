import MetadataRegistry.Proofs.Log
import MetadataRegistry.Proofs.Readability

/-!
The row of one tenant. A write changes it by what it says of this tenant, whatever else the store holds, so
a run folds its log over the row. A row that is there stays.
-/

namespace MetadataRegistry

def Store.tenant? (id : String) (store : Store) : Option TenantRow :=
  store.tenants.find? fun row => row.id = .text id

theorem id_of_tenant? {id : String} {store : Store} {row : TenantRow} (found : store.tenant? id = some row) :
    row.id = .text id := by
  simpa using List.find?_some found

theorem mem_of_tenant? {id : String} {store : Store} {row : TenantRow} (found : store.tenant? id = some row) :
    row ∈ store.tenants :=
  List.mem_of_find?_eq_some found

theorem tenant?_eq_none {id : String} {store : Store} :
    store.tenant? id = none ↔ ¬∃ row ∈ store.tenants, row.id = .text id := by
  simp [Store.tenant?]

theorem getTenant_eq (id : String) (store : Store) :
    store.getTenant id = match store.tenant? id with
      | none => .ok none
      | some row => row.tenant.map some := by
  have condition : (fun row : TenantRow => row.id.same (.text id)) = fun row => decide (row.id = .text id) := by
    funext row
    rw [Bool.eq_iff_iff, Cell.same_text_iff, decide_eq_true_iff]
  have found : store.tenants.find? (fun row => row.id.same (.text id)) = store.tenant? id :=
    congrArg (store.tenants.find? ·) condition
  cases row : store.tenant? id with
  | none => simp only [Store.getTenant, found, row]
  | some present => simp only [Store.getTenant, found, row]

theorem id_of_tenant {row : TenantRow} {tenant : Tenant} (read : row.tenant = .ok tenant) :
    row.id = .text tenant.id := by
  simp only [TenantRow.tenant, bind_eq_ok_iff, Cell.readText_iff] at read
  obtain ⟨_, _, _, _, _, named, _, _, _, _, _, _, _, _, same⟩ := read
  cases same
  exact named

theorem row_of_getTenant {id : String} {store : Store} {tenant : Tenant}
    (read : store.getTenant id = .ok (some tenant)) :
    ∃ row, store.tenant? id = some row ∧ row.resourceName = .ofOption .text tenant.resourceName ∧
      row.lastCompactionTime = .integer tenant.lastCompactionTime := by
  rw [getTenant_eq] at read
  cases found : store.tenant? id with
  | none =>
      rw [found] at read
      cases read
  | some row =>
      rw [found] at read
      obtain ⟨_, cells, same⟩ := (map_some_eq_ok_iff row.tenant _).mp read
      cases same
      simp only [TenantRow.tenant, bind_eq_ok_iff, Cell.readOptional_iff, Cell.readText_iff,
        Cell.readInteger_iff] at cells
      obtain ⟨_, _, _, _, _, _, resourceName, named, time, stored, _, _, _, _, same⟩ := cells
      cases same
      refine ⟨row, rfl, ?_, stored⟩
      rcases named with ⟨absent, rfl⟩ | ⟨_, text, present, rfl⟩
      · exact absent
      · exact present

theorem tenant?_map {id : String} {change : TenantRow → TenantRow} (kept : ∀ row, (change row).id = row.id)
    (store : Store) :
    { store with tenants := store.tenants.map change : Store }.tenant? id = (store.tenant? id).map change := by
  simp only [Store.tenant?, List.find?_map]
  congr 2
  funext row
  simp [kept]

namespace Write

def tenantAfter (now : Instant) (id : String) (row : Option TenantRow) : Write → Option TenantRow
  | insertTenant tenant => row.or (if tenant.id = id then some (.ofTenant tenant) else none)
  | advanceCheckpoint other time => row.map (.advanced now other time)
  | bindResourceName other resourceName => row.map (.bound now other resourceName)
  | flushCollection flush => row.map (.advanced now flush.tenantId flush.compactionTime)
  | insertDatabase _ | softDelete _ _ | finishDeletion _ | insertSegment _ | updateSegment _ | flushSegment _ _ => row

end Write

theorem tenant?_of_did (id : String) {now : Instant} {write : Write} {before after : Store}
    (did : write.Did now before after) : after.tenant? id = write.tenantAfter now id (before.tenant? id) := by
  cases write with
  | insertTenant tenant =>
      obtain ⟨_, rfl⟩ := did
      have added : [TenantRow.ofTenant tenant].find? (fun row => row.id = .text id) =
          if tenant.id = id then some (.ofTenant tenant) else none := by
        by_cases same : tenant.id = id
        · simp [TenantRow.ofTenant, same]
        · simp [TenantRow.ofTenant, same]
      simp only [Store.tenant?, List.find?_append, added, Write.tenantAfter]
  | advanceCheckpoint other time =>
      obtain ⟨_, rfl⟩ := did
      exact tenant?_map (id_advanced now other time) before
  | bindResourceName other resourceName =>
      obtain ⟨_, rfl⟩ := did
      exact tenant?_map (id_bound now other resourceName) before
  | flushCollection flush =>
      obtain ⟨_, rfl⟩ := did
      exact tenant?_map (id_advanced now flush.tenantId flush.compactionTime) before
  | insertSegment | flushSegment =>
      obtain ⟨_, rfl⟩ := did
      rfl
  | softDelete =>
      obtain ⟨_, rfl⟩ := did
      rfl
  | updateSegment =>
      obtain ⟨_, _, rfl⟩ := did
      rfl
  | finishDeletion =>
      obtain ⟨_, _, _, rfl⟩ := did
      rfl
  | insertDatabase =>
      obtain ⟨_, _, _, rfl⟩ := did
      rfl

theorem tenant?_replays (id : String) {log : List LogEntry} {before after : Store} (replayed : Replays log before after)
    (identified : before.HasIdentifiers) :
    after.tenant? id =
      log.foldl (fun row entry => entry.write.tenantAfter entry.time id row) (before.tenant? id) :=
  replayed.fold (Store.tenant? id) _ (fun _ _ _ did => tenant?_of_did id did) identified

end MetadataRegistry
