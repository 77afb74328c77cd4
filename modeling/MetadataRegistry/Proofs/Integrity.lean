import MetadataRegistry.Proofs.Runs

/-!
The integrity of the store: identifiers are distinct, an active name occurs once in its tenant, and every
database refers to a tenant. A new store has it, every write keeps it, and so every run keeps it.
-/

namespace MetadataRegistry

structure Store.Integral (store : Store) : Prop where
  tenantIds : (store.tenants.map (·.id)).Nodup
  databaseIds : (store.databases.map (·.databaseId)).Nodup
  segmentIds : (store.segments.map (·.segmentId)).Nodup
  activeNames : store.databases.Pairwise fun left right =>
    left.state = .text "active" → right.state = .text "active" → left.tenantId = right.tenantId → left.name ≠ right.name
  references : ∀ row ∈ store.databases, ∃ tenant ∈ store.tenants, row.tenantId = tenant.id

theorem integral_empty : Store.empty.Integral where
  tenantIds := List.nodup_nil
  databaseIds := List.nodup_nil
  segmentIds := List.nodup_nil
  activeNames := List.Pairwise.nil
  references := fun _ member => nomatch member

theorem nodup_map_append {α β : Type} {key : α → β} {rows : List α} {row : α} (distinct : (rows.map key).Nodup)
    (absent : ¬∃ other ∈ rows, key other = key row) : ((rows ++ [row]).map key).Nodup := by
  rw [List.map_append, List.nodup_append]
  refine ⟨distinct, by simp, ?_⟩
  intro first stored second new same
  obtain ⟨other, member, rfl⟩ := List.mem_map.mp stored
  rw [List.map_singleton, List.mem_singleton] at new
  exact absent ⟨other, member, same.trans new⟩

theorem map_map_key {α β : Type} {key : α → β} {change : α → α} (kept : ∀ row, key (change row) = key row)
    (rows : List α) : (rows.map change).map key = rows.map key := by
  rw [List.map_map]
  exact List.map_congr_left fun row _ => kept row

theorem isActive_iff (row : DatabaseRow) : row.isActive = true ↔ row.state = .text "active" :=
  Cell.same_text_iff row.state DatabaseState.active.text

theorem state_ofDatabase_iff (database : Database) :
    (DatabaseRow.ofDatabase database).state = .text "active" ↔ database.state = .active := by
  show Cell.text database.state.text = _ ↔ _
  cases database.state <;> decide

theorem deleted_of_active {now : Instant} {tenant name : String} {row : DatabaseRow}
    (active : (row.deleted now tenant name).state = .text "active") : row.deleted now tenant name = row := by
  unfold DatabaseRow.deleted at active ⊢
  split
  · rename_i named
    rw [if_pos named] at active
    have inactive : Cell.text DatabaseState.softDeleted.text ≠ .text "active" := by decide
    exact absurd active inactive
  · rfl

namespace Store.Integral

variable {store : Store}

theorem appendTenant (integral : store.Integral) (tenant : Tenant)
    (absent : ¬∃ row ∈ store.tenants, row.id = .text tenant.id) :
    { store with tenants := store.tenants ++ [.ofTenant tenant] : Store }.Integral := by
  refine { integral with tenantIds := ?_, references := ?_ }
  · exact nodup_map_append integral.tenantIds absent
  · intro row member
    obtain ⟨known, stored, same⟩ := integral.references row member
    exact ⟨known, List.mem_append_left _ stored, same⟩

theorem changeTenants (integral : store.Integral) (change : TenantRow → TenantRow)
    (kept : ∀ row, (change row).id = row.id) :
    { store with tenants := store.tenants.map change : Store }.Integral := by
  refine { integral with tenantIds := ?_, references := ?_ }
  · rw [map_map_key kept]
    exact integral.tenantIds
  · intro row member
    obtain ⟨known, stored, same⟩ := integral.references row member
    exact ⟨change known, List.mem_map_of_mem stored, same.trans (kept known).symm⟩

theorem appendDatabase (integral : store.Integral) (database : Database) (free : ¬database.IsTaken store)
    (known : ∃ row ∈ store.tenants, row.id = .text database.tenant) :
    { store with databases := store.databases ++ [.ofDatabase database] : Store }.Integral := by
  refine { integral with databaseIds := ?_, activeNames := ?_, references := ?_ }
  · exact nodup_map_append integral.databaseIds fun taken => free (Or.inl taken)
  · rw [List.pairwise_append]
    refine ⟨integral.activeNames, List.pairwise_singleton _ _, ?_⟩
    intro row stored new member rowActive newActive sameTenant sameName
    cases List.mem_singleton.mp member
    exact free (Or.inr ⟨(state_ofDatabase_iff database).mp newActive, row, stored, sameTenant, sameName, rowActive⟩)
  · intro row member
    rcases List.mem_append.mp member with stored | new
    · exact integral.references row stored
    · cases List.mem_singleton.mp new
      obtain ⟨tenant, found, same⟩ := known
      exact ⟨tenant, found, same.symm⟩

theorem deleteDatabase (integral : store.Integral) (now : Instant) (tenant name : String) :
    { store with databases := store.databases.map (.deleted now tenant name) : Store }.Integral := by
  refine { integral with databaseIds := ?_, activeNames := ?_, references := ?_ }
  · rw [map_map_key (databaseId_deleted now tenant name)]
    exact integral.databaseIds
  · rw [List.pairwise_map]
    refine integral.activeNames.imp ?_
    intro left right distinct leftActive rightActive
    have leftKept := deleted_of_active leftActive
    have rightKept := deleted_of_active rightActive
    rw [leftKept] at leftActive ⊢
    rw [rightKept] at rightActive ⊢
    exact distinct leftActive rightActive
  · intro row member
    obtain ⟨stored, found, rfl⟩ := List.mem_map.mp member
    rw [tenantId_deleted]
    exact integral.references stored found

theorem removeDatabases (integral : store.Integral) (kept : List DatabaseRow)
    (sublist : kept.Sublist store.databases) : { store with databases := kept : Store }.Integral where
  tenantIds := integral.tenantIds
  databaseIds := (sublist.map _).nodup integral.databaseIds
  segmentIds := integral.segmentIds
  activeNames := integral.activeNames.sublist sublist
  references := fun row member => integral.references row (sublist.subset member)

theorem appendSegment (integral : store.Integral) (segment : Segment)
    (absent : ¬∃ row ∈ store.segments, row.segmentId = .ofIdentifier segment.id) :
    { store with segments := store.segments ++ [.ofSegment segment] : Store }.Integral :=
  { integral with segmentIds := nodup_map_append integral.segmentIds absent }

theorem changeSegments (integral : store.Integral) (change : SegmentRow → SegmentRow)
    (kept : ∀ row, (change row).segmentId = row.segmentId) :
    { store with segments := store.segments.map change : Store }.Integral := by
  refine { integral with segmentIds := ?_ }
  rw [map_map_key kept]
  exact integral.segmentIds

end Store.Integral

theorem integral_of_did {now : Instant} {write : Write} {before after : Store} (did : write.Did now before after)
    (integral : before.Integral) : after.Integral := by
  cases write with
  | insertTenant tenant =>
      obtain ⟨absent, rfl⟩ := did
      exact integral.appendTenant tenant absent
  | advanceCheckpoint id time =>
      obtain ⟨_, rfl⟩ := did
      exact integral.changeTenants _ (id_advanced now id time)
  | bindResourceName id resourceName =>
      obtain ⟨_, rfl⟩ := did
      exact integral.changeTenants _ (id_bound now id resourceName)
  | insertDatabase database =>
      obtain ⟨_, free, known, rfl⟩ := did
      exact integral.appendDatabase database free known
  | softDelete tenant name =>
      obtain ⟨_, rfl⟩ := did
      exact integral.deleteDatabase now tenant name
  | finishDeletion cutoff =>
      obtain ⟨kept, sublist, _, rfl⟩ := did
      exact integral.removeDatabases kept sublist
  | insertSegment segment =>
      obtain ⟨absent, rfl⟩ := did
      exact integral.appendSegment segment absent
  | updateSegment update =>
      obtain ⟨_, _, rfl⟩ := did
      exact integral.changeSegments _ (segmentId_updated now update)
  | flushSegment collectionId flush =>
      obtain ⟨_, rfl⟩ := did
      exact integral.changeSegments _ (segmentId_flushed now collectionId flush)
  | flushCollection flush =>
      obtain ⟨_, rfl⟩ := did
      exact (integral.changeTenants _ (id_advanced now flush.tenantId flush.compactionTime)).changeSegments _
        (segmentId_flushedRow now flush)

theorem integral_perform (step : Step) (session : Session) (ordinary : step.operation.IsOrdinary)
    (sound : session.store.HasIdentifiers ∧ session.store.Integral) :
    (step.perform session).2.store.HasIdentifiers ∧ (step.perform session).2.store.Integral :=
  (written_perform step.operation { session with clock := step.clock } ordinary sound.1).keeps
    Store.Integral (fun _ _ _ did integral => integral_of_did did integral) sound.1 sound.2

/-- After any operations on a new store, at any times, identifiers are distinct, an active name occurs
once in its tenant, and every database refers to a tenant. -/
theorem integral_after (clock : Instant) (steps : List Step)
    (ordinary : ∀ step ∈ steps, step.operation.IsOrdinary) :
    ((Session.start clock).after steps).store.Integral := by
  have identified : Store.empty.HasIdentifiers := fun row member => nomatch member
  exact (Session.after_keeps (fun session => session.store.HasIdentifiers ∧ session.store.Integral) _
    integral_perform steps (Session.start clock) ordinary ⟨identified, integral_empty⟩).2

def renewal : List Step :=
  let created (byte : UInt8) : Database := .create (.ofByte byte) "main" "acme" firstOfJune
  [⟨firstOfJune, .table (.insertTenant (.create "acme" firstOfJune))⟩,
    ⟨firstOfJune, .table (.insertDatabase (created 1))⟩,
    ⟨firstOfJune, .table (.softDelete "acme" "main")⟩,
    ⟨firstOfJune, .table (.insertDatabase (created 2))⟩]

theorem integral_after_renewal :
    ((Session.start firstOfJune).after renewal).store.databases.length = 2 ∧
      ((Session.start firstOfJune).after renewal).store.Integral :=
  ⟨by decide +kernel, integral_after firstOfJune renewal (by decide +kernel)⟩

end MetadataRegistry
