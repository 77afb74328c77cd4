import MetadataRegistry.Proofs.CollectionFlush
import MetadataRegistry.Session

/-!
Operations as writes. An operation makes one write at most, and a transaction several. When an
operation succeeds its write has taken effect; when it fails the store is as it was.
-/

namespace MetadataRegistry

inductive Write where
  | insertTenant (tenant : Tenant)
  | advanceCheckpoint (id : String) (time : Int64)
  | bindResourceName (id resourceName : String)
  | insertDatabase (database : Database)
  | softDelete (tenant name : String)
  | finishDeletion (cutoff : Instant)
  | insertSegment (segment : Segment)
  | updateSegment (update : SegmentUpdate)
  | flushSegment (collectionId : Option CollectionId) (flush : SegmentFlush)
  | flushCollection (flush : CollectionFlush)

def keepDeletion : Except Failure Nat × Store → Except Failure Store
  | (.ok _, after) => .ok after
  | (.error failure, _) => .error failure

def Write.run (now : Instant) (store : Store) : Write → Except Failure Store
  | insertTenant tenant => store.insertTenant tenant
  | advanceCheckpoint id time => store.advanceCheckpoint now id time
  | bindResourceName id resourceName => store.bindResourceName now id resourceName
  | insertDatabase database => store.insertDatabase database
  | softDelete tenant name => store.softDelete now tenant name
  | finishDeletion cutoff => keepDeletion (store.finishDeletion cutoff)
  | insertSegment segment => store.insertSegment segment
  | updateSegment update => store.updateSegment now update
  | flushSegment collectionId flush => store.flushSegment now collectionId flush
  | flushCollection flush => store.flushCollection now flush

def runWrite? (now : Instant) (store : Store) : Option Write → Except Failure Store
  | none => .ok store
  | some write => write.run now store

/-- What a write that succeeds has found, and what it has done. -/
def Write.Did (now : Instant) (before after : Store) : Write → Prop
  | insertTenant tenant => (¬∃ row ∈ before.tenants, row.id = .text tenant.id) ∧
      after = { before with tenants := before.tenants ++ [.ofTenant tenant] }
  | advanceCheckpoint id time => (∃ row ∈ before.tenants, row.id = .text id) ∧
      after = { before with tenants := before.tenants.map (.advanced now id time) }
  | bindResourceName id resourceName => (∃ row ∈ before.tenants, row.id = .text id ∧ row.resourceName = .null) ∧
      after = { before with tenants := before.tenants.map (.bound now id resourceName) }
  | insertDatabase database => Store.checkedLength database.name ≤ longestDatabaseName ∧ ¬database.IsTaken before ∧
      (∃ row ∈ before.tenants, row.id = .text database.tenant) ∧
      after = { before with databases := before.databases ++ [.ofDatabase database] }
  | softDelete tenant name => (∃ row ∈ before.databases, row.HasActiveName tenant name) ∧
      after = { before with databases := before.databases.map (.deleted now tenant name) }
  | finishDeletion cutoff => ∃ kept, kept.Sublist before.databases ∧
      (∀ row ∈ before.databases, row.isExpired (.ofInt cutoff.epochMillis) = false → row ∈ kept) ∧
      after = { before with databases := kept }
  | insertSegment segment => (¬∃ row ∈ before.segments, row.segmentId = .ofIdentifier segment.id) ∧
      after = { before with segments := before.segments ++ [.ofSegment segment] }
  | updateSegment update => (∃ row ∈ before.segments, row.segmentId = .ofIdentifier update.id) ∧
      (∀ row ∈ before.segments, row.segmentId = .ofIdentifier update.id →
        (Store.updatedMetadata update row.metadata).isSome) ∧
      after = { before with segments := before.segments.map (.updated now update) }
  | flushSegment collectionId flush => (∃ row ∈ before.segments, row.IsIn collectionId flush.id) ∧
      after = { before with segments := before.segments.map (.flushed now collectionId flush) }
  | flushCollection flush => flush.IsCovered before ∧ after = flush.applied now before

theorem did_of_run {now : Instant} {write : Write} {before after : Store} (identified : before.HasIdentifiers)
    (done : write.run now before = .ok after) : write.Did now before after := by
  cases write with
  | insertTenant tenant =>
      rw [Write.run, insertTenant_eq] at done
      split at done
      · cases done
      · rename_i absent
        cases done
        exact ⟨absent, rfl⟩
  | advanceCheckpoint id time =>
      rw [Write.run, advanceCheckpoint_eq] at done
      split at done
      · rename_i found
        cases done
        exact ⟨found, rfl⟩
      · cases done
  | bindResourceName id resourceName =>
      rw [Write.run, bindResourceName_eq] at done
      split at done
      · rename_i found
        cases done
        exact ⟨found, rfl⟩
      · split at done <;> cases done
  | insertDatabase database =>
      rw [Write.run, insertDatabase_eq] at done
      split at done
      · cases done
      · rename_i short
        split at done
        · cases done
        · rename_i free
          split at done
          · rename_i known
            cases done
            exact ⟨Nat.not_lt.mp short, free, known, rfl⟩
          · cases done
  | softDelete tenant name =>
      rw [Write.run, softDelete_eq] at done
      split at done
      · rename_i found
        cases done
        exact ⟨found, rfl⟩
      · cases done
  | finishDeletion cutoff =>
      obtain ⟨count, kept, sublist, valid, removed⟩ := finishDeletion_eq cutoff before identified
      rw [Write.run, removed] at done
      cases done
      exact ⟨kept, sublist, valid, rfl⟩
  | insertSegment segment =>
      rw [Write.run, insertSegment_eq] at done
      split at done
      · cases done
      · rename_i absent
        cases done
        exact ⟨absent, rfl⟩
  | updateSegment update =>
      rw [Write.run, updateSegment_eq] at done
      split at done
      · rename_i found
        split at done
        · rename_i possible
          cases done
          exact ⟨found, possible, rfl⟩
        · cases done
      · cases done
  | flushSegment collectionId flush =>
      rw [Write.run, flushSegment_eq] at done
      split at done
      · rename_i found
        cases done
        exact ⟨found, rfl⟩
      · cases done
  | flushCollection flush =>
      rw [Write.run, flushCollection_eq] at done
      split at done
      · rename_i covered
        cases done
        exact ⟨covered, rfl⟩
      · cases done

def TableCall.write? : TableCall → Option Write
  | insertTenant tenant => some (.insertTenant tenant)
  | advanceCheckpoint id time => some (.advanceCheckpoint id time)
  | bindResourceName id resourceName => some (.bindResourceName id resourceName)
  | insertDatabase database => some (.insertDatabase database)
  | softDelete tenant name => some (.softDelete tenant name)
  | finishDeletion cutoff => some (.finishDeletion cutoff)
  | insertSegment segment => some (.insertSegment segment)
  | updateSegment update => some (.updateSegment update)
  | flushSegment flush => some (.flushSegment none flush)
  | flushCollection flush => some (.flushCollection flush)
  | listTenants | getTenant _ | checkpoints _ | getDatabase _ | getDatabaseByName _ _ | listDatabases _ _ _
  | getSegment _ | listSegments => none

def requiredSegmentIds (request : SegmentCreation) : Except Status Unit :=
  if request.id.isNil || request.collectionId.isNil then
    .error (.invalidArgument "segment id and collection id are required")
  else .ok ()

def requiredCollectionId (request : SegmentUpdate) : Except Status Unit :=
  if request.collectionId.any Identifier.isNil then .error (.invalidArgument "collection id cannot be nil")
  else .ok ()

def ServiceCall.write? (now : Instant) : ServiceCall → Option Write
  | createTenant request => (required "name" request.name).toOption.bind fun name =>
      some (.insertTenant (.create name now))
  | setTenantResourceName request => (required "id" request.id).toOption.bind fun id =>
      (required "resource_name" request.resourceName).toOption.bind fun resourceName =>
        some (.bindResourceName id resourceName)
  | setTenantLastCompactionTime request => (required "tenant_id" request.tenantId).toOption.bind fun id =>
      (requiredTime "last_compaction_time" request.lastCompactionTime).toOption.bind fun time =>
        some (.advanceCheckpoint id time)
  | createDatabase request => (requiredDatabaseId request.id).toOption.bind fun id =>
      (requiredDatabaseName request.name).toOption.bind fun name =>
        (required "tenant" request.tenant).toOption.bind fun tenant =>
          some (.insertDatabase (.create id name tenant now))
  | deleteDatabase request => (requiredDatabaseName request.name).toOption.bind fun name =>
      (required "tenant" request.tenant).toOption.bind fun tenant => some (.softDelete tenant name)
  | finishDatabaseDeletion request => some (.finishDeletion request.cutoff)
  | createSegment request => (required "segment_type" request.segmentType).toOption.bind fun segmentType =>
      (requiredSegmentIds request).toOption.bind fun _ =>
        some (.insertSegment
          (.create request.id segmentType request.scope request.collectionId request.metadata now))
  | updateSegment request => (requiredCollectionId request).toOption.bind fun _ => some (.updateSegment request)
  | flushSegmentCompaction request => (requiredRoles request).toOption.bind fun _ =>
      some (.flushSegment none request)
  | flushCollectionCompaction request => (required "tenant_id" request.tenantId).toOption.bind fun tenantId =>
      (requiredTime "compaction_time" request.compactionTime).toOption.bind fun compactionTime =>
        (request.segments.forM requiredRoles).toOption.bind fun _ =>
          some (.flushCollection { request with tenantId, compactionTime })
  | getTenant _ | getTenantLastCompactionTimes _ | getDatabase _ | listDatabases _ | getSegments _ => none

def Operation.write? (now : Instant) : Operation → Option Write
  | service call _ => call.write? now
  | sweep grace _ => (sweepCutoff? grace now).map .finishDeletion
  | table call => call.write?
  | transaction _ _ | overwrite _ _ _ | migrate | close => none

/-! Actions that make a write. -/

/-- What an action may come to: success with the store that its write gives, or a failure with the
store as it was. -/
def Settles {α ε : Type} (now : Instant) (write : Option Write) (before : Store) : Except ε α × Store → Prop
  | (.ok _, after) => runWrite? now before write = .ok after
  | (.error _, after) => after = before

structure Makes {α ε : Type} (write : Instant → Option Write)
    (action : ReaderT Circumstances (ExceptT ε (StateM Store)) α) : Prop where
  settles : ∀ (circumstances : Circumstances) (store : Store), store.HasIdentifiers →
    Settles circumstances.now (write circumstances.now) store (action circumstances store)

section Steps

variable {α β ε : Type} {write : Instant → Option Write}

theorem makes_pure (value : α) :
    Makes (fun _ => none) (pure value : ReaderT Circumstances (ExceptT ε (StateM Store)) α) :=
  ⟨fun _ _ _ => rfl⟩

theorem makes_bind {first : ReaderT Circumstances (ExceptT ε (StateM Store)) α}
    {next : α → ReaderT Circumstances (ExceptT ε (StateM Store)) β} (reads : Makes (fun _ => none) first)
    (writes : ∀ value, Makes write (next value)) : Makes write (first >>= next) := by
  constructor
  intro circumstances store identified
  have kept := reads.settles circumstances store identified
  rw [bind_run]
  rcases result : first circumstances store with ⟨outcome, after⟩
  rw [result] at kept
  cases outcome with
  | ok value =>
      cases kept
      exact (writes value).settles circumstances store identified
  | error interruption => exact kept

theorem makes_map {first : ReaderT Circumstances (ExceptT ε (StateM Store)) α} (writes : Makes write first)
    (result : α → β) : Makes write (first >>= fun value => pure (result value)) := by
  constructor
  intro circumstances store identified
  have written := writes.settles circumstances store identified
  rw [bind_run]
  rcases done : first circumstances store with ⟨outcome, after⟩
  rw [done] at written
  cases outcome with
  | ok value => exact written
  | error interruption => exact written

end Steps

theorem makes_reach (table : Table) : Makes (fun _ => none) (Access.reach table) := by
  constructor
  intro circumstances store _
  unfold Access.reach
  split
  · rfl
  · rfl

theorem makes_fail {α : Type} (failure : Failure) : Makes (fun _ => none) (Access.fail (α := α) failure) :=
  ⟨fun _ _ _ => rfl⟩

theorem makes_query {α : Type} (read : Store → Except Failure α) : Makes (fun _ => none) (Access.query read) := by
  constructor
  intro circumstances store _
  rw [Access.query, Access.statement]
  split
  · cases read store <;> rfl
  · rfl

theorem makes_write {change : Instant → Store → Except Failure Store} {write : Write}
    (same : ∀ now store, change now store = write.run now store) :
    Makes (fun _ => some write) (Access.write change) := by
  constructor
  intro circumstances store _
  rw [Access.write, Access.statement]
  split
  · have changed := same circumstances.now store
    cases result : change circumstances.now store with
    | ok after => exact (changed.symm.trans result)
    | error failure => rfl
  · rfl

theorem makes_finishDeletion (cutoff : Instant) :
    Makes (fun _ => some (.finishDeletion cutoff)) (Access.statement fun _ => Store.finishDeletion cutoff) := by
  constructor
  intro circumstances store identified
  obtain ⟨count, kept, _, _, removed⟩ := finishDeletion_eq cutoff store identified
  rw [Access.statement]
  split
  · rw [removed]
    show keepDeletion (store.finishDeletion cutoff) = _
    rw [removed]
    rfl
  · rfl

theorem makes_writing {change : Instant → Store → Except Failure Store} {write : Write}
    (same : ∀ now store, change now store = write.run now store) :
    Makes (fun _ => some write) (TableCall.writing change) :=
  makes_map (makes_write same) fun _ => Answer.done

theorem makes_writeTo {change : Instant → Store → Except Failure Store} {write : Write} (table : Table)
    (same : ∀ now store, change now store = write.run now store) :
    Makes (fun _ => some write) (writeTo table change) :=
  makes_bind (makes_reach table) fun _ => makes_write same

theorem makes_perform {α : Type} {access : Access α} {write : Instant → Option Write} (operation : String)
    (writes : Makes write access) : Makes write (Service.perform operation access) := by
  constructor
  intro circumstances store identified
  have written := writes.settles circumstances store identified
  unfold Service.perform
  rcases result : access circumstances store with ⟨outcome, after⟩
  rw [result] at written
  cases outcome with
  | ok value => exact written
  | error interruption => cases interruption <;> exact written

theorem makes_validated {α : Type} (checked : Except Status α) :
    Makes (fun _ => none) (Service.validated checked) := by
  constructor
  intro circumstances store _
  cases checked <;> rfl

theorem makes_of_valid {α β : Type} (checked : Except Status α) (next : α → Service β)
    (write : α → Instant → Option Write) (writes : ∀ value, Makes (write value) (next value)) :
    Makes (fun now => checked.toOption.bind fun value => write value now) (Service.validated checked >>= next) := by
  constructor
  intro circumstances store identified
  rw [bind_run]
  cases checked with
  | ok value => exact (writes value).settles circumstances store identified
  | error status => rfl

theorem makes_now {α : Type} (next : Instant → Service α) (write : Instant → Write)
    (writes : ∀ now, Makes (fun _ => some (write now)) (next now)) :
    Makes (fun now => some (write now)) (Service.now >>= next) :=
  ⟨fun circumstances store identified => (writes circumstances.now).settles circumstances store identified⟩

theorem makes_findTenant (tenant : String) : Makes (fun _ => none) (findTenant tenant) := by
  refine makes_bind (makes_reach .tenants) fun _ => makes_bind (makes_query _) fun found => ?_
  cases found with
  | some value => exact makes_pure value
  | none => exact makes_fail _

theorem makes_findDatabase (tenant name : String) : Makes (fun _ => none) (findDatabase tenant name) := by
  refine makes_bind (makes_reach .databases) fun _ => makes_bind (makes_query _) fun found => ?_
  cases found with
  | some value => exact makes_pure value
  | none => exact makes_bind (makes_findTenant tenant) fun _ => makes_fail _

theorem makes_listTenantDatabases (tenant : String) (limit offset : Option UInt32) :
    Makes (fun _ => none) (listTenantDatabases tenant limit offset) :=
  makes_bind (makes_findTenant tenant) fun _ => makes_bind (makes_reach .databases) fun _ => makes_query _

theorem makes_segmentCandidates (id : Option SegmentId) : Makes (fun _ => none) (segmentCandidates id) := by
  refine makes_bind (makes_reach .segments) fun _ => ?_
  cases id with
  | some id => exact makes_map (makes_query _) Option.toList
  | none => exact makes_query _

theorem makes_checkpoints (ids : List String) : Makes (fun _ => none) (Access.checkpoints ids) := by
  unfold Access.checkpoints
  split
  · exact makes_pure []
  · exact makes_query _

/-! Every operation makes its write. -/

theorem makes_tableCall (call : TableCall) : Makes (fun _ => call.write?) call.run := by
  cases call with
  | insertTenant | advanceCheckpoint | bindResourceName | insertDatabase | softDelete | insertSegment
  | updateSegment | flushSegment => exact makes_writing fun _ _ => rfl
  | flushCollection flush =>
      rw [TableCall.run_flushCollection]
      exact makes_writing fun _ _ => rfl
  | finishDeletion cutoff => exact makes_map (makes_finishDeletion cutoff) Answer.count
  | listTenants => exact makes_map (makes_query _) Answer.tenants
  | getTenant => exact makes_map (makes_query _) Answer.tenant
  | checkpoints ids => exact makes_map (makes_checkpoints ids) Answer.checkpoints
  | getDatabase | getDatabaseByName => exact makes_map (makes_query _) Answer.database
  | listDatabases => exact makes_map (makes_query _) Answer.databases
  | getSegment => exact makes_map (makes_query _) Answer.segment
  | listSegments => exact makes_map (makes_query _) Answer.segments

theorem makes_createTenant (request : TenantName) :
    Makes (fun now => (ServiceCall.createTenant request).write? now) (createTenant request) := by
  refine makes_of_valid (required "name" request.name) _ (fun name now => some (.insertTenant (.create name now)))
    fun name => ?_
  refine makes_now _ (fun now => .insertTenant (.create name now)) fun now => ?_
  exact makes_map (makes_perform _ (makes_writeTo .tenants fun _ _ => rfl)) fun _ => Tenant.create name now

theorem makes_setTenantResourceName (request : ResourceBinding) :
    Makes (fun now => (ServiceCall.setTenantResourceName request).write? now) (setTenantResourceName request) := by
  refine makes_of_valid (required "id" request.id) _ (fun id _ =>
    (required "resource_name" request.resourceName).toOption.bind fun name => some (.bindResourceName id name))
    fun id => ?_
  refine makes_of_valid (required "resource_name" request.resourceName) _ (fun name _ =>
    some (.bindResourceName id name)) fun name => ?_
  exact makes_perform _ (makes_writeTo .tenants fun _ _ => rfl)

theorem makes_setTenantLastCompactionTime (request : TenantCheckpoint) :
    Makes (fun now => (ServiceCall.setTenantLastCompactionTime request).write? now)
      (setTenantLastCompactionTime request) := by
  refine makes_of_valid (required "tenant_id" request.tenantId) _ (fun id _ => (requiredTime "last_compaction_time"
    request.lastCompactionTime).toOption.bind fun time => some (.advanceCheckpoint id time)) fun id => ?_
  refine makes_of_valid (requiredTime "last_compaction_time" request.lastCompactionTime) _ (fun time _ =>
    some (.advanceCheckpoint id time)) fun time => ?_
  exact makes_perform _ (makes_writeTo .tenants fun _ _ => rfl)

theorem makes_createDatabase (request : DatabaseCreation) :
    Makes (fun now => (ServiceCall.createDatabase request).write? now) (createDatabase request) := by
  refine makes_of_valid (requiredDatabaseId request.id) _ (fun id now =>
    (requiredDatabaseName request.name).toOption.bind fun name =>
      (required "tenant" request.tenant).toOption.bind fun tenant =>
        some (.insertDatabase (.create id name tenant now))) fun id => ?_
  refine makes_of_valid (requiredDatabaseName request.name) _ (fun name now =>
    (required "tenant" request.tenant).toOption.bind fun tenant =>
      some (.insertDatabase (.create id name tenant now))) fun name => ?_
  refine makes_of_valid (required "tenant" request.tenant) _ (fun tenant now =>
    some (.insertDatabase (.create id name tenant now))) fun tenant => ?_
  refine makes_now _ (fun now => .insertDatabase (.create id name tenant now)) fun now => ?_
  exact makes_map (makes_perform _ (makes_writeTo .databases fun _ _ => rfl)) fun _ =>
    Database.create id name tenant now

theorem makes_deleteDatabase (request : DatabaseKey) :
    Makes (fun now => (ServiceCall.deleteDatabase request).write? now) (deleteDatabase request) := by
  refine makes_of_valid (requiredDatabaseName request.name) _ (fun name _ =>
    (required "tenant" request.tenant).toOption.bind fun tenant => some (.softDelete tenant name)) fun name => ?_
  refine makes_of_valid (required "tenant" request.tenant) _ (fun tenant _ => some (.softDelete tenant name))
    fun tenant => ?_
  exact makes_perform _ (makes_writeTo .databases fun _ _ => rfl)

theorem makes_finishDatabaseDeletion (request : DeletionCutoff) :
    Makes (fun _ => some (.finishDeletion request.cutoff)) (finishDatabaseDeletion request) :=
  makes_perform _ (makes_bind (makes_reach .databases) fun _ => makes_finishDeletion request.cutoff)

theorem makes_createSegment (request : SegmentCreation) :
    Makes (fun now => (ServiceCall.createSegment request).write? now) (createSegment request) := by
  refine makes_of_valid (required "segment_type" request.segmentType) _ (fun segmentType now =>
    (requiredSegmentIds request).toOption.bind fun _ => some (.insertSegment
      (.create request.id segmentType request.scope request.collectionId request.metadata now))) fun segmentType => ?_
  refine makes_of_valid (requiredSegmentIds request) _ (fun _ now => some (.insertSegment
    (.create request.id segmentType request.scope request.collectionId request.metadata now))) fun _ => ?_
  refine makes_now _ (fun now => .insertSegment
    (.create request.id segmentType request.scope request.collectionId request.metadata now)) fun now => ?_
  exact makes_map (makes_perform _ (makes_writeTo .segments fun _ _ => rfl)) fun _ =>
    Segment.create request.id segmentType request.scope request.collectionId request.metadata now

theorem makes_updateSegment (request : SegmentUpdate) :
    Makes (fun now => (ServiceCall.updateSegment request).write? now) (updateSegment request) :=
  makes_of_valid (requiredCollectionId request) _ (fun _ _ => some (.updateSegment request)) fun _ =>
    makes_perform _ (makes_writeTo .segments fun _ _ => rfl)

theorem makes_flushSegmentCompaction (request : SegmentFlush) :
    Makes (fun now => (ServiceCall.flushSegmentCompaction request).write? now) (flushSegmentCompaction request) :=
  makes_of_valid (requiredRoles request) _ (fun _ _ => some (.flushSegment none request)) fun _ =>
    makes_perform _ (makes_writeTo .segments fun _ _ => rfl)

theorem makes_flushCollectionCompaction (request : CollectionFlush) :
    Makes (fun now => (ServiceCall.flushCollectionCompaction request).write? now)
      (flushCollectionCompaction request) := by
  refine makes_of_valid (required "tenant_id" request.tenantId) _ (fun tenantId _ => (requiredTime "compaction_time"
    request.compactionTime).toOption.bind fun compactionTime => (request.segments.forM requiredRoles).toOption.bind
      fun _ => some (.flushCollection { request with tenantId, compactionTime })) fun tenantId => ?_
  refine makes_of_valid (requiredTime "compaction_time" request.compactionTime) _ (fun compactionTime _ =>
    (request.segments.forM requiredRoles).toOption.bind fun _ =>
      some (.flushCollection { request with tenantId, compactionTime })) fun compactionTime => ?_
  refine makes_of_valid (request.segments.forM requiredRoles) _ (fun _ _ =>
    some (.flushCollection { request with tenantId, compactionTime })) fun _ => ?_
  dsimp only
  rw [Access.flushCollection_eq_write]
  exact makes_perform _ (makes_writeTo .segments fun _ _ => rfl)

theorem makes_serviceCall (call : ServiceCall) : Makes (fun now => call.write? now) call.run := by
  cases call with
  | createTenant request => exact makes_map (makes_createTenant request) fun tenant => Answer.tenant (some tenant)
  | getTenant request =>
      exact makes_map (makes_bind (makes_validated _) fun name => makes_perform _ (makes_findTenant name))
        fun tenant => Answer.tenant (some tenant)
  | setTenantResourceName request => exact makes_map (makes_setTenantResourceName request) fun _ => Answer.done
  | setTenantLastCompactionTime request =>
      exact makes_map (makes_setTenantLastCompactionTime request) fun _ => Answer.done
  | getTenantLastCompactionTimes ids =>
      exact makes_map (makes_perform _ (makes_bind (makes_reach .tenants) fun _ => makes_checkpoints ids))
        Answer.checkpoints
  | createDatabase request =>
      exact makes_map (makes_createDatabase request) fun database => Answer.database (some database)
  | getDatabase request =>
      exact makes_map (makes_bind (makes_validated _) fun name => makes_bind (makes_validated _) fun tenant =>
        makes_perform _ (makes_findDatabase tenant name)) fun database => Answer.database (some database)
  | listDatabases request =>
      exact makes_map (makes_bind (makes_validated _) fun tenant =>
        makes_perform _ (makes_listTenantDatabases tenant request.limit request.offset)) Answer.databases
  | deleteDatabase request => exact makes_map (makes_deleteDatabase request) fun _ => Answer.done
  | finishDatabaseDeletion request => exact makes_map (makes_finishDatabaseDeletion request) Answer.count
  | createSegment request =>
      exact makes_map (makes_createSegment request) fun segment => Answer.segment (some segment)
  | getSegments request =>
      exact makes_map (makes_map (makes_perform _ (makes_segmentCandidates request.normalized.id))
        request.normalized.apply) Answer.segments
  | updateSegment request => exact makes_map (makes_updateSegment request) fun _ => Answer.done
  | flushSegmentCompaction request => exact makes_map (makes_flushSegmentCompaction request) fun _ => Answer.done
  | flushCollectionCompaction request =>
      exact makes_map (makes_flushCollectionCompaction request) fun _ => Answer.done

end MetadataRegistry
