import MetadataRegistry.Proofs.Access
import MetadataRegistry.Proofs.ReadBack

/-!
Accesses to a store whose rows can all be read. They fail only for what is asked of them, never for what the
store holds, and they leave such a store behind if what they write can be read back.
-/

namespace MetadataRegistry

def Failure.IsExpected : Failure → Prop
  | notFound _ _ | alreadyExists _ _ | alreadyBound _ _ _ => True
  | internal _ => False

def Interruption.IsExpected : Interruption → Prop
  | failed failure => failure.IsExpected
  | stalled => False

def Status.IsExpected (status : Status) : Prop :=
  status.code ∈ [StatusCode.invalidArgument, .notFound, .alreadyExists, .failedPrecondition]

def Interruption.status (operation : String) : Interruption → Status
  | failed failure => .ofFailure operation failure
  | stalled => .deadlineExceeded operation

theorem isExpected_status (operation : String) {interruption : Interruption} (expected : interruption.IsExpected) :
    (interruption.status operation).IsExpected := by
  cases interruption with
  | stalled => exact expected.elim
  | failed failure =>
      cases failure with
      | notFound | alreadyExists | alreadyBound =>
          simp [Interruption.status, Status.IsExpected, Status.ofFailure]
      | internal => exact expected.elim

theorem isSome_updatedMetadata (update : SegmentUpdate) {stored : Cell}
    (readable : stored = .null ∨ stored.IsDocument Metadata.ofJson?) :
    (Store.updatedMetadata update stored).isSome = true := by
  have merges (metadata : Metadata) : (Store.mergeMetadata stored metadata).isSome = true := by
    rcases readable with rfl | ⟨text, rfl, read⟩
    · have empty : Json.parse? "{}" = some (.object []) := by rfl
      simp [Store.mergeMetadata, Store.mergeableText, empty]
    · obtain ⟨document, found, _⟩ := Option.bind_eq_some_iff.mp (Option.isSome_iff_exists.mp read).choose_spec
      simp [Store.mergeMetadata, Store.mergeableText, found]
  unfold Store.updatedMetadata
  split
  · rfl
  · rfl
  · rfl
  · exact merges _

def Write.Fits : Write → Prop
  | insertDatabase database => Store.checkedLength database.name ≤ longestDatabaseName
  | insertTenant _ | advanceCheckpoint _ _ | bindResourceName _ _ | softDelete _ _ | finishDeletion _ | insertSegment _
  | updateSegment _ | flushSegment _ _ | flushCollection _ => True

theorem isExpected_fault (flush : CollectionFlush) (store : Store) : (flush.fault store).IsExpected := by
  unfold CollectionFlush.fault
  split <;> trivial

theorem isExpected_of_run {now : Instant} {write : Write} {store : Store} {failure : Failure}
    (readable : store.IsReadable) (fits : write.Fits) (failed : write.run now store = .error failure) :
    failure.IsExpected := by
  cases write with
  | insertTenant tenant =>
      rw [Write.run, insertTenant_eq] at failed
      split at failed <;> cases failed
      trivial
  | advanceCheckpoint id time =>
      rw [Write.run, advanceCheckpoint_eq] at failed
      split at failed <;> cases failed
      trivial
  | bindResourceName id resourceName =>
      rw [Write.run, bindResourceName_eq] at failed
      split at failed
      · cases failed
      · split at failed <;> cases failed <;> trivial
  | insertDatabase database =>
      rw [Write.run, insertDatabase_eq, if_neg (Nat.not_lt.mpr fits)] at failed
      split at failed
      · cases failed
        trivial
      · split at failed <;> cases failed
        trivial
  | softDelete tenant name =>
      rw [Write.run, softDelete_eq] at failed
      split at failed <;> cases failed
      trivial
  | finishDeletion cutoff =>
      obtain ⟨count, kept, _, _, removed⟩ := finishDeletion_eq cutoff store readable.hasIdentifiers
      rw [Write.run, removed] at failed
      cases failed
  | insertSegment segment =>
      rw [Write.run, insertSegment_eq] at failed
      split at failed <;> cases failed
      trivial
  | updateSegment update =>
      have possible : ∀ row ∈ store.segments, row.segmentId = .ofIdentifier update.id →
          (Store.updatedMetadata update row.metadata).isSome = true := by
        intro row member _
        exact isSome_updatedMetadata update ((reads_segment_iff row).mp (readable.segments row member)).metadata
      rw [Write.run, updateSegment_eq, if_pos possible] at failed
      split at failed <;> cases failed
      trivial
  | flushSegment collectionId flush =>
      rw [Write.run, flushSegment_eq] at failed
      split at failed <;> cases failed
      trivial
  | flushCollection flush =>
      rw [Write.run, flushCollection_eq] at failed
      split at failed <;> cases failed
      exact isExpected_fault flush store

/-- What an action may come to: an answer or a failure of the given kind, with a store that can be read. -/
inductive Served {α ε : Type} (fails : ε → Prop) : Except ε α × Store → Prop where
  | answered {value : α} {after : Store} (readable : after.IsReadable) : Served fails (.ok value, after)
  | refused {error : ε} {after : Store} (expected : fails error) (readable : after.IsReadable) :
      Served fails (.error error, after)

structure Serves {α ε : Type} (fails : ε → Prop) (now : Instant)
    (action : ReaderT Circumstances (ExceptT ε (StateM Store)) α) : Prop where
  served : ∀ store : Store, store.IsReadable → Served fails (action ⟨now, [], true⟩ store)

section Actions

variable {α β ε : Type} {fails : ε → Prop} {now : Instant}

theorem serves_pure (value : α) :
    Serves fails now (pure value : ReaderT Circumstances (ExceptT ε (StateM Store)) α) :=
  ⟨fun _ readable => .answered readable⟩

theorem serves_bind {first : ReaderT Circumstances (ExceptT ε (StateM Store)) α}
    {next : α → ReaderT Circumstances (ExceptT ε (StateM Store)) β} (one : Serves fails now first)
    (other : ∀ value, Serves fails now (next value)) : Serves fails now (first >>= next) := by
  constructor
  intro store readable
  have served := one.served store readable
  rw [bind_run]
  rcases done : first ⟨now, [], true⟩ store with ⟨outcome, after⟩
  rw [done] at served
  cases served with
  | answered between => exact (other _).served after between
  | refused expected between => exact .refused expected between

theorem serves_map {first : ReaderT Circumstances (ExceptT ε (StateM Store)) α} (one : Serves fails now first)
    (result : α → β) : Serves fails now (first >>= fun value => pure (result value)) :=
  serves_bind one fun value => serves_pure (result value)

end Actions

section Accesses

variable {α : Type} {now : Instant}

theorem serves_reach {fails : Interruption → Prop} (table : Table) : Serves fails now (Access.reach table) :=
  ⟨fun _ readable => .answered readable⟩

theorem serves_fail {failure : Failure} (expected : failure.IsExpected) :
    Serves Interruption.IsExpected now (Access.fail (α := α) failure) :=
  ⟨fun _ readable => .refused expected readable⟩

theorem serves_query {read : Store → Except Failure α}
    (reads : ∀ store : Store, store.IsReadable → Reads (read store)) :
    Serves Interruption.IsExpected now (Access.query read) := by
  constructor
  intro store readable
  obtain ⟨value, done⟩ := reads store readable
  rw [Access.query, Access.statement, if_pos rfl, done]
  exact .answered readable

theorem serves_write {change : Instant → Store → Except Failure Store} (write : Write)
    (same : ∀ now store, change now store = write.run now store) (fits : write.Fits) (reads : write.ReadsBack now) :
    Serves Interruption.IsExpected now (Access.write change) := by
  constructor
  intro store readable
  rw [Access.write, Access.statement, if_pos rfl, same]
  cases done : write.run now store with
  | ok after =>
      exact .answered ((isReadable_iff_of_did readable (did_of_run readable.hasIdentifiers done)).mpr reads)
  | error failure => exact .refused (isExpected_of_run readable fits done) readable

theorem serves_finishDeletion (fails : Interruption → Prop) (cutoff : Instant) :
    Serves fails now (Access.statement fun _ => Store.finishDeletion cutoff) := by
  constructor
  intro store readable
  obtain ⟨count, kept, sublist, _, removed⟩ := finishDeletion_eq cutoff store readable.hasIdentifiers
  rw [Access.statement, if_pos rfl, removed]
  exact .answered ((readable.withDatabases kept).mpr fun row member => readable.databases row (sublist.subset member))

end Accesses

theorem reads_getTenant {store : Store} (readable : store.IsReadable) (id : String) : Reads (store.getTenant id) := by
  unfold Store.getTenant
  split
  · exact reads_ok none
  · rename_i row found
    exact (reads_map some row.tenant).mpr (readable.tenants row (List.mem_of_find?_eq_some found))

theorem reads_getDatabaseByName {store : Store} (readable : store.IsReadable) (tenant name : String) :
    Reads (store.getDatabaseByName tenant name) := by
  unfold Store.getDatabaseByName
  split
  · exact reads_ok none
  · rename_i row found
    exact (reads_map some row.database).mpr (readable.databases row (List.mem_of_find?_eq_some found))

theorem reads_getSegment {store : Store} (readable : store.IsReadable) (id : SegmentId) :
    Reads (store.getSegment id) := by
  unfold Store.getSegment
  split
  · exact reads_ok none
  · rename_i row found
    exact (reads_map some row.segment).mpr (readable.segments row (List.mem_of_find?_eq_some found))

theorem reads_listDatabases {store : Store} (readable : store.IsReadable) (tenant : String)
    (limit offset : Option UInt32) : Reads (store.listDatabases tenant limit offset) := by
  have remaining : ∀ row ∈ (sortRows (·.createdAt) (·.name) (store.databases.filter fun row =>
      row.tenantId.same (.text tenant) && row.isActive)).drop ((offset.map UInt32.toNat).getD 0),
      Reads row.database := by
    intro row member
    have stored := Store.mem_sortRows.mp (List.mem_of_mem_drop member)
    exact readable.databases row (List.mem_filter.mp stored).1
  unfold Store.listDatabases
  cases limit with
  | none => exact reads_mapM remaining
  | some limit => exact reads_mapM fun row member => remaining row (List.mem_of_mem_take member)

theorem reads_checkpoints {store : Store} (readable : store.IsReadable) (ids : List String) :
    Reads (store.checkpoints ids) := by
  refine reads_mapM fun row member => ?_
  have stored := (List.mem_filter.mp (Store.mem_sortRows.mp member)).1
  obtain ⟨⟨id, named⟩, _, ⟨time, reached⟩, _, _⟩ := (reads_tenant_iff row).mp (readable.tenants row stored)
  exact ⟨⟨id, time⟩, by rw [TenantRow.checkpoint, named, reached]; rfl⟩

section Lookups

variable {now : Instant}

theorem serves_findTenant (tenant : String) : Serves Interruption.IsExpected now (findTenant tenant) := by
  refine serves_bind (serves_reach .tenants) fun _ => ?_
  refine serves_bind (serves_query fun _ readable => reads_getTenant readable tenant) fun found => ?_
  cases found with
  | some value => exact serves_pure value
  | none => exact serves_fail trivial

theorem serves_findDatabase (tenant name : String) :
    Serves Interruption.IsExpected now (findDatabase tenant name) := by
  refine serves_bind (serves_reach .databases) fun _ => ?_
  refine serves_bind (serves_query fun _ readable => reads_getDatabaseByName readable tenant name) fun found => ?_
  cases found with
  | some value => exact serves_pure value
  | none => exact serves_bind (serves_findTenant tenant) fun _ => serves_fail trivial

theorem serves_listTenantDatabases (tenant : String) (limit offset : Option UInt32) :
    Serves Interruption.IsExpected now (listTenantDatabases tenant limit offset) :=
  serves_bind (serves_findTenant tenant) fun _ => serves_bind (serves_reach .databases) fun _ =>
    serves_query fun _ readable => reads_listDatabases readable tenant limit offset

theorem serves_segmentCandidates (id : Option SegmentId) :
    Serves Interruption.IsExpected now (segmentCandidates id) := by
  refine serves_bind (serves_reach .segments) fun _ => ?_
  cases id with
  | some id => exact serves_map (serves_query fun _ readable => reads_getSegment readable id) Option.toList
  | none => exact serves_query fun _ readable => readable.answers.segments

theorem serves_checkpoints (ids : List String) : Serves Interruption.IsExpected now (Access.checkpoints ids) := by
  unfold Access.checkpoints
  split
  · exact serves_pure []
  · exact serves_query fun _ readable => reads_checkpoints readable ids

end Lookups

end MetadataRegistry
