import MetadataRegistry.Proofs.Rows

/-!
What the writes on the tables do, each as one equation: the conditions under which it takes effect and
the rows after it, or else its failure. A write appends one row, changes the rows that it addresses in
place, or removes rows.
-/

namespace MetadataRegistry

/-- The later of two checkpoints. A column that holds something else than an integer keeps the
greater cell. -/
def laterCheckpoint (time : Int64) : Cell → Cell
  | .integer old => .integer (max old time)
  | other => other.greater (.integer time)

theorem laterCheckpoint_eq (time : Int64) (cell : Cell) :
    laterCheckpoint time cell = cell.greater (.integer time) := by
  cases cell with
  | integer old => rw [laterCheckpoint, Cell.greater_integer]
  | null | real | text | bytes => rfl

def TenantRow.advanced (now : Instant) (id : String) (time : Int64) (row : TenantRow) : TenantRow :=
  if row.id = .text id then
    { row with lastCompactionTime := laterCheckpoint time row.lastCompactionTime, updatedAt := .ofInstant now }
  else row

def TenantRow.bound (now : Instant) (id resourceName : String) (row : TenantRow) : TenantRow :=
  if row.id = .text id ∧ row.resourceName = .null then
    { row with resourceName := .text resourceName, updatedAt := .ofInstant now }
  else row

namespace DatabaseRow

def HasActiveName (tenant name : String) (row : DatabaseRow) : Prop :=
  row.tenantId = .text tenant ∧ row.name = .text name ∧ row.state = .text "active"

instance (tenant name : String) : DecidablePred (HasActiveName tenant name) :=
  fun _ => inferInstanceAs (Decidable (_ ∧ _ ∧ _))

def deleted (now : Instant) (tenant name : String) (row : DatabaseRow) : DatabaseRow :=
  if row.HasActiveName tenant name then
    { row with
      state := .text DatabaseState.softDeleted.text
      deletedAt := .ofMillis now
      updatedAt := .ofInstant now }
  else row

def names (candidate row : DatabaseRow) : Bool :=
  match candidate.databaseId.readBytes "database_id" with
  | .ok idBytes => row.databaseId.same (.bytes idBytes)
  | .error _ => false

end DatabaseRow

namespace SegmentRow

def updated (now : Instant) (update : SegmentUpdate) (row : SegmentRow) : SegmentRow :=
  if row.segmentId = .ofIdentifier update.id then (Store.updateSegmentRow now update row).getD row else row

def IsIn (collectionId : Option CollectionId) (id : SegmentId) (row : SegmentRow) : Prop :=
  row.segmentId = .ofIdentifier id ∧ ∀ collection ∈ collectionId, row.collectionId = .ofIdentifier collection

instance (collectionId : Option CollectionId) (id : SegmentId) : DecidablePred (IsIn collectionId id) :=
  fun _ => inferInstanceAs (Decidable (_ ∧ _))

def withPaths (now : Instant) (paths : FilePaths) (row : SegmentRow) : SegmentRow :=
  { row with filePaths := .ofDocument (FilePaths.toJson paths), updatedAt := .ofInstant now }

def flushed (now : Instant) (collectionId : Option CollectionId) (flush : SegmentFlush) (row : SegmentRow) :
    SegmentRow :=
  if row.IsIn collectionId flush.id then row.withPaths now flush.filePaths else row

end SegmentRow

@[simp] theorem id_advanced (now : Instant) (id : String) (time : Int64) (row : TenantRow) :
    (row.advanced now id time).id = row.id := by
  unfold TenantRow.advanced
  split <;> rfl

@[simp] theorem id_bound (now : Instant) (id resourceName : String) (row : TenantRow) :
    (row.bound now id resourceName).id = row.id := by
  unfold TenantRow.bound
  split <;> rfl

@[simp] theorem databaseId_deleted (now : Instant) (tenant name : String) (row : DatabaseRow) :
    (row.deleted now tenant name).databaseId = row.databaseId := by
  unfold DatabaseRow.deleted
  split <;> rfl

@[simp] theorem tenantId_deleted (now : Instant) (tenant name : String) (row : DatabaseRow) :
    (row.deleted now tenant name).tenantId = row.tenantId := by
  unfold DatabaseRow.deleted
  split <;> rfl

@[simp] theorem segmentId_flushed (now : Instant) (collectionId : Option CollectionId) (flush : SegmentFlush)
    (row : SegmentRow) : (row.flushed now collectionId flush).segmentId = row.segmentId := by
  unfold SegmentRow.flushed
  split <;> rfl

@[simp] theorem collectionId_flushed (now : Instant) (collectionId : Option CollectionId) (flush : SegmentFlush)
    (row : SegmentRow) : (row.flushed now collectionId flush).collectionId = row.collectionId := by
  unfold SegmentRow.flushed
  split <;> rfl

theorem updateSegmentRow_eq (now : Instant) (update : SegmentUpdate) (row : SegmentRow) :
    Store.updateSegmentRow now update row = (Store.updatedMetadata update row.metadata).map fun metadata =>
      { row with
        metadata
        ts := (update.ts.map Cell.integer).getD row.ts
        collectionId := (update.collectionId.map Cell.ofIdentifier).getD row.collectionId
        updatedAt := .ofInstant now } := by
  unfold Store.updateSegmentRow
  cases Store.updatedMetadata update row.metadata <;> rfl

@[simp] theorem segmentId_updated (now : Instant) (update : SegmentUpdate) (row : SegmentRow) :
    (row.updated now update).segmentId = row.segmentId := by
  unfold SegmentRow.updated
  rw [updateSegmentRow_eq]
  split
  · cases Store.updatedMetadata update row.metadata <;> rfl
  · rfl

theorem insertTenant_eq (tenant : Tenant) (store : Store) :
    store.insertTenant tenant =
      if ∃ row ∈ store.tenants, row.id = .text tenant.id then .error (.alreadyExists "tenant" tenant.id)
      else .ok { store with tenants := store.tenants ++ [.ofTenant tenant] } := by
  simp only [Store.insertTenant, hasTenant_iff]
  rfl

theorem advanceCheckpoint_eq (now : Instant) (id : String) (time : Int64) (store : Store) :
    store.advanceCheckpoint now id time =
      if ∃ row ∈ store.tenants, row.id = .text id then
        .ok { store with tenants := store.tenants.map (.advanced now id time) }
      else .error (.notFound "tenant" id) := by
  have rows := updateRows_eq _ _ (fun row => row.id = .text id) (.advanced now id time) store.tenants
    (fun row _ => Cell.same_text_iff row.id id) (fun row _ => by rw [TenantRow.advanced, laterCheckpoint_eq])
  simp only [Store.advanceCheckpoint, rows]
  by_cases found : ∃ row ∈ store.tenants, row.id = .text id
  · rw [if_pos found, if_pos found]
  · rw [if_neg found, if_neg found]

theorem bindResourceName_eq (now : Instant) (id resourceName : String) (store : Store) :
    store.bindResourceName now id resourceName =
      if ∃ row ∈ store.tenants, row.id = .text id ∧ row.resourceName = .null then
        .ok { store with tenants := store.tenants.map (.bound now id resourceName) }
      else if ∃ row ∈ store.tenants, row.id = .text id then .error (.alreadyBound "tenant" id "resource name")
      else .error (.notFound "tenant" id) := by
  have rows := updateRows_eq (fun row => row.id.same (.text id) && row.resourceName.isNull) _
    (fun row => row.id = .text id ∧ row.resourceName = .null) (.bound now id resourceName) store.tenants
    (fun row _ => by simp) (fun _ _ => rfl)
  simp only [Store.bindResourceName, hasTenant_iff, rows]
  by_cases found : ∃ row ∈ store.tenants, row.id = .text id ∧ row.resourceName = .null
  · rw [if_pos found, if_pos found]
  · rw [if_neg found, if_neg found]

theorem isActiveNamed_iff (tenant name : String) (row : DatabaseRow) :
    row.isActiveNamed tenant name = true ↔ row.HasActiveName tenant name := by
  have active : DatabaseState.active.text = "active" := rfl
  simp [DatabaseRow.isActiveNamed, DatabaseRow.isActive, DatabaseRow.HasActiveName, and_assoc, active]

def Database.IsTaken (database : Database) (store : Store) : Prop :=
  (∃ row ∈ store.databases, row.databaseId = .ofIdentifier database.id) ∨
    (database.state = .active ∧ ∃ row ∈ store.databases, row.HasActiveName database.tenant database.name)

instance (database : Database) (store : Store) : Decidable (database.IsTaken store) :=
  inferInstanceAs (Decidable (_ ∨ _))

theorem reportedViolation_eq (long taken known : Prop) [Decidable long] [Decidable taken] [Decidable known] :
    reportedViolation ((if long then [.check] else []) ++ (if taken then [.unique] else []) ++
      (if known then [] else [.reference])) =
      if long then some .check else if taken then some .unique else if known then none else some .reference := by
  by_cases long <;> by_cases taken <;> by_cases known <;> simp only [*, if_true, if_false] <;> rfl

theorem insertDatabase_eq (database : Database) (store : Store) :
    store.insertDatabase database =
      if longestDatabaseName < Store.checkedLength database.name then .error (.internal .store)
      else if database.IsTaken store then
        .error (.alreadyExists "database" (Store.qualifiedName database.tenant database.name))
      else if ∃ row ∈ store.tenants, row.id = .text database.tenant then
        .ok { store with databases := store.databases ++ [.ofDatabase database] }
      else .error (.notFound "tenant" database.tenant) := by
  have taken : (store.databases.any (fun row => row.databaseId.same (.ofIdentifier database.id)) ||
      (database.state == .active && store.databases.any (DatabaseRow.isActiveNamed database.tenant database.name))) =
      true ↔ database.IsTaken store := by
    simp [Database.IsTaken, List.any_eq_true, isActiveNamed_iff]
  simp only [Store.insertDatabase, Store.databaseViolations, reportedViolation_eq, taken, hasTenant_iff]
  by_cases long : longestDatabaseName < Store.checkedLength database.name
  · rw [if_pos long, if_pos long]
    rfl
  · by_cases isTaken : database.IsTaken store
    · rw [if_neg long, if_neg long, if_pos isTaken, if_pos isTaken]
      rfl
    · by_cases known : ∃ row ∈ store.tenants, row.id = .text database.tenant
      · rw [if_neg long, if_neg long, if_neg isTaken, if_neg isTaken, if_pos known, if_pos known]
      · rw [if_neg long, if_neg long, if_neg isTaken, if_neg isTaken, if_neg known, if_neg known]
        rfl

theorem softDelete_eq (now : Instant) (tenant name : String) (store : Store) :
    store.softDelete now tenant name =
      if ∃ row ∈ store.databases, row.HasActiveName tenant name then
        .ok { store with databases := store.databases.map (.deleted now tenant name) }
      else .error (.notFound "database" (Store.qualifiedName tenant name)) := by
  have rows := updateRows_eq _ _ (DatabaseRow.HasActiveName tenant name) (.deleted now tenant name)
    store.databases (fun row _ => isActiveNamed_iff tenant name row) (fun _ _ => rfl)
  simp only [Store.softDelete, rows]
  by_cases found : ∃ row ∈ store.databases, row.HasActiveName tenant name
  · rw [if_pos found, if_pos found]
  · rw [if_neg found, if_neg found]

def Store.HasIdentifiers (store : Store) : Prop :=
  ∀ row ∈ store.databases, ∃ idBytes, row.databaseId.readBytes "database_id" = .ok idBytes

theorem removeCandidates_eq (cutoff : Int64) (candidates : List DatabaseRow) :
    ∀ (removed : Nat) (store : Store),
      (∀ candidate ∈ candidates, ∃ idBytes, candidate.databaseId.readBytes "database_id" = .ok idBytes) →
        ∃ count, Store.removeCandidates cutoff candidates removed store =
          (.ok count, { store with databases := store.databases.filter fun row =>
            !(row.isExpired cutoff && candidates.any fun candidate => candidate.names row) }) := by
  -- Each candidate takes along all expired rows of its identifier, which another candidate may have too.
  induction candidates with
  | nil =>
      intro removed store _
      have kept : store.databases.filter (fun row => !(row.isExpired cutoff && false)) = store.databases := by simp
      refine ⟨removed, ?_⟩
      simp only [List.any_nil, kept]
      rfl
  | cons candidate rest ih =>
      intro removed store identified
      obtain ⟨idBytes, read⟩ := identified candidate List.mem_cons_self
      obtain ⟨count, others⟩ := ih (removed + (store.removeExpired cutoff idBytes).1)
        (store.removeExpired cutoff idBytes).2
        (fun other member => identified other (List.mem_cons_of_mem candidate member))
      refine ⟨count, ?_⟩
      have named : ∀ row : DatabaseRow, candidate.names row = row.databaseId.same (.bytes idBytes) := by
        intro row
        rw [DatabaseRow.names, read]
      rw [Store.removeCandidates, read]
      refine others.trans ?_
      simp only [Store.removeExpired, List.filter_filter, List.any_cons, named]
      congr 3
      funext row
      cases row.isExpired cutoff <;> cases row.databaseId.same (.bytes idBytes) <;> simp

theorem mem_deletionCandidates {cutoff : Int64} {store : Store} {row : DatabaseRow} :
    row ∈ store.deletionCandidates cutoff ↔ row ∈ store.databases ∧ row.isExpired cutoff = true :=
  List.mem_mergeSort.trans List.mem_filter

theorem finishDeletionUntil_eq (statements : Nat) (cutoff : Instant) (store : Store)
    (identified : store.HasIdentifiers) :
    ∃ count, ∃ keeps : DatabaseRow → Bool,
      (∀ row, row.isExpired (.ofInt cutoff.epochMillis) = false → keeps row = true) ∧
      store.finishDeletionUntil statements cutoff =
        (.ok count, { store with databases := store.databases.filter keeps }) := by
  obtain ⟨count, removed⟩ := removeCandidates_eq (.ofInt cutoff.epochMillis)
    ((store.deletionCandidates (.ofInt cutoff.epochMillis)).take statements) 0 store
    (fun candidate member => identified candidate (mem_deletionCandidates.mp (List.mem_of_mem_take member)).1)
  exact ⟨count, _, fun row valid => by simp [valid], removed⟩

theorem finishDeletion_eq (cutoff : Instant) (store : Store) (identified : store.HasIdentifiers) :
    ∃ count kept, kept.Sublist store.databases ∧
      (∀ row ∈ store.databases, row.isExpired (.ofInt cutoff.epochMillis) = false → row ∈ kept) ∧
      store.finishDeletion cutoff = (.ok count, { store with databases := kept }) := by
  obtain ⟨count, keeps, valid, removed⟩ := finishDeletionUntil_eq
    (store.deletionCandidates (.ofInt cutoff.epochMillis)).length cutoff store identified
  refine ⟨count, _, List.filter_sublist, fun row member unexpired => ?_, removed⟩
  exact List.mem_filter.mpr ⟨member, valid row unexpired⟩

theorem insertSegment_eq (segment : Segment) (store : Store) :
    store.insertSegment segment =
      if ∃ row ∈ store.segments, row.segmentId = .ofIdentifier segment.id then
        .error (.alreadyExists "segment" segment.id.text)
      else .ok { store with segments := store.segments ++ [.ofSegment segment] } := by
  simp only [Store.insertSegment, List.any_eq_true, isSegment_iff]
  rfl

theorem updateSegment_eq (now : Instant) (update : SegmentUpdate) (store : Store) :
    store.updateSegment now update =
      if ∃ row ∈ store.segments, row.segmentId = .ofIdentifier update.id then
        if ∀ row ∈ store.segments, row.segmentId = .ofIdentifier update.id →
            (Store.updatedMetadata update row.metadata).isSome then
          .ok { store with segments := store.segments.map (.updated now update) }
        else .error (.internal .store)
      else .error (.notFound "segment" update.id.text) := by
  have changed : ∀ row ∈ store.segments, ∀ result,
      (if row.segmentId = .ofIdentifier update.id then Store.updateSegmentRow now update row else some row) =
        some result → row.updated now update = result := by
    intro row _ result change
    unfold SegmentRow.updated
    by_cases same : row.segmentId = .ofIdentifier update.id
    · rw [if_pos same] at change
      rw [if_pos same, change, Option.getD_some]
    · rw [if_neg same] at change
      rw [if_neg same, Option.some.inj change]
  have changes : (∀ row ∈ store.segments,
      (if row.segmentId = .ofIdentifier update.id then Store.updateSegmentRow now update row else some row).isSome) ↔
        ∀ row ∈ store.segments, row.segmentId = .ofIdentifier update.id →
          (Store.updatedMetadata update row.metadata).isSome := by
    refine forall_congr' fun row => forall_congr' fun _ => ?_
    by_cases same : row.segmentId = .ofIdentifier update.id
    · simp [same, updateSegmentRow_eq]
    · simp [same]
  simp only [Store.updateSegment, List.any_eq_true, isSegment_iff]
  simp only [mapM_eq _ _ _ changed, changes]
  by_cases found : ∃ row ∈ store.segments, row.segmentId = .ofIdentifier update.id
  · rw [if_pos found, if_pos found]
    by_cases possible : ∀ row ∈ store.segments, row.segmentId = .ofIdentifier update.id →
        (Store.updatedMetadata update row.metadata).isSome
    · rw [if_pos possible, if_pos possible]
    · rw [if_neg possible, if_neg possible]
  · rw [if_neg found, if_neg found]

theorem flushSegment_eq (now : Instant) (collectionId : Option CollectionId) (flush : SegmentFlush) (store : Store) :
    store.flushSegment now collectionId flush =
      if ∃ row ∈ store.segments, row.IsIn collectionId flush.id then
        .ok { store with segments := store.segments.map (.flushed now collectionId flush) }
      else .error (.notFound "segment" flush.id.text) := by
  have addressed : ∀ row ∈ store.segments, (Store.isSegment flush.id row &&
      collectionId.all fun id => row.collectionId.same (.ofIdentifier id)) = true ↔
        row.IsIn collectionId flush.id := by
    intro row _
    cases collectionId <;> simp [SegmentRow.IsIn, isSegment_iff]
  have rows := updateRows_eq _ (fun row => { row with
      filePaths := .ofDocument (FilePaths.toJson flush.filePaths), updatedAt := .ofInstant now })
    (SegmentRow.IsIn collectionId flush.id) (.flushed now collectionId flush) store.segments addressed
    (fun _ _ => rfl)
  simp only [Store.flushSegment, rows]
  by_cases found : ∃ row ∈ store.segments, row.IsIn collectionId flush.id
  · rw [if_pos found, if_pos found]
  · rw [if_neg found, if_neg found]

end MetadataRegistry
