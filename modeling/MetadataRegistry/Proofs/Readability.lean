import MetadataRegistry.Proofs.Metadata
import MetadataRegistry.Proofs.Rows
import MetadataRegistry.Proofs.StoredTime

/-!
Rows that can be read back, cell by cell: a column of text holds text, one of integers an integer, an
identifier sixteen bytes, a time a text that the reader of the store takes, and a document one of its
kind. A store of such rows answers whenever it is asked for them.
-/

namespace MetadataRegistry

def Reads {α : Type} (result : Except Failure α) : Prop := ∃ value, result = .ok value

theorem reads_ok {α : Type} (value : α) : Reads (.ok value) := ⟨value, rfl⟩

theorem not_reads_error {α : Type} (failure : Failure) : ¬Reads (.error failure : Except Failure α) := by
  rintro ⟨value, impossible⟩
  cases impossible

theorem reads_pure {α : Type} (value : α) : Reads (pure value : Except Failure α) := ⟨value, rfl⟩

theorem bind_eq_ok_iff {α β : Type} (first : Except Failure α) (next : α → Except Failure β) (result : β) :
    first >>= next = .ok result ↔ ∃ value, first = .ok value ∧ next value = .ok result := by
  cases first with
  | error failure =>
      constructor
      · intro impossible
        cases impossible
      · rintro ⟨_, impossible, _⟩
        cases impossible
  | ok value =>
      constructor
      · exact fun done => ⟨value, rfl, done⟩
      · rintro ⟨_, same, done⟩
        cases same
        exact done

theorem reads_bind {α β : Type} (first : Except Failure α) (next : α → Except Failure β) :
    Reads (first >>= next) ↔ ∃ value, first = .ok value ∧ Reads (next value) := by
  simp only [Reads, bind_eq_ok_iff]
  constructor
  · rintro ⟨result, value, done, read⟩
    exact ⟨value, done, result, read⟩
  · rintro ⟨value, done, result, read⟩
    exact ⟨result, value, done, read⟩

theorem reads_map {α β : Type} (change : α → β) (result : Except Failure α) :
    Reads (result.map change) ↔ Reads result := by
  cases result with
  | error failure => exact iff_of_false (not_reads_error failure) (not_reads_error failure)
  | ok value => exact iff_of_true (reads_ok _) (reads_ok value)

theorem map_some_eq_ok_iff {α : Type} (result : Except Failure α) (found : Option α) :
    result.map some = .ok found ↔ ∃ value, result = .ok value ∧ found = some value := by
  cases result with
  | error failure => simp [Except.map]
  | ok value => simp [Except.map, eq_comm]

theorem reads_mapM {α β : Type} {read : α → Except Failure β} {values : List α}
    (each : ∀ value ∈ values, Reads (read value)) : Reads (values.mapM read) := by
  induction values with
  | nil => exact reads_pure []
  | cons value rest ih =>
      obtain ⟨result, first⟩ := each value List.mem_cons_self
      obtain ⟨results, later⟩ := ih fun other member => each other (List.mem_cons_of_mem value member)
      rw [List.mapM_cons, reads_bind]
      refine ⟨result, first, ?_⟩
      rw [reads_bind]
      exact ⟨results, later, reads_pure _⟩

theorem reads_of_mapM {α β : Type} {read : α → Except Failure β} {values : List α} (all : Reads (values.mapM read)) :
    ∀ value ∈ values, Reads (read value) := by
  induction values with
  | nil => exact fun _ impossible => nomatch impossible
  | cons value rest ih =>
      rw [List.mapM_cons, reads_bind] at all
      obtain ⟨result, first, all⟩ := all
      obtain ⟨results, later, _⟩ := (reads_bind _ _).mp all
      exact List.forall_mem_cons.mpr ⟨⟨result, first⟩, ih ⟨results, later⟩⟩

namespace Cell

def IsText (cell : Cell) : Prop := ∃ text, cell = .text text

def IsInteger (cell : Cell) : Prop := ∃ value, cell = .integer value

def IsTime (cell : Cell) : Prop := ∃ text, cell = .text text ∧ (Instant.parseStored? text).isSome = true

def IsMillis (cell : Cell) : Prop :=
  ∃ millis, cell = .integer millis ∧ (Instant.ofEpochMillis? millis.toInt).isSome = true

def IsIdentifier (cell : Cell) : Prop := ∃ idBytes, cell.readBytes "" = .ok idBytes ∧ idBytes.length = 16

def IsWord {α : Type} (parse : String → Option α) (cell : Cell) : Prop :=
  ∃ text, cell = .text text ∧ (parse text).isSome = true

theorem readText_iff (column text : String) (cell : Cell) :
    cell.readText column = .ok text ↔ cell = .text text := by
  cases cell <;> simp [readText, unreadable]

theorem readInteger_iff (column : String) (value : Int64) (cell : Cell) :
    cell.readInteger column = .ok value ↔ cell = .integer value := by
  cases cell <;> simp [readInteger, unreadable]

theorem readBytes_iff (column : String) (idBytes : List UInt8) (cell : Cell) :
    cell.readBytes column = .ok idBytes ↔ cell.readBytes "" = .ok idBytes := by
  cases cell <;> simp [readBytes, unreadable]

theorem readOptional_iff {α : Type} (read : Cell → Except Failure α) (found : Option α) (cell : Cell) :
    cell.readOptional read = .ok found ↔
      (cell = .null ∧ found = none) ∨ (cell ≠ .null ∧ ∃ value, read cell = .ok value ∧ found = some value) := by
  cases cell with
  | null => simp [readOptional, eq_comm]
  | integer | real | text | bytes =>
      simp only [readOptional]
      cases read _ <;> simp [Except.map, eq_comm]

end Cell

theorem readTime_iff (column text : String) (instant : Instant) :
    readTime column text = .ok instant ↔ Instant.parseStored? text = some instant := by
  unfold readTime
  cases Instant.parseStored? text <;> simp

theorem readMillis_iff (column : String) (millis : Int64) (instant : Instant) :
    readMillis column millis = .ok instant ↔ Instant.ofEpochMillis? millis.toInt = some instant := by
  unfold readMillis
  cases Instant.ofEpochMillis? millis.toInt <;> simp

theorem readTime_storedText (column : String) {instant : Instant} (inYears : instant.HasStoredYear) :
    readTime column instant.storedText = .ok instant.truncate :=
  (readTime_iff column _ _).mpr (parseStored?_storedText instant inYears)

theorem readMillis_epochMillis (column : String) {instant : Instant} (plain : instant.isLeapSecond = false) :
    readMillis column (.ofInt instant.epochMillis) = .ok instant.truncate := by
  rw [readMillis_iff, toInt_epochMillis]
  exact ofEpochMillis?_epochMillis plain

theorem readState_iff (text : String) (state : DatabaseState) :
    readState text = .ok state ↔ DatabaseState.parse? text = some state := by
  unfold readState
  cases DatabaseState.parse? text <;> simp

theorem readScope_iff (text : String) (scope : SegmentScope) :
    readScope text = .ok scope ↔ SegmentScope.parse? text = some scope := by
  unfold readScope
  cases SegmentScope.parse? text <;> simp

theorem readDocumentText_iff {α : Type} (read : Json → Option α) (text : String) (value : α) :
    readDocumentText read text = .ok value ↔ (Json.parse? text).bind read = some value := by
  unfold readDocumentText
  cases (Json.parse? text).bind read <;> simp

theorem reads_readIdentifier_iff {kind : IdentifierKind} (idBytes : List UInt8) :
    Reads (readIdentifier idBytes : Except Failure (Identifier kind)) ↔ idBytes.length = 16 := by
  unfold readIdentifier Identifier.ofBytes
  by_cases sixteen : idBytes.length = 16
  · rw [dif_pos sixteen]
    exact iff_of_true (reads_ok _) sixteen
  · rw [dif_neg sixteen]
    exact iff_of_false (not_reads_error _) sixteen

theorem readIdentifier_bytes {kind : IdentifierKind} (id : Identifier kind) : readIdentifier id.bytes = .ok id := by
  rw [readIdentifier, Identifier.ofBytes, dif_pos id.sixteen]

theorem reads_readOptional_iff {α : Type} (read : Cell → Except Failure α) (cell : Cell) :
    Reads (cell.readOptional read) ↔ cell = .null ∨ Reads (read cell) := by
  cases cell with
  | null => exact iff_of_true (reads_ok none) (Or.inl rfl)
  | integer | real | text | bytes =>
      rw [Cell.readOptional, reads_map]
      · exact ⟨Or.inr, fun either => either.resolve_left (by simp)⟩
      · simp

theorem reads_readText_iff (column : String) (cell : Cell) : Reads (cell.readText column) ↔ cell.IsText := by
  simp only [Reads, Cell.readText_iff, Cell.IsText]

def readFound {α β : Type} (read : α → Except Failure β) : Option α → Except Failure (Option β)
  | none => pure none
  | some value => (read value).map some

theorem reads_readFound_iff {α β : Type} (first : Cell → Except Failure α) (next : α → Except Failure β)
    (cell : Cell) :
    Reads (cell.readOptional first >>= readFound next) ↔
      cell = .null ∨ ∃ value, first cell = .ok value ∧ Reads (next value) := by
  rw [reads_bind]
  constructor
  · rintro ⟨found, same, read⟩
    rcases (Cell.readOptional_iff first found cell).mp same with ⟨absent, _⟩ | ⟨_, value, firstRead, rfl⟩
    · exact Or.inl absent
    · exact Or.inr ⟨value, firstRead, (reads_map some (next value)).mp read⟩
  · intro either
    by_cases absent : cell = .null
    · exact ⟨none, (Cell.readOptional_iff first none cell).mpr (Or.inl ⟨absent, rfl⟩), reads_pure none⟩
    · obtain ⟨value, firstRead, read⟩ := either.resolve_left absent
      exact ⟨some value, (Cell.readOptional_iff first _ cell).mpr (Or.inr ⟨absent, value, firstRead, rfl⟩),
        (reads_map some (next value)).mpr read⟩

theorem reads_deletion_iff (cell : Cell) :
    Reads (cell.readOptional (Cell.readInteger "deleted_at") >>= readFound (readMillis "deleted_at")) ↔
      cell = .null ∨ cell.IsMillis := by
  rw [reads_readFound_iff]
  simp only [Cell.readInteger_iff, Reads, readMillis_iff, Cell.IsMillis, Option.isSome_iff_exists]

theorem reads_metadata_iff (cell : Cell) :
    Reads (cell.readOptional (Cell.readText "metadata") >>= readFound (readDocumentText Metadata.ofJson?)) ↔
      cell = .null ∨ cell.IsDocument Metadata.ofJson? := by
  rw [reads_readFound_iff]
  simp only [Cell.readText_iff, Reads, readDocumentText_iff, Cell.IsDocument, Option.isSome_iff_exists]

theorem isIdentifier_iff {kind : IdentifierKind} (column : String) (cell : Cell) :
    cell.IsIdentifier ↔ ∃ idBytes, cell.readBytes column = .ok idBytes ∧
      ∃ id : Identifier kind, readIdentifier idBytes = .ok id := by
  have sixteen (idBytes : List UInt8) :
      (∃ id : Identifier kind, readIdentifier idBytes = .ok id) ↔ idBytes.length = 16 :=
    reads_readIdentifier_iff idBytes
  simp only [Cell.IsIdentifier, Cell.readBytes_iff column, sixteen]

structure TenantRow.IsReadable (row : TenantRow) : Prop where
  id : row.id.IsText
  resourceName : row.resourceName = .null ∨ row.resourceName.IsText
  lastCompactionTime : row.lastCompactionTime.IsInteger
  createdAt : row.createdAt.IsTime
  updatedAt : row.updatedAt.IsTime

theorem reads_tenant_iff (row : TenantRow) : Reads row.tenant ↔ row.IsReadable := by
  simp only [TenantRow.tenant, reads_bind, Cell.readText_iff, Cell.readInteger_iff, readTime_iff]
  constructor
  · rintro ⟨_, created, _, updated, _, id, _, name, _, time, _, createdTime, _, updatedTime, _⟩
    exact ⟨⟨_, id⟩, ((reads_readOptional_iff _ _).mp ⟨_, name⟩).imp_right (reads_readText_iff _ _).mp, ⟨_, time⟩,
      ⟨_, created, Option.isSome_of_eq_some createdTime⟩, ⟨_, updated, Option.isSome_of_eq_some updatedTime⟩⟩
  · rintro ⟨⟨id, sameId⟩, name, ⟨time, sameTime⟩, ⟨created, sameCreated, createdTime⟩,
      ⟨updated, sameUpdated, updatedTime⟩⟩
    obtain ⟨createdAt, createdTime⟩ := Option.isSome_iff_exists.mp createdTime
    obtain ⟨updatedAt, updatedTime⟩ := Option.isSome_iff_exists.mp updatedTime
    obtain ⟨resourceName, sameName⟩ := (reads_readOptional_iff _ _).mpr
      (name.imp_right (reads_readText_iff "resource_name" _).mpr)
    exact ⟨created, sameCreated, updated, sameUpdated, id, sameId, resourceName, sameName, time, sameTime, createdAt,
      createdTime, updatedAt, updatedTime, reads_pure _⟩

structure DatabaseRow.IsReadable (row : DatabaseRow) : Prop where
  databaseId : row.databaseId.IsIdentifier
  name : row.name.IsText
  tenantId : row.tenantId.IsText
  ts : row.ts.IsInteger
  state : row.state.IsWord DatabaseState.parse?
  deletedAt : row.deletedAt = .null ∨ row.deletedAt.IsMillis
  createdAt : row.createdAt.IsTime
  updatedAt : row.updatedAt.IsTime

theorem database_eq (row : DatabaseRow) : row.database = (do
    let id ← readIdentifier (← row.databaseId.readBytes "database_id")
    let state ← readState (← row.state.readText "state")
    let deletedAt ← row.deletedAt.readOptional (Cell.readInteger "deleted_at") >>= readFound (readMillis "deleted_at")
    let createdAt ← row.createdAt.readText "created_at"
    let updatedAt ← row.updatedAt.readText "updated_at"
    return {
      id, state, deletedAt
      name := ← row.name.readText "name"
      tenant := ← row.tenantId.readText "tenant_id"
      ts := ← row.ts.readInteger "ts"
      createdAt := ← readTime "created_at" createdAt
      updatedAt := ← readTime "updated_at" updatedAt
    }) := by
  rw [DatabaseRow.database]
  cases row.deletedAt.readOptional (Cell.readInteger "deleted_at") with
  | error => rfl
  | ok found => cases found <;> rfl

theorem reads_database_iff (row : DatabaseRow) : Reads row.database ↔ row.IsReadable := by
  rw [database_eq]
  simp only [reads_bind, Cell.readText_iff, Cell.readInteger_iff, readTime_iff, readState_iff]
  constructor
  · rintro ⟨_, idBytes, _, id, _, state, _, parsed, _, deleted, _, created, _, updated, _, name, _, tenant, _, ts, _,
      createdTime, _, updatedTime, _⟩
    exact ⟨(isIdentifier_iff _ _).mpr ⟨_, idBytes, _, id⟩, ⟨_, name⟩, ⟨_, tenant⟩, ⟨_, ts⟩,
      ⟨_, state, Option.isSome_of_eq_some parsed⟩, (reads_deletion_iff _).mp ⟨_, deleted⟩,
      ⟨_, created, Option.isSome_of_eq_some createdTime⟩, ⟨_, updated, Option.isSome_of_eq_some updatedTime⟩⟩
  · rintro ⟨idBytes, ⟨name, sameName⟩, ⟨tenant, sameTenant⟩, ⟨ts, sameTs⟩, ⟨stateText, sameState, parsed⟩, deleted,
      ⟨created, sameCreated, createdTime⟩, ⟨updated, sameUpdated, updatedTime⟩⟩
    obtain ⟨idBytes, sameBytes, id, sameId⟩ := (isIdentifier_iff "database_id" _).mp idBytes
    obtain ⟨state, parsed⟩ := Option.isSome_iff_exists.mp parsed
    obtain ⟨deletedAt, deleted⟩ := (reads_deletion_iff _).mpr deleted
    obtain ⟨createdAt, createdTime⟩ := Option.isSome_iff_exists.mp createdTime
    obtain ⟨updatedAt, updatedTime⟩ := Option.isSome_iff_exists.mp updatedTime
    exact ⟨idBytes, sameBytes, id, sameId, stateText, sameState, state, parsed, deletedAt, deleted, created,
      sameCreated, updated, sameUpdated, name, sameName, tenant, sameTenant, ts, sameTs, createdAt, createdTime,
      updatedAt, updatedTime, reads_pure _⟩

structure SegmentRow.IsReadable (row : SegmentRow) : Prop where
  segmentId : row.segmentId.IsIdentifier
  segmentType : row.segmentType.IsText
  scope : row.scope.IsWord SegmentScope.parse?
  collectionId : row.collectionId.IsIdentifier
  metadata : row.metadata = .null ∨ row.metadata.IsDocument Metadata.ofJson?
  ts : row.ts.IsInteger
  filePaths : row.filePaths.IsDocument FilePaths.ofJson?
  createdAt : row.createdAt.IsTime
  updatedAt : row.updatedAt.IsTime

theorem segment_eq (row : SegmentRow) : row.segment = (do
    let idBytes ← row.segmentId.readBytes "segment_id"
    let collectionBytes ← row.collectionId.readBytes "collection_id"
    let id ← readIdentifier idBytes
    let collectionId ← readIdentifier collectionBytes
    let scope ← readScope (← row.scope.readText "scope")
    let metadata ← row.metadata.readOptional (Cell.readText "metadata") >>=
      readFound (readDocumentText Metadata.ofJson?)
    let filePaths ← readDocumentText FilePaths.ofJson? (← row.filePaths.readText "file_paths")
    let createdAt ← row.createdAt.readText "created_at"
    let updatedAt ← row.updatedAt.readText "updated_at"
    return {
      id, collectionId, scope, metadata, filePaths
      segmentType := ← row.segmentType.readText "segment_type"
      ts := ← row.ts.readInteger "ts"
      createdAt := ← readTime "created_at" createdAt
      updatedAt := ← readTime "updated_at" updatedAt
    }) := by
  rw [SegmentRow.segment]
  cases row.metadata.readOptional (Cell.readText "metadata") with
  | error => rfl
  | ok found => cases found <;> rfl

theorem reads_segment_iff (row : SegmentRow) : Reads row.segment ↔ row.IsReadable := by
  rw [segment_eq]
  simp only [reads_bind, Cell.readText_iff, Cell.readInteger_iff, readTime_iff, readScope_iff, readDocumentText_iff]
  constructor
  · rintro ⟨_, idBytes, _, collectionBytes, _, id, _, collectionId, _, scope, _, parsed, _, metadata, _, paths, _,
      document, _, created, _, updated, _, segmentType, _, ts, _, createdTime, _, updatedTime, _⟩
    exact ⟨(isIdentifier_iff _ _).mpr ⟨_, idBytes, _, id⟩, ⟨_, segmentType⟩,
      ⟨_, scope, Option.isSome_of_eq_some parsed⟩, (isIdentifier_iff _ _).mpr ⟨_, collectionBytes, _, collectionId⟩,
      (reads_metadata_iff _).mp ⟨_, metadata⟩, ⟨_, ts⟩, ⟨_, paths, Option.isSome_of_eq_some document⟩,
      ⟨_, created, Option.isSome_of_eq_some createdTime⟩, ⟨_, updated, Option.isSome_of_eq_some updatedTime⟩⟩
  · rintro ⟨idBytes, ⟨segmentType, sameType⟩, ⟨scopeText, sameScope, parsed⟩, collectionBytes, metadata, ⟨ts, sameTs⟩,
      ⟨pathsText, samePaths, document⟩, ⟨created, sameCreated, createdTime⟩, ⟨updated, sameUpdated, updatedTime⟩⟩
    obtain ⟨idBytes, sameBytes, id, sameId⟩ := (isIdentifier_iff "segment_id" _).mp idBytes
    obtain ⟨collectionBytes, sameCollection, collectionId, sameCollectionId⟩ :=
      (isIdentifier_iff "collection_id" _).mp collectionBytes
    obtain ⟨scope, parsed⟩ := Option.isSome_iff_exists.mp parsed
    obtain ⟨found, metadata⟩ := (reads_metadata_iff _).mpr metadata
    obtain ⟨paths, document⟩ := Option.isSome_iff_exists.mp document
    obtain ⟨createdAt, createdTime⟩ := Option.isSome_iff_exists.mp createdTime
    obtain ⟨updatedAt, updatedTime⟩ := Option.isSome_iff_exists.mp updatedTime
    exact ⟨idBytes, sameBytes, collectionBytes, sameCollection, id, sameId, collectionId, sameCollectionId, scopeText,
      sameScope, scope, parsed, found, metadata, pathsText, samePaths, paths, document, created, sameCreated, updated,
      sameUpdated, segmentType, sameType, ts, sameTs, createdAt, createdTime, updatedAt, updatedTime, reads_pure _⟩

structure Store.IsReadable (store : Store) : Prop where
  tenants : ∀ row ∈ store.tenants, Reads row.tenant
  databases : ∀ row ∈ store.databases, Reads row.database
  segments : ∀ row ∈ store.segments, Reads row.segment

def Store.withoutSegments (store : Store) : Store := { store with segments := [] }

theorem isReadable_empty : Store.empty.IsReadable where
  tenants := fun _ impossible => nomatch impossible
  databases := fun _ impossible => nomatch impossible
  segments := fun _ impossible => nomatch impossible

structure Store.AnswersReads (store : Store) : Prop where
  tenants : Reads store.listTenants
  segments : Reads store.listSegments
  databases : ∀ id, Reads (store.getDatabase id)

namespace Store

theorem mem_sortRows {α : Type} {first second : α → Cell} {rows : List α} {row : α} :
    row ∈ sortRows first second rows ↔ row ∈ rows := List.mem_mergeSort

theorem IsReadable.answers {store : Store} (readable : store.IsReadable) : store.AnswersReads where
  tenants := reads_mapM fun row member => readable.tenants row (mem_sortRows.mp member)
  segments := reads_mapM fun row member => readable.segments row (mem_sortRows.mp member)
  databases := by
    intro id
    unfold getDatabase
    split
    · exact reads_ok none
    · rename_i row found
      exact (reads_map some row.database).mpr (readable.databases row (List.mem_of_find?_eq_some found))

def FindsDatabases (store : Store) : Prop :=
  ∀ row ∈ store.databases, ∃ id : DatabaseId, row.databaseId = .ofIdentifier id ∧
    ∀ other ∈ store.databases, other.databaseId = .ofIdentifier id → other = row

theorem AnswersReads.isReadable {store : Store} (answers : store.AnswersReads) (finds : store.FindsDatabases) :
    store.IsReadable where
  tenants := fun row member => reads_of_mapM answers.tenants row (mem_sortRows.mpr member)
  segments := fun row member => reads_of_mapM answers.segments row (mem_sortRows.mpr member)
  databases := by
    intro row member
    obtain ⟨id, same, only⟩ := finds row member
    have read := answers.databases id
    unfold getDatabase at read
    split at read
    · rename_i absent
      exact absurd ((Cell.same_ofIdentifier_iff _ id).mpr same) (List.find?_eq_none.mp absent row member)
    · rename_i found present
      have sameId := List.find?_some present
      rw [only found (List.mem_of_find?_eq_some present) ((Cell.same_ofIdentifier_iff _ id).mp sameId)] at read
      exact (reads_map some row.database).mp read

end Store

end MetadataRegistry
