import MetadataRegistry.Proofs.Merging
import MetadataRegistry.Proofs.Readability
import MetadataRegistry.Proofs.Runs
import MetadataRegistry.Proofs.TableCalls

/-!
Records that are inserted and read back. A row holds its record in full but for the times, which are cut down to
milliseconds. Under an identifier that no row had before, it is the new row that is found.
-/

namespace MetadataRegistry

theorem readState_text (state : DatabaseState) : readState state.text = .ok state :=
  (readState_iff _ _).mpr (by cases state <;> rfl)

theorem readScope_text (scope : SegmentScope) : readScope scope.text = .ok scope :=
  (readScope_iff _ _).mpr (by cases scope <;> rfl)

theorem readDocumentText_text {α : Type} {read : Json → Option α} {document : Json} {value : α}
    (spelled : document.IsSpelled) (found : read document = some value) :
    readDocumentText read document.text = .ok value := by
  rw [readDocumentText_iff, parse?_text spelled]
  exact found

theorem readDeletion_ofOption {deletedAt : Option Instant}
    (plain : ∀ deleted ∈ deletedAt, deleted.isLeapSecond = false) :
    (Cell.ofOption .ofMillis deletedAt).readOptional (Cell.readInteger "deleted_at") >>=
      readFound (readMillis "deleted_at") = .ok (deletedAt.map Instant.truncate) := by
  cases deletedAt with
  | none => rfl
  | some deleted =>
      show (readMillis "deleted_at" (.ofInt deleted.epochMillis)).map some = _
      rw [readMillis_epochMillis _ (plain deleted rfl)]
      rfl

theorem readMetadata_ofOption {metadata : Option Metadata} (exact : ∀ given ∈ metadata, given.IsExact) :
    (Cell.ofOption (fun metadata => .text (Metadata.toJson metadata).text) metadata).readOptional
      (Cell.readText "metadata") >>= readFound (readDocumentText Metadata.ofJson?) = .ok metadata :=
  readMetadata_of_holds (holdsMetadata_ofOption exact)

def Tenant.truncated (tenant : Tenant) : Tenant :=
  { tenant with createdAt := tenant.createdAt.truncate, updatedAt := tenant.updatedAt.truncate }

def Database.truncated (database : Database) : Database :=
  { database with
    deletedAt := database.deletedAt.map Instant.truncate
    createdAt := database.createdAt.truncate
    updatedAt := database.updatedAt.truncate }

def Segment.truncated (segment : Segment) : Segment :=
  { segment with createdAt := segment.createdAt.truncate, updatedAt := segment.updatedAt.truncate }

theorem tenant_ofTenant {tenant : Tenant} (created : tenant.createdAt.HasStoredYear)
    (updated : tenant.updatedAt.HasStoredYear) : (TenantRow.ofTenant tenant).tenant = .ok tenant.truncated := by
  have name : (Cell.ofOption .text tenant.resourceName).readOptional (Cell.readText "resource_name") =
      .ok tenant.resourceName := by
    cases tenant.resourceName <;> rfl
  simp only [TenantRow.tenant, TenantRow.ofTenant, Cell.ofInstant, Cell.readText, Cell.readInteger, name, ok_bind,
    readTime_storedText _ created, readTime_storedText _ updated]
  rfl

theorem database_ofDatabase {database : Database} (created : database.createdAt.HasStoredYear)
    (updated : database.updatedAt.HasStoredYear)
    (plain : ∀ deleted ∈ database.deletedAt, deleted.isLeapSecond = false) :
    (DatabaseRow.ofDatabase database).database = .ok database.truncated := by
  rw [database_eq]
  simp only [DatabaseRow.ofDatabase, Cell.ofIdentifier, Cell.ofInstant, Cell.readText, Cell.readInteger, Cell.readBytes,
    ok_bind, readIdentifier_bytes, readState_text, readDeletion_ofOption plain, readTime_storedText _ created,
    readTime_storedText _ updated]
  rfl

theorem segment_ofSegment {segment : Segment} (created : segment.createdAt.HasStoredYear)
    (updated : segment.updatedAt.HasStoredYear) (exact : ∀ metadata ∈ segment.metadata, metadata.IsExact) :
    (SegmentRow.ofSegment segment).segment = .ok segment.truncated := by
  have paths := readDocumentText_text (isSpelled_filePaths segment.filePaths)
    (ofJson?_toJson_filePaths segment.filePaths)
  rw [segment_eq]
  simp only [SegmentRow.ofSegment, Cell.ofIdentifier, Cell.ofInstant, Cell.ofDocument, Cell.readText,
    Cell.readInteger, Cell.readBytes, ok_bind, readIdentifier_bytes, readScope_text, readMetadata_ofOption exact, paths,
    readTime_storedText _ created, readTime_storedText _ updated]
  rfl

theorem find?_appended {Row : Type} {condition : Row → Bool} {rows : List Row} {row : Row}
    (absent : ∀ other ∈ rows, ¬condition other = true) (new : condition row = true) :
    (rows ++ [row]).find? condition = some row := by
  rw [List.find?_append, List.find?_eq_none.mpr absent, Option.none_or, List.find?_singleton, if_pos new]

section

variable {before after : Store}

theorem getTenant_of_inserted {tenant : Tenant} (inserted : before.insertTenant tenant = .ok after) :
    after.getTenant tenant.id = (TenantRow.ofTenant tenant).tenant.map some := by
  rw [insertTenant_eq] at inserted
  split at inserted
  · cases inserted
  · rename_i unknown
    cases inserted
    rw [Store.getTenant, find?_appended]
    · exact fun row member same => unknown ⟨row, member, (Cell.same_text_iff _ _).mp same⟩
    · exact (Cell.same_text_iff _ _).mpr rfl

theorem getDatabase_of_inserted {database : Database} (inserted : before.insertDatabase database = .ok after) :
    after.getDatabase database.id = (DatabaseRow.ofDatabase database).database.map some := by
  rw [insertDatabase_eq] at inserted
  split at inserted
  · cases inserted
  · split at inserted
    · cases inserted
    · rename_i free
      split at inserted
      · cases inserted
        rw [Store.getDatabase, find?_appended]
        · exact fun row member same => free (Or.inl ⟨row, member, (Cell.same_ofIdentifier_iff _ _).mp same⟩)
        · exact (Cell.same_ofIdentifier_iff _ _).mpr rfl
      · cases inserted

theorem getSegment_of_inserted {segment : Segment} (inserted : before.insertSegment segment = .ok after) :
    after.getSegment segment.id = (SegmentRow.ofSegment segment).segment.map some := by
  rw [insertSegment_eq] at inserted
  split at inserted
  · cases inserted
  · rename_i unknown
    cases inserted
    rw [Store.getSegment, find?_appended]
    · exact fun row member same => unknown ⟨row, member, (isSegment_iff _ _).mp same⟩
    · exact (isSegment_iff _ _).mpr rfl

end

inductive StoredRecord where
  | tenant (record : Tenant)
  | database (record : Database)
  | segment (record : Segment)

namespace StoredRecord

def insertion : StoredRecord → TableCall
  | tenant record => .insertTenant record
  | database record => .insertDatabase record
  | segment record => .insertSegment record

def lookup : StoredRecord → TableCall
  | tenant record => .getTenant record.id
  | database record => .getDatabase record.id
  | segment record => .getSegment record.id

def found : StoredRecord → Answer
  | tenant record => .tenant (some record)
  | database record => .database (some record)
  | segment record => .segment (some record)

def truncated : StoredRecord → StoredRecord
  | tenant record => .tenant record.truncated
  | database record => .database record.truncated
  | segment record => .segment record.truncated

def createdAt : StoredRecord → Instant
  | tenant record => record.createdAt
  | database record => record.createdAt
  | segment record => record.createdAt

def updatedAt : StoredRecord → Instant
  | tenant record => record.updatedAt
  | database record => record.updatedAt
  | segment record => record.updatedAt

def IsExact : StoredRecord → Prop
  | tenant _ => True
  | database record => ∀ deleted ∈ record.deletedAt, deleted.isLeapSecond = false
  | segment record => ∀ metadata ∈ record.metadata, metadata.IsExact

structure IsFaithful (stored : StoredRecord) : Prop where
  created : stored.createdAt.HasStoredYear
  updated : stored.updatedAt.HasStoredYear
  exact : stored.IsExact

end StoredRecord

theorem Session.answer_after_done {α : Type} {session : Session} {write ask : TableCall} {writtenAt askedAt : Instant}
    {change : Instant → Store → Except Failure Store} {answer : α → Answer} {read : Store → Except Failure α}
    {value : α} (writes : write.run = TableCall.writing change) (asks : ask.run = TableCall.querying answer read)
    (reads : ∀ before after, change writtenAt before = .ok after → read after = .ok value)
    (done : (Step.perform ⟨writtenAt, .table write⟩ session).1 = .answered .done) :
    (Step.perform ⟨askedAt, .table ask⟩ (Step.perform ⟨writtenAt, .table write⟩ session).2).1 =
      .answered (answer value) := by
  obtain ⟨isOpen, changed, written, after⟩ := written_of_done writes done
  have left : (Step.perform ⟨writtenAt, .table write⟩ session).2 = ⟨changed, session.isOpen, writtenAt⟩ := after
  have stillOpen : (Session.mk changed session.isOpen writtenAt).isOpen = true := isOpen
  rw [left]
  exact answered_of_read asks stillOpen (reads _ _ written) askedAt

/-- Right after an insertion that succeeds, whatever the store holds, the record is found by its identifier, the
same in every field but for the times, which are cut down to milliseconds. -/
theorem inserted_is_found (session : Session) (stored : StoredRecord) (faithful : stored.IsFaithful)
    (insertedAt askedAt : Instant)
    (done : (Step.perform ⟨insertedAt, .table stored.insertion⟩ session).1 = .answered .done) :
    (Step.perform ⟨askedAt, .table stored.lookup⟩
      (Step.perform ⟨insertedAt, .table stored.insertion⟩ session).2).1 = .answered stored.truncated.found := by
  obtain ⟨created, updated, exact⟩ := faithful
  cases stored with
  | tenant record =>
      show _ = Outcome.answered (.tenant (some record.truncated))
      refine Session.answer_after_done rfl rfl (fun before after inserted => ?_) done
      rw [getTenant_of_inserted inserted, tenant_ofTenant created updated]
      rfl
  | database record =>
      show _ = Outcome.answered (.database (some record.truncated))
      refine Session.answer_after_done rfl rfl (fun before after inserted => ?_) done
      rw [getDatabase_of_inserted inserted, database_ofDatabase created updated exact]
      rfl
  | segment record =>
      show _ = Outcome.answered (.segment (some record.truncated))
      refine Session.answer_after_done rfl rfl (fun before after inserted => ?_) done
      rw [getSegment_of_inserted inserted, segment_ofSegment created updated exact]
      rfl

def leapSegment : Segment where
  id := .ofByte 7
  segmentType := "urn:\"\x00\n"
  scope := .record
  collectionId := .nil
  metadata := some (.ofEntries [("", .real ⟨4607182418800017408⟩), ("é", .integer 1), ("truth", .bool true)])
  ts := Int64.minValue
  filePaths := .ofEntries [("role", ["second", "first"]), ("empty", [])]
  createdAt := ⟨-1, 1234567891, by decide, by decide⟩
  updatedAt := firstOfJune

theorem inserted_is_found_leapSegment :
    (StoredRecord.segment leapSegment).IsFaithful ∧
      (Step.perform ⟨firstOfJune, .table (.getSegment (.ofByte 7))⟩
        (Step.perform ⟨firstOfJune, .table (.insertSegment leapSegment)⟩ (Session.start firstOfJune)).2).1 =
          .answered (.segment (some leapSegment.truncated)) := by
  have faithful : (StoredRecord.segment leapSegment).IsFaithful := by
    refine ⟨by decide +kernel, by decide +kernel, ?_⟩
    intro metadata held
    cases held
    decide +kernel
  exact ⟨faithful,
    inserted_is_found (Session.start firstOfJune) (.segment leapSegment) faithful firstOfJune firstOfJune rfl⟩

end MetadataRegistry
