import MetadataRegistry.Proofs.Access
import MetadataRegistry.Proofs.Json.Values
import MetadataRegistry.Proofs.Tables

/-!
A collection flush has two outcomes only: it finds every segment that it lists in its collection, and
the tenant, and then takes effect on exactly these rows; or it names the first thing that it does not
find and leaves the store as it was.
-/

namespace MetadataRegistry

namespace CollectionFlush

def Finds (flush : CollectionFlush) (store : Store) (id : SegmentId) : Prop :=
  ∃ row ∈ store.segments, row.IsIn (some flush.collectionId) id

instance (flush : CollectionFlush) (store : Store) (id : SegmentId) : Decidable (flush.Finds store id) :=
  inferInstanceAs (Decidable (∃ row ∈ store.segments, _))

def IsCovered (flush : CollectionFlush) (store : Store) : Prop :=
  (∀ listed ∈ flush.segments, flush.Finds store listed.id) ∧ ∃ row ∈ store.tenants, row.id = .text flush.tenantId

instance (flush : CollectionFlush) (store : Store) : Decidable (flush.IsCovered store) :=
  inferInstanceAs (Decidable (_ ∧ _))

def fault (flush : CollectionFlush) (store : Store) : Failure :=
  match flush.segments.find? fun listed => !decide (flush.Finds store listed.id) with
  | some listed => .notFound "segment" listed.id.text
  | none => .notFound "tenant" flush.tenantId

def lastListed? (flush : CollectionFlush) (row : SegmentRow) : Option SegmentFlush :=
  flush.segments.reverse.find? fun listed => decide (row.segmentId = .ofIdentifier listed.id)

def flushedRow (now : Instant) (flush : CollectionFlush) (row : SegmentRow) : SegmentRow :=
  if row.collectionId = .ofIdentifier flush.collectionId then
    match flush.lastListed? row with
    | some listed => row.withPaths now listed.filePaths
    | none => row
  else row

/-- The store after the flush: only the rows of the listed segments and of the tenant differ. -/
def applied (now : Instant) (flush : CollectionFlush) (store : Store) : Store where
  tenants := store.tenants.map (.advanced now flush.tenantId flush.compactionTime)
  databases := store.databases
  segments := store.segments.map (flush.flushedRow now)

end CollectionFlush

theorem finds_flushed (now : Instant) (flush : CollectionFlush) (listed : SegmentFlush) (store : Store)
    (id : SegmentId) :
    flush.Finds { store with segments := store.segments.map (.flushed now (some flush.collectionId) listed) } id ↔
      flush.Finds store id := by
  constructor
  · rintro ⟨_, member, same⟩
    obtain ⟨row, stored, rfl⟩ := List.mem_map.mp member
    rw [SegmentRow.IsIn, segmentId_flushed, collectionId_flushed] at same
    exact ⟨row, stored, same⟩
  · rintro ⟨row, stored, same⟩
    refine ⟨_, List.mem_map_of_mem stored, ?_⟩
    rwa [SegmentRow.IsIn, segmentId_flushed, collectionId_flushed]

def flushRows (now : Instant) (collectionId : CollectionId) (listed : List SegmentFlush) (row : SegmentRow) :
    SegmentRow :=
  listed.foldl (fun row flush => row.flushed now (some collectionId) flush) row

theorem foldlM_flushSegment (now : Instant) (flush : CollectionFlush) (segments : List SegmentFlush) :
    ∀ store : Store,
      segments.foldlM (fun store listed => store.flushSegment now (some flush.collectionId) listed) store =
        match segments.find? fun listed => !decide (flush.Finds store listed.id) with
        | some missing => .error (.notFound "segment" missing.id.text)
        | none => .ok { store with segments := store.segments.map (flushRows now flush.collectionId segments) } := by
  induction segments with
  | nil =>
      intro store
      have kept : store.segments.map (flushRows now flush.collectionId []) = store.segments := List.map_id _
      rw [List.find?_nil, kept]
      rfl
  | cons listed rest ih =>
      intro store
      rw [List.foldlM_cons, flushSegment_eq]
      by_cases found : flush.Finds store listed.id
      · rw [if_pos (show ∃ row ∈ store.segments, row.IsIn _ listed.id from found)]
        simp only [List.find?_cons, found, decide_true, Bool.not_true]
        refine (ih _).trans ?_
        simp only [finds_flushed, List.map_map]
        rfl
      · rw [if_neg (show ¬∃ row ∈ store.segments, row.IsIn _ listed.id from found)]
        simp only [List.find?_cons, found, decide_false, Bool.not_false]
        rfl

theorem flushed_of_other_collection {now : Instant} {collectionId : CollectionId} {listed : SegmentFlush}
    {row : SegmentRow} (other : row.collectionId ≠ .ofIdentifier collectionId) :
    row.flushed now (some collectionId) listed = row := by
  unfold SegmentRow.flushed
  rw [if_neg fun inside => other (inside.2 collectionId rfl)]

theorem flushRows_eq (now : Instant) (collectionId : CollectionId) (segments : List SegmentFlush) :
    ∀ row : SegmentRow, row.collectionId = .ofIdentifier collectionId →
      flushRows now collectionId segments row =
        match segments.reverse.find? fun listed => decide (row.segmentId = .ofIdentifier listed.id) with
        | some listed => row.withPaths now listed.filePaths
        | none => row := by
  induction segments with
  | nil =>
      intro row _
      rfl
  | cons listed rest ih =>
      intro row inside
      have later := ih (row.flushed now (some collectionId) listed)
        (by rw [collectionId_flushed]; exact inside)
      rw [segmentId_flushed] at later
      rw [flushRows, List.foldl_cons, ← flushRows, later, List.reverse_cons, List.find?_append]
      cases last : rest.reverse.find? fun listed => decide (row.segmentId = .ofIdentifier listed.id) with
      | some final =>
          simp only [Option.some_or]
          unfold SegmentRow.flushed
          split <;> rfl
      | none =>
          by_cases same : row.segmentId = .ofIdentifier listed.id
          · simp [SegmentRow.flushed, SegmentRow.IsIn, same, inside]
          · simp [SegmentRow.flushed, SegmentRow.IsIn, same]

theorem flushRows_eq_flushedRow (now : Instant) (flush : CollectionFlush) (row : SegmentRow) :
    flushRows now flush.collectionId flush.segments row = flush.flushedRow now row := by
  unfold CollectionFlush.flushedRow
  by_cases inside : row.collectionId = .ofIdentifier flush.collectionId
  · rw [if_pos inside]
    exact flushRows_eq now flush.collectionId flush.segments row inside
  · rw [if_neg inside, flushRows]
    induction flush.segments with
    | nil => rfl
    | cons listed rest ih => rw [List.foldl_cons, flushed_of_other_collection inside, ih]

theorem segmentId_flushedRow (now : Instant) (flush : CollectionFlush) (row : SegmentRow) :
    (flush.flushedRow now row).segmentId = row.segmentId := by
  unfold CollectionFlush.flushedRow
  split
  · split <;> rfl
  · rfl

def Store.flushCollection (now : Instant) (flush : CollectionFlush) (store : Store) : Except Failure Store := do
  let flushed ← flush.segments.foldlM
    (fun store listed => store.flushSegment now (some flush.collectionId) listed) store
  flushed.advanceCheckpoint now flush.tenantId flush.compactionTime

theorem forM_write_run {α : Type} (change : α → Instant → Store → Except Failure Store) (now : Instant)
    (stalled : List Table) (items : List α) :
    ∀ store : Store, ∃ left, (items.forM fun item => Access.write (change item)) ⟨now, stalled, true⟩ store =
      match items.foldlM (fun store item => change item now store) store with
      | .ok changed => (.ok (), changed)
      | .error failure => (.error (.failed failure), left) := by
  induction items with
  | nil => exact fun store => ⟨store, rfl⟩
  | cons item rest ih =>
      intro store
      show ∃ left, (Access.write (change item) >>= fun _ =>
        rest.forM fun item => Access.write (change item)) _ store = _
      rw [bind_run, Access.write_run, List.foldlM_cons]
      cases changed : change item now store with
      | error failure => exact ⟨store, rfl⟩
      | ok after => exact ih after

theorem Access.flushCollection_eq_write (flush : CollectionFlush) :
    Access.flushCollection flush = Access.write fun now => Store.flushCollection now flush := by
  funext ⟨now, stalled, isOpen⟩ store
  cases isOpen with
  | false => rfl
  | true =>
      obtain ⟨left, flushed⟩ := forM_write_run
        (fun listed now => Store.flushSegment now (some flush.collectionId) listed) now stalled flush.segments store
      rw [Access.write_run, Access.flushCollection, Access.transaction, if_pos rfl, bind_run, flushed,
        Store.flushCollection]
      cases flush.segments.foldlM
        (fun store listed => store.flushSegment now (some flush.collectionId) listed) store with
      | error failure => rfl
      | ok changed =>
          dsimp only
          rw [Access.write_run, ok_bind]
          cases changed.advanceCheckpoint now flush.tenantId flush.compactionTime <;> rfl

theorem TableCall.run_flushCollection (flush : CollectionFlush) :
    (TableCall.flushCollection flush).run = TableCall.writing fun now => Store.flushCollection now flush := by
  rw [TableCall.run, Access.flushCollection_eq_write]
  rfl

theorem flushCollection_eq (now : Instant) (flush : CollectionFlush) (store : Store) :
    store.flushCollection now flush =
      if flush.IsCovered store then .ok (flush.applied now store) else .error (flush.fault store) := by
  unfold Store.flushCollection
  rw [foldlM_flushSegment]
  unfold CollectionFlush.fault
  cases missed : flush.segments.find? fun listed => !decide (flush.Finds store listed.id) with
  | some missing =>
      have absent : ¬flush.Finds store missing.id := by simpa using List.find?_some missed
      have member : missing ∈ flush.segments := List.mem_of_find?_eq_some missed
      rw [if_neg fun covered => absent (covered.1 missing member)]
      rfl
  | none =>
      have found : ∀ listed ∈ flush.segments, flush.Finds store listed.id := by simpa using missed
      have rows : store.segments.map (flushRows now flush.collectionId flush.segments) =
          store.segments.map (flush.flushedRow now) :=
        List.map_congr_left fun row _ => flushRows_eq_flushedRow now flush row
      refine (advanceCheckpoint_eq now flush.tenantId flush.compactionTime _).trans ?_
      rw [rows]
      by_cases known : ∃ row ∈ store.tenants, row.id = .text flush.tenantId
      · rw [if_pos known, if_pos ⟨found, known⟩]
        rfl
      · rw [if_neg known, if_neg fun covered => known covered.2]

theorem readPaths_ofDocument (paths : FilePaths) :
    ((Cell.ofDocument (FilePaths.toJson paths)).readText "file_paths").bind
      (readDocumentText FilePaths.ofJson?) = .ok paths := by
  show readDocumentText FilePaths.ofJson? (FilePaths.toJson paths).text = .ok paths
  rw [readDocumentText, parse?_text (isSpelled_filePaths paths), Option.bind_some, ofJson?_toJson_filePaths]

/-- A collection flush that finds all its segments in the collection, and the tenant, answers that it
is done and changes exactly their rows: each segment gets the mapping listed last for it, which reads
back, and the tenant's checkpoint never goes back. Any other flush names the first thing that it does
not find and changes nothing. -/
theorem flushCollection_all_or_nothing (flush : CollectionFlush) (now : Instant) (stalled : List Table)
    (store : Store) :
    ((TableCall.flushCollection flush).run ⟨now, stalled, true⟩ store =
      if flush.IsCovered store then (.ok .done, flush.applied now store)
      else (.error (.failed (flush.fault store)), store)) ∧
    ∀ (row : SegmentRow) (paths : FilePaths),
      ((row.withPaths now paths).filePaths.readText "file_paths").bind
        (readDocumentText FilePaths.ofJson?) = .ok paths := by
  constructor
  · rw [TableCall.run_flushCollection, TableCall.writing_run, flushCollection_eq]
    by_cases covered : flush.IsCovered store
    · rw [if_pos covered, if_pos covered]
    · rw [if_neg covered, if_neg covered]
  · intro row paths
    exact readPaths_ofDocument paths

/-- A flush that takes effect dates the row of the tenant too, here one of the first of June 2024 that is
flushed a second later. -/
theorem flushCollection_dates_tenant :
    ¬∀ (flush : CollectionFlush) (now : Instant) (stalled : List Table) (store after : Store),
      (TableCall.flushCollection flush).run ⟨now, stalled, true⟩ store = (.ok .done, after) →
        after.tenants.map (·.updatedAt) = store.tenants.map (·.updatedAt) := by
  intro undated
  have unmoved := undated ⟨"acme", .nil, [], 100⟩ ⟨1717200001, 0, by decide, by decide⟩ []
    ⟨[.ofTenant (.create "acme" ⟨1717200000, 0, by decide, by decide⟩)], [], []⟩ _ rfl
  exact absurd unmoved (by decide +kernel)

end MetadataRegistry
