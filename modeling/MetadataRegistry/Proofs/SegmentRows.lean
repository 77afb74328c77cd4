import MetadataRegistry.Proofs.Integrity
import MetadataRegistry.Proofs.Log
import MetadataRegistry.Proofs.Readability

/-!
The row of one segment. Every segment has the identifier that it was inserted with, and a write changes the row
of a segment by what it says of it, whatever else the store holds. No write removes one.
-/

namespace MetadataRegistry

def Store.segment? (id : SegmentId) (store : Store) : Option SegmentRow :=
  store.segments.find? fun row => row.segmentId = .ofIdentifier id

theorem id_of_segment? {id : SegmentId} {store : Store} {row : SegmentRow} (found : store.segment? id = some row) :
    row.segmentId = .ofIdentifier id := by
  simpa using List.find?_some found

theorem mem_of_segment? {id : SegmentId} {store : Store} {row : SegmentRow} (found : store.segment? id = some row) :
    row ∈ store.segments :=
  List.mem_of_find?_eq_some found

theorem segment?_eq_none {id : SegmentId} {store : Store} :
    store.segment? id = none ↔ ¬∃ row ∈ store.segments, row.segmentId = .ofIdentifier id := by
  simp [Store.segment?]

theorem getSegment_eq (id : SegmentId) (store : Store) :
    store.getSegment id = match store.segment? id with
      | none => .ok none
      | some row => row.segment.map some := by
  have condition : Store.isSegment id = fun row => decide (row.segmentId = .ofIdentifier id) := by
    funext row
    rw [Bool.eq_iff_iff, isSegment_iff, decide_eq_true_iff]
  rw [Store.getSegment, condition]
  rfl

theorem segment_of_getSegment {id : SegmentId} {store : Store} {row : SegmentRow} {found : Option Segment}
    (stored : store.segment? id = some row) (read : store.getSegment id = .ok found) :
    ∃ segment, row.segment = .ok segment ∧ found = some segment := by
  rw [getSegment_eq, stored] at read
  exact (map_some_eq_ok_iff row.segment found).mp read

structure SegmentRow.Gives (row : SegmentRow) (segment : Segment) : Prop where
  id : row.segmentId.readBytes "segment_id" >>= readIdentifier = .ok segment.id
  collectionId : row.collectionId.readBytes "collection_id" >>= readIdentifier = .ok segment.collectionId
  metadata : row.metadata.readOptional (Cell.readText "metadata") >>= readFound (readDocumentText Metadata.ofJson?) =
    .ok segment.metadata
  ts : row.ts.readInteger "ts" = .ok segment.ts

theorem gives_of_segment {row : SegmentRow} {segment : Segment} (read : row.segment = .ok segment) :
    row.Gives segment := by
  rw [segment_eq] at read
  simp only [bind_eq_ok_iff] at read
  obtain ⟨idBytes, idRead, collectionBytes, collectionRead, id, identified, collectionId, collected, read⟩ := read
  obtain ⟨_, _, _, _, metadata, found, _, _, _, _, _, _, _, _, _, _, ts, tsRead, _, _, _, _, same⟩ := read
  cases same
  exact {
    id := (bind_eq_ok_iff _ _ _).mpr ⟨idBytes, idRead, identified⟩
    collectionId := (bind_eq_ok_iff _ _ _).mpr ⟨collectionBytes, collectionRead, collected⟩
    metadata := (bind_eq_ok_iff _ _ _).mpr found
    ts := tsRead }

theorem readIdentifier_ofIdentifier {kind : IdentifierKind} (column : String) (id : Identifier kind) :
    (Cell.ofIdentifier id).readBytes column >>= readIdentifier = .ok id :=
  readIdentifier_bytes id

theorem id_of_segment {row : SegmentRow} {segment : Segment} {id : SegmentId}
    (named : row.segmentId = .ofIdentifier id) (read : row.segment = .ok segment) : segment.id = id := by
  have given := (gives_of_segment read).id
  rw [named, readIdentifier_ofIdentifier] at given
  exact (Except.ok.inj given).symm

def Store.HasSegmentIds (store : Store) : Prop :=
  ∀ row ∈ store.segments, ∃ id : SegmentId, row.segmentId = .ofIdentifier id

theorem hasSegmentIds_empty : Store.empty.HasSegmentIds := fun _ member => nomatch member

theorem hasSegmentIds_map {store : Store} (identified : store.HasSegmentIds) {change : SegmentRow → SegmentRow}
    (kept : ∀ row, (change row).segmentId = row.segmentId) :
    ∀ row ∈ store.segments.map change, ∃ id : SegmentId, row.segmentId = .ofIdentifier id := by
  rw [List.forall_mem_map]
  intro row member
  rw [kept]
  exact identified row member

theorem hasSegmentIds_of_did {now : Instant} {write : Write} {before after : Store} (did : write.Did now before after)
    (identified : before.HasSegmentIds) : after.HasSegmentIds := by
  cases write with
  | insertSegment segment =>
      obtain ⟨_, rfl⟩ := did
      intro row member
      rcases List.mem_append.mp member with stored | new
      · exact identified row stored
      · cases List.mem_singleton.mp new
        exact ⟨segment.id, rfl⟩
  | updateSegment update =>
      obtain ⟨_, _, rfl⟩ := did
      exact hasSegmentIds_map identified (segmentId_updated now update)
  | flushSegment collectionId flush =>
      obtain ⟨_, rfl⟩ := did
      exact hasSegmentIds_map identified (segmentId_flushed now collectionId flush)
  | flushCollection flush =>
      obtain ⟨_, rfl⟩ := did
      exact hasSegmentIds_map identified (segmentId_flushedRow now flush)
  | insertTenant | advanceCheckpoint | bindResourceName | softDelete =>
      obtain ⟨_, rfl⟩ := did
      exact identified
  | insertDatabase | finishDeletion =>
      obtain ⟨_, _, _, rfl⟩ := did
      exact identified

theorem Session.hasSegmentIds_after (steps : List Step) (session : Session)
    (ordinary : ∀ step ∈ steps, step.operation.IsOrdinary) (identified : session.store.HasIdentifiers)
    (segments : session.store.HasSegmentIds) : (session.after steps).store.HasSegmentIds :=
  store_after_keeps Store.HasSegmentIds (fun _ _ _ did held => hasSegmentIds_of_did did held) steps session ordinary
    identified segments

theorem segment?_map {id : SegmentId} {change : SegmentRow → SegmentRow}
    (kept : ∀ row, (change row).segmentId = row.segmentId) (store : Store) :
    { store with segments := store.segments.map change : Store }.segment? id = (store.segment? id).map change := by
  simp only [Store.segment?, List.find?_map]
  congr 2
  funext row
  simp [kept]

namespace Write

def segmentAfter (now : Instant) (id : SegmentId) (row : Option SegmentRow) : Write → Option SegmentRow
  | insertSegment segment => row.or (if segment.id = id then some (.ofSegment segment) else none)
  | updateSegment update => row.map (.updated now update)
  | flushSegment collectionId flush => row.map (.flushed now collectionId flush)
  | flushCollection flush => row.map (flush.flushedRow now)
  | insertTenant _ | advanceCheckpoint _ _ | bindResourceName _ _ | insertDatabase _ | softDelete _ _
  | finishDeletion _ => row

end Write

theorem segment?_of_did (id : SegmentId) {now : Instant} {write : Write} {before after : Store}
    (did : write.Did now before after) : after.segment? id = write.segmentAfter now id (before.segment? id) := by
  cases write with
  | insertSegment segment =>
      obtain ⟨_, rfl⟩ := did
      have added : [SegmentRow.ofSegment segment].find? (fun row => row.segmentId = .ofIdentifier id) =
          if segment.id = id then some (.ofSegment segment) else none := by
        by_cases same : segment.id = id
        · simp [SegmentRow.ofSegment, same]
        · simp [SegmentRow.ofSegment, ofIdentifier_inj, same]
      simp only [Store.segment?, List.find?_append, added, Write.segmentAfter]
  | updateSegment update =>
      obtain ⟨_, _, rfl⟩ := did
      exact segment?_map (segmentId_updated now update) before
  | flushSegment collectionId flush =>
      obtain ⟨_, rfl⟩ := did
      exact segment?_map (segmentId_flushed now collectionId flush) before
  | flushCollection flush =>
      obtain ⟨_, rfl⟩ := did
      exact segment?_map (segmentId_flushedRow now flush) before
  | insertTenant | advanceCheckpoint | bindResourceName | softDelete =>
      obtain ⟨_, rfl⟩ := did
      rfl
  | insertDatabase | finishDeletion =>
      obtain ⟨_, _, _, rfl⟩ := did
      rfl

end MetadataRegistry
