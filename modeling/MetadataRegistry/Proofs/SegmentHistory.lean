import MetadataRegistry.Proofs.InsertedRows
import MetadataRegistry.Proofs.Merging
import MetadataRegistry.Proofs.ReadBack
import MetadataRegistry.Proofs.ResourceNames
import MetadataRegistry.Proofs.SegmentRows
import MetadataRegistry.Proofs.TableCalls

/-!
The history of a segment. What updates set of a segment is a fold over the updates that reach it: nothing else
that happens to the store changes it, and no update with exact numbers fails. Reading the segment gives what the
fold gives.
-/

namespace MetadataRegistry

structure SegmentContent where
  metadata : Option Metadata
  ts : Int64
  collectionId : CollectionId

def Segment.content (segment : Segment) : SegmentContent := ⟨segment.metadata, segment.ts, segment.collectionId⟩

def SegmentContent.updated (content : SegmentContent) (update : SegmentUpdate) : SegmentContent where
  metadata := update.metadataAfter content.metadata
  ts := update.ts.getD content.ts
  collectionId := update.collectionId.getD content.collectionId

theorem foldl_getD {α β : Type} (given : α → Option β) (values : List α) : ∀ start : β,
    values.foldl (fun current value => (given value).getD current) start =
      (values.filterMap given).getLastD start := by
  induction values with
  | nil => exact fun _ => rfl
  | cons value rest ih =>
      intro start
      rw [List.foldl_cons, ih]
      cases found : given value with
      | none => rw [List.filterMap_cons_none found, Option.getD_none]
      | some next => rw [List.filterMap_cons_some found, Option.getD_some, List.getLastD_cons]

theorem foldl_updated (updates : List SegmentUpdate) (content : SegmentContent) :
    updates.foldl SegmentContent.updated content =
      ⟨updates.foldl (fun metadata update => update.metadataAfter metadata) content.metadata,
        (updates.filterMap (·.ts)).getLastD content.ts,
        (updates.filterMap (·.collectionId)).getLastD content.collectionId⟩ := by
  rw [← foldl_getD, ← foldl_getD]
  induction updates generalizing content with
  | nil => rfl
  | cons update rest ih => exact ih (content.updated update)

def SegmentUpdate.Merges (patch : Metadata) (update : SegmentUpdate) : Prop :=
  update.resetMetadata = false ∧ update.metadata = some patch

theorem metadataAfter_of_merges {patch : Metadata} {update : SegmentUpdate} (merges : update.Merges patch)
    (metadata : Option Metadata) :
    update.metadataAfter metadata = some ((metadata.getD .empty).overriddenBy patch) := by
  rw [SegmentUpdate.metadataAfter, merges.1, merges.2]

theorem metadataAfter_twice {first second both : SegmentUpdate} {patch other : Metadata} (merges : first.Merges patch)
    (follows : second.Merges other) (combines : both.Merges (patch.overriddenBy other)) (metadata : Option Metadata) :
    second.metadataAfter (first.metadataAfter metadata) = both.metadataAfter metadata := by
  rw [metadataAfter_of_merges merges, metadataAfter_of_merges follows, metadataAfter_of_merges combines,
    Option.getD_some, Dictionary.overriddenBy_assoc]

structure SegmentRow.Holds (timely : Prop) (row : SegmentRow) (content : SegmentContent) : Prop where
  metadata : row.metadata.HoldsMetadata content.metadata
  ts : row.ts = .integer content.ts
  collectionId : row.collectionId = .ofIdentifier content.collectionId
  readable : timely → row.IsReadable

section Rows

variable {timely : Prop} {row : SegmentRow} {content : SegmentContent} {now : Instant}

theorem holds_ofSegment {segment : Segment} (exact : ∀ metadata ∈ segment.metadata, metadata.IsExact)
    (inYears : timely → segment.createdAt.HasStoredYear ∧ segment.updatedAt.HasStoredYear) :
    (SegmentRow.ofSegment segment).Holds timely segment.content where
  metadata := holdsMetadata_ofOption exact
  ts := rfl
  collectionId := rfl
  readable := fun held => (isReadable_ofSegment segment).mpr
    ⟨(inYears held).1, (inYears held).2, fun metadata given => isFinite_of_isExact (exact metadata given)⟩

theorem holds_updated {update : SegmentUpdate} (holds : row.Holds timely content)
    (addressed : row.segmentId = .ofIdentifier update.id) (exact : ∀ metadata ∈ update.metadata, metadata.IsExact)
    (inYears : timely → now.HasStoredYear) : (row.updated now update).Holds timely (content.updated update) := by
  obtain ⟨metadata, done, held⟩ := updatedMetadata_of_holds holds.metadata exact
  have readable (dates : timely) : (row.updated now update).IsReadable :=
    (isReadable_updated (holds.readable dates) addressed (Option.isSome_of_eq_some done)).mpr
      ⟨inYears dates, fun _ metadata given => isFinite_of_isExact (exact metadata given)⟩
  rw [SegmentRow.updated, if_pos addressed, updateSegmentRow_eq, done, Option.map_some, Option.getD_some]
    at readable ⊢
  refine ⟨held, ?_, ?_, readable⟩
  · unfold SegmentContent.updated
    cases update.ts with
    | none => exact holds.ts
    | some ts => rfl
  · unfold SegmentContent.updated
    cases update.collectionId with
    | none => exact holds.collectionId
    | some id => rfl

theorem holds_withPaths (holds : row.Holds timely content) (inYears : timely → now.HasStoredYear)
    (paths : FilePaths) : (row.withPaths now paths).Holds timely content where
  metadata := holds.metadata
  ts := holds.ts
  collectionId := holds.collectionId
  readable := fun held => (isReadable_withPaths (holds.readable held) paths).mpr (inYears held)

theorem holds_flushed (holds : row.Holds timely content) (inYears : timely → now.HasStoredYear)
    (collectionId : Option CollectionId) (flush : SegmentFlush) :
    (row.flushed now collectionId flush).Holds timely content := by
  unfold SegmentRow.flushed
  split
  · exact holds_withPaths holds inYears flush.filePaths
  · exact holds

theorem holds_flushedRow (holds : row.Holds timely content) (inYears : timely → now.HasStoredYear)
    (flush : CollectionFlush) : (flush.flushedRow now row).Holds timely content := by
  unfold CollectionFlush.flushedRow
  split
  · split
    · exact holds_withPaths holds inYears _
    · exact holds
  · exact holds

theorem content_of_holds {segment : Segment} (holds : row.Holds timely content) (read : row.segment = .ok segment) :
    segment.content = content := by
  obtain ⟨_, collectionId, metadata, ts⟩ := gives_of_segment read
  rw [holds.collectionId, readIdentifier_ofIdentifier] at collectionId
  rw [readMetadata_of_holds holds.metadata] at metadata
  rw [holds.ts, Cell.readInteger] at ts
  rw [Segment.content, ← Except.ok.inj collectionId, ← Except.ok.inj metadata, ← Except.ok.inj ts]

end Rows

def Store.HoldsSegment (timely : Prop) (id : SegmentId) (content : SegmentContent) (store : Store) : Prop :=
  ∃ row, store.segment? id = some row ∧ row.Holds timely content

section Stores

variable {timely : Prop} {id : SegmentId} {content : SegmentContent} {now : Instant} {store before after : Store}

theorem holdsSegment_of_inserted {segment : Segment} (did : (Write.insertSegment segment).Did now before after)
    (exact : ∀ metadata ∈ segment.metadata, metadata.IsExact)
    (inYears : timely → segment.createdAt.HasStoredYear ∧ segment.updatedAt.HasStoredYear) :
    after.HoldsSegment timely segment.id segment.content := by
  refine ⟨.ofSegment segment, ?_, holds_ofSegment exact inYears⟩
  rw [segment?_of_did segment.id did, segment?_eq_none.mpr did.1]
  exact if_pos rfl

theorem holdsSegment_of_updated {update : SegmentUpdate} (did : (Write.updateSegment update).Did now before after)
    (holds : before.HoldsSegment timely update.id content) (exact : ∀ metadata ∈ update.metadata, metadata.IsExact)
    (inYears : timely → now.HasStoredYear) : after.HoldsSegment timely update.id (content.updated update) := by
  obtain ⟨row, found, held⟩ := holds
  refine ⟨row.updated now update, ?_, holds_updated held (id_of_segment? found) exact inYears⟩
  rw [segment?_of_did update.id did, found]
  rfl

theorem holdsSegment_of_other {write : Write} (did : write.Did now before after)
    (others : ∀ update, write = .updateSegment update → update.id ≠ id)
    (inYears : timely → now.HasStoredYear) (holds : before.HoldsSegment timely id content) :
    after.HoldsSegment timely id content := by
  obtain ⟨row, found, held⟩ := holds
  rw [Store.HoldsSegment, segment?_of_did id did, found]
  cases write with
  | updateSegment update =>
      refine ⟨row.updated now update, rfl, ?_⟩
      rw [SegmentRow.updated, if_neg]
      · exact held
      · exact fun addressed => others update rfl (ofIdentifier_inj.mp (addressed.symm.trans (id_of_segment? found)))
  | flushSegment collectionId flush => exact ⟨_, rfl, holds_flushed held inYears collectionId flush⟩
  | flushCollection flush => exact ⟨_, rfl, holds_flushedRow held inYears flush⟩
  | insertTenant | advanceCheckpoint | bindResourceName | insertDatabase | softDelete | finishDeletion
  | insertSegment => exact ⟨row, rfl, held⟩

theorem updateSegment_of_holds {update : SegmentUpdate} (distinct : (store.segments.map (·.segmentId)).Nodup)
    (holds : store.HoldsSegment timely update.id content) (exact : ∀ metadata ∈ update.metadata, metadata.IsExact)
    (now : Instant) : ∃ changed, store.updateSegment now update = .ok changed := by
  obtain ⟨row, found, held⟩ := holds
  obtain ⟨metadata, done, _⟩ := updatedMetadata_of_holds held.metadata exact
  rw [updateSegment_eq, if_pos ⟨row, mem_of_segment? found, id_of_segment? found⟩, if_pos]
  · exact ⟨_, rfl⟩
  · intro other member addressed
    have same := List.inj_on_of_nodup_map distinct member (mem_of_segment? found)
      (addressed.trans (id_of_segment? found).symm)
    rw [same, done]
    rfl

end Stores

/-! Updates. -/

/-- The update that a step makes of a segment. Requests that are invalid or that never reach the table make
none. -/
def Step.update? (id : SegmentId) (step : Step) : Option SegmentUpdate :=
  match step.operation.write? step.clock with
  | some (.updateSegment update) => if update.id = id ∧ ¬step.operation.Stalls .segments then some update else none
  | _ => none

theorem update?_eq_some {id : SegmentId} {update : SegmentUpdate} {step : Step} :
    step.update? id = some update ↔
      step.operation.write? step.clock = some (.updateSegment update) ∧ update.id = id ∧
        ¬step.operation.Stalls .segments := by
  unfold Step.update?
  split
  · rename_i made makes
    rw [makes]
    simp only [Option.ite_none_right_eq_some, Option.some.injEq, Write.updateSegment.injEq]
    constructor
    · rintro ⟨allowed, rfl⟩
      exact ⟨rfl, allowed⟩
    · rintro ⟨rfl, allowed⟩
      exact ⟨allowed, rfl⟩
  · rename_i others
    refine iff_of_false (by simp) ?_
    rintro ⟨makes, _⟩
    exact others _ makes

theorem updateSegment_run {request : SegmentUpdate} (valid : requiredCollectionId request = .ok ()) (now : Instant)
    (stalled : List Table) (store : Store) :
    updateSegment request ⟨now, stalled, true⟩ store =
      if stalled.contains .segments then (.error (.deadlineExceeded "update_segment"), store)
      else match store.updateSegment now request with
        | .ok changed => (.ok (), changed)
        | .error failure => (.error (.ofFailure "update_segment" failure), store) := by
  rw [requiredCollectionId] at valid
  simp only [updateSegment, bind_run, Service.validated, valid]
  exact Service.perform_writeTo_run _ .segments (fun now => Store.updateSegment now request) now stalled store

theorem isFailure_update_iff {update : SegmentUpdate} {step : Step} {session : Session}
    (makes : step.operation.write? step.clock = some (.updateSegment update)) (opened : session.isOpen = true) :
    (step.perform session).1.IsFailure ↔ step.operation.Stalls .segments ∨
      ¬∃ changed, session.store.updateSegment step.clock update = .ok changed := by
  rcases step with ⟨clock, operation⟩
  rcases session with ⟨store, isOpen, earlier⟩
  cases opened
  cases operation with
  | table call =>
      cases call with
      | updateSegment made =>
          cases makes
          rw [Step.perform, Session.perform_writing rfl rfl]
          cases store.updateSegment clock update with
          | ok changed => exact iff_of_false id (by simp [Operation.Stalls])
          | error failure => exact iff_of_true trivial (by simp)
      | _ => cases makes
  | service call stalled =>
      cases call with
      | updateSegment request =>
          obtain ⟨_, valid, makes⟩ := Option.bind_eq_some_iff.mp makes
          cases makes
          rw [toOption_eq_some_iff] at valid
          simp only [Step.perform, Session.perform, Session.circumstances, ServiceCall.run, bind_run,
            updateSegment_run valid, Operation.Stalls]
          by_cases stalls : Table.segments ∈ stalled
          · rw [if_pos (by simpa using stalls)]
            exact iff_of_true trivial (Or.inl stalls)
          · rw [if_neg (by simpa using stalls)]
            cases store.updateSegment clock update with
            | ok changed => exact iff_of_false id (by simp [stalls])
            | error failure => exact iff_of_true trivial (by simp)
      | _ => simp [Operation.write?, ServiceCall.write?, Option.bind_eq_some_iff] at makes
  | sweep grace stalled => simp [Operation.write?] at makes
  | transaction | overwrite | migrate | close => cases makes

section Steps

variable {timely : Prop} {id : SegmentId} {content : SegmentContent} {step : Step} {session : Session}

theorem holdsSegment_of_update {update : SegmentUpdate} (updates : step.update? id = some update)
    (live : session.IsLive) (exact : ∀ metadata ∈ update.metadata, metadata.IsExact)
    (inYears : timely → step.clock.HasStoredYear) (holds : session.store.HoldsSegment timely id content) :
    (step.perform session).2.store.HoldsSegment timely id (content.updated update) := by
  obtain ⟨makes, rfl, reaches⟩ := update?_eq_some.mp updates
  have success : ¬(step.perform session).1.IsFailure := by
    rw [isFailure_update_iff makes live.isOpen, not_or, Classical.not_not]
    exact ⟨reaches, updateSegment_of_holds live.proper.integral.segmentIds holds exact step.clock⟩
  exact holdsSegment_of_updated (did_of_success makes success live.proper.records.hasIdentifiers) holds exact inYears

theorem holdsSegment_of_no_update (quiet : step.update? id = none) (call : step.operation.IsCall)
    (live : session.IsLive) (inYears : timely → step.clock.HasStoredYear)
    (holds : session.store.HoldsSegment timely id content) :
    (step.perform session).2.store.HoldsSegment timely id content := by
  have identified := live.proper.records.hasIdentifiers
  refine ((replays_step step session call.isOrdinary identified).keeps (Store.HoldsSegment timely id content) ?_
    identified holds).2
  intro entry logged before after did held
  obtain ⟨write, _, rfl⟩ := List.mem_map.mp logged
  refine holdsSegment_of_other did ?_ inYears held
  rintro update rfl same
  rcases write_of_mem_log logged with ⟨made, impossible⟩ | ⟨success, makes⟩
  · cases made <;> cases impossible
  · -- A write of this kind that is logged has not waited in vain, so it was an update after all.
    have reaches : ¬step.operation.Stalls .segments :=
      fun stalls => success ((isFailure_update_iff makes live.isOpen).mpr (Or.inl stalls))
    rw [update?_eq_some.mpr ⟨makes, same, reaches⟩] at quiet
    cases quiet

end Steps

theorem holdsSegment_after {timely : Prop} {id : SegmentId} (steps : List Step) :
    ∀ (session : Session) (content : SegmentContent), (∀ step ∈ steps, step.operation.IsCall) → session.IsLive →
      (∀ update ∈ steps.filterMap (Step.update? id), ∀ metadata ∈ update.metadata, metadata.IsExact) →
      (timely → ∀ step ∈ steps, step.clock.HasStoredYear) → session.store.HoldsSegment timely id content →
        (session.after steps).store.HoldsSegment timely id
          ((steps.filterMap (Step.update? id)).foldl SegmentContent.updated content) := by
  induction steps with
  | nil => exact fun _ _ _ _ _ _ holds => holds
  | cons step rest ih =>
      intro session content calls live exact inYears holds
      rw [List.forall_mem_cons] at calls
      have next := isLive_perform step session calls.1 live
      have now (held : timely) := inYears held step List.mem_cons_self
      have later (held : timely) := (List.forall_mem_cons.mp (inYears held)).2
      rw [Session.after_cons]
      cases updates : step.update? id with
      | none =>
          rw [List.filterMap_cons_none updates] at exact ⊢
          exact ih _ content calls.2 next exact later (holdsSegment_of_no_update updates calls.1 live now holds)
      | some update =>
          rw [List.filterMap_cons_some updates, List.forall_mem_cons] at exact
          rw [List.filterMap_cons_some updates, List.foldl_cons]
          exact ih _ _ calls.2 next exact.2 later (holdsSegment_of_update updates live exact.1 now holds)

theorem calls_of_isOpen (steps : List Step) : ∀ session : Session, (∀ step ∈ steps, step.operation.IsOrdinary) →
    (session.after steps).isOpen = true → session.isOpen = true ∧ ∀ step ∈ steps, step.operation.IsCall := by
  induction steps with
  | nil => exact fun _ _ opened => ⟨opened, fun _ impossible => nomatch impossible⟩
  | cons step rest ih =>
      intro session ordinary opened
      rw [List.forall_mem_cons] at ordinary
      obtain ⟨between, calls⟩ := ih _ ordinary.2 opened
      have call : step.operation.IsCall := by
        rcases step with ⟨clock, operation⟩
        cases operation with
        | overwrite => exact ordinary.1.elim
        | close => cases between
        | service | sweep | table | transaction | migrate => trivial
      have opened := (isOpen_perform step.operation { session with clock := step.clock } call).symm.trans between
      exact ⟨opened, List.forall_mem_cons.mpr ⟨call, calls⟩⟩

section Reading

variable {timely : Prop} {id : SegmentId} {content : SegmentContent} {session : Session} {askedAt : Instant}

theorem content_of_answer {found : Option Segment} (holds : session.store.HoldsSegment timely id content)
    (answered : (Step.perform ⟨askedAt, .table (.getSegment id)⟩ session).1 = .answered (.segment found)) :
    ∃ segment, found = some segment ∧ segment.content = content := by
  obtain ⟨row, stored, held⟩ := holds
  obtain ⟨_, value, read, same⟩ := Session.read_of_answered rfl answered
  cases same
  obtain ⟨segment, result, rfl⟩ := segment_of_getSegment stored read
  exact ⟨segment, rfl, content_of_holds held result⟩

theorem answered_of_holds (opened : session.isOpen = true) (dates : timely)
    (holds : session.store.HoldsSegment timely id content) (askedAt : Instant) :
    ∃ segment, (Step.perform ⟨askedAt, .table (.getSegment id)⟩ session).1 =
      .answered (.segment (some segment)) := by
  obtain ⟨row, stored, held⟩ := holds
  obtain ⟨segment, read⟩ := (reads_segment_iff row).mpr (held.readable dates)
  refine ⟨segment, Session.answered_of_read rfl opened ?_ askedAt⟩
  simp only [getSegment_eq, stored, read]
  rfl

end Reading

/-- Whatever is done before and after the creation of a segment, what is read of it is the fold of the updates that
reached it: each sets the metadata or merges into it, and of the other values the last one given counts. While the
store is open, and only years were written that can be stored, the segment is read. Two maps merged in turn come to
the first one overridden by the second. -/
theorem segment_folds_updates (clock : Instant) (earlier later : List Step) (creation : Step) (created : Segment)
    (ordinary : ∀ step ∈ earlier ++ later, step.operation.IsOrdinary)
    (makes : creation.operation.write? creation.clock = some (.insertSegment created))
    (succeeds : ¬(creation.perform ((Session.start clock).after earlier)).1.IsFailure)
    (exact : ∀ metadata ∈ created.metadata, metadata.IsExact)
    (exactUpdates : ∀ update ∈ later.filterMap (Step.update? created.id), ∀ metadata ∈ update.metadata,
      metadata.IsExact) :
    let session := (Session.start clock).after (earlier ++ creation :: later)
    let updates := later.filterMap (Step.update? created.id)
    (∀ (askedAt : Instant) (found : Option Segment),
      (Step.perform ⟨askedAt, .table (.getSegment created.id)⟩ session).1 = .answered (.segment found) →
        ∃ segment, found = some segment ∧
          segment.metadata = updates.foldl (fun metadata update => update.metadataAfter metadata) created.metadata ∧
          segment.ts = (updates.filterMap (·.ts)).getLastD created.ts ∧
          segment.collectionId = (updates.filterMap (·.collectionId)).getLastD created.collectionId) ∧
    (session.isOpen = true → created.createdAt.HasStoredYear ∧ created.updatedAt.HasStoredYear →
      (∀ step ∈ later, step.clock.HasStoredYear) → ∀ askedAt, ∃ segment,
        (Step.perform ⟨askedAt, .table (.getSegment created.id)⟩ session).1 = .answered (.segment (some segment))) ∧
    (∀ (first second both : SegmentUpdate) (patch other : Metadata), first.Merges patch → second.Merges other →
      both.Merges (patch.overriddenBy other) →
        ∀ metadata, second.metadataAfter (first.metadataAfter metadata) = both.metadataAfter metadata) := by
  intro session updates
  have holds (opened : session.isOpen = true) : session.store.HoldsSegment
      ((created.createdAt.HasStoredYear ∧ created.updatedAt.HasStoredYear) ∧ ∀ step ∈ later, step.clock.HasStoredYear)
      created.id (updates.foldl SegmentContent.updated created.content) := by
    rw [List.forall_mem_append] at ordinary
    have all : ∀ step ∈ earlier ++ creation :: later, step.operation.IsOrdinary :=
      List.forall_mem_append.mpr
        ⟨ordinary.1, List.forall_mem_cons.mpr ⟨(isSingle_of_write? makes).isOrdinary, ordinary.2⟩⟩
    have calls := (calls_of_isOpen _ _ all opened).2
    rw [List.forall_mem_append, List.forall_mem_cons] at calls
    have live := Session.isLive_after earlier _ calls.1 (isLive_start clock)
    have did := did_of_success makes succeeds live.proper.records.hasIdentifiers
    show ((Session.start clock).after (earlier ++ creation :: later)).store.HoldsSegment _ _ _
    rw [Session.after_append, Session.after_cons]
    exact holdsSegment_after later _ _ calls.2.2 (isLive_perform creation _ calls.2.1 live) exactUpdates And.right
      (holdsSegment_of_inserted did exact And.left)
  refine ⟨?_, ?_, ?_⟩
  · intro askedAt found answered
    have opened : session.isOpen = true := (Session.read_of_answered rfl answered).1
    obtain ⟨segment, rfl, same⟩ := content_of_answer (holds opened) answered
    rw [foldl_updated] at same
    exact ⟨segment, rfl, congrArg SegmentContent.metadata same, congrArg SegmentContent.ts same,
      congrArg SegmentContent.collectionId same⟩
  · intro opened created later askedAt
    exact answered_of_holds opened ⟨created, later⟩ (holds opened) askedAt
  · intro first second both patch other merges follows combines metadata
    exact metadataAfter_twice merges follows combines metadata

def busyHistory : List Step :=
  [⟨firstOfJune, .service (.updateSegment ⟨.ofByte 7, none, some (.ofEntries [("k", .integer 1)]), false, some 4⟩) []⟩,
    ⟨firstOfJune, .service (.updateSegment ⟨.ofByte 7, none, none, true, some 5⟩) [.segments]⟩,
    ⟨firstOfJune, .service (.updateSegment ⟨.ofByte 7, some .nil, none, true, some 6⟩) []⟩,
    ⟨firstOfJune, .table (.updateSegment ⟨.ofByte 8, none, none, true, some 7⟩)⟩,
    ⟨firstOfJune, .table (.updateSegment ⟨.ofByte 7, some (.ofByte 9), none, true, none⟩)⟩,
    ⟨firstOfJune, .service (.updateSegment ⟨.ofByte 7, none, some (.ofEntries [("k", .real ⟨4607182418800017408⟩),
      ("\"", .text "é")]), false, none⟩) []⟩,
    ⟨firstOfJune, .table (.flushSegment ⟨.ofByte 7, .ofEntries [("role", ["path"])]⟩)⟩,
    ⟨firstOfJune, .table (.updateSegment ⟨.ofByte 7, none, some (.ofEntries [("k", .bool true)]), false, none⟩)⟩]

theorem segment_folds_updates_busy : ∃ segment,
    (Step.perform ⟨firstOfJune, .table (.getSegment (.ofByte 7))⟩
      ((Session.start firstOfJune).after ([] ++ ⟨firstOfJune, .table (.insertSegment leapSegment)⟩ :: busyHistory))).1 =
        .answered (.segment (some segment)) ∧
    segment.metadata = some (.ofEntries [("\"", .text "é"), ("k", .bool true)]) ∧ segment.ts = 4 ∧
    segment.collectionId = .ofByte 9 := by
  have folds := segment_folds_updates firstOfJune [] busyHistory ⟨firstOfJune, .table (.insertSegment leapSegment)⟩
    leapSegment (by decide) rfl (by decide +kernel) (by decide +kernel) (by decide +kernel)
  obtain ⟨segment, answered⟩ := folds.2.1 (by decide +kernel) (by decide +kernel) (by decide +kernel) firstOfJune
  obtain ⟨_, same, metadata, ts, collectionId⟩ := folds.1 firstOfJune _ answered
  cases same
  exact ⟨segment, answered, metadata.trans (by decide +kernel), ts.trans (by decide +kernel),
    collectionId.trans (by decide +kernel)⟩

end MetadataRegistry
