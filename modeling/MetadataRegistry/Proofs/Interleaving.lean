import MetadataRegistry.Proofs.RecordEdits
import MetadataRegistry.Proofs.SegmentHistory

/-!
Updates and flushes of one segment, interleaved. The updates set other columns than the flushes do, and neither look
at what the others set. So the row depends on the sequence of the updates and on the sequence of the flushes, but not
on how they are interleaved, apart from the time of the last change.
-/

namespace MetadataRegistry

structure SegmentSettings where
  metadata : Cell
  ts : Cell
  collectionId : Cell

def SegmentSettings.updated (settings : SegmentSettings) (update : SegmentUpdate) : SegmentSettings :=
  match Store.updatedMetadata update settings.metadata with
  | none => settings
  | some metadata => {
      metadata
      ts := (update.ts.map Cell.integer).getD settings.ts
      collectionId := (update.collectionId.map Cell.ofIdentifier).getD settings.collectionId }

def SegmentFlush.cell (flush : SegmentFlush) : Cell := .ofDocument (FilePaths.toJson flush.filePaths)

theorem getLastD_append {α : Type} (first second : List α) (start : α) :
    (first ++ second).getLastD start = second.getLastD (first.getLastD start) := by
  simp only [List.getLastD_eq_getLast?, List.getLast?_append]
  cases second.getLast? <;> rfl

namespace SegmentRow

def settings (row : SegmentRow) : SegmentSettings := ⟨row.metadata, row.ts, row.collectionId⟩

def set (settings : SegmentSettings) (filePaths updatedAt : Cell) (row : SegmentRow) : SegmentRow :=
  { row with
    metadata := settings.metadata
    ts := settings.ts
    collectionId := settings.collectionId
    filePaths
    updatedAt }

/-- The row after updates and flushes: the updates set one after the other what they set, and the mapping is that of
the last flush. -/
def edited (updates : List SegmentUpdate) (flushes : List SegmentFlush) (updatedAt : Cell) (row : SegmentRow) :
    SegmentRow :=
  row.set (updates.foldl SegmentSettings.updated row.settings)
    ((flushes.map SegmentFlush.cell).getLastD row.filePaths) updatedAt

theorem edited_edited (updates later : List SegmentUpdate) (flushes others : List SegmentFlush)
    (updatedAt changedAt : Cell) (row : SegmentRow) :
    (row.edited updates flushes updatedAt).edited later others changedAt =
      row.edited (updates ++ later) (flushes ++ others) changedAt := by
  unfold edited
  rw [List.foldl_append, List.map_append, getLastD_append]
  rfl

theorem segmentId_edited (updates : List SegmentUpdate) (flushes : List SegmentFlush) (updatedAt : Cell)
    (row : SegmentRow) : (row.edited updates flushes updatedAt).segmentId = row.segmentId := rfl

theorem updated_eq_edited {now : Instant} {update : SegmentUpdate} {row : SegmentRow}
    (named : row.segmentId = .ofIdentifier update.id) (merges : (Store.updatedMetadata update row.metadata).isSome) :
    row.updated now update = row.edited [update] [] (.ofInstant now) := by
  obtain ⟨metadata, done⟩ := Option.isSome_iff_exists.mp merges
  have settings : row.settings.updated update = {
      metadata
      ts := (update.ts.map Cell.integer).getD row.ts
      collectionId := (update.collectionId.map Cell.ofIdentifier).getD row.collectionId } := by
    rw [SegmentSettings.updated]
    simp only [SegmentRow.settings, done]
  rw [updated, if_pos named, updateSegmentRow_eq, done, edited, List.foldl_cons, List.foldl_nil, settings]
  rfl

theorem edited_of_unmerged {update : SegmentUpdate} {row : SegmentRow}
    (unmerged : Store.updatedMetadata update row.metadata = none) : row.edited [update] [] row.updatedAt = row := by
  have settings : row.settings.updated update = row.settings := by
    rw [SegmentSettings.updated]
    simp only [SegmentRow.settings, unmerged]
  rw [edited, List.foldl_cons, List.foldl_nil, settings]
  rfl

theorem flushed_eq_edited {now : Instant} {flush : SegmentFlush} {row : SegmentRow}
    (named : row.segmentId = .ofIdentifier flush.id) :
    row.flushed now none flush = row.edited [] [flush] (.ofInstant now) :=
  if_pos ⟨named, fun _ impossible => nomatch impossible⟩

theorem edited_repeated {flush : SegmentFlush} {row : SegmentRow} (last : row.filePaths = flush.cell)
    (updatedAt : Cell) : row.edited [] [flush] updatedAt = { row with updatedAt } := by
  rw [edited, List.foldl_nil, List.map_singleton, List.getLastD_cons, List.getLastD_nil, ← last]
  rfl

end SegmentRow

namespace Store

variable {id : SegmentId} {row new : SegmentRow} {store : Store}

def replacing (id : SegmentId) (new : SegmentRow) (store : Store) : Store :=
  { store with segments := store.segments.map fun row => if row.segmentId = .ofIdentifier id then new else row }

theorem segmentId_replaced (named : new.segmentId = .ofIdentifier id) (row : SegmentRow) :
    (if row.segmentId = .ofIdentifier id then new else row).segmentId = row.segmentId := by
  split
  · rename_i same
    exact named.trans same.symm
  · rfl

theorem segment?_replacing (found : store.segment? id = some row) (named : new.segmentId = .ofIdentifier id) :
    (store.replacing id new).segment? id = some new := by
  rw [replacing, segment?_map (segmentId_replaced named), found, Option.map_some, if_pos (id_of_segment? found)]

theorem segmentIds_replacing (named : new.segmentId = .ofIdentifier id) :
    (store.replacing id new).segments.map (·.segmentId) = store.segments.map (·.segmentId) :=
  map_map_key (segmentId_replaced named) store.segments

theorem replacing_replacing (named : row.segmentId = .ofIdentifier id) :
    (store.replacing id row).replacing id new = store.replacing id new := by
  simp only [replacing, List.map_map, Store.mk.injEq, true_and]
  refine List.map_congr_left fun other _ => ?_
  rw [Function.comp_apply]
  by_cases same : other.segmentId = .ofIdentifier id
  · rw [if_pos same, if_pos named, if_pos same]
  · rw [if_neg same, if_neg same]

theorem map_eq_replacing {change : SegmentRow → SegmentRow} (distinct : (store.segments.map (·.segmentId)).Nodup)
    (found : store.segment? id = some row)
    (fixed : ∀ other, other.segmentId ≠ .ofIdentifier id → change other = other) :
    { store with segments := store.segments.map change } = store.replacing id (change row) := by
  simp only [replacing, Store.mk.injEq, true_and]
  refine List.map_congr_left fun other member => ?_
  by_cases same : other.segmentId = .ofIdentifier id
  · rw [if_pos same, List.inj_on_of_nodup_map distinct member (mem_of_segment? found)
      (same.trans (id_of_segment? found).symm)]
  · rw [if_neg same, fixed other same]

theorem replacing_self (distinct : (store.segments.map (·.segmentId)).Nodup) (found : store.segment? id = some row) :
    store.replacing id row = store := by
  have same : { store with segments := store.segments.map fun other => other } = store.replacing id row :=
    map_eq_replacing distinct found fun _ _ => rfl
  rw [← same, List.map_id']

end Store

/-! Steps that update or flush the segment. -/

def Operation.EditsSegment (id : SegmentId) : Operation → Prop
  | service (.updateSegment request) _ => request.id = id
  | service (.flushSegmentCompaction request) _ => request.id = id
  | table (.updateSegment update) => update.id = id
  | table (.flushSegment flush) => flush.id = id
  | _ => False

def Step.flush? (id : SegmentId) (step : Step) : Option SegmentFlush :=
  match step.operation.write? step.clock with
  | some (.flushSegment none flush) => if flush.id = id ∧ ¬step.operation.Stalls .segments then some flush else none
  | _ => none

inductive EditsOf (id : SegmentId) : Write → Prop where
  | update (update : SegmentUpdate) (same : update.id = id) : EditsOf id (.updateSegment update)
  | flush (flush : SegmentFlush) (same : flush.id = id) : EditsOf id (.flushSegment none flush)

section Steps

variable {id : SegmentId}

theorem Operation.EditsSegment.isEdit {operation : Operation} (edits : operation.EditsSegment id) :
    operation.IsEdit := by
  unfold EditsSegment at edits
  split at edits
  · trivial
  · trivial
  · trivial
  · trivial
  · exact edits.elim

theorem editsOf_write? {operation : Operation} (edits : operation.EditsSegment id) {now : Instant} {made : Write}
    (makes : operation.write? now = some made) : EditsOf id made := by
  unfold Operation.EditsSegment at edits
  split at edits
  · obtain ⟨_, _, same⟩ := Option.bind_eq_some_iff.mp makes
    cases same
    exact .update _ edits
  · obtain ⟨_, _, same⟩ := Option.bind_eq_some_iff.mp makes
    cases same
    exact .flush _ edits
  · cases makes
    exact .update _ edits
  · cases makes
    exact .flush _ edits
  · exact edits.elim

theorem flush?_eq_some {flush : SegmentFlush} {step : Step} :
    step.flush? id = some flush ↔
      step.operation.write? step.clock = some (.flushSegment none flush) ∧ flush.id = id ∧
        ¬step.operation.Stalls .segments := by
  unfold Step.flush?
  split
  · rename_i made makes
    rw [makes]
    simp only [Option.ite_none_right_eq_some, Option.some.injEq, Write.flushSegment.injEq, true_and]
    constructor
    · rintro ⟨allowed, rfl⟩
      exact ⟨rfl, allowed⟩
    · rintro ⟨rfl, allowed⟩
      exact ⟨allowed, rfl⟩
  · rename_i others
    refine iff_of_false (by simp) ?_
    rintro ⟨makes, _⟩
    exact others _ makes

end Steps

section Stores

variable {id : SegmentId} {row : SegmentRow} {store : Store} {now : Instant}

theorem updateSegment_replacing {update : SegmentUpdate} (distinct : (store.segments.map (·.segmentId)).Nodup)
    (found : store.segment? update.id = some row) :
    ∃ updatedAt, ((store.updateSegment now update).toOption).getD store =
      store.replacing update.id (row.edited [update] [] updatedAt) := by
  have member := mem_of_segment? found
  have named := id_of_segment? found
  rw [updateSegment_eq, if_pos ⟨row, member, named⟩]
  by_cases merges : (Store.updatedMetadata update row.metadata).isSome
  · have all : ∀ other ∈ store.segments, other.segmentId = .ofIdentifier update.id →
        (Store.updatedMetadata update other.metadata).isSome := by
      intro other stored same
      rwa [List.inj_on_of_nodup_map distinct stored member (same.trans named.symm)]
    refine ⟨.ofInstant now, ?_⟩
    rw [if_pos all, ← SegmentRow.updated_eq_edited named merges]
    exact Store.map_eq_replacing distinct found fun other apart => if_neg apart
  · refine ⟨row.updatedAt, ?_⟩
    rw [if_neg fun all => merges (all row member named),
      SegmentRow.edited_of_unmerged (Option.not_isSome_iff_eq_none.mp merges), Store.replacing_self distinct found]
    rfl

theorem flushSegment_replacing {flush : SegmentFlush} (distinct : (store.segments.map (·.segmentId)).Nodup)
    (found : store.segment? flush.id = some row) :
    store.flushSegment now none flush =
      .ok (store.replacing flush.id (row.edited [] [flush] (.ofInstant now))) := by
  have named := id_of_segment? found
  rw [flushSegment_eq, if_pos ⟨row, mem_of_segment? found, named, fun _ impossible => nomatch impossible⟩,
    ← SegmentRow.flushed_eq_edited named]
  refine congrArg Except.ok (Store.map_eq_replacing distinct found fun other apart => ?_)
  exact if_neg fun inside => apart inside.1

end Stores

theorem replacing_of_edit {id : SegmentId} {step : Step} {session : Session} {row : SegmentRow}
    (edits : step.operation.EditsSegment id) (opened : session.isOpen = true)
    (distinct : (session.store.segments.map (·.segmentId)).Nodup) (found : session.store.segment? id = some row) :
    ∃ updatedAt, (step.perform session).2.store =
      session.store.replacing id (row.edited (step.update? id).toList (step.flush? id).toList updatedAt) := by
  rcases session with ⟨store, isOpen, clock⟩
  cases opened
  cases relays_step edits.isEdit true with
  | barred outcome unread cause =>
      have noUpdate : step.update? id = none := by
        refine Option.eq_none_iff_forall_ne_some.mpr fun update updates => ?_
        obtain ⟨makes, _, reaches⟩ := update?_eq_some.mp updates
        exact reaches ((cause _ makes).resolve_left Bool.noConfusion)
      have noFlush : step.flush? id = none := by
        refine Option.eq_none_iff_forall_ne_some.mpr fun flush flushes => ?_
        obtain ⟨makes, _, reaches⟩ := flush?_eq_some.mp flushes
        exact reaches ((cause _ makes).resolve_left Bool.noConfusion)
      refine ⟨row.updatedAt, ?_⟩
      rw [unread, noUpdate, noFlush]
      exact (Store.replacing_self distinct found).symm
  | relayed made makes _ reaches done tell comes =>
      have ran : (step.perform ⟨store, true, clock⟩).2.store = ((made.run step.clock store).toOption).getD store := by
        rw [comes]
        cases made.run step.clock store <;> rfl
      rw [ran]
      cases editsOf_write? edits makes with
      | update update same =>
          subst same
          have noFlush : step.flush? update.id = none := by simp only [Step.flush?, makes]
          rw [update?_eq_some.mpr ⟨makes, rfl, reaches⟩, noFlush]
          exact updateSegment_replacing distinct found
      | flush flush same =>
          subst same
          have noUpdate : step.update? flush.id = none := by simp only [Step.update?, makes]
          refine ⟨.ofInstant step.clock, ?_⟩
          rw [noUpdate, flush?_eq_some.mpr ⟨makes, rfl, reaches⟩, Write.run, flushSegment_replacing distinct found]
          rfl

theorem replacing_of_edits {id : SegmentId} (steps : List Step) : ∀ (session : Session) (row : SegmentRow),
    (∀ step ∈ steps, step.operation.EditsSegment id) → session.isOpen = true →
      (session.store.segments.map (·.segmentId)).Nodup → session.store.segment? id = some row →
        ∃ updatedAt, (session.after steps).store = session.store.replacing id
          (row.edited (steps.filterMap (Step.update? id)) (steps.filterMap (Step.flush? id)) updatedAt) := by
  induction steps with
  | nil =>
      intro session row _ _ distinct found
      exact ⟨row.updatedAt, (Store.replacing_self distinct found).symm⟩
  | cons step rest ih =>
      intro session row edits opened distinct found
      rw [List.forall_mem_cons] at edits
      obtain ⟨updatedAt, stored⟩ := replacing_of_edit edits.1 opened distinct found
      have named : (row.edited (step.update? id).toList (step.flush? id).toList updatedAt).segmentId =
          .ofIdentifier id := (row.segmentId_edited _ _ _).trans (id_of_segment? found)
      obtain ⟨changedAt, final⟩ := ih (step.perform session).2 _ edits.2
        ((isOpen_perform step.operation _ edits.1.isEdit.isCall).trans opened)
        (by rw [stored, Store.segmentIds_replacing named]; exact distinct)
        (by rw [stored, Store.segment?_replacing found named])
      refine ⟨changedAt, ?_⟩
      rw [Session.after_cons, final, stored, Store.replacing_replacing named, SegmentRow.edited_edited]
      simp only [List.filterMap_cons]
      cases step.update? id <;> cases step.flush? id <;> rfl

section Reading

variable {row : SegmentRow} {segment : Segment}

theorem filePaths_of_segment (read : row.segment = .ok segment) :
    row.filePaths.readText "file_paths" >>= readDocumentText FilePaths.ofJson? = .ok segment.filePaths := by
  rw [segment_eq] at read
  simp only [bind_eq_ok_iff] at read
  obtain ⟨_, _, _, _, _, _, _, _, _, _, _, _, _, _, document, stored, paths, found, _, _, _, _, read⟩ := read
  obtain ⟨_, _, _, _, _, _, _, _, same⟩ := read
  cases same
  exact (bind_eq_ok_iff _ _ _).mpr ⟨document, stored, found⟩

theorem filePaths_of_cell {flush : SegmentFlush} (stored : row.filePaths = flush.cell)
    (read : row.segment = .ok segment) : segment.filePaths = flush.filePaths := by
  have found := filePaths_of_segment read
  rw [stored] at found
  exact Except.ok.inj (found.symm.trans (readPaths_ofDocument flush.filePaths))

theorem segment_of_updatedAt {updatedAt : Cell} {other : Segment} (read : row.segment = .ok segment)
    (again : { row with updatedAt : SegmentRow }.segment = .ok other) :
    other = { segment with updatedAt := other.updatedAt } := by
  rw [segment_eq] at read again
  simp only [bind_eq_ok_iff] at read
  obtain ⟨_, idBytes, _, collectionBytes, _, id, _, collectionId, _, scope, _, parsed, _, metadata, _, paths, _,
    document, _, created, _, _, _, segmentType, _, ts, _, createdTime, _, _, same⟩ := read
  cases same
  have metadata := (bind_eq_ok_iff _ _ _).mpr metadata
  simp only [idBytes, collectionBytes, id, collectionId, scope, parsed, metadata, paths, document, created, segmentType,
    ts, createdTime, ok_bind] at again
  simp only [bind_eq_ok_iff] at again
  obtain ⟨_, _, _, _, same⟩ := again
  cases same
  rfl

end Reading

theorem filePaths_edited_of_last {flushes : List SegmentFlush} {flush : SegmentFlush}
    (last : flushes.getLast? = some flush) (updates : List SegmentUpdate) (updatedAt : Cell) (row : SegmentRow) :
    (row.edited updates flushes updatedAt).filePaths = flush.cell := by
  show (flushes.map SegmentFlush.cell).getLastD row.filePaths = flush.cell
  rw [List.getLastD_eq_getLast?, List.getLast?_map, last]
  rfl

/-- On every open store that has the segment, and segments of distinct identifiers, as every store has that operations
lead to. However updates and flushes of the segment take turns, its row comes out as the updates set it one after the
other and with the mapping of the last flush; its type, its scope and the time of its creation stay as they are, and so
does everything else in the store. Two interleavings of the same updates and the same flushes leave the same segment
but for the time of its last change. The mapping of the last flush is read back whole, and to flush it again changes
nothing but that time. -/
theorem updates_and_flushes_interleave (id : SegmentId) (session : Session) (row : SegmentRow)
    (opened : session.isOpen = true) (distinct : (session.store.segments.map (·.segmentId)).Nodup)
    (found : session.store.segment? id = some row) :
    (∀ steps : List Step, (∀ step ∈ steps, step.operation.EditsSegment id) → ∃ updatedAt,
      (session.after steps).store = session.store.replacing id
        (row.edited (steps.filterMap (Step.update? id)) (steps.filterMap (Step.flush? id)) updatedAt)) ∧
    (∀ steps others : List Step, (∀ step ∈ steps, step.operation.EditsSegment id) →
      (∀ step ∈ others, step.operation.EditsSegment id) →
      steps.filterMap (Step.update? id) = others.filterMap (Step.update? id) →
      steps.filterMap (Step.flush? id) = others.filterMap (Step.flush? id) →
        (∃ final updatedAt, (session.after steps).store.segment? id = some final ∧
          (session.after others).store = (session.after steps).store.replacing id { final with updatedAt }) ∧
        ∀ segment other : Segment, (session.after steps).store.getSegment id = .ok (some segment) →
          (session.after others).store.getSegment id = .ok (some other) →
            other = { segment with updatedAt := other.updatedAt }) ∧
    (∀ (steps : List Step) (flush : SegmentFlush), (∀ step ∈ steps, step.operation.EditsSegment id) →
      (steps.filterMap (Step.flush? id)).getLast? = some flush →
        (∃ final, (session.after steps).store.segment? id = some final ∧
          (final.filePaths.readText "file_paths").bind (readDocumentText FilePaths.ofJson?) = .ok flush.filePaths) ∧
        (∀ segment, (session.after steps).store.getSegment id = .ok (some segment) →
          segment.filePaths = flush.filePaths) ∧
        ∀ again : Step, again.operation.EditsSegment id → again.flush? id = some flush →
          ∃ final updatedAt, (session.after steps).store.segment? id = some final ∧
            (session.after (steps ++ [again])).store =
              (session.after steps).store.replacing id { final with updatedAt }) := by
  have named (updates : List SegmentUpdate) (flushes : List SegmentFlush) (updatedAt : Cell) :
      (row.edited updates flushes updatedAt).segmentId = .ofIdentifier id :=
    (row.segmentId_edited updates flushes updatedAt).trans (id_of_segment? found)
  have present (updates : List SegmentUpdate) (flushes : List SegmentFlush) (updatedAt : Cell) :=
    Store.segment?_replacing found (named updates flushes updatedAt)
  have edit (steps : List Step) (edits : ∀ step ∈ steps, step.operation.EditsSegment id) :=
    replacing_of_edits steps session row edits opened distinct found
  refine ⟨edit, ?_, ?_⟩
  · intro steps others edits follows sameUpdates sameFlushes
    obtain ⟨updatedAt, stored⟩ := edit steps edits
    obtain ⟨changedAt, final⟩ := edit others follows
    rw [← sameUpdates, ← sameFlushes] at final
    rw [stored, final]
    refine ⟨⟨_, changedAt, present _ _ _, ?_⟩, ?_⟩
    · rw [Store.replacing_replacing (named _ _ _)]
      rfl
    · intro segment other read readAgain
      obtain ⟨_, whole, same⟩ := segment_of_getSegment (present _ _ _) read
      cases same
      obtain ⟨_, changed, same⟩ := segment_of_getSegment (present _ _ _) readAgain
      cases same
      exact segment_of_updatedAt whole changed
  · intro steps flush edits last
    obtain ⟨updatedAt, stored⟩ := edit steps edits
    have paths := filePaths_edited_of_last last (steps.filterMap (Step.update? id)) updatedAt row
    rw [stored]
    refine ⟨⟨_, present _ _ _, ?_⟩, fun segment read => ?_, fun again repeats flushes => ?_⟩
    · rw [paths]
      exact readPaths_ofDocument flush.filePaths
    · obtain ⟨_, whole, same⟩ := segment_of_getSegment (present _ _ _) read
      cases same
      exact filePaths_of_cell paths whole
    · have noUpdate : again.update? id = none := by simp only [Step.update?, (flush?_eq_some.mp flushes).1]
      obtain ⟨changedAt, final⟩ := edit (steps ++ [again])
        (List.forall_mem_append.mpr ⟨edits, List.forall_mem_singleton.mpr repeats⟩)
      refine ⟨_, changedAt, present _ _ _, ?_⟩
      rw [final, Store.replacing_replacing (named _ _ _), ← SegmentRow.edited_repeated paths,
        SegmentRow.edited_edited, List.filterMap_append, List.filterMap_append, List.filterMap_cons_none noUpdate,
        List.filterMap_cons_some flushes]
      rfl

theorem updates_and_flushes_interleave_turns :
    let session := (Session.start firstOfJune).after [⟨firstOfJune, .table (.insertSegment leapSegment)⟩]
    let move : Step := ⟨firstOfJune, .service (.updateSegment ⟨.ofByte 7, some (.ofByte 9), none, false, none⟩) []⟩
    let clear : Step := ⟨firstOfJune, .table (.updateSegment ⟨.ofByte 7, none, none, true, some 4⟩)⟩
    let empty : Step := ⟨firstOfJune, .service (.flushSegmentCompaction ⟨.ofByte 7, .empty⟩) []⟩
    let fill : Step := ⟨firstOfJune, .table (.flushSegment ⟨.ofByte 7, .ofEntries [("role", ["path"])]⟩)⟩
    let idle : Step := ⟨firstOfJune, .service (.flushSegmentCompaction ⟨.ofByte 7, .empty⟩) [.segments]⟩
    (∃ final updatedAt, (session.after [move, empty, fill, clear]).store.segment? (.ofByte 7) = some final ∧
      (session.after [empty, move, clear, fill, idle]).store =
        (session.after [move, empty, fill, clear]).store.replacing (.ofByte 7) { final with updatedAt }) := by
  intro session move clear empty fill idle
  have present : (session.store.segment? (.ofByte 7)).isSome = true := by decide +kernel
  obtain ⟨row, found⟩ := Option.isSome_iff_exists.mp present
  have all : ∀ step ∈ [move, empty, fill, clear, idle], step.operation.EditsSegment (.ofByte 7) := by
    simp [move, empty, fill, clear, idle, Operation.EditsSegment]
  refine ((updates_and_flushes_interleave (.ofByte 7) session row rfl (by decide +kernel) found).2.1
    [move, empty, fill, clear] [empty, move, clear, fill, idle] ?_ ?_ rfl rfl).1
  · exact fun step member => all step (by simp at member ⊢; tauto)
  · exact fun step member => all step (by simp at member ⊢; tauto)

end MetadataRegistry
