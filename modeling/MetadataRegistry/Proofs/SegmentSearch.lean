import MetadataRegistry.Proofs.Records
import MetadataRegistry.Proofs.SegmentRows
import MetadataRegistry.Proofs.TableCalls

/-!
Searching for segments. Whether one segment is fetched by its identifier or all of them are listed, a search
answers what filtering the whole list would: the identifiers of segments are distinct, so the one that is
fetched is all that the list has under its identifier.
-/

namespace MetadataRegistry

theorem mapM_eq_ok_iff {α β : Type} {read : α → Except Failure β} {rows : List α} {values : List β} :
    rows.mapM read = .ok values ↔ rows.map read = values.map .ok := by
  induction rows generalizing values with
  | nil =>
      rw [List.mapM_nil, List.map_nil]
      constructor
      · intro same
        cases same
        rfl
      · intro same
        rw [List.map_eq_nil_iff.mp same.symm]
        rfl
  | cons row rest ih =>
      simp only [List.mapM_cons, bind_eq_ok_iff]
      constructor
      · rintro ⟨value, first, others, later, same⟩
        cases same
        rw [List.map_cons, List.map_cons, first, ih.mp later]
      · intro same
        cases values with
        | nil => cases same
        | cons value others =>
            rw [List.map_cons, List.map_cons, List.cons.injEq] at same
            exact ⟨value, same.1, others, ih.mpr same.2, rfl⟩

theorem mem_of_mapM {α β : Type} {read : α → Except Failure β} {rows : List α} {values : List β}
    (all : rows.mapM read = .ok values) (value : β) : value ∈ values ↔ ∃ row ∈ rows, read row = .ok value := by
  have results := mapM_eq_ok_iff.mp all
  rw [← List.mem_map, results, List.mem_map]
  constructor
  · exact fun member => ⟨value, member, rfl⟩
  · rintro ⟨other, member, same⟩
    exact Except.ok.inj same ▸ member

theorem map_keys_of_mapM {α β γ : Type} {read : α → Except Failure β} {kept : α → γ} {keep : β → γ} {rows : List α}
    (same : ∀ row ∈ rows, ∀ value, read row = .ok value → keep value = kept row) :
    ∀ {values : List β}, rows.mapM read = .ok values → values.map keep = rows.map kept := by
  induction rows with
  | nil =>
      intro values all
      cases all
      rfl
  | cons row rest ih =>
      intro values all
      simp only [List.mapM_cons, bind_eq_ok_iff] at all
      obtain ⟨value, first, others, later, whole⟩ := all
      cases whole
      rw [List.forall_mem_cons] at same
      rw [List.map_cons, List.map_cons, same.1 value first, ih same.2 later]

theorem filter_key_eq {α κ : Type} [DecidableEq κ] {key : α → κ} {values : List α} (distinct : (values.map key).Nodup)
    {value : α} (member : value ∈ values) : values.filter (fun other => key other = key value) = [value] := by
  induction values with
  | nil => cases member
  | cons first rest ih =>
      rw [List.map_cons, List.nodup_cons] at distinct
      rcases List.mem_cons.mp member with rfl | later
      · have others : rest.filter (fun other => key other = key value) = [] := by
          refine List.filter_eq_nil_iff.mpr fun other belongs same => distinct.1 ?_
          rw [← of_decide_eq_true same]
          exact List.mem_map_of_mem belongs
        rw [List.filter_cons_of_pos (by simp), others]
      · have different : key first ≠ key value := fun same => distinct.1 (same ▸ List.mem_map_of_mem later)
        rw [List.filter_cons_of_neg (by simpa using different), ih distinct.2 later]

section Listed

variable {store : Store} {listed : List Segment}

theorem mem_listed (identified : store.HasSegmentIds) (lists : store.listSegments = .ok listed) (segment : Segment) :
    segment ∈ listed ↔
      ∃ row ∈ store.segments, row.segmentId = .ofIdentifier segment.id ∧ row.segment = .ok segment := by
  rw [mem_of_mapM lists]
  constructor
  · rintro ⟨row, member, read⟩
    have stored := Store.mem_sortRows.mp member
    obtain ⟨id, named⟩ := identified row stored
    rw [← id_of_segment named read] at named
    exact ⟨row, stored, named, read⟩
  · rintro ⟨row, member, _, read⟩
    exact ⟨row, Store.mem_sortRows.mpr member, read⟩

theorem nodup_listed (distinct : (store.segments.map (·.segmentId)).Nodup) (identified : store.HasSegmentIds)
    (lists : store.listSegments = .ok listed) : (listed.map (·.id)).Nodup := by
  have sorted : ((sortRows (·.createdAt) (·.segmentId) store.segments).map (·.segmentId)).Nodup :=
    ((List.mergeSort_perm store.segments _).map _).nodup_iff.mpr distinct
  have keys : listed.map (fun segment => Cell.ofIdentifier segment.id) =
      (sortRows (·.createdAt) (·.segmentId) store.segments).map (·.segmentId) := by
    refine map_keys_of_mapM (fun row member segment read => ?_) lists
    obtain ⟨id, named⟩ := identified row (Store.mem_sortRows.mp member)
    rw [named, id_of_segment named read]
  rw [← keys] at sorted
  exact List.pairwise_map.mpr ((List.pairwise_map.mp sorted).imp fun different same => different (congrArg _ same))

theorem getSegment_of_listed (distinct : (store.segments.map (·.segmentId)).Nodup) (identified : store.HasSegmentIds)
    (lists : store.listSegments = .ok listed) (id : SegmentId) :
    ∃ found, store.getSegment id = .ok found ∧ found.toList = listed.filter fun segment => segment.id = id := by
  rw [getSegment_eq]
  cases present : store.segment? id with
  | none =>
      refine ⟨none, rfl, (List.filter_eq_nil_iff.mpr ?_).symm⟩
      intro segment member same
      obtain ⟨row, stored, named, _⟩ := (mem_listed identified lists segment).mp member
      exact segment?_eq_none.mp present ⟨row, stored, of_decide_eq_true same ▸ named⟩
  | some row =>
      obtain ⟨segment, read⟩ := reads_of_mapM ⟨listed, lists⟩ row (Store.mem_sortRows.mpr (mem_of_segment? present))
      have sameId := id_of_segment (id_of_segment? present) read
      have member := (mem_listed identified lists segment).mpr
        ⟨row, mem_of_segment? present, sameId ▸ id_of_segment? present, read⟩
      refine ⟨some segment, by simp only [read]; rfl, ?_⟩
      rw [← sameId]
      exact (filter_key_eq (nodup_listed distinct identified lists) member).symm

end Listed

/-- The segment meets every criterion of a request. A criterion that is not given, a nil identifier and a type
that is blank are met by all segments; of a type only what the request says is trimmed. -/
structure SegmentFilter.Selects (request : SegmentFilter) (segment : Segment) : Prop where
  id : ∀ id ∈ request.id, id = .nil ∨ segment.id = id
  segmentType : ∀ segmentType ∈ request.segmentType,
    trimText segmentType = "" ∨ segment.segmentType = trimText segmentType
  scope : ∀ scope ∈ request.scope, segment.scope = scope
  collectionId : ∀ id ∈ request.collectionId, id = .nil ∨ segment.collectionId = id

theorem criterionHolds_iff {α : Type} [DecidableEq α] (criterion : Option α) (value : α) :
    criterionHolds criterion value = true ↔ ∀ expected ∈ criterion, value = expected := by
  cases criterion <;> simp [criterionHolds]

theorem forall_mem_filter_iff {α : Type} (criterion : Option α) (counts : α → Bool) (holds : α → Prop) :
    (∀ given ∈ criterion.filter counts, holds given) ↔ ∀ given ∈ criterion, counts given = false ∨ holds given := by
  cases criterion with
  | none => simp
  | some given => cases counted : counts given <;> simp [Option.filter, counted]

theorem meant_iff {kind : IdentifierKind} (criterion : Option (Identifier kind)) (value : Identifier kind) :
    (∀ meant ∈ meantIdentifier criterion, value = meant) ↔ ∀ id ∈ criterion, id = .nil ∨ value = id := by
  simp only [meantIdentifier, forall_mem_filter_iff, Identifier.isNil, Bool.not_eq_false', decide_eq_true_eq]

theorem meantIdentifier_meant {kind : IdentifierKind} (criterion : Option (Identifier kind)) :
    meantIdentifier (meantIdentifier criterion) = meantIdentifier criterion := by
  cases criterion with
  | none => rfl
  | some id => cases isNil : id.isNil <;> simp [meantIdentifier, Option.filter, isNil]

theorem meantType_iff (criterion : Option String) (value : String) :
    (∀ meant ∈ (criterion.map trimText).filter (fun text => !text.isEmpty), value = meant) ↔
      ∀ segmentType ∈ criterion, trimText segmentType = "" ∨ value = trimText segmentType := by
  rw [forall_mem_filter_iff]
  cases criterion <;> simp

theorem admits_normalized_iff (request : SegmentFilter) (segment : Segment) :
    request.normalized.admits segment = true ↔ request.Selects segment := by
  simp only [SegmentFilter.admits, segmentMatches, SegmentFilter.normalized, Bool.and_eq_true, criterionHolds_iff,
    meantIdentifier_meant, meant_iff, meantType_iff]
  constructor
  · rintro ⟨⟨⟨id, segmentType⟩, scope⟩, collectionId⟩
    exact ⟨id, segmentType, scope, collectionId⟩
  · rintro ⟨id, segmentType, scope, collectionId⟩
    exact ⟨⟨⟨id, segmentType⟩, scope⟩, collectionId⟩

instance (request : SegmentFilter) : DecidablePred request.Selects :=
  fun segment => decidable_of_iff _ (admits_normalized_iff request segment)

theorem apply_normalized (request : SegmentFilter) (segments : List Segment) :
    request.normalized.apply segments = segments.filter request.Selects := by
  refine List.filter_congr fun segment _ => ?_
  rw [Bool.eq_iff_iff, admits_normalized_iff, decide_eq_true_iff]

def Store.candidates (id : Option SegmentId) (store : Store) : Except Failure (List Segment) :=
  match id with
  | some id => (store.getSegment id).map Option.toList
  | none => store.listSegments

section Runs

variable {now : Instant} {stalled : List Table} {store : Store} {candidates : List Segment}

theorem segmentCandidates_run {id : Option SegmentId} (prompt : Table.segments ∉ stalled)
    (read : store.candidates id = .ok candidates) :
    segmentCandidates id ⟨now, stalled, true⟩ store = (.ok candidates, store) := by
  have reached : Access.reach .segments ⟨now, stalled, true⟩ store = (.ok (), store) :=
    if_neg (by simpa using prompt)
  unfold segmentCandidates
  rw [bind_run, reached]
  cases id with
  | none =>
      have lists : store.listSegments = .ok candidates := read
      dsimp only
      rw [Access.query_run, lists]
  | some id =>
      simp only [bind_run, Access.query_run]
      rw [Store.candidates] at read
      cases found : store.getSegment id with
      | error failure =>
          rw [found] at read
          cases read
      | ok segment =>
          rw [found] at read
          cases read
          rfl

theorem getSegments_run {request : SegmentFilter} (prompt : Table.segments ∉ stalled)
    (read : store.candidates request.normalized.id = .ok candidates) :
    getSegments request ⟨now, stalled, true⟩ store = (.ok (candidates.filter request.Selects), store) := by
  rw [getSegments, bind_run, Service.perform, segmentCandidates_run prompt read, ← apply_normalized]
  rfl

end Runs

theorem Session.perform_getSegments {session : Session} (isOpen : session.isOpen = true) {request : SegmentFilter}
    {stalled : List Table} (prompt : Table.segments ∉ stalled) {candidates : List Segment}
    (read : session.store.candidates request.normalized.id = .ok candidates) :
    (session.perform (.service (.getSegments request) stalled)).1 =
      .answered (.segments (candidates.filter request.Selects)) := by
  rcases session with ⟨store, opened, clock⟩
  cases isOpen
  simp only [perform, circumstances, ServiceCall.run, bind_run, getSegments_run prompt read]
  rfl

theorem filter_of_narrow {request : SegmentFilter} {id : SegmentId}
    (narrow : ∀ segment, request.Selects segment → segment.id = id) (listed : List Segment) :
    (listed.filter fun segment => segment.id = id).filter request.Selects = listed.filter request.Selects := by
  rw [List.filter_filter]
  refine List.filter_congr fun segment _ => ?_
  by_cases selected : request.Selects segment
  · simp [selected, narrow segment selected]
  · simp [selected]

theorem candidates_of_listed {store : Store} {listed : List Segment}
    (distinct : (store.segments.map (·.segmentId)).Nodup) (identified : store.HasSegmentIds)
    (lists : store.listSegments = .ok listed) (request : SegmentFilter) :
    ∃ candidates, store.candidates request.normalized.id = .ok candidates ∧
      candidates.filter request.Selects = listed.filter request.Selects := by
  cases meant : request.normalized.id with
  | none => exact ⟨listed, lists, rfl⟩
  | some id =>
      obtain ⟨found, read, same⟩ := getSegment_of_listed distinct identified lists id
      refine ⟨found.toList, by rw [Store.candidates, read]; rfl, ?_⟩
      rw [same, filter_of_narrow]
      exact fun segment selected => (meant_iff request.id segment.id).mpr selected.id id meant

/-- In every state in which all segments can be listed, a search answers the part of the list that meets every
criterion, in the order of the list. A segment that is fetched by its identifier is what the list has under
it, so a search for an identifier answers at most that one segment. -/
theorem search_filters_list (clock listedAt : Instant) (steps : List Step)
    (ordinary : ∀ step ∈ steps, step.operation.IsOrdinary) (listed : List Segment)
    (lists : (Step.perform ⟨listedAt, .table .listSegments⟩ ((Session.start clock).after steps)).1 =
      .answered (.segments listed)) (askedAt : Instant) :
    let session := (Session.start clock).after steps
    (∀ (request : SegmentFilter) (stalled : List Table), Table.segments ∉ stalled →
      (Step.perform ⟨askedAt, .service (.getSegments request) stalled⟩ session).1 =
        .answered (.segments (listed.filter request.Selects))) ∧
    (∀ id, ∃ found, (Step.perform ⟨askedAt, .table (.getSegment id)⟩ session).1 = .answered (.segment found) ∧
      found.toList = listed.filter fun segment => segment.id = id) ∧
    (∀ (request : SegmentFilter) (id : SegmentId), request.id = some id → id ≠ .nil →
      (listed.filter request.Selects).length ≤ 1 ∧ ∀ segment ∈ listed.filter request.Selects, segment.id = id) := by
  intro session
  have proper : session.store.IsProper := Session.isProper_after steps (Session.start clock) ordinary isProper_empty
  have distinct := proper.integral.segmentIds
  have identified : session.store.HasSegmentIds :=
    Session.hasSegmentIds_after steps (Session.start clock) ordinary hasIdentifiers_empty hasSegmentIds_empty
  obtain ⟨isOpen, values, read, same⟩ := Session.read_of_answered rfl lists
  cases same
  refine ⟨?_, ?_, ?_⟩
  · intro request stalled prompt
    obtain ⟨candidates, found, same⟩ := candidates_of_listed distinct identified read request
    have stillOpen : (Session.mk session.store session.isOpen askedAt).isOpen = true := isOpen
    exact (Session.perform_getSegments stillOpen prompt found).trans (by rw [same])
  · intro id
    obtain ⟨found, fetched, same⟩ := getSegment_of_listed distinct identified read id
    exact ⟨found, Session.answered_of_read rfl isOpen fetched askedAt, same⟩
  · intro request id given meant
    have narrow : ∀ segment, request.Selects segment → segment.id = id :=
      fun segment selected => (selected.id id given).resolve_left meant
    obtain ⟨found, _, same⟩ := getSegment_of_listed distinct identified read id
    have few : found.toList.length ≤ 1 := by cases found <;> simp
    constructor
    · rw [← filter_of_narrow narrow listed, ← same]
      exact Nat.le_trans (List.length_filter_le _ _) few
    · exact fun segment selected => narrow segment (of_decide_eq_true (List.mem_filter.mp selected).2)

def threeSegments : List Segment :=
  [.create (.ofByte 1) "urn:a" .vector (.ofByte 8) none firstOfJune,
    .create (.ofByte 2) "urn:a " .vector (.ofByte 8) none firstOfJune,
    .create (.ofByte 3) "urn:a" .record (.ofByte 9) none firstOfJune]

def insertions : List Step :=
  threeSegments.map fun segment => ⟨firstOfJune, .table (.insertSegment segment)⟩

theorem search_filters_list_of_three :
    (Step.perform ⟨firstOfJune, .service (.getSegments ⟨some .nil, some " urn:a", none, some (.ofByte 8)⟩) []⟩
      ((Session.start firstOfJune).after insertions)).1 = .answered (.segments (threeSegments.take 1)) := by
  have rows : ((Session.start firstOfJune).after insertions).store.segments =
      threeSegments.map SegmentRow.ofSegment := by
    decide +kernel
  have read : ((Session.start firstOfJune).after insertions).store.listSegments = .ok threeSegments := by
    rw [Store.listSegments, rows, sortRows, List.mergeSort_of_pairwise (by decide +kernel)]
    exact toOption_eq_some_iff.mp (by decide +kernel)
  have lists : (Step.perform ⟨firstOfJune, .table .listSegments⟩ ((Session.start firstOfJune).after insertions)).1 =
      .answered (.segments threeSegments) := Session.answered_of_read rfl rfl read firstOfJune
  have searched :=
    (search_filters_list firstOfJune firstOfJune insertions (by decide) threeSegments lists firstOfJune).1
    ⟨some .nil, some " urn:a", none, some (.ofByte 8)⟩ [] (by decide)
  have kept : threeSegments.filter (SegmentFilter.Selects ⟨some .nil, some " urn:a", none, some (.ofByte 8)⟩) =
      threeSegments.take 1 := by
    decide +kernel
  rw [kept] at searched
  exact searched

end MetadataRegistry
