import MetadataRegistry.Proofs.DatabaseLifecycle
import MetadataRegistry.Proofs.DatabaseLookup
import MetadataRegistry.Proofs.RecordTimes

/-!
Audit times. Under a clock that does not go back every record keeps the time of the step that created it and is dated
at a later step or at this one, and a soft-deleted database was deleted when it was changed last. The times of deletions
are kept in milliseconds and all others as text; for a time that is not in a leap second this is the same time.
-/

namespace MetadataRegistry

theorem Operation.IsOffered.times {operation : Operation} {now created updated : Instant} {write : Write}
    (offered : operation.IsOffered) (makes : operation.write? now = some write)
    (inserts : write.times? = some (created, updated)) : created = now ∧ updated = now := by
  rcases offered.writes makes with ⟨call, stalled, rfl, writes⟩ | ⟨cutoff, rfl⟩
  · cases writes with
    | createTenant | createDatabase | createSegment =>
        cases inserts
        exact ⟨rfl, rfl⟩
    | setTenantResourceName | setTenantLastCompactionTime | deleteDatabase | finishDatabaseDeletion | updateSegment
    | flushSegmentCompaction | flushCollectionCompaction => cases inserts
  · cases inserts

structure Stamp.IsNew (now : Instant) (earlier : List Stamp) (stamp : Stamp) : Prop where
  absent : ∀ old ∈ earlier, old.key ≠ stamp.key
  created : stamp.createdAt = .ofInstant now
  updated : stamp.updatedAt = .ofInstant now

theorem stamp_of_perform {step : Step} {session : Session} (offered : step.operation.IsOffered)
    (identified : session.store.HasIdentifiers) {table : Table} {stamp : Stamp}
    (member : stamp ∈ (step.perform session).2.store.stamps table) :
    (∃ old ∈ session.store.stamps table, old.Redates step.clock stamp) ∨
      stamp.IsNew step.clock (session.store.stamps table) := by
  refine @keeps_perform (fun store => ∀ stamp ∈ store.stamps table,
    (∃ old ∈ session.store.stamps table, old.Redates step.clock stamp) ∨
      stamp.IsNew step.clock (session.store.stamps table)) step.operation { session with clock := step.clock }
    offered.isSingle identified ?_ ?_ stamp member
  · intro write after makes did stamp member
    cases comesFrom_of_did did member with
    | row old earlier redates => exact .inl ⟨old, earlier, redates⟩
    | insertion created updated inserts absent createdAt updatedAt =>
        obtain ⟨rfl, rfl⟩ := offered.times makes inserts
        exact .inr ⟨absent, createdAt, updatedAt⟩
  · exact fun stamp member => .inl ⟨stamp, member, .refl _ stamp⟩

/-- The row of the stamp was created by a step after this session, has stood in the table with this time of creation
ever since, and was changed last at the time of one of the steps since. -/
structure Stamp.HasHistory (table : Table) (session : Session) (creation : Step) (later : List Step)
    (stamp : Stamp) : Prop where
  absent : stamp.key ∉ session.store.keys table
  created : stamp.createdAt = .ofInstant creation.clock
  updated : ∃ step ∈ creation :: later, stamp.updatedAt = .ofInstant step.clock
  since : ∀ front, front <+: later → ∃ past ∈ (session.after (creation :: front)).store.stamps table,
    past.key = stamp.key ∧ past.createdAt = stamp.createdAt

section Histories

variable {table : Table} {session : Session} {creation last : Step} {later : List Step} {stamp old : Stamp}

theorem hasHistory_of_isNew (isNew : stamp.IsNew creation.clock (session.store.stamps table))
    (member : stamp ∈ (creation.perform session).2.store.stamps table) :
    stamp.HasHistory table session creation [] where
  absent := by
    intro present
    obtain ⟨old, earlier, same⟩ := List.mem_map.mp present
    exact isNew.absent old earlier same
  created := isNew.created
  updated := ⟨creation, List.mem_singleton_self creation, isNew.updated⟩
  since := by
    intro front inside
    rw [List.prefix_nil.mp inside]
    exact ⟨stamp, member, rfl, rfl⟩

theorem Stamp.HasHistory.redated (history : old.HasHistory table session creation later)
    (redates : old.Redates last.clock stamp)
    (member : stamp ∈ (session.after (creation :: (later ++ [last]))).store.stamps table) :
    stamp.HasHistory table session creation (later ++ [last]) where
  absent := redates.key ▸ history.absent
  created := redates.created.trans history.created
  updated := by
    rcases redates.updated with kept | anew
    · obtain ⟨step, among, dated⟩ := history.updated
      exact ⟨step, List.mem_append_left [last] among, kept.trans dated⟩
    · exact ⟨last, by simp, anew⟩
  since := by
    intro front inside
    rcases List.prefix_concat_iff.mp inside with rfl | inside
    · exact ⟨stamp, member, rfl, rfl⟩
    · obtain ⟨past, there, sameKey, sameTime⟩ := history.since front inside
      exact ⟨past, there, sameKey.trans redates.key.symm, sameTime.trans redates.created.symm⟩

end Histories

theorem hasHistory_after (clock : Instant) (steps : List Step)
    (offered : ∀ step ∈ steps, step.operation.IsOffered) {table : Table} : ∀ {stamp : Stamp},
    stamp ∈ ((Session.start clock).after steps).store.stamps table →
      ∃ earlier creation later, steps = earlier ++ creation :: later ∧
        stamp.HasHistory table ((Session.start clock).after earlier) creation later := by
  -- From the last step backward: it either brings the stamp in or dates one anew that has a history.
  induction steps using List.reverseRecOn with
  | nil =>
      intro stamp member
      rw [show ((Session.start clock).after []).store = Store.empty from rfl, stamps_empty] at member
      cases member
  | append_singleton front last ih =>
      intro stamp member
      obtain ⟨fronts, lasts⟩ := List.forall_mem_append.mp offered
      have identified := Session.hasIdentifiers_after front (Session.start clock)
        (fun step inside => (fronts step inside).isSingle.isOrdinary) hasIdentifiers_empty
      have reached := member
      rw [Session.after_append] at reached
      rcases stamp_of_perform (lasts last (List.mem_singleton_self last)) identified reached with
        ⟨old, earlier, redates⟩ | isNew
      · obtain ⟨before, creation, later, rfl, history⟩ := ih fronts earlier
        refine ⟨before, creation, later ++ [last], by simp, history.redated redates ?_⟩
        rw [← Session.after_append]
        simpa using member
      · exact ⟨front, last, [], rfl, hasHistory_of_isNew isNew reached⟩

def DatabaseRow.HasDeletion (row : DatabaseRow) : Prop :=
  row.state = .text DatabaseState.active.text ∨ ∃ deleted : Instant, deleted.isLeapSecond = false ∧
    row.updatedAt = .ofInstant deleted ∧ row.deletedAt = .ofMillis deleted

theorem hasDeletion_of_did {now : Instant} {write : Write} {before after : Store} (plain : now.isLeapSecond = false)
    (created : ∀ database, write = .insertDatabase database → database.state = .active)
    (did : write.Did now before after) (deletions : ∀ row ∈ before.databases, row.HasDeletion) :
    ∀ row ∈ after.databases, row.HasDeletion := by
  cases write with
  | insertDatabase database =>
      obtain ⟨_, _, _, rfl⟩ := did
      refine (all_append_iff deletions _).mpr (.inl ?_)
      rw [DatabaseRow.ofDatabase, created database rfl]
  | softDelete tenant name =>
      obtain ⟨_, rfl⟩ := did
      refine List.forall_mem_map.mpr fun row member => ?_
      unfold DatabaseRow.deleted
      split
      · exact .inr ⟨now, plain, rfl, rfl⟩
      · exact deletions row member
  | finishDeletion cutoff =>
      obtain ⟨kept, sublist, _, rfl⟩ := did
      exact fun row member => deletions row (sublist.subset member)
  | insertTenant | advanceCheckpoint | bindResourceName | insertSegment | flushSegment | flushCollection =>
      obtain ⟨_, rfl⟩ := did
      exact deletions
  | updateSegment =>
      obtain ⟨_, _, rfl⟩ := did
      exact deletions

theorem Operation.IsOffered.creates_active {operation : Operation} {now : Instant} {database : Database}
    (offered : operation.IsOffered) (makes : operation.write? now = some (.insertDatabase database)) :
    database.state = .active := by
  rcases offered.writes makes with ⟨call, stalled, rfl, writes⟩ | ⟨cutoff, impossible⟩
  · cases writes
    rfl
  · cases impossible

theorem hasDeletion_after (clock : Instant) (steps : List Step) (offered : ∀ step ∈ steps, step.operation.IsOffered)
    (plain : ∀ step ∈ steps, step.clock.isLeapSecond = false) :
    ∀ row ∈ ((Session.start clock).after steps).store.databases, row.HasDeletion := by
  refine Session.store_after_keeps_of_single (fun store => ∀ row ∈ store.databases, row.HasDeletion)
    (fun step => step.operation.IsOffered ∧ step.clock.isLeapSecond = false) (fun _ admitted => admitted.1.isSingle) ?_
    steps (Session.start clock) (fun step member => ⟨offered step member, plain step member⟩) hasIdentifiers_empty
    (fun _ impossible => nomatch impossible)
  rintro step write before after ⟨offered, plain⟩ makes did deletions
  refine hasDeletion_of_did plain (fun database inserts => ?_) did deletions
  exact offered.creates_active (inserts ▸ makes)

theorem deletedAt_of_database {row : DatabaseRow} {database : Database} {deleted : Instant}
    (read : row.database = .ok database) (plain : deleted.isLeapSecond = false)
    (stored : row.deletedAt = .ofMillis deleted) : database.deletedAt = some deleted.truncate := by
  have deletion : (Cell.ofMillis deleted).readOptional (Cell.readInteger "deleted_at") >>=
      readFound (readMillis "deleted_at") = .ok (some deleted.truncate) :=
    @readDeletion_ofOption (some deleted) fun _ same => Option.some.inj same ▸ plain
  rw [database_eq, stored] at read
  simp only [deletion, ok_bind, bind_eq_ok_iff] at read
  obtain ⟨_, _, _, _, _, _, _, _, _, _, _, _, _, _, _, _, _, _, _, _, _, _, same⟩ := read
  cases same
  rfl

theorem deletedAt_eq_updatedAt {row : DatabaseRow} {database : Database} (deletion : row.HasDeletion)
    (read : row.database = .ok database) (softDeleted : database.state = .softDeleted) :
    database.deletedAt = some database.updatedAt := by
  rcases deletion with active | ⟨deleted, plain, updated, stored⟩
  · rw [(cells_of_database read).2.2, softDeleted] at active
    exact absurd active state_ne
  · have times := (times_of_database read).2
    rw [updated, holdsTime_ofInstant_iff] at times
    rw [deletedAt_of_database read plain stored, times.2]

/-- From a row of the table with this key a record is read that has these times of creation and of the last change. -/
inductive Store.Shows (store : Store) : Table → Cell → Instant → Instant → Prop where
  | tenant {row : TenantRow} {tenant : Tenant} (member : row ∈ store.tenants) (read : row.tenant = .ok tenant) :
      Shows store .tenants row.id tenant.createdAt tenant.updatedAt
  | database {row : DatabaseRow} {database : Database} (member : row ∈ store.databases)
      (read : row.database = .ok database) :
      Shows store .databases row.databaseId database.createdAt database.updatedAt
  | segment {row : SegmentRow} {segment : Segment} (member : row ∈ store.segments)
      (read : row.segment = .ok segment) :
      Shows store .segments row.segmentId segment.createdAt segment.updatedAt

theorem stamp_of_shows {store : Store} {table : Table} {key : Cell} {createdAt updatedAt : Instant}
    (shown : store.Shows table key createdAt updatedAt) :
    ∃ stamp ∈ store.stamps table, stamp.key = key ∧ stamp.createdAt.HoldsTime createdAt ∧
      stamp.updatedAt.HoldsTime updatedAt := by
  cases shown with
  | tenant member read => exact ⟨_, List.mem_map_of_mem member, rfl, times_of_tenant read⟩
  | database member read => exact ⟨_, List.mem_map_of_mem member, rfl, times_of_database read⟩
  | segment member read => exact ⟨_, List.mem_map_of_mem member, rfl, times_of_segment read⟩

/-- The step after this session created the row of the table with this key, and from then on the row has been there
and has shown the time of the step, in whole milliseconds, as the time of its creation. -/
structure Step.Created (creation : Step) (session : Session) (later : List Step) (table : Table) (key : Cell) :
    Prop where
  absent : key ∉ session.store.keys table
  present : ∀ front, front <+: later → key ∈ (session.after (creation :: front)).store.keys table
  constant : ∀ front, front <+: later → ∀ createdAt updatedAt,
    (session.after (creation :: front)).store.Shows table key createdAt updatedAt →
      createdAt = creation.clock.truncate

theorem Stamp.HasHistory.isCreated {stamp : Stamp} {table : Table} {session : Session} {creation : Step}
    {later : List Step} (history : stamp.HasHistory table session creation later)
    (integral : ∀ front, front <+: later → (session.after (creation :: front)).store.Integral) :
    creation.Created session later table stamp.key where
  absent := history.absent
  present := by
    intro front inside
    obtain ⟨past, member, same, _⟩ := history.since front inside
    exact same ▸ List.mem_map_of_mem member
  constant := by
    intro front inside createdAt updatedAt shown
    obtain ⟨past, member, pastKey, pastCreated⟩ := history.since front inside
    obtain ⟨other, also, otherKey, holds, _⟩ := stamp_of_shows shown
    have same : other = past := List.inj_on_of_nodup_map (nodup_keys (integral front inside) table) also member
      (otherKey.trans pastKey.symm)
    rw [same, pastCreated, history.created, holdsTime_ofInstant_iff] at holds
    exact holds.2

section Times

variable {steps : List Step} (forward : steps.Pairwise fun earlier later => earlier.clock.le later.clock = true)

include forward

theorem le_last {step : Step} (member : step ∈ steps) :
    ∃ last, steps.getLast? = some last ∧ step.clock.le last.clock = true :=
  ⟨steps.getLast (List.ne_nil_of_mem member), List.getLast?_eq_some_getLast _,
    forward.rel_getLast_of_rel_getLast_getLast member (Instant.le_refl _)⟩

theorem times_of_shows (clock : Instant) (offered : ∀ step ∈ steps, step.operation.IsOffered) {table : Table}
    {key : Cell} {createdAt updatedAt : Instant}
    (shown : ((Session.start clock).after steps).store.Shows table key createdAt updatedAt) :
    createdAt.le updatedAt = true ∧
      (∃ last, steps.getLast? = some last ∧ updatedAt.le last.clock = true) ∧
      ∃ earlier creation later, steps = earlier ++ creation :: later ∧ createdAt = creation.clock.truncate ∧
        creation.Created ((Session.start clock).after earlier) later table key := by
  obtain ⟨stamp, member, rfl, createdHolds, updatedHolds⟩ := stamp_of_shows shown
  obtain ⟨earlier, creation, later, rfl, history⟩ := hasHistory_after clock steps offered member
  obtain ⟨dating, since, dated⟩ := history.updated
  rw [history.created, holdsTime_ofInstant_iff] at createdHolds
  rw [dated, holdsTime_ofInstant_iff] at updatedHolds
  obtain ⟨_, rfl⟩ := createdHolds
  obtain ⟨_, rfl⟩ := updatedHolds
  refine ⟨?_, ?_, earlier, creation, later, rfl, rfl, history.isCreated fun front inside => ?_⟩
  · refine Instant.truncate_le_truncate ?_
    rcases List.mem_cons.mp since with rfl | after
    · exact Instant.le_refl _
    · exact (List.pairwise_cons.mp (List.pairwise_append.mp forward).2.1).1 dating after
  · obtain ⟨last, isLast, ordered⟩ := le_last forward (List.mem_append_right earlier since)
    exact ⟨last, isLast, Instant.le_trans dating.clock.truncate_le ordered⟩
  · rw [← Session.after_append]
    refine (Session.isProper_after _ (Session.start clock) (fun step among => ?_) isProper_empty).integral
    refine (offered step ?_).isSingle.isOrdinary
    rcases List.mem_append.mp among with before | since
    · exact List.mem_append_left _ before
    · exact List.mem_append_right _ (List.Sublist.cons_cons creation inside.sublist |>.subset since)

end Times

/-- In every state that calls of the service and sweeps lead to under a clock that does not go back, at times that can
be stored and are not in a leap second: tenants and databases can be read, and of every record that is read the time of
creation is not after that of the last change and this one not after the last step. The record was created by a step
at the time of creation, in whole milliseconds, and has shown this time ever since. A soft-deleted database was deleted
at the time of its last change, which is not before its creation. -/
theorem audit_times_are_consistent (clock : Instant) (steps : List Step)
    (offered : ∀ step ∈ steps, step.operation.IsOffered) (inYears : ∀ step ∈ steps, step.clock.HasStoredYear)
    (plain : ∀ step ∈ steps, step.clock.isLeapSecond = false)
    (forward : steps.Pairwise fun earlier later => earlier.clock.le later.clock = true) :
    let store := ((Session.start clock).after steps).store
    (∀ table key createdAt updatedAt, store.Shows table key createdAt updatedAt →
      createdAt.le updatedAt = true ∧
      (∃ last, steps.getLast? = some last ∧ updatedAt.le last.clock = true) ∧
      ∃ earlier creation later, steps = earlier ++ creation :: later ∧ createdAt = creation.clock.truncate ∧
        creation.Created ((Session.start clock).after earlier) later table key) ∧
    (∀ row ∈ store.databases, ∀ database, row.database = .ok database → database.state = .softDeleted →
      ∃ deletedAt, database.deletedAt = some deletedAt ∧ deletedAt = database.updatedAt ∧
        database.createdAt.le deletedAt = true) ∧
    (∀ row ∈ store.tenants, ∃ tenant, row.tenant = .ok tenant) ∧
    (∀ row ∈ store.databases, ∃ database, row.database = .ok database) := by
  intro store
  have readable : store.withoutSegments.IsReadable := isReadable_withoutSegments_after clock steps offered inYears
  refine ⟨fun table key createdAt updatedAt shown => times_of_shows forward clock offered shown, ?_,
    readable.tenants, readable.databases⟩
  intro row member database read softDeleted
  have ordered := (times_of_shows forward clock offered (.database member read)).1
  have deletedAt := deletedAt_eq_updatedAt (hasDeletion_after clock steps offered plain row member) read softDeleted
  exact ⟨database.updatedAt, deletedAt, rfl, ordered⟩

def lastDay : Instant × Instant :=
  (⟨-86400, 999999, by decide, by decide⟩, ⟨-86400, 999999999, by decide, by decide⟩)

def shortLife : List Step :=
  [⟨lastDay.1, .service (.createTenant ⟨"acme"⟩) []⟩,
    ⟨lastDay.1, .service (.createDatabase ⟨"01010101-0101-0101-0101-010101010101", "main", "acme"⟩) []⟩,
    ⟨lastDay.2, .service (.deleteDatabase ⟨"main", "acme"⟩) []⟩]

def goneDatabase : Database where
  id := .ofByte 1
  name := "main"
  tenant := "acme"
  ts := 0
  state := .softDeleted
  deletedAt := some ⟨-86400, 999000000, by decide, by decide⟩
  createdAt := ⟨-86400, 0, by decide, by decide⟩
  updatedAt := ⟨-86400, 999000000, by decide, by decide⟩

theorem audit_times_are_consistent_shortLife :
    ∃ row ∈ ((Session.start lastDay.1).after shortLife).store.databases, row.database = .ok goneDatabase ∧
      ∃ deletedAt, goneDatabase.deletedAt = some deletedAt ∧ deletedAt = goneDatabase.updatedAt ∧
        goneDatabase.createdAt.le deletedAt = true := by
  have consistent := audit_times_are_consistent lastDay.1 shortLife (by decide +kernel) (by decide +kernel)
    (by decide +kernel) (by decide +kernel)
  have member : (DatabaseRow.ofDatabase (.create (.ofByte 1) "main" "acme" lastDay.1)).softDeleted lastDay.2 ∈
      ((Session.start lastDay.1).after shortLife).store.databases := by decide +kernel
  have read : ((DatabaseRow.ofDatabase (.create (.ofByte 1) "main" "acme" lastDay.1)).softDeleted
      lastDay.2).database = .ok goneDatabase := by decide +kernel
  exact ⟨_, member, read, consistent.2.1 _ member goneDatabase read rfl⟩

end MetadataRegistry
