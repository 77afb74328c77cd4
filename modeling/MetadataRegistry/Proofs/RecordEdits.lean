import Mathlib.Data.List.Basic
import MetadataRegistry.Proofs.ResourceNames
import MetadataRegistry.Proofs.Serving

/-!
Edits of single records. A write that edits a tenant, the databases of one name or a segment asks nothing of the other
rows and leaves them as they are, whether it takes effect or not. So edits of different records, in either order, are
answered in the same way and leave the same store.
-/

namespace MetadataRegistry

/-- What an edit addresses, by the cells that it is looked up by. The databases of one name are those that have it, be
they deleted. -/
inductive RecordKey where
  | tenant (id : Cell)
  | database (tenantId name : Cell)
  | segment (segmentId : Cell)
  deriving DecidableEq

def TenantRow.key (row : TenantRow) : RecordKey := .tenant row.id

def DatabaseRow.key (row : DatabaseRow) : RecordKey := .database row.tenantId row.name

def SegmentRow.key (row : SegmentRow) : RecordKey := .segment row.segmentId

def Store.record (key : RecordKey) (store : Store) : Store where
  tenants := store.tenants.filter (·.key = key)
  databases := store.databases.filter (·.key = key)
  segments := store.segments.filter (·.key = key)

/-! Changes of rows in place. -/

structure RowChange where
  tenant : TenantRow → TenantRow := id
  database : DatabaseRow → DatabaseRow := id
  segment : SegmentRow → SegmentRow := id

/-- The change keeps what rows are looked up by, and concerns no rows but those of the record, if there is one. -/
structure Concerns {Row : Type} (rowKey : Row → RecordKey) (record : Option RecordKey) (change : Row → Row) : Prop where
  kept : ∀ row, rowKey (change row) = rowKey row
  fixed : ∀ row, rowKey row ∉ record → change row = row

section Rows

variable {Row : Type} {rowKey : Row → RecordKey} {record other : Option RecordKey} {change second : Row → Row}

theorem concerns_id : Concerns rowKey record id := ⟨fun _ => rfl, fun _ _ => rfl⟩

theorem Concerns.comm (first : Concerns rowKey record change) (follows : Concerns rowKey other second)
    (distinct : ∀ key ∈ record, key ∉ other) (row : Row) : change (second row) = second (change row) := by
  by_cases addressed : rowKey row ∈ record
  · have apart : rowKey row ∉ other := distinct _ addressed
    rw [follows.fixed row apart, follows.fixed (change row) (by rwa [first.kept])]
  · rw [first.fixed row addressed, first.fixed (second row) (by rwa [follows.kept])]

theorem Concerns.filter_map (concerns : Concerns rowKey record change) {key : RecordKey} (apart : key ∉ record)
    (rows : List Row) : (rows.map change).filter (rowKey · = key) = rows.filter (rowKey · = key) := by
  have sameKey : (fun row => decide (rowKey row = key)) ∘ change = fun row => decide (rowKey row = key) := by
    funext row
    rw [Function.comp_apply, concerns.kept]
  rw [List.filter_map, sameKey]
  refine (List.map_congr_left fun row member => ?_).trans (List.map_id _)
  have found : rowKey row = key := of_decide_eq_true (List.mem_filter.mp member).2
  exact concerns.fixed row (found ▸ apart)

end Rows

namespace RowChange

def apply (change : RowChange) (store : Store) : Store where
  tenants := store.tenants.map change.tenant
  databases := store.databases.map change.database
  segments := store.segments.map change.segment

structure IsOf (change : RowChange) (record : Option RecordKey) : Prop where
  tenant : Concerns TenantRow.key record change.tenant
  database : Concerns DatabaseRow.key record change.database
  segment : Concerns SegmentRow.key record change.segment

variable {first second : RowChange} {record other : Option RecordKey}

theorem isOf_nothing : RowChange.IsOf {} record := ⟨concerns_id, concerns_id, concerns_id⟩

theorem IsOf.record_apply (change : first.IsOf record) {key : RecordKey} (apart : key ∉ record) (store : Store) :
    (first.apply store).record key = store.record key := by
  simp only [apply, Store.record, change.tenant.filter_map apart, change.database.filter_map apart,
    change.segment.filter_map apart]

theorem IsOf.apply_comm (change : first.IsOf record) (follows : second.IsOf other)
    (distinct : ∀ key ∈ record, key ∉ other) (store : Store) :
    first.apply (second.apply store) = second.apply (first.apply store) := by
  simp only [apply, List.map_map, Store.mk.injEq]
  exact ⟨List.map_congr_left fun row _ => change.tenant.comm follows.tenant distinct row,
    List.map_congr_left fun row _ => change.database.comm follows.database distinct row,
    List.map_congr_left fun row _ => change.segment.comm follows.segment distinct row⟩

theorem apply_nothing (store : Store) : RowChange.apply {} store = store := by
  simp [apply]

theorem apply_tenant (change : TenantRow → TenantRow) (store : Store) :
    RowChange.apply { tenant := change } store = { store with tenants := store.tenants.map change } := by
  simp [apply]

theorem apply_database (change : DatabaseRow → DatabaseRow) (store : Store) :
    RowChange.apply { database := change } store = { store with databases := store.databases.map change } := by
  simp [apply]

theorem apply_segment (change : SegmentRow → SegmentRow) (store : Store) :
    RowChange.apply { segment := change } store = { store with segments := store.segments.map change } := by
  simp [apply]

end RowChange

namespace Write

def record? : Write → Option RecordKey
  | advanceCheckpoint id _ | bindResourceName id _ => some (.tenant (.text id))
  | softDelete tenant name => some (.database (.text tenant) (.text name))
  | updateSegment update => some (.segment (.ofIdentifier update.id))
  | flushSegment _ flush => some (.segment (.ofIdentifier flush.id))
  | insertTenant _ | insertDatabase _ | finishDeletion _ | insertSegment _ | flushCollection _ => none

def change (now : Instant) : Write → RowChange
  | advanceCheckpoint id time => { tenant := .advanced now id time }
  | bindResourceName id resourceName => { tenant := .bound now id resourceName }
  | softDelete tenant name => { database := .deleted now tenant name }
  | updateSegment update => { segment := .updated now update }
  | flushSegment collectionId flush => { segment := .flushed now collectionId flush }
  | insertTenant _ | insertDatabase _ | finishDeletion _ | insertSegment _ | flushCollection _ => {}

end Write

@[simp] theorem name_deleted (now : Instant) (tenant name : String) (row : DatabaseRow) :
    (row.deleted now tenant name).name = row.name := by
  unfold DatabaseRow.deleted
  split <;> rfl

theorem TenantRow.key_of_id {row : TenantRow} {id : String} (named : row.id = .text id) :
    row.key = .tenant (.text id) := congrArg RecordKey.tenant named

theorem DatabaseRow.HasActiveName.key {row : DatabaseRow} {tenant name : String}
    (active : row.HasActiveName tenant name) : row.key = .database (.text tenant) (.text name) := by
  rw [DatabaseRow.key, active.1, active.2.1]

theorem SegmentRow.key_of_id {row : SegmentRow} {id : SegmentId} (named : row.segmentId = .ofIdentifier id) :
    row.key = .segment (.ofIdentifier id) := congrArg RecordKey.segment named

theorem isOf_change (write : Write) (now : Instant) : (write.change now).IsOf write.record? := by
  cases write with
  | advanceCheckpoint id time =>
      refine ⟨⟨fun row => congrArg RecordKey.tenant (id_advanced now id time row), ?_⟩, concerns_id, concerns_id⟩
      exact fun row apart => if_neg fun named => apart (Option.mem_some_iff.mpr (TenantRow.key_of_id named).symm)
  | bindResourceName id resourceName =>
      refine ⟨⟨fun row => congrArg RecordKey.tenant (id_bound now id resourceName row), ?_⟩, concerns_id, concerns_id⟩
      exact fun row apart => if_neg fun unbound => apart (Option.mem_some_iff.mpr (TenantRow.key_of_id unbound.1).symm)
  | softDelete tenant name =>
      refine ⟨concerns_id, ⟨fun row => ?_, ?_⟩, concerns_id⟩
      · exact congrArg₂ RecordKey.database (tenantId_deleted now tenant name row) (name_deleted now tenant name row)
      · exact fun row apart => if_neg fun active => apart (Option.mem_some_iff.mpr active.key.symm)
  | updateSegment update =>
      refine ⟨concerns_id, concerns_id, ⟨fun row => congrArg RecordKey.segment (segmentId_updated now update row), ?_⟩⟩
      exact fun row apart => if_neg fun named => apart (Option.mem_some_iff.mpr (SegmentRow.key_of_id named).symm)
  | flushSegment collectionId flush =>
      refine ⟨concerns_id, concerns_id,
        ⟨fun row => congrArg RecordKey.segment (segmentId_flushed now collectionId flush row), ?_⟩⟩
      exact fun row apart => if_neg fun inside => apart (Option.mem_some_iff.mpr (SegmentRow.key_of_id inside.1).symm)
  | insertTenant | insertDatabase | finishDeletion | insertSegment | flushCollection => exact RowChange.isOf_nothing

section Conditions

variable {Row : Type} {rowKey : Row → RecordKey} {key : RecordKey}

theorem exists_of_record_iff (holds : Row → Prop) (named : ∀ row, holds row → rowKey row = key) (rows : List Row) :
    (∃ row ∈ rows.filter (rowKey · = key), holds row) ↔ ∃ row ∈ rows, holds row := by
  constructor
  · rintro ⟨row, member, held⟩
    exact ⟨row, (List.mem_filter.mp member).1, held⟩
  · rintro ⟨row, member, held⟩
    exact ⟨row, List.mem_filter.mpr ⟨member, decide_eq_true (named row held)⟩, held⟩

theorem forall_of_record_iff (holds demanded : Row → Prop) (named : ∀ row, holds row → rowKey row = key)
    (rows : List Row) :
    (∀ row ∈ rows.filter (rowKey · = key), holds row → demanded row) ↔ ∀ row ∈ rows, holds row → demanded row := by
  constructor
  · intro all row member held
    exact all row (List.mem_filter.mpr ⟨member, decide_eq_true (named row held)⟩) held
  · intro all row member held
    exact all row (List.mem_filter.mp member).1 held

end Conditions

/-- An edit runs as it would if there were nothing but its record, and changes only rows of it. -/
theorem run_of_record {write : Write} {key : RecordKey} (edits : write.record? = some key) (now : Instant)
    (store : Store) :
    write.run now store = (write.run now (store.record key)).map fun _ => (write.change now).apply store := by
  cases write with
  | advanceCheckpoint id time =>
      cases edits
      have known := exists_of_record_iff (fun row => row.id = .text id) (fun _ => TenantRow.key_of_id) store.tenants
      simp only [Write.run, Write.change, advanceCheckpoint_eq, Store.record, known, RowChange.apply_tenant]
      split <;> rfl
  | bindResourceName id resourceName =>
      cases edits
      have known := exists_of_record_iff (fun row => row.id = .text id) (fun _ => TenantRow.key_of_id) store.tenants
      have unbound := exists_of_record_iff (fun row => row.id = .text id ∧ row.resourceName = .null)
        (fun _ named => TenantRow.key_of_id named.1) store.tenants
      simp only [Write.run, Write.change, bindResourceName_eq, Store.record, known, unbound, RowChange.apply_tenant]
      split
      · rfl
      · split <;> rfl
  | softDelete tenant name =>
      cases edits
      have active := exists_of_record_iff (DatabaseRow.HasActiveName tenant name)
        (fun _ => DatabaseRow.HasActiveName.key) store.databases
      simp only [Write.run, Write.change, softDelete_eq, Store.record, active, RowChange.apply_database]
      split <;> rfl
  | updateSegment update =>
      cases edits
      have known := exists_of_record_iff (fun row => row.segmentId = .ofIdentifier update.id)
        (fun _ => SegmentRow.key_of_id) store.segments
      have merges := forall_of_record_iff (fun row => row.segmentId = .ofIdentifier update.id)
        (fun row => (Store.updatedMetadata update row.metadata).isSome) (fun _ => SegmentRow.key_of_id) store.segments
      simp only [Write.run, Write.change, updateSegment_eq, Store.record, known, merges, RowChange.apply_segment]
      split
      · split <;> rfl
      · rfl
  | flushSegment collectionId flush =>
      cases edits
      have inside := exists_of_record_iff (SegmentRow.IsIn collectionId flush.id)
        (fun _ named => SegmentRow.key_of_id named.1) store.segments
      simp only [Write.run, Write.change, flushSegment_eq, Store.record, inside, RowChange.apply_segment]
      split <;> rfl
  | insertTenant | insertDatabase | finishDeletion | insertSegment | flushCollection => cases edits

def ServiceCall.IsEdit : ServiceCall → Prop
  | setTenantResourceName _ | setTenantLastCompactionTime _ | deleteDatabase _ | updateSegment _
  | flushSegmentCompaction _ => True
  | createTenant _ | getTenant _ | getTenantLastCompactionTimes _ | createDatabase _ | getDatabase _ | listDatabases _
  | finishDatabaseDeletion _ | createSegment _ | getSegments _ | flushCollectionCompaction _ => False

def TableCall.IsEdit : TableCall → Prop
  | advanceCheckpoint _ _ | bindResourceName _ _ | softDelete _ _ | updateSegment _ | flushSegment _ => True
  | insertTenant _ | listTenants | getTenant _ | checkpoints _ | insertDatabase _ | getDatabase _
  | getDatabaseByName _ _ | listDatabases _ _ _ | finishDeletion _ | insertSegment _ | getSegment _ | listSegments
  | flushCollection _ => False

def Operation.IsEdit : Operation → Prop
  | service call _ => call.IsEdit
  | table call => call.IsEdit
  | sweep _ _ | transaction _ _ | overwrite _ _ _ | migrate | close => False

def Write.table : Write → Table
  | insertTenant _ | advanceCheckpoint _ _ | bindResourceName _ _ => .tenants
  | insertDatabase _ | softDelete _ _ | finishDeletion _ => .databases
  | insertSegment _ | updateSegment _ | flushSegment _ _ | flushCollection _ => .segments

/-- The action comes to the same on every store, or it comes to what the edit makes of the store. -/
inductive Relays {α ε : Type} (circumstances : Circumstances) (write : Option Write)
    (action : ReaderT Circumstances (ExceptT ε (StateM Store)) α) : Prop where
  | barred (outcome : Except ε α) (unread : ∀ store, action circumstances store = (outcome, store))
      (cause : ∀ made ∈ write, circumstances.isOpen = false ∨ made.table ∈ circumstances.stalled)
  | relayed (made : Write) (makes : write = some made) (edits : made.record?.isSome = true)
      (reaches : made.table ∉ circumstances.stalled) (value : α) (tell : Failure → ε)
      (comes : ∀ store, action circumstances store =
        match made.run circumstances.now store with
        | .ok changed => (.ok value, changed)
        | .error failure => (.error (tell failure), store))

section Relays

variable {α β ε : Type} {circumstances : Circumstances}

theorem relays_of_valid (checked : Except Status α) (next : α → Service β) (write : α → Option Write)
    (relays : ∀ value, Relays circumstances (write value) (next value)) :
    Relays circumstances (checked.toOption.bind write) (Service.validated checked >>= next) := by
  cases checked with
  | error status => exact .barred (.error status) (fun _ => rfl) (fun _ impossible => nomatch impossible)
  | ok value => exact relays value

theorem relays_map {write : Option Write} {first : ReaderT Circumstances (ExceptT ε (StateM Store)) α}
    (relays : Relays circumstances write first) (result : α → β) :
    Relays circumstances write (first >>= fun value => pure (result value)) := by
  cases relays with
  | barred outcome unread cause =>
      refine .barred (outcome.map result) (fun store => ?_) cause
      rw [bind_run, unread]
      cases outcome <;> rfl
  | relayed made makes edits reaches value tell comes =>
      refine .relayed made makes edits reaches (result value) tell fun store => ?_
      rw [bind_run, comes]
      cases made.run circumstances.now store <;> rfl

theorem relays_write {change : Instant → Store → Except Failure Store} {write : Write}
    (edits : write.record?.isSome = true) (reaches : write.table ∉ circumstances.stalled)
    (same : ∀ now store, change now store = write.run now store) :
    Relays circumstances (some write) (Access.write change) := by
  by_cases opened : circumstances.isOpen = true
  · refine .relayed write rfl edits reaches () .failed fun store => ?_
    rw [Access.write, Access.statement, if_pos opened, same]
    cases write.run circumstances.now store <;> rfl
  · refine .barred (.error (.failed (.internal .store))) (fun store => ?_) fun _ _ => ?_
    · rw [Access.write, Access.statement, if_neg opened]
    · exact Or.inl (Bool.eq_false_iff.mpr opened)

theorem relays_writeTo {change : Instant → Store → Except Failure Store} {write : Write}
    (edits : write.record?.isSome = true) (same : ∀ now store, change now store = write.run now store) :
    Relays circumstances (some write) (writeTo write.table change) := by
  by_cases stalls : write.table ∈ circumstances.stalled
  · refine .barred (.error .stalled) (fun store => ?_) ?_
    · rw [writeTo, bind_run, Access.reach, if_pos (List.contains_iff_mem.mpr stalls)]
    · rintro made ⟨⟩
      exact Or.inr stalls
  · have reached (store : Store) : writeTo write.table change circumstances store =
        Access.write change circumstances store := by
      rw [writeTo, bind_run, Access.reach, if_neg (mt List.contains_iff_mem.mp stalls)]
    cases relays_write edits stalls same with
    | barred outcome unread cause => exact .barred outcome (fun store => (reached store).trans (unread store)) cause
    | relayed made makes edits reaches value tell comes =>
        exact .relayed made makes edits reaches value tell fun store => (reached store).trans (comes store)

theorem perform_eq_mapError (operation : String) (access : Access α) (store : Store) :
    Service.perform operation access circumstances store =
      ((access circumstances store).1.mapError (Interruption.status operation), (access circumstances store).2) := by
  unfold Service.perform
  rcases access circumstances store with ⟨outcome, after⟩
  cases outcome with
  | ok value => rfl
  | error interruption => cases interruption <;> rfl

theorem relays_perform {write : Option Write} {access : Access α} (relays : Relays circumstances write access)
    (operation : String) : Relays circumstances write (Service.perform operation access) := by
  cases relays with
  | barred outcome unread cause =>
      refine .barred (outcome.mapError (Interruption.status operation)) (fun store => ?_) cause
      rw [perform_eq_mapError, unread]
  | relayed made makes edits reaches value tell comes =>
      refine .relayed made makes edits reaches value (fun failure => (tell failure).status operation) fun store => ?_
      rw [perform_eq_mapError, comes]
      cases made.run circumstances.now store <;> rfl

end Relays

theorem relays_serviceCall {call : ServiceCall} (edits : call.IsEdit) (circumstances : Circumstances) :
    Relays circumstances (call.write? circumstances.now) call.run := by
  cases call with
  | setTenantResourceName request =>
      refine relays_map (relays_of_valid (required "id" request.id) _ (fun id =>
        (required "resource_name" request.resourceName).toOption.bind fun name => some (.bindResourceName id name))
        fun id => ?_) fun _ => Answer.done
      refine relays_of_valid (required "resource_name" request.resourceName) _ _ fun name => ?_
      exact relays_perform (relays_writeTo rfl fun _ _ => rfl) _
  | setTenantLastCompactionTime request =>
      refine relays_map (relays_of_valid (required "tenant_id" request.tenantId) _ (fun id => (requiredTime
        "last_compaction_time" request.lastCompactionTime).toOption.bind fun time => some (.advanceCheckpoint id time))
        fun id => ?_) fun _ => Answer.done
      refine relays_of_valid (requiredTime "last_compaction_time" request.lastCompactionTime) _ _ fun time => ?_
      exact relays_perform (relays_writeTo rfl fun _ _ => rfl) _
  | deleteDatabase request =>
      refine relays_map (relays_of_valid (requiredDatabaseName request.name) _ (fun name =>
        (required "tenant" request.tenant).toOption.bind fun tenant => some (.softDelete tenant name))
        fun name => ?_) fun _ => Answer.done
      refine relays_of_valid (required "tenant" request.tenant) _ _ fun tenant => ?_
      exact relays_perform (relays_writeTo rfl fun _ _ => rfl) _
  | updateSegment request =>
      refine relays_map (relays_of_valid (requiredCollectionId request) _ _ fun _ => ?_) fun _ => Answer.done
      exact relays_perform (relays_writeTo rfl fun _ _ => rfl) _
  | flushSegmentCompaction request =>
      refine relays_map (relays_of_valid (requiredRoles request) _ _ fun _ => ?_) fun _ => Answer.done
      exact relays_perform (relays_writeTo rfl fun _ _ => rfl) _
  | createTenant | getTenant | getTenantLastCompactionTimes | createDatabase | getDatabase | listDatabases
  | finishDatabaseDeletion | createSegment | getSegments | flushCollectionCompaction => exact edits.elim

theorem relays_tableCall {call : TableCall} (edits : call.IsEdit) (now : Instant) (isOpen : Bool) :
    Relays ⟨now, [], isOpen⟩ call.write? call.run := by
  cases call with
  | advanceCheckpoint | bindResourceName | softDelete | updateSegment | flushSegment =>
      exact relays_map (relays_write rfl List.not_mem_nil fun _ _ => rfl) fun _ => Answer.done
  | insertTenant | listTenants | getTenant | checkpoints | insertDatabase | getDatabase | getDatabaseByName
  | listDatabases | finishDeletion | insertSegment | getSegment | listSegments | flushCollection => exact edits.elim

/-! Steps that edit. -/

inductive Step.Relays (isOpen : Bool) (step : Step) : Prop where
  | barred (outcome : Outcome)
      (unread : ∀ store clock, step.perform ⟨store, isOpen, clock⟩ = (outcome, ⟨store, isOpen, step.clock⟩))
      (cause : ∀ made ∈ step.operation.write? step.clock, isOpen = false ∨ step.operation.Stalls made.table)
  | relayed (made : Write) (makes : step.operation.write? step.clock = some made)
      (edits : made.record?.isSome = true) (reaches : ¬step.operation.Stalls made.table) (done : Outcome)
      (tell : Failure → Outcome)
      (comes : ∀ store clock, step.perform ⟨store, isOpen, clock⟩ =
        match made.run step.clock store with
        | .ok changed => (done, ⟨changed, isOpen, step.clock⟩)
        | .error failure => (tell failure, ⟨store, isOpen, step.clock⟩))

def Interruption.outcome : Interruption → Outcome
  | failed failure => .failed failure
  | stalled => .stalled

theorem relays_step {step : Step} (edits : step.operation.IsEdit) (isOpen : Bool) : step.Relays isOpen := by
  rcases step with ⟨now, operation⟩
  cases operation with
  | service call stalled =>
      cases relays_serviceCall edits ⟨now, stalled, isOpen⟩ with
      | barred outcome unread cause =>
          refine .barred ((Session.mk .empty isOpen now).perform (.service call stalled)).1
            (fun store clock => ?_) cause
          simp only [Step.perform, Session.perform, Session.circumstances, unread]
          cases outcome <;> rfl
      | relayed made makes edits reaches answer tell comes =>
          refine .relayed made makes edits reaches (.answered answer) (fun failure => .refused (tell failure))
            fun store clock => ?_
          simp only [Step.perform, Session.perform, Session.circumstances, comes]
          cases made.run now store <;> rfl
  | table call =>
      cases relays_tableCall edits now isOpen with
      | barred outcome unread cause =>
          refine .barred ((Session.mk .empty isOpen now).perform (.table call)).1 (fun store clock => ?_) ?_
          · simp only [Step.perform, Session.perform, Session.circumstances, unread]
            rcases outcome with (failure | stalled) | answer <;> rfl
          · intro made makes
            exact (cause made makes).imp_right fun impossible => absurd impossible List.not_mem_nil
      | relayed made makes edits _ answer tell comes =>
          refine .relayed made makes edits id (.answered answer) (fun failure => (tell failure).outcome)
            fun store clock => ?_
          simp only [Step.perform, Session.perform, Session.circumstances, comes]
          cases made.run now store with
          | ok changed => rfl
          | error failure =>
              dsimp only
              cases tell failure <;> rfl
  | sweep | transaction | overwrite | migrate | close => exact edits.elim

def Step.record? (step : Step) : Option RecordKey := (step.operation.write? step.clock).bind Write.record?

def Step.IsApartFrom (first second : Step) : Prop := ∀ key ∈ first.record?, key ∉ second.record?

instance (first second : Step) : Decidable (first.IsApartFrom second) :=
  inferInstanceAs (Decidable (∀ key ∈ first.record?, key ∉ second.record?))

theorem Step.IsApartFrom.symm {first second : Step} (apart : first.IsApartFrom second) : second.IsApartFrom first :=
  fun key member same => apart key same member

theorem perform_edit {step : Step} (edits : step.operation.IsEdit) (session : Session) :
    ∃ outcome change, RowChange.IsOf change step.record? ∧
      ∀ store clock, (∀ key ∈ step.record?, store.record key = session.store.record key) →
        step.perform ⟨store, session.isOpen, clock⟩ = (outcome, ⟨change.apply store, session.isOpen, step.clock⟩) := by
  cases relays_step edits session.isOpen with
  | barred outcome unread =>
      refine ⟨outcome, {}, RowChange.isOf_nothing, fun store clock _ => ?_⟩
      rw [unread, RowChange.apply_nothing]
  | relayed made makes edits _ done tell comes =>
      obtain ⟨key, addressed⟩ := Option.isSome_iff_exists.mp edits
      have same : step.record? = made.record? := by rw [Step.record?, makes, Option.bind_some]
      have ran (store : Store) (agrees : ∀ key ∈ step.record?, store.record key = session.store.record key) :
          made.run step.clock store = (made.run step.clock (session.store.record key)).map fun _ =>
            (made.change step.clock).apply store := by
        rw [run_of_record addressed, agrees key (same.trans addressed)]
      cases result : made.run step.clock (session.store.record key) with
      | error failure =>
          refine ⟨tell failure, {}, RowChange.isOf_nothing, fun store clock agrees => ?_⟩
          rw [comes, ran store agrees, result, RowChange.apply_nothing]
          rfl
      | ok changed =>
          refine ⟨done, made.change step.clock, same ▸ isOf_change made step.clock, fun store clock agrees => ?_⟩
          rw [comes, ran store agrees, result]
          rfl

section Pairs

variable {first second : Step}

theorem outcome_perform_of_other (edits : first.operation.IsEdit) (follows : second.operation.IsEdit)
    (apart : first.IsApartFrom second) (session : Session) :
    (second.perform (first.perform session).2).1 = (second.perform session).1 := by
  obtain ⟨_, change, isOf, performs⟩ := perform_edit edits session
  obtain ⟨_, _, _, performsOther⟩ := perform_edit follows session
  have alone := performs session.store session.clock fun _ _ => rfl
  have otherAlone := performsOther session.store session.clock fun _ _ => rfl
  have otherAfter := performsOther (change.apply session.store) first.clock fun key member =>
    isOf.record_apply (apart.symm key member) session.store
  rw [alone, otherAlone, otherAfter]

theorem store_perform_comm (edits : first.operation.IsEdit) (follows : second.operation.IsEdit)
    (apart : first.IsApartFrom second) (session : Session) :
    (second.perform (first.perform session).2).2.store = (first.perform (second.perform session).2).2.store := by
  obtain ⟨_, change, isOf, performs⟩ := perform_edit edits session
  obtain ⟨_, later, isOfOther, performsOther⟩ := perform_edit follows session
  have alone := performs session.store session.clock fun _ _ => rfl
  have otherAlone := performsOther session.store session.clock fun _ _ => rfl
  have afterOther := performs (later.apply session.store) second.clock fun key member =>
    isOfOther.record_apply (apart key member) session.store
  have otherAfter := performsOther (change.apply session.store) first.clock fun key member =>
    isOf.record_apply (apart.symm key member) session.store
  rw [alone, otherAlone, afterOther, otherAfter]
  exact (isOf.apply_comm isOfOther apart session.store).symm

end Pairs

theorem Operation.IsEdit.isCall {operation : Operation} (edits : operation.IsEdit) : operation.IsCall := by
  cases operation with
  | service | table => trivial
  | sweep | transaction | overwrite | migrate | close => exact edits.elim

theorem store_after_congr {session other : Session} (store : session.store = other.store)
    (isOpen : session.isOpen = other.isOpen) (steps : List Step) :
    (session.after steps).store = (other.after steps).store := by
  rcases session with ⟨_, _, clock⟩
  cases store
  cases isOpen
  cases steps <;> rfl

theorem store_after_perm {steps others : List Step} (rearranged : steps.Perm others) :
    (∀ step ∈ steps, step.operation.IsEdit) → steps.Pairwise Step.IsApartFrom →
      ∀ session : Session, (session.after steps).store = (session.after others).store := by
  induction rearranged with
  | nil => exact fun _ _ _ => rfl
  | cons step _ ih =>
      intro edits apart session
      rw [Session.after_cons, Session.after_cons]
      exact ih (List.forall_mem_cons.mp edits).2 (List.pairwise_cons.mp apart).2 _
  | swap first second rest =>
      intro edits apart session
      rw [List.forall_mem_cons, List.forall_mem_cons] at edits
      have distinct := (List.pairwise_cons.mp apart).1 first List.mem_cons_self
      simp only [Session.after_cons]
      refine store_after_congr (store_perform_comm edits.1 edits.2.1 distinct session) ?_ rest
      simp only [Step.perform, isOpen_perform _ _ edits.1.isCall, isOpen_perform _ _ edits.2.1.isCall]
  | trans rearranged _ first second =>
      intro edits apart session
      refine (first edits apart session).trans (second ?_ ?_ session)
      · exact fun step member => edits step (rearranged.mem_iff.mpr member)
      · exact (rearranged.pairwise_iff fun distinct => distinct.symm).mp apart

/-- Two edits of different records, in either order: each is answered as it would be alone, with success or with the
same failure, and the store comes out the same. It does not matter what the store holds, or whether it is open. So any
number of edits of different records may be made in any order. -/
theorem edits_of_different_records_commute :
    (∀ (first second : Step) (session : Session), first.operation.IsEdit → second.operation.IsEdit →
      first.IsApartFrom second →
        (second.perform (first.perform session).2).1 = (second.perform session).1 ∧
          (first.perform (second.perform session).2).1 = (first.perform session).1 ∧
          (second.perform (first.perform session).2).2.store = (first.perform (second.perform session).2).2.store) ∧
    ∀ (steps others : List Step) (session : Session), (∀ step ∈ steps, step.operation.IsEdit) →
      steps.Pairwise Step.IsApartFrom → steps.Perm others →
        (session.after steps).store = (session.after others).store := by
  refine ⟨fun first second session edits follows apart => ⟨?_, ?_, ?_⟩, ?_⟩
  · exact outcome_perform_of_other edits follows apart session
  · exact outcome_perform_of_other follows edits apart.symm session
  · exact store_perform_comm edits follows apart session
  · exact fun steps others session edits apart rearranged => store_after_perm rearranged edits apart session

theorem edits_of_different_records_commute_neighbours :
    let session := (Session.start firstOfJune).after [⟨firstOfJune, .service (.createTenant ⟨"acme"⟩) []⟩,
      ⟨firstOfJune, .service (.createTenant ⟨"umbra"⟩) []⟩]
    let bind : Step := ⟨firstOfJune, .service (.setTenantResourceName ⟨" acme ", "pool"⟩) []⟩
    let advance : Step := ⟨firstOfJune, .table (.advanceCheckpoint "umbra" 7)⟩
    ((advance.perform (bind.perform session).2).1 = (advance.perform session).1 ∧
      (bind.perform (advance.perform session).2).1 = (bind.perform session).1 ∧
      (advance.perform (bind.perform session).2).2.store = (bind.perform (advance.perform session).2).2.store) ∧
    (session.after [bind, advance]).store.tenants.map (fun row => (row.resourceName, row.lastCompactionTime)) =
      [(.text "pool", .integer 0), (.null, .integer 7)] := by
  intro session bind advance
  refine ⟨edits_of_different_records_commute.1 bind advance session trivial trivial ?_, ?_⟩
  · decide +kernel
  · decide +kernel

end MetadataRegistry
