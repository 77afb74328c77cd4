import MetadataRegistry.Proofs.Requests
import MetadataRegistry.Proofs.ServiceAnswers
import MetadataRegistry.Proofs.TenantRows

/-!
Deadlines. A call that reaches a stalled table ends at its deadline and has done nothing; a call that reaches none is
the call with no table stalled. Which tables a call reaches is settled by its kind, and for the two look-ups that can
reach a second table by what the first one holds. A request that is refused reaches none.
-/

namespace MetadataRegistry

def ServiceCall.operation : ServiceCall → String
  | createTenant _ => "create_tenant"
  | getTenant _ => "get_tenant"
  | setTenantResourceName _ => "set_tenant_resource_name"
  | setTenantLastCompactionTime _ => "set_tenant_last_compaction_time"
  | getTenantLastCompactionTimes _ => "get_tenant_last_compaction_times"
  | createDatabase _ => "create_database"
  | getDatabase _ => "get_database"
  | listDatabases _ => "list_databases"
  | deleteDatabase _ => "delete_database"
  | finishDatabaseDeletion _ => "finish_database_deletion"
  | createSegment _ => "create_segment"
  | getSegments _ => "get_segments"
  | updateSegment _ => "update_segment"
  | flushSegmentCompaction _ => "flush_segment_compaction"
  | flushCollectionCompaction _ => "flush_collection_compaction"

def ServiceCall.check : ServiceCall → Except Status Unit
  | createTenant request | getTenant request => do
      let _ ← required "name" request.name
      return
  | setTenantResourceName request => do
      let _ ← required "id" request.id
      let _ ← required "resource_name" request.resourceName
      return
  | setTenantLastCompactionTime request => do
      let _ ← required "tenant_id" request.tenantId
      let _ ← requiredTime "last_compaction_time" request.lastCompactionTime
      return
  | createDatabase request => do
      let _ ← requiredDatabaseId request.id
      let _ ← requiredDatabaseName request.name
      let _ ← required "tenant" request.tenant
      return
  | getDatabase request | deleteDatabase request => do
      let _ ← requiredDatabaseName request.name
      let _ ← required "tenant" request.tenant
      return
  | listDatabases request => do
      let _ ← required "tenant" request.tenant
      return
  | createSegment request => do
      let _ ← required "segment_type" request.segmentType
      let _ ← requiredSegmentIds request
      return
  | updateSegment request => do
      let _ ← requiredCollectionId request
      return
  | flushSegmentCompaction request => do
      let _ ← requiredRoles request
      return
  | flushCollectionCompaction request => do
      let _ ← required "tenant_id" request.tenantId
      let _ ← requiredTime "compaction_time" request.compactionTime
      let _ ← request.segments.forM requiredRoles
      return
  | getTenantLastCompactionTimes _ | finishDatabaseDeletion _ | getSegments _ => return

/-- The tables that a valid call reaches. The look-up of a database goes on to the tenants if there is no such active
database, and the list of databases goes on to the databases if the tenant is there and can be read. A closed store
ends either at its first table. -/
def ServiceCall.reached (session : Session) : ServiceCall → List Table
  | createTenant _ | getTenant _ | setTenantResourceName _ | setTenantLastCompactionTime _
  | getTenantLastCompactionTimes _ => [.tenants]
  | createDatabase _ | deleteDatabase _ | finishDatabaseDeletion _ => [.databases]
  | getDatabase request =>
      if session.isOpen ∧
          ¬∃ row ∈ session.store.databases, row.HasActiveName (trimText request.tenant) (trimText request.name) then
        [.databases, .tenants]
      else [.databases]
  | listDatabases request =>
      if session.isOpen ∧ (session.store.tenant? (trimText request.tenant)).any (·.tenant.isOk) then
        [.tenants, .databases]
      else [.tenants]
  | createSegment _ | getSegments _ | updateSegment _ | flushSegmentCompaction _ | flushCollectionCompaction _ =>
      [.segments]

/-! Actions that reach tables. -/

/-- If one of the tables is stalled, the action ends as exceeded and the store stays as it is. Other tables make no
difference, and if none is stalled the action does not end so. -/
structure Awaits {α ε : Type} (session : Session) (tables : List Table) (exceeded : ε)
    (action : ReaderT Circumstances (ExceptT ε (StateM Store)) α) : Prop where
  stalls : ∀ stalled, (∃ table ∈ tables, table ∈ stalled) →
    action (session.circumstances stalled) session.store = (.error exceeded, session.store)
  goesOn : ∀ stalled, (¬∃ table ∈ tables, table ∈ stalled) →
    action (session.circumstances stalled) session.store = action (session.circumstances []) session.store
  ends : (action (session.circumstances []) session.store).1 ≠ .error exceeded

section Steps

variable {α β ε : Type} {session : Session} {tables : List Table} {exceeded : ε}

theorem awaits_nothing {action : ReaderT Circumstances (ExceptT ε (StateM Store)) α}
    (same : ∀ stalled, action (session.circumstances stalled) session.store =
      action (session.circumstances []) session.store)
    (ends : (action (session.circumstances []) session.store).1 ≠ .error exceeded) :
    Awaits session [] exceeded action where
  stalls := fun _ ⟨_, impossible, _⟩ => nomatch impossible
  goesOn := fun stalled _ => same stalled
  ends := ends

theorem awaits_pure (value : α) :
    Awaits session [] exceeded (pure value : ReaderT Circumstances (ExceptT ε (StateM Store)) α) :=
  awaits_nothing (fun _ => rfl) nofun

theorem awaits_bind {first : ReaderT Circumstances (ExceptT ε (StateM Store)) α}
    {next : α → ReaderT Circumstances (ExceptT ε (StateM Store)) β} (awaits : Awaits session tables exceeded first)
    (same : ∀ value stalled store, next value (session.circumstances stalled) store =
      next value (session.circumstances []) store)
    (ends : ∀ value store, (next value (session.circumstances []) store).1 ≠ .error exceeded) :
    Awaits session tables exceeded (first >>= next) := by
  constructor
  · intro stalled hit
    rw [bind_run, awaits.stalls stalled hit]
  · intro stalled missed
    simp only [bind_run, awaits.goesOn stalled missed, same _ stalled]
  · have first := awaits.ends
    rw [bind_run]
    split
    · exact ends _ _
    · rename_i interruption _ done
      rw [done] at first
      intro exceeds
      cases exceeds
      exact first rfl

theorem awaits_map {first : ReaderT Circumstances (ExceptT ε (StateM Store)) α}
    (awaits : Awaits session tables exceeded first) (result : α → β) :
    Awaits session tables exceeded (first >>= fun value => pure (result value)) :=
  awaits_bind awaits (fun _ _ _ => rfl) fun _ _ => nofun

end Steps

theorem getDatabaseByName_eq_none_iff {tenant name : String} {store : Store} :
    store.getDatabaseByName tenant name = .ok none ↔
      ¬∃ row ∈ store.databases, row.HasActiveName tenant name := by
  unfold Store.getDatabaseByName
  split
  · rename_i missing
    refine iff_of_true rfl ?_
    rintro ⟨row, member, named⟩
    exact List.find?_eq_none.mp missing row member ((isActiveNamed_iff tenant name row).mpr named)
  · rename_i row found
    refine iff_of_false ?_ fun missing => missing ⟨row, List.mem_of_find?_eq_some found, ?_⟩
    · cases row.database <;> exact nofun
    · exact (isActiveNamed_iff tenant name row).mp (List.find?_some found)

theorem exists_getTenant_iff {id : String} {store : Store} :
    (∃ tenant, store.getTenant id = .ok (some tenant)) ↔ (store.tenant? id).any (·.tenant.isOk) = true := by
  rw [getTenant_eq]
  cases store.tenant? id with
  | none => simp
  | some row => cases read : row.tenant <;> simp [read, Except.map, Except.isOk, Except.toBool]

section Accesses

variable {α β : Type} {session : Session} {tables : List Table}

theorem reach_run (table : Table) (stalled : List Table) (store : Store) :
    Access.reach table (session.circumstances stalled) store =
      if table ∈ stalled then (.error .stalled, store) else (.ok (), store) := by
  simp only [Access.reach, Session.circumstances, List.contains_iff_mem]

theorem awaits_reach {table : Table} {next : Unit → Access α} (awaits : Awaits session tables .stalled (next ())) :
    Awaits session (table :: tables) .stalled (Access.reach table >>= next) := by
  constructor
  · intro stalled hit
    rw [bind_run, reach_run]
    by_cases stalls : table ∈ stalled
    · rw [if_pos stalls]
    · rw [if_neg stalls]
      exact awaits.stalls stalled (by simpa [stalls] using hit)
  · intro stalled missed
    simp only [List.mem_cons, exists_eq_or_imp, not_or] at missed
    rw [bind_run, bind_run, reach_run, reach_run, if_neg missed.1, if_neg List.not_mem_nil]
    exact awaits.goesOn stalled missed.2
  · rw [bind_run, reach_run, if_neg List.not_mem_nil]
    exact awaits.ends

theorem awaits_statement (run : Instant → Store → Except Failure α × Store) :
    Awaits session [] .stalled (Access.statement run) := by
  refine awaits_nothing (fun _ => rfl) ?_
  unfold Access.statement
  split
  · split <;> exact nofun
  · exact nofun

theorem awaits_fail (failure : Failure) : Awaits session [] .stalled (Access.fail failure : Access α) :=
  awaits_nothing (fun _ => rfl) nofun

theorem awaits_query {read : Store → Except Failure α} {value : α} {next : α → Access β}
    (opened : session.isOpen = true) (found : read session.store = .ok value)
    (awaits : Awaits session tables .stalled (next value)) :
    Awaits session tables .stalled (Access.query read >>= next) := by
  have runs (stalled : List Table) : (Access.query read >>= next) (session.circumstances stalled) session.store =
      next value (session.circumstances stalled) session.store := by
    simp only [bind_run, Session.circumstances, opened, Access.query_run, found]
  constructor
  · exact fun stalled hit => (runs stalled).trans (awaits.stalls stalled hit)
  · exact fun stalled missed => (runs stalled).trans ((awaits.goesOn stalled missed).trans (runs []).symm)
  · rw [runs []]
    exact awaits.ends

theorem awaits_unanswered {read : Store → Except Failure α} {next : α → Access β}
    (silent : ∀ value, session.isOpen = true → read session.store ≠ .ok value) :
    Awaits session [] .stalled (Access.query read >>= next) := by
  have fails : ∃ failure, ∀ stalled, (Access.query read >>= next) (session.circumstances stalled) session.store =
      (.error (.failed failure), session.store) := by
    cases opened : session.isOpen with
    | false =>
        refine ⟨.internal .store, fun stalled => ?_⟩
        simp only [bind_run, Session.circumstances, opened, Access.query, Access.statement, Bool.false_eq_true,
          if_false]
    | true =>
        cases found : read session.store with
        | ok value => exact absurd found (silent value opened)
        | error failure =>
            refine ⟨failure, fun stalled => ?_⟩
            simp only [bind_run, Session.circumstances, opened, Access.query_run, found]
  obtain ⟨failure, runs⟩ := fails
  refine awaits_nothing (fun stalled => (runs stalled).trans (runs []).symm) ?_
  rw [runs []]
  intro exceeds
  cases exceeds

theorem awaits_writeTo (table : Table) (change : Instant → Store → Except Failure Store) :
    Awaits session [table] .stalled (writeTo table change) :=
  awaits_reach (awaits_statement _)

theorem awaits_findTenant (id : String) : Awaits session [.tenants] .stalled (findTenant id) := by
  refine awaits_reach ?_
  by_cases answered : session.isOpen = true ∧ ∃ found, session.store.getTenant id = .ok found
  · obtain ⟨opened, found, read⟩ := answered
    refine awaits_query opened read ?_
    cases found with
    | some tenant => exact awaits_pure tenant
    | none => exact awaits_fail _
  · exact awaits_unanswered fun found opened read => answered ⟨opened, found, read⟩

theorem awaits_findDatabase (tenant name : String) :
    Awaits session
      (if session.isOpen ∧ ¬∃ row ∈ session.store.databases, row.HasActiveName tenant name then [.databases, .tenants]
        else [.databases])
      .stalled (findDatabase tenant name) := by
  by_cases answered : session.isOpen = true ∧ ∃ found, session.store.getDatabaseByName tenant name = .ok found
  · obtain ⟨opened, found, read⟩ := answered
    cases found with
    | none =>
        rw [if_pos ⟨opened, getDatabaseByName_eq_none_iff.mp read⟩]
        exact awaits_reach (awaits_query opened read
          (awaits_bind (awaits_findTenant tenant) (fun _ _ _ => rfl) fun _ _ => nofun))
    | some database =>
        rw [if_neg]
        · exact awaits_reach (awaits_query opened read (awaits_pure database))
        · rintro ⟨_, missing⟩
          cases read.symm.trans (getDatabaseByName_eq_none_iff.mpr missing)
  · rw [if_neg fun ⟨opened, missing⟩ => answered ⟨opened, none, getDatabaseByName_eq_none_iff.mpr missing⟩]
    exact awaits_reach (awaits_unanswered fun found opened read => answered ⟨opened, found, read⟩)

theorem awaits_listTenantDatabases (id : String) (limit offset : Option UInt32) :
    Awaits session
      (if session.isOpen ∧ (session.store.tenant? id).any (·.tenant.isOk) then [.tenants, .databases] else [.tenants])
      .stalled (listTenantDatabases id limit offset) := by
  simp only [listTenantDatabases, findTenant, bind_assoc]
  by_cases known : session.isOpen = true ∧ ∃ tenant, session.store.getTenant id = .ok (some tenant)
  · obtain ⟨opened, tenant, read⟩ := known
    rw [if_pos ⟨opened, exists_getTenant_iff.mp ⟨tenant, read⟩⟩]
    exact awaits_reach (awaits_query opened read (awaits_reach (awaits_statement _)))
  · rw [if_neg fun ⟨opened, readable⟩ => known ⟨opened, exists_getTenant_iff.mpr readable⟩]
    refine awaits_reach ?_
    -- Without the tenant the call ends here, be it that there is none or that its row cannot be read.
    by_cases missing : session.isOpen = true ∧ session.store.getTenant id = .ok none
    · exact awaits_query missing.1 missing.2 (awaits_fail (.notFound "tenant" id))
    · refine awaits_unanswered fun found opened read => ?_
      cases found with
      | some tenant => exact known ⟨opened, tenant, read⟩
      | none => exact missing ⟨opened, read⟩

theorem awaits_checkpoints (ids : List String) : Awaits session [] .stalled (Access.checkpoints ids) := by
  unfold Access.checkpoints
  split
  · exact awaits_pure []
  · exact awaits_statement _

theorem awaits_segmentCandidates (id : Option SegmentId) :
    Awaits session [.segments] .stalled (segmentCandidates id) := by
  refine awaits_reach ?_
  cases id with
  | some id => exact awaits_map (awaits_statement _) Option.toList
  | none => exact awaits_statement _

end Accesses

/-! Calls of the service. -/

/-- A service whose check refuses the request does nothing more, and one whose check lets it through reaches the
tables under the name of its operation. -/
structure Guards {α : Type} (session : Session) (check : Except Status Unit) (operation : String)
    (tables : List Table) (service : Service α) : Prop where
  refuses : ∀ status, check = .error status → ∀ stalled,
    service (session.circumstances stalled) session.store = (.error status, session.store)
  admits : check = .ok () → Awaits session tables (.deadlineExceeded operation) service

section Services

variable {α β : Type} {session : Session} {operation : String} {tables : List Table}

theorem guards_perform {access : Access α} (awaits : Awaits session tables .stalled access) :
    Guards session (.ok ()) operation tables (Service.perform operation access) := by
  refine ⟨?_, fun _ => ⟨?_, ?_, ?_⟩⟩
  · intro status refused
    cases refused
  · intro stalled hit
    simp only [Service.perform, awaits.stalls stalled hit]
  · intro stalled missed
    simp only [Service.perform, awaits.goesOn stalled missed]
  · have ends := awaits.ends
    unfold Service.perform
    intro exceeds
    split at exceeds
    · cases exceeds
    · rename_i failure _ _
      cases failure <;> cases exceeds
    · rename_i done
      rw [done] at ends
      exact absurd rfl ends

theorem guards_valid {checked : Except Status α} {rest : α → Except Status Unit} {next : α → Service β}
    (guards : ∀ value, checked = .ok value → Guards session (rest value) operation tables (next value)) :
    Guards session (checked >>= rest) operation tables (Service.validated checked >>= next) := by
  cases checked with
  | ok value => exact guards value rfl
  | error status =>
      refine ⟨fun told same stalled => ?_, nofun⟩
      cases same
      rfl

theorem guards_now {check : Except Status Unit} {next : Instant → Service α}
    (guards : Guards session check operation tables (next session.clock)) :
    Guards session check operation tables (Service.now >>= next) where
  refuses := guards.refuses
  admits := fun valid => ⟨(guards.admits valid).stalls, (guards.admits valid).goesOn, (guards.admits valid).ends⟩

theorem guards_map {check : Except Status Unit} {service : Service α}
    (guards : Guards session check operation tables service) (result : α → β) :
    Guards session check operation tables (service >>= fun value => pure (result value)) where
  refuses := by
    intro status refused stalled
    rw [bind_run, guards.refuses status refused stalled]
  admits := fun valid => awaits_map (guards.admits valid) result

theorem guards_serviceCall (session : Session) (call : ServiceCall) :
    Guards session call.check call.operation (call.reached session) call.run := by
  cases call with
  | createTenant request =>
      refine guards_map (guards_valid fun name _ => guards_now (guards_map (guards_perform ?_) _)) _
      exact awaits_writeTo _ _
  | getTenant request =>
      refine guards_map (guards_valid fun name _ => guards_perform ?_) _
      exact awaits_findTenant name
  | setTenantResourceName request =>
      refine guards_map (guards_valid fun id _ => guards_valid fun resourceName _ => guards_perform ?_) _
      exact awaits_writeTo _ _
  | setTenantLastCompactionTime request =>
      refine guards_map (guards_valid fun id _ => guards_valid fun time _ => guards_perform ?_) _
      exact awaits_writeTo _ _
  | getTenantLastCompactionTimes ids =>
      refine guards_map (guards_perform (awaits_reach ?_)) _
      exact awaits_checkpoints ids
  | createDatabase request =>
      refine guards_map (guards_valid fun id _ => guards_valid fun name _ => guards_valid fun tenant _ =>
        guards_now (guards_map (guards_perform ?_) _)) _
      exact awaits_writeTo _ _
  | getDatabase request =>
      refine guards_map (guards_valid fun name named => guards_valid fun tenant owned => guards_perform ?_) _
      cases (requiredDatabaseName_eq_ok_iff.mp named).1
      cases (required_eq_ok_iff.mp owned).1
      exact awaits_findDatabase _ _
  | listDatabases request =>
      refine guards_map (guards_valid fun tenant owned => guards_perform ?_) _
      cases (required_eq_ok_iff.mp owned).1
      exact awaits_listTenantDatabases _ _ _
  | deleteDatabase request =>
      refine guards_map (guards_valid fun name _ => guards_valid fun tenant _ => guards_perform ?_) _
      exact awaits_writeTo _ _
  | finishDatabaseDeletion request =>
      refine guards_map (guards_perform (awaits_reach ?_)) _
      exact awaits_statement _
  | createSegment request =>
      refine guards_map (guards_valid fun segmentType _ => guards_valid fun _ _ =>
        guards_now (guards_map (guards_perform ?_) _)) _
      exact awaits_writeTo _ _
  | getSegments request =>
      refine guards_map (guards_map (guards_perform ?_) _) _
      exact awaits_segmentCandidates _
  | updateSegment request =>
      refine guards_map (guards_valid fun _ _ => guards_perform ?_) _
      exact awaits_writeTo _ _
  | flushSegmentCompaction request =>
      refine guards_map (guards_valid fun _ _ => guards_perform ?_) _
      exact awaits_writeTo _ _
  | flushCollectionCompaction request =>
      refine guards_map (guards_valid fun tenantId _ => guards_valid fun time _ => guards_valid fun _ _ =>
        guards_perform ?_) _
      rw [Access.flushCollection_eq_write]
      exact awaits_writeTo _ _

end Services

theorem checks_serviceCall (call : ServiceCall) : Checks call.check := by
  cases call with
  | createTenant | getTenant | listDatabases => exact checks_bind (checks_required _ _) fun _ => checks_ok ()
  | setTenantResourceName =>
      exact checks_bind (checks_required _ _) fun _ => checks_bind (checks_required _ _) fun _ => checks_ok ()
  | setTenantLastCompactionTime =>
      exact checks_bind (checks_required _ _) fun _ => checks_bind (checks_requiredTime _ _) fun _ => checks_ok ()
  | createDatabase =>
      exact checks_bind (checks_requiredDatabaseId _) fun _ => checks_bind (checks_requiredDatabaseName _) fun _ =>
        checks_bind (checks_required _ _) fun _ => checks_ok ()
  | getDatabase | deleteDatabase =>
      exact checks_bind (checks_requiredDatabaseName _) fun _ => checks_bind (checks_required _ _) fun _ => checks_ok ()
  | createSegment request =>
      exact checks_bind (checks_required _ _) fun _ => checks_bind (checks_requiredSegmentIds request) fun _ =>
        checks_ok ()
  | updateSegment request => exact checks_bind (checks_requiredCollectionId request) fun _ => checks_ok ()
  | flushSegmentCompaction request => exact checks_bind (checks_requiredRoles request) fun _ => checks_ok ()
  | flushCollectionCompaction =>
      exact checks_bind (checks_required _ _) fun _ => checks_bind (checks_requiredTime _ _) fun _ =>
        checks_bind (checks_forM checks_requiredRoles _) fun _ => checks_ok ()
  | getTenantLastCompactionTimes | finishDatabaseDeletion | getSegments => exact checks_ok ()

/-- A stalled table makes a call exceed its deadline, or makes no difference. A request that fails its checks is
refused as an invalid argument, whatever is stalled. A valid call exceeds its deadline exactly if it reaches a stalled
table, and the store is then as it was; otherwise it answers and changes the store as if none were stalled. -/
theorem stalls_only_exceed_deadlines (session : Session) (call : ServiceCall) (stalled : List Table) :
    match call.check with
    | .error status =>
        status.code = .invalidArgument ∧ session.perform (.service call stalled) = (.refused status, session)
    | .ok () =>
        let exceeded : Outcome := .refused ⟨.deadlineExceeded, s!"{call.operation} exceeded its deadline"⟩
        ((session.perform (.service call stalled)).1 = exceeded ↔ ∃ table ∈ call.reached session, table ∈ stalled) ∧
          if ∃ table ∈ call.reached session, table ∈ stalled then
            session.perform (.service call stalled) = (exceeded, session)
          else session.perform (.service call stalled) = session.perform (.service call []) := by
  have guards := guards_serviceCall session call
  cases checked : call.check with
  | error status =>
      refine ⟨checks_serviceCall call status checked, ?_⟩
      simp only [Session.perform, guards.refuses status checked stalled]
  | ok =>
      have awaits := guards.admits checked
      let exceeded : Outcome := .refused ⟨.deadlineExceeded, s!"{call.operation} exceeded its deadline"⟩
      dsimp only
      by_cases hit : ∃ table ∈ call.reached session, table ∈ stalled
      · have ended : session.perform (.service call stalled) = (exceeded, session) := by
          simp only [Session.perform, awaits.stalls stalled hit]
          rfl
        rw [if_pos hit, ended]
        exact ⟨iff_of_true rfl hit, rfl⟩
      · have same : session.perform (.service call stalled) = session.perform (.service call []) := by
          simp only [Session.perform, awaits.goesOn stalled hit]
        rw [if_neg hit, same]
        -- What is left is that a call with nothing stalled never ends at its deadline.
        refine ⟨iff_of_false ?_ hit, rfl⟩
        have ends := awaits.ends
        rcases done : call.run (session.circumstances []) session.store with ⟨outcome, after⟩
        rw [done] at ends
        simp only [Session.perform, done]
        intro told
        cases outcome with
        | ok answer => cases told
        | error status =>
            cases told
            exact ends rfl

end MetadataRegistry
