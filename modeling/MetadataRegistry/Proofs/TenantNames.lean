import MetadataRegistry.Proofs.Checkpoints
import MetadataRegistry.Proofs.Requests
import MetadataRegistry.Proofs.SegmentSearch
import MetadataRegistry.Proofs.ServiceAnswers

/-!
The name of a tenant in requests. A tenant is created under the trimmed name, and the calls that trim the name they
are given find it again under the text that it was created with. The call for several checkpoints does not trim, and
cuts a name at a NUL character; it finds the tenant again if the text is its own trim and has no such character.
-/

namespace MetadataRegistry

theorem mem_trimStart {character : Char} (visible : isBlank character = false) {characters : List Char}
    (member : character ∈ characters) : character ∈ trimStart characters := by
  rw [← List.takeWhile_append_dropWhile (p := isBlank) (l := characters), List.mem_append] at member
  rcases member with blank | rest
  · rw [List.mem_takeWhile_imp blank] at visible
    cases visible
  · exact rest

theorem mem_trimText {character : Char} (visible : isBlank character = false) {text : String}
    (member : character ∈ text.toList) : character ∈ (trimText text).toList := by
  rw [trimText_toList, trimCharacters, trimEnd, List.mem_reverse]
  exact mem_trimStart visible (List.mem_reverse.mpr (mem_trimStart visible member))

theorem nul_not_mem_upToNul (text : String) : '\x00' ∉ (Store.upToNul text).toList := by
  intro member
  rw [Store.upToNul, String.toList_ofList] at member
  exact absurd (List.mem_takeWhile_imp member) (by decide)

theorem upToNul_of_no_nul {text : String} (plain : '\x00' ∉ text.toList) : Store.upToNul text = text := by
  have whole : text.toList.takeWhile (· != '\x00') = text.toList :=
    List.takeWhile_eq_self_iff.mpr fun character member => bne_iff_ne.mpr fun same => plain (same ▸ member)
  rw [Store.upToNul, whole, String.ofList_toList]

theorem upToNul_eq_trimText_iff (text : String) :
    Store.upToNul text = trimText text ↔ trimText text = text ∧ '\x00' ∉ text.toList := by
  constructor
  · intro same
    have plain : '\x00' ∉ text.toList := by
      intro member
      refine nul_not_mem_upToNul text ?_
      rw [same]
      exact mem_trimText (by decide) member
    exact ⟨same.symm.trans (upToNul_of_no_nul plain), plain⟩
  · rintro ⟨trimmed, plain⟩
    rw [trimmed, upToNul_of_no_nul plain]

theorem exists_of_isSome_tenant? {id : String} {store : Store} (found : (store.tenant? id).isSome = true) :
    ∃ row ∈ store.tenants, row.id = .text id := by
  obtain ⟨row, present⟩ := Option.isSome_iff_exists.mp found
  exact ⟨row, mem_of_tenant? present, id_of_tenant? present⟩

theorem isSome_tenant?_of_did {id : String} {now : Instant} {write : Write} {before after : Store}
    (did : write.Did now before after) (found : (before.tenant? id).isSome = true) :
    (after.tenant? id).isSome = true := by
  obtain ⟨row, present⟩ := Option.isSome_iff_exists.mp found
  rw [tenant?_of_did id did, present]
  cases write <;> rfl

theorem isSome_tenant?_after {id : String} (steps : List Step) {session : Session}
    (ordinary : ∀ step ∈ steps, step.operation.IsOrdinary) (identified : session.store.HasIdentifiers)
    (found : (session.store.tenant? id).isSome = true) : ((session.after steps).store.tenant? id).isSome = true :=
  Session.store_after_keeps (fun store => (store.tenant? id).isSome = true) (fun _ _ _ => isSome_tenant?_of_did) steps
    session ordinary identified found

theorem tenant?_of_creation {raw : String} {stalled : List Table} {creation : Step} {session : Session}
    (creates : creation.operation = .service (.createTenant ⟨raw⟩) stalled)
    (success : ¬(creation.perform session).1.IsFailure) (identified : session.store.HasIdentifiers) :
    IsName (trimText raw) ∧ ((creation.perform session).2.store.tenant? (trimText raw)).isSome = true := by
  cases checked : required "name" raw with
  | error status =>
      refine absurd ?_ success
      simp only [Step.perform, creates, Session.perform, ServiceCall.run, createTenant, bind_run, Service.validated,
        checked]
      trivial
  | ok name =>
      obtain ⟨rfl, _⟩ := required_eq_ok_iff.mp checked
      have makes : creation.operation.write? creation.clock =
          some (.insertTenant (.create (trimText raw) creation.clock)) := by
        simp only [creates, Operation.write?, ServiceCall.write?, checked]
        rfl
      refine ⟨isName_of_required checked, ?_⟩
      rw [tenant?_of_did (trimText raw) (did_of_success makes success identified)]
      simp [Write.tenantAfter, Tenant.create]

def Finds {α : Type} (store : Store) (service : Service α) : Prop :=
  ∀ (now : Instant) (stalled : List Table) (status : Status),
    (service ⟨now, stalled, true⟩ store).1 = .error status → status.code ≠ .notFound

section Finding

variable {α β : Type} {store : Store}

theorem finds_valid {checked : Except Status α} {next : α → Service β} (checks : Checks checked)
    (finds : ∀ value, checked = .ok value → Finds store (next value)) :
    Finds store (Service.validated checked >>= next) := by
  intro now stalled status refused
  rw [bind_run] at refused
  cases checked with
  | ok value => exact finds value rfl now stalled status refused
  | error told =>
      cases refused
      rw [checks status rfl]
      exact nofun

theorem finds_now {next : Instant → Service α} (finds : ∀ now, Finds store (next now)) :
    Finds store (Service.now >>= next) :=
  fun now stalled status refused => finds now now stalled status refused

theorem finds_map {first : Service α} (finds : Finds store first) (result : α → β) :
    Finds store (first >>= fun value => pure (result value)) := by
  intro now stalled status refused
  rw [bind_run] at refused
  rcases done : first ⟨now, stalled, true⟩ store with ⟨outcome, after⟩
  rw [done] at refused
  cases outcome with
  | ok value => cases refused
  | error told =>
      cases refused
      exact finds now stalled status (by rw [done])

theorem finds_writing (operation : String) (table : Table) {change : Instant → Store → Except Failure Store}
    (present : ∀ now failure, change now store = .error failure → failure.isNotFound = false) :
    Finds store (Service.perform operation (writeTo table change)) := by
  intro now stalled status refused
  rw [Service.perform_writeTo_run] at refused
  split at refused
  · cases refused
    exact nofun
  · cases done : change now store with
    | ok after =>
        rw [done] at refused
        cases refused
    | error failure =>
        rw [done] at refused
        have found := present now failure done
        cases refused
        cases failure with
        | notFound => cases found
        | alreadyExists | alreadyBound | internal => exact nofun

end Finding

section Requests

variable {raw : String} {store : Store}

theorem finds_setTenantResourceName (found : (store.tenant? (trimText raw)).isSome = true) (resourceName : String) :
    Finds store (setTenantResourceName ⟨raw, resourceName⟩) := by
  refine finds_valid (checks_required _ _) fun id valid => finds_valid (checks_required _ _) fun name _ => ?_
  obtain ⟨rfl, _⟩ := required_eq_ok_iff.mp valid
  refine finds_writing _ .tenants fun now failure failed => ?_
  rw [bindResourceName_eq] at failed
  split at failed
  · cases failed
  · rw [if_pos (exists_of_isSome_tenant? found)] at failed
    cases failed
    rfl

theorem finds_setTenantLastCompactionTime (found : (store.tenant? (trimText raw)).isSome = true) (time : Int64) :
    Finds store (setTenantLastCompactionTime ⟨raw, time⟩) := by
  refine finds_valid (checks_required _ _) fun id valid => finds_valid (checks_requiredTime _ _) fun checked _ => ?_
  obtain ⟨rfl, _⟩ := required_eq_ok_iff.mp valid
  refine finds_writing _ .tenants fun now failure failed => ?_
  rw [advanceCheckpoint_eq, if_pos (exists_of_isSome_tenant? found)] at failed
  cases failed

theorem finds_createDatabase (found : (store.tenant? (trimText raw)).isSome = true) (id name : String) :
    Finds store (createDatabase ⟨id, name, raw⟩) := by
  refine finds_valid (checks_requiredDatabaseId _) fun parsed _ => ?_
  refine finds_valid (checks_requiredDatabaseName _) fun trimmed _ => ?_
  refine finds_valid (checks_required _ _) fun tenant valid => finds_now fun now => finds_map ?_ _
  obtain ⟨rfl, _⟩ := required_eq_ok_iff.mp valid
  refine finds_writing _ .databases fun later failure failed => ?_
  have known : ∃ row ∈ store.tenants, row.id = .text (Database.create parsed trimmed (trimText raw) now).tenant :=
    exists_of_isSome_tenant? found
  rw [insertDatabase_eq, if_pos known] at failed
  split at failed
  · cases failed
    rfl
  · split at failed <;> cases failed
    rfl

theorem setTenantLastCompactionTime_run (named : IsName (trimText raw))
    (found : (store.tenant? (trimText raw)).isSome = true) {time : Int64} (nonnegative : 0 ≤ time) (now : Instant)
    (stalled : List Table) :
    setTenantLastCompactionTime ⟨raw, time⟩ ⟨now, stalled, true⟩ store =
      if stalled.contains .tenants then (.error (.deadlineExceeded "set_tenant_last_compaction_time"), store)
      else (.ok (), { store with tenants := store.tenants.map (.advanced now (trimText raw) time) }) := by
  have valid : required "tenant_id" raw = .ok (trimText raw) := required_eq_ok_iff.mpr ⟨rfl, named.notEmpty⟩
  have validTime : requiredTime "last_compaction_time" time = .ok time := requiredTime_eq_ok_iff.mpr ⟨rfl, nonnegative⟩
  simp only [setTenantLastCompactionTime, bind_run, Service.validated, valid, validTime, Service.perform_writeTo_run,
    advanceCheckpoint_eq, if_pos (exists_of_isSome_tenant? found)]

end Requests

section Reading

variable {id : String} {store : Store} {now : Instant} {stalled : List Table}

theorem getTenant_of_isReadable (readable : store.withoutSegments.IsReadable)
    (found : (store.tenant? id).isSome = true) :
    ∃ tenant, tenant.id = id ∧ store.getTenant id = .ok (some tenant) := by
  obtain ⟨row, present⟩ := Option.isSome_iff_exists.mp found
  obtain ⟨tenant, read⟩ := readable.tenants row (mem_of_tenant? present)
  have named := (id_of_tenant read).symm.trans (id_of_tenant? present)
  refine ⟨tenant, Cell.text.inj named, ?_⟩
  simp only [getTenant_eq, present, read]
  rfl

theorem findTenant_run (prompt : Table.tenants ∉ stalled) {tenant : Tenant}
    (read : store.getTenant id = .ok (some tenant)) :
    findTenant id ⟨now, stalled, true⟩ store = (.ok tenant, store) := by
  have reaches : ¬stalled.contains .tenants = true := by simpa using prompt
  simp only [findTenant, bind_run, Access.reach, if_neg reaches, Access.query_run, read]
  rfl

theorem listTenantDatabases_run (prompt : Table.tenants ∉ stalled) (promptly : Table.databases ∉ stalled)
    {tenant : Tenant} (read : store.getTenant id = .ok (some tenant)) {limit offset : Option UInt32}
    {databases : List Database} (listed : store.listDatabases id limit offset = .ok databases) :
    listTenantDatabases id limit offset ⟨now, stalled, true⟩ store = (.ok databases, store) := by
  have reaches : ¬stalled.contains .databases = true := by simpa using promptly
  simp only [listTenantDatabases, bind_run, findTenant_run prompt read, Access.reach, if_neg reaches, Access.query_run,
    listed]

def Store.checkpointEntry (id : String) (store : Store) : List TenantCheckpoint :=
  ((store.checkpoint? id).map (TenantCheckpoint.mk id)).toList

theorem checkpoints_single (proper : store.IsProper) (raw : String) :
    store.checkpoints [raw] = .ok (store.checkpointEntry (Store.upToNul raw)) := by
  have wanted : store.tenants.filter (fun row => [raw].any fun id => row.id.same (.text (Store.upToNul id))) =
      (store.tenant? (Store.upToNul raw)).toList := by
    have condition : (fun row : TenantRow => [raw].any fun id => row.id.same (.text (Store.upToNul id))) =
        fun row => decide (row.id = .text (Store.upToNul raw)) := by
      funext row
      rw [List.any_cons, List.any_nil, Bool.or_false, Bool.eq_iff_iff, Cell.same_text_iff, decide_eq_true_iff]
    rw [condition]
    cases found : store.tenant? (Store.upToNul raw) with
    | none =>
        refine List.filter_eq_nil_iff.mpr fun row member named => ?_
        exact tenant?_eq_none.mp found ⟨row, member, of_decide_eq_true named⟩
    | some row =>
        rw [← id_of_tenant? found]
        exact filter_key_eq proper.integral.tenantIds (mem_of_tenant? found)
  simp only [Store.checkpoints, wanted, Store.checkpointEntry, Store.checkpoint?]
  cases found : store.tenant? (Store.upToNul raw) with
  | none =>
      simp only [sortRows, Option.toList_none, List.mergeSort_nil, List.mapM_nil]
      rfl
  | some row =>
      obtain ⟨tenant, rfl⟩ := proper.records.tenants row (mem_of_tenant? found)
      have named : Store.upToNul raw = tenant.id := (Cell.text.inj (id_of_tenant? found)).symm
      rw [named]
      simp only [sortRows, Option.toList_some, List.mergeSort_singleton, List.mapM_cons, List.mapM_nil]
      rfl

theorem checkpointEntry_eq_iff (proper : store.IsProper) {other : String} (found : (store.tenant? id).isSome = true) :
    (∃ time, store.checkpoint? id = some time ∧ store.checkpointEntry other = [⟨id, time⟩]) ↔ other = id := by
  constructor
  · rintro ⟨time, _, entry⟩
    obtain ⟨told, _, same⟩ := Option.map_eq_some_iff.mp (Option.toList_eq_singleton_iff.mp entry)
    exact congrArg TenantCheckpoint.tenantId same
  · rintro rfl
    obtain ⟨row, present⟩ := Option.isSome_iff_exists.mp found
    obtain ⟨tenant, rfl⟩ := proper.records.tenants row (mem_of_tenant? present)
    have stored : store.checkpoint? other = some tenant.lastCompactionTime := by
      rw [Store.checkpoint?, present]
      rfl
    exact ⟨tenant.lastCompactionTime, stored, by rw [Store.checkpointEntry, stored]; rfl⟩

theorem getTenantLastCompactionTimes_run (proper : store.IsProper) (raw : String) (prompt : Table.tenants ∉ stalled) :
    getTenantLastCompactionTimes [raw] ⟨now, stalled, true⟩ store =
      (.ok (store.checkpointEntry (Store.upToNul raw)), store) := by
  have reaches : ¬stalled.contains .tenants = true := by simpa using prompt
  simp only [getTenantLastCompactionTimes, Service.perform, bind_run, Access.reach, if_neg reaches, Access.checkpoints,
    List.isEmpty_cons, Bool.false_eq_true, if_false, Access.query_run, checkpoints_single proper]

end Reading

def Session.outcome (now : Instant) (stalled : List Table) (call : ServiceCall) (session : Session) : Outcome :=
  (Step.perform ⟨now, .service call stalled⟩ session).1

def Outcome.Misses (outcome : Outcome) : Prop := ∃ status, outcome = .refused status ∧ status.code = .notFound

section Outcomes

variable {call : ServiceCall} {session : Session} {now : Instant} {stalled : List Table}

theorem not_misses_of_finds (opened : session.isOpen = true) (finds : Finds session.store call.run) :
    ¬(session.outcome now stalled call).Misses := by
  rcases session with ⟨store, isOpen, clock⟩
  cases opened
  rintro ⟨status, refused, missing⟩
  simp only [Session.outcome, Step.perform, Session.perform, Session.circumstances] at refused
  rcases done : call.run ⟨now, stalled, true⟩ store with ⟨outcome, after⟩
  rw [done] at refused
  cases outcome with
  | ok answer => cases refused
  | error told =>
      cases refused
      exact finds now stalled status (by rw [done]) missing

theorem outcome_of_run (opened : session.isOpen = true) {answer : Answer}
    (answered : (call.run ⟨now, stalled, true⟩ session.store).1 = .ok answer) :
    session.outcome now stalled call = .answered answer := by
  rcases session with ⟨store, isOpen, clock⟩
  cases opened
  rcases done : call.run ⟨now, stalled, true⟩ store with ⟨outcome, after⟩
  simp only [done] at answered
  simp only [Session.outcome, Step.perform, Session.perform, Session.circumstances, done, answered]

theorem outcome_getTenant (opened : session.isOpen = true) {raw id : String} (valid : required "name" raw = .ok id)
    {tenant : Tenant} (read : session.store.getTenant id = .ok (some tenant)) (now : Instant) :
    session.outcome now [] (.getTenant ⟨raw⟩) = .answered (.tenant (some tenant)) := by
  refine outcome_of_run opened ?_
  simp only [ServiceCall.run, getTenant, bind_run, Service.validated, valid, Service.perform,
    findTenant_run List.not_mem_nil read]
  rfl

end Outcomes

/-- No call that is given the text as the name of a tenant misses the tenant of the trimmed name. -/
structure Session.FindsAgain (raw : String) (session : Session) : Prop where
  told : session.store.withoutSegments.IsReadable → ∀ now, ∃ tenant, tenant.id = trimText raw ∧
    session.outcome now [] (.getTenant ⟨raw⟩) = .answered (.tenant (some tenant))
  listed : session.store.withoutSegments.IsReadable → ∀ now limit offset, ∃ databases,
    session.outcome now [] (.listDatabases ⟨raw, limit, offset⟩) = .answered (.databases databases)
  bound : ∀ now stalled resourceName,
    ¬(session.outcome now stalled (.setTenantResourceName ⟨raw, resourceName⟩)).Misses
  reached : ∀ now stalled time, ¬(session.outcome now stalled (.setTenantLastCompactionTime ⟨raw, time⟩)).Misses
  advanced : ∀ now time, 0 ≤ time →
    session.outcome now [] (.setTenantLastCompactionTime ⟨raw, time⟩) = .answered .done
  created : ∀ now stalled id name, ¬(session.outcome now stalled (.createDatabase ⟨id, name, raw⟩)).Misses

theorem findsAgain_of_tenant? {raw : String} {session : Session} (opened : session.isOpen = true)
    (named : IsName (trimText raw)) (found : (session.store.tenant? (trimText raw)).isSome = true) :
    session.FindsAgain raw := by
  have valid (field : String) : required field raw = .ok (trimText raw) := required_eq_ok_iff.mpr ⟨rfl, named.notEmpty⟩
  constructor
  case told =>
    intro readable now
    obtain ⟨tenant, same, read⟩ := getTenant_of_isReadable readable found
    exact ⟨tenant, same, outcome_getTenant opened (valid "name") read now⟩
  case listed =>
    intro readable now limit offset
    obtain ⟨tenant, _, read⟩ := getTenant_of_isReadable readable found
    obtain ⟨databases, listed⟩ := reads_listDatabases readable (trimText raw) limit offset
    have listed : session.store.listDatabases (trimText raw) limit offset = .ok databases := listed
    refine ⟨databases, outcome_of_run opened ?_⟩
    simp only [ServiceCall.run, listDatabases, bind_run, Service.validated, valid, Service.perform,
      listTenantDatabases_run List.not_mem_nil List.not_mem_nil read listed]
    rfl
  case bound =>
    intro now stalled resourceName
    exact not_misses_of_finds opened (finds_map (finds_setTenantResourceName found resourceName) fun _ => Answer.done)
  case reached =>
    intro now stalled time
    exact not_misses_of_finds opened (finds_map (finds_setTenantLastCompactionTime found time) fun _ => Answer.done)
  case advanced =>
    intro now time nonnegative
    have set := setTenantLastCompactionTime_run named found nonnegative now []
    rw [if_neg (by decide)] at set
    refine outcome_of_run opened ?_
    simp only [ServiceCall.run, bind_run, set]
    rfl
  case created =>
    intro now stalled id name
    exact not_misses_of_finds opened
      (finds_map (finds_createDatabase found id name) fun database => Answer.database (some database))

/-- However a run goes on after a tenant is created under some text, every call that trims the name of a tenant finds
this one under the same text again. The call for several checkpoints reads the text otherwise: it tells the
checkpoint of the tenant whose name is the text up to a NUL character. This is the tenant that was created if and only
if the text has no blanks around it and no such character. -/
theorem tenant_is_found_again (clock : Instant) (earlier later : List Step) (creation : Step) (raw : String)
    (stalled : List Table) (calls : ∀ step ∈ earlier ++ creation :: later, step.operation.IsCall)
    (creates : creation.operation = .service (.createTenant ⟨raw⟩) stalled)
    (success : ¬(creation.perform ((Session.start clock).after earlier)).1.IsFailure) :
    let session := (creation.perform ((Session.start clock).after earlier)).2.after later
    let told := session.store.checkpointEntry (String.ofList (raw.toList.takeWhile (· != '\x00')))
    session.FindsAgain raw ∧
      (∀ now, session.outcome now [] (.getTenantLastCompactionTimes [raw]) = .answered (.checkpoints told)) ∧
      ((∃ time, session.store.checkpoint? (trimText raw) = some time ∧ told = [⟨trimText raw, time⟩]) ↔
        trimText raw = raw ∧ '\x00' ∉ raw.toList) := by
  intro session told
  rw [List.forall_mem_append, List.forall_mem_cons] at calls
  obtain ⟨before, call, after⟩ := calls
  have live := Session.isLive_after earlier (Session.start clock) before (isLive_start clock)
  have created := isLive_perform creation _ call live
  obtain ⟨opened, proper⟩ : session.IsLive := Session.isLive_after later _ after created
  obtain ⟨named, added⟩ := tenant?_of_creation creates success live.proper.records.hasIdentifiers
  have found : (session.store.tenant? (trimText raw)).isSome = true :=
    isSome_tenant?_after later (fun step member => (after step member).isOrdinary)
      created.proper.records.hasIdentifiers added
  refine ⟨findsAgain_of_tenant? opened named found, ?_, ?_⟩
  · intro now
    refine outcome_of_run opened ?_
    simp only [ServiceCall.run, bind_run, getTenantLastCompactionTimes_run proper raw List.not_mem_nil]
    rfl
  · rw [← upToNul_eq_trimText_iff]
    exact checkpointEntry_eq_iff proper found

def blankTenant : Step := ⟨firstOfJune, .service (.createTenant ⟨" acme "⟩) []⟩

theorem tenant_is_found_again_blankTenant :
    ((blankTenant.perform (Session.start firstOfJune)).2.after []).FindsAgain " acme " :=
  (tenant_is_found_again firstOfJune [] [] blankTenant " acme " [] (by decide) rfl (by decide +kernel)).1

theorem blankTenant_has_no_checkpoint :
    let session := (blankTenant.perform (Session.start firstOfJune)).2
    ¬(blankTenant.perform (Session.start firstOfJune)).1.IsFailure ∧ session.FindsAgain " acme " ∧
      session.outcome firstOfJune [] (.getTenantLastCompactionTimes [" acme "]) = .answered (.checkpoints []) := by
  intro session
  have live : session.IsLive := isLive_perform blankTenant _ trivial (isLive_start firstOfJune)
  have found : (session.store.tenant? (trimText " acme ")).isSome = true := by decide +kernel
  have empty : session.store.checkpointEntry (Store.upToNul " acme ") = [] := by decide +kernel
  refine ⟨by decide +kernel, findsAgain_of_tenant? live.isOpen ⟨by decide +kernel, by decide +kernel⟩ found, ?_⟩
  refine outcome_of_run live.isOpen ?_
  simp only [ServiceCall.run, bind_run, getTenantLastCompactionTimes_run live.proper " acme " List.not_mem_nil, empty]
  rfl

end MetadataRegistry
