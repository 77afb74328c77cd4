import MetadataRegistry.Proofs.DatabaseCreation
import MetadataRegistry.Proofs.Deadlines
import MetadataRegistry.Proofs.NormalForm

/-!
Looking up databases. The service looks for the database first, and for its tenant only if there is no such database.
Since every database refers to a tenant, and no tenant goes away, this tells what a look-up of the tenant before the
database would tell.
-/

namespace MetadataRegistry

def findDatabaseOfTenant (tenant name : String) : Access Database := do
  let _ ← findTenant tenant
  Access.reach .databases
  match ← Access.query (Store.getDatabaseByName tenant name) with
  | some found => return found
  | none => Access.fail (.notFound "database" s!"{tenant}/{name}")

def getDatabaseOfTenant (request : DatabaseKey) : Service Database := do
  let name ← Service.validated (requiredDatabaseName request.name)
  let tenant ← Service.validated (required "tenant" request.tenant)
  Service.perform "get_database" (findDatabaseOfTenant tenant name)

def Write.withoutSegments? : Write → Option Write
  | insertSegment _ | updateSegment _ | flushSegment _ _ => none
  | flushCollection flush => some (.advanceCheckpoint flush.tenantId flush.compactionTime)
  | insertTenant tenant => some (.insertTenant tenant)
  | advanceCheckpoint id time => some (.advanceCheckpoint id time)
  | bindResourceName id resourceName => some (.bindResourceName id resourceName)
  | insertDatabase database => some (.insertDatabase database)
  | softDelete tenant name => some (.softDelete tenant name)
  | finishDeletion cutoff => some (.finishDeletion cutoff)

theorem did_withoutSegments {now : Instant} {write : Write} {before after : Store} (did : write.Did now before after) :
    match write.withoutSegments? with
    | none => after.withoutSegments = before.withoutSegments
    | some part => part.Did now before.withoutSegments after.withoutSegments := by
  cases write with
  | insertSegment | flushSegment =>
      obtain ⟨_, rfl⟩ := did
      rfl
  | updateSegment =>
      obtain ⟨_, _, rfl⟩ := did
      rfl
  | flushCollection flush =>
      obtain ⟨covered, rfl⟩ := did
      exact ⟨covered.2, rfl⟩
  | insertTenant | advanceCheckpoint | bindResourceName | softDelete =>
      obtain ⟨found, rfl⟩ := did
      exact ⟨found, rfl⟩
  | insertDatabase =>
      obtain ⟨short, free, known, rfl⟩ := did
      exact ⟨short, free, known, rfl⟩
  | finishDeletion =>
      obtain ⟨kept, sublist, valid, rfl⟩ := did
      exact ⟨kept, sublist, valid, rfl⟩

theorem ServiceCall.Writes.readsBack_withoutSegments {now : Instant} {call : ServiceCall} {write : Write}
    (writes : call.Writes now write) (inYears : now.HasStoredYear) :
    ∀ part ∈ write.withoutSegments?, part.ReadsBack now := by
  cases writes with
  | createTenant =>
      rintro part ⟨⟩
      exact ⟨inYears, inYears⟩
  | createDatabase =>
      rintro part ⟨⟩
      exact ⟨inYears, inYears, fun _ impossible => nomatch impossible⟩
  | setTenantResourceName | setTenantLastCompactionTime | deleteDatabase | flushCollectionCompaction =>
      rintro part ⟨⟩
      exact inYears
  | finishDatabaseDeletion =>
      rintro part ⟨⟩
      trivial
  | createSegment | updateSegment | flushSegmentCompaction =>
      exact fun _ impossible => nomatch impossible

theorem isReadable_withoutSegments_of_did {now : Instant} {write : Write} {before after : Store}
    (did : write.Did now before after) (back : ∀ part ∈ write.withoutSegments?, part.ReadsBack now)
    (readable : before.withoutSegments.IsReadable) : after.withoutSegments.IsReadable := by
  have parts := did_withoutSegments did
  cases part : write.withoutSegments? with
  | none =>
      simp only [part] at parts
      exact parts ▸ readable
  | some made =>
      simp only [part] at parts
      exact (isReadable_iff_of_did readable parts).mpr (back made part)

theorem isReadable_withoutSegments_after (clock : Instant) (steps : List Step)
    (offered : ∀ step ∈ steps, step.operation.IsOffered) (inYears : ∀ step ∈ steps, step.clock.HasStoredYear) :
    ((Session.start clock).after steps).store.withoutSegments.IsReadable := by
  refine Session.store_after_keeps_of_single (fun store => store.withoutSegments.IsReadable)
    (fun step => step.operation.IsOffered ∧ step.clock.HasStoredYear) (fun _ admitted => admitted.1.isSingle) ?_ steps
    (Session.start clock) (fun step member => ⟨offered step member, inYears step member⟩) hasIdentifiers_empty
    isReadable_empty
  rintro step write before after ⟨offered, inYears⟩ makes did readable
  refine isReadable_withoutSegments_of_did did ?_ readable
  rcases offered.writes makes with ⟨call, _, _, writes⟩ | ⟨cutoff, rfl⟩
  · exact writes.readsBack_withoutSegments inYears
  · rintro part ⟨⟩
    trivial

structure Store.Knows (store : Store) (tenant name : String) (owner : Option Tenant) (found : Option Database) :
    Prop where
  ownerRead : store.getTenant tenant = .ok owner
  foundRead : store.getDatabaseByName tenant name = .ok found
  owned : found.isSome = true → owner.isSome = true

def lookedUp (tenant name : String) : Option Tenant → Option Database → Except Failure Database
  | _, some found => .ok found
  | some _, none => .error (.notFound "database" s!"{tenant}/{name}")
  | none, none => .error (.notFound "tenant" tenant)

section Lookups

variable {store : Store} {tenant name : String} {owner : Option Tenant} {found : Option Database} {now : Instant}

theorem getTenant_eq_none_iff : store.getTenant tenant = .ok none ↔ ¬∃ row ∈ store.tenants, row.id = .text tenant := by
  rw [← tenant?_eq_none, getTenant_eq]
  cases store.tenant? tenant with
  | none => exact iff_of_true rfl rfl
  | some row => cases read : row.tenant <;> simp [read, Except.map]

theorem exists_knows (integral : store.Integral) (readable : store.withoutSegments.IsReadable) (tenant name : String) :
    ∃ owner found, store.Knows tenant name owner found := by
  obtain ⟨owner, tenantRead⟩ := reads_getTenant readable tenant
  obtain ⟨found, databaseRead⟩ := reads_getDatabaseByName readable tenant name
  refine ⟨owner, found, tenantRead, databaseRead, fun present => ?_⟩
  have active : ∃ row ∈ store.databases, row.HasActiveName tenant name := by
    by_contra missing
    cases (getDatabaseByName_eq_none_iff.mpr missing).symm.trans databaseRead
    cases present
  obtain ⟨row, member, owned, _⟩ := active
  obtain ⟨known, stored, same⟩ := integral.references row member
  by_contra absent
  rw [Option.not_isSome_iff_eq_none] at absent
  cases absent
  exact getTenant_eq_none_iff.mp tenantRead ⟨known, stored, same.symm.trans owned⟩

theorem findTenant_of_getTenant (read : store.getTenant tenant = .ok owner) :
    findTenant tenant ⟨now, [], true⟩ store =
      ((match owner with
        | some found => .ok found
        | none => .error (.failed (.notFound "tenant" tenant))), store) := by
  simp only [findTenant, bind_run, Access.reach, List.contains_nil, Bool.false_eq_true, if_false, Access.query_run,
    read]
  cases owner <;> rfl

theorem findDatabase_of_knows (knows : store.Knows tenant name owner found) :
    findDatabase tenant name ⟨now, [], true⟩ store =
      ((lookedUp tenant name owner found).mapError .failed, store) := by
  simp only [findDatabase, bind_run, Access.reach, List.contains_nil, Bool.false_eq_true, if_false, Access.query_run,
    knows.foundRead]
  cases found with
  | some database => rfl
  | none =>
      simp only [bind_run, findTenant_of_getTenant knows.ownerRead]
      cases owner <;> rfl

/-- Without its tenant there is no database, so nothing is lost by asking for the tenant first. -/
theorem findDatabaseOfTenant_of_knows (knows : store.Knows tenant name owner found) :
    findDatabaseOfTenant tenant name ⟨now, [], true⟩ store =
      ((lookedUp tenant name owner found).mapError .failed, store) := by
  simp only [findDatabaseOfTenant, bind_run, findTenant_of_getTenant knows.ownerRead]
  cases owner with
  | some owner =>
      simp only [Access.reach, List.contains_nil, Bool.false_eq_true, if_false, Access.query_run, knows.foundRead]
      cases found <;> rfl
  | none =>
      -- Without its tenant there is no database, so nothing is lost by asking for the tenant first.
      cases found with
      | some database => exact absurd (knows.owned rfl) Bool.noConfusion
      | none => rfl

theorem getDatabase_eq_getDatabaseOfTenant (integral : store.Integral) (readable : store.withoutSegments.IsReadable)
    (request : DatabaseKey) (now : Instant) :
    getDatabase request ⟨now, [], true⟩ store = getDatabaseOfTenant request ⟨now, [], true⟩ store := by
  simp only [getDatabase, getDatabaseOfTenant, Service.validated_bind_run]
  cases requiredDatabaseName request.name with
  | error status => rfl
  | ok name =>
      cases required "tenant" request.tenant with
      | error status => rfl
      | ok tenant =>
          obtain ⟨owner, found, knows⟩ := exists_knows integral readable tenant name
          simp only [Service.perform, findDatabase_of_knows knows, findDatabaseOfTenant_of_knows knows]

end Lookups

section Outcomes

variable {session : Session} {tenant name : String} {owner : Option Tenant} {found : Option Database} {now : Instant}

theorem outcome_of_refusal {call : ServiceCall} {stalled : List Table} {status : Status}
    (opened : session.isOpen = true)
    (refused : (call.run ⟨now, stalled, true⟩ session.store).1 = .error status) :
    session.outcome now stalled call = .refused status := by
  rcases session with ⟨store, isOpen, clock⟩
  cases opened
  rcases done : call.run ⟨now, stalled, true⟩ store with ⟨outcome, after⟩
  simp only [done] at refused
  simp only [Session.outcome, Step.perform, Session.perform, Session.circumstances, done, refused]

def toldOf : Except Failure Database → Outcome
  | .ok database => .answered (.database (some database))
  | .error failure => .refused (.ofFailure "get_database" failure)

theorem outcome_getDatabase_of_knows (opened : session.isOpen = true) {request : DatabaseKey}
    (named : requiredDatabaseName request.name = .ok name) (owned : required "tenant" request.tenant = .ok tenant)
    (knows : session.store.Knows tenant name owner found) :
    session.outcome now [] (.getDatabase request) = toldOf (lookedUp tenant name owner found) := by
  have ran : getDatabase request ⟨now, [], true⟩ session.store =
      ((lookedUp tenant name owner found).mapError (Status.ofFailure "get_database"), session.store) := by
    simp only [getDatabase, Service.validated_bind_run, named, owned, Service.perform, findDatabase_of_knows knows]
    cases lookedUp tenant name owner found <;> rfl
  cases looked : lookedUp tenant name owner found with
  | ok database =>
      refine outcome_of_run opened ?_
      simp only [ServiceCall.run, bind_run, ran, looked]
      rfl
  | error failure =>
      refine outcome_of_refusal opened ?_
      simp only [ServiceCall.run, bind_run, ran, looked]
      rfl

theorem outcome_listDatabases_eq_iff (opened : session.isOpen = true)
    (readable : session.store.withoutSegments.IsReadable) {page : DatabasePage}
    (owned : required "tenant" page.tenant = .ok tenant) (now : Instant) :
    session.outcome now [] (.listDatabases page) = .refused ⟨.notFound, s!"tenant `{tenant}` was not found"⟩ ↔
      ¬∃ row ∈ session.store.tenants, row.id = .text tenant := by
  rw [← getTenant_eq_none_iff, ← ofFailure_notFound_tenant "list_databases"]
  obtain ⟨owner, read⟩ := reads_getTenant readable tenant
  have read : session.store.getTenant tenant = .ok owner := read
  cases owner with
  | none =>
      refine iff_of_true (outcome_of_refusal opened ?_) read
      simp only [ServiceCall.run, listDatabases, bind_run, Service.validated, owned, Service.perform,
        listTenantDatabases, findTenant_of_getTenant read]
  | some known =>
      obtain ⟨databases, listed⟩ := reads_listDatabases readable tenant page.limit page.offset
      have listed : session.store.listDatabases tenant page.limit page.offset = .ok databases := listed
      have answered : session.outcome now [] (.listDatabases page) = .answered (.databases databases) := by
        refine outcome_of_run opened ?_
        simp only [ServiceCall.run, listDatabases, bind_run, Service.validated, owned, Service.perform,
          listTenantDatabases_run List.not_mem_nil List.not_mem_nil read listed]
        rfl
      rw [answered, read]
      exact iff_of_false Outcome.noConfusion fun same => Option.some_ne_none known (Except.ok.inj same)

theorem missing_tenant_ne_database (tenant name other : String) :
    (⟨.notFound, s!"tenant `{other}` was not found"⟩ : Status) ≠
      ⟨.notFound, s!"database `{tenant}/{name}` was not found"⟩ := by
  intro same
  have first := congrArg (fun status : Status => status.message.toList.head?) same
  have tenant : "tenant `".toList.head? = some 't' := by decide
  have database : "database `".toList.head? = some 'd' := by decide
  simp only [toString, String.toList_append, List.head?_append, tenant, database] at first
  cases first

theorem toldOf_missing_tenant (tenant : String) :
    toldOf (.error (.notFound "tenant" tenant)) = .refused ⟨.notFound, s!"tenant `{tenant}` was not found"⟩ :=
  congrArg Outcome.refused (ofFailure_notFound_tenant "get_database" tenant)

theorem toldOf_missing_database (tenant name : String) :
    toldOf (.error (.notFound "database" s!"{tenant}/{name}")) =
      .refused ⟨.notFound, s!"database `{tenant}/{name}` was not found"⟩ :=
  congrArg Outcome.refused (ofFailure_notFound_database "get_database" tenant name)

theorem toldOf_eq_missing_tenant_iff (owned : found.isSome = true → owner.isSome = true) :
    toldOf (lookedUp tenant name owner found) = .refused ⟨.notFound, s!"tenant `{tenant}` was not found"⟩ ↔
      owner = none := by
  cases owner with
  | none =>
      cases found with
      | none => exact iff_of_true (toldOf_missing_tenant tenant) rfl
      | some database => exact absurd (owned rfl) Bool.noConfusion
  | some known =>
      cases found with
      | none =>
          rw [lookedUp, toldOf_missing_database]
          exact iff_of_false (fun same => missing_tenant_ne_database _ _ _ (Outcome.refused.inj same).symm)
            (Option.some_ne_none known)
      | some database => exact iff_of_false Outcome.noConfusion (Option.some_ne_none known)

theorem toldOf_eq_missing_database_iff (owned : found.isSome = true → owner.isSome = true) :
    toldOf (lookedUp tenant name owner found) = .refused ⟨.notFound, s!"database `{tenant}/{name}` was not found"⟩ ↔
      owner ≠ none ∧ found = none := by
  cases owner with
  | none =>
      cases found with
      | none =>
          rw [lookedUp, toldOf_missing_tenant]
          exact iff_of_false (fun same => missing_tenant_ne_database _ _ _ (Outcome.refused.inj same))
            fun both => both.1 rfl
      | some database => exact absurd (owned rfl) Bool.noConfusion
  | some known =>
      cases found with
      | none => exact iff_of_true (toldOf_missing_database tenant name) ⟨Option.some_ne_none known, rfl⟩
      | some database => exact iff_of_false Outcome.noConfusion fun both => Option.some_ne_none database both.2

end Outcomes

theorem row_of_getDatabaseByName {store : Store} (integral : store.Integral) {tenant name : String}
    {found : Database} (read : store.getDatabaseByName tenant name = .ok (some found)) :
    ∃ row ∈ store.databases, row.HasActiveName tenant name ∧ row.database = .ok found ∧
      ∀ other ∈ store.databases, other.HasActiveName tenant name → other = row := by
  unfold Store.getDatabaseByName at read
  split at read
  · cases read
  · rename_i row present
    have member := List.mem_of_find?_eq_some present
    have active := List.find?_some present
    obtain ⟨database, stored, same⟩ := (map_some_eq_ok_iff row.database _).mp read
    cases same
    refine ⟨row, member, (isActiveNamed_iff tenant name row).mp active, stored, fun other also otherActive => ?_⟩
    exact integral.same_activeNamed also member ((isActiveNamed_iff tenant name other).mpr otherActive) active

def emptiedTenant : List Step :=
  [⟨firstOfJune, .service (.createTenant ⟨"acme"⟩) []⟩,
    ⟨firstOfJune, .service (.createDatabase ⟨"01010101-0101-0101-0101-010101010101", "kept", "acme"⟩) []⟩,
    ⟨firstOfJune, .service (.createDatabase ⟨"02020202-0202-0202-0202-020202020202", "gone", "acme"⟩) []⟩,
    ⟨firstOfJune, .service (.createSegment ⟨.ofByte 7, "vector", .vector, .ofByte 1,
      some (.ofEntries [("k", .real ⟨9218868437227405312⟩)])⟩) []⟩,
    ⟨firstOfJune, .service (.deleteDatabase ⟨"gone", "acme"⟩) []⟩]

end MetadataRegistry
