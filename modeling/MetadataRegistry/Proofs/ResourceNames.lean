import Mathlib.Data.List.Nodup
import Mathlib.Tactic.Tauto
import MetadataRegistry.Proofs.Access
import MetadataRegistry.Proofs.Records
import MetadataRegistry.Proofs.TenantRows

/-!
The resource name of a tenant is bound once. Of the attempts to bind it the first that finds the tenant
succeeds; the ones before it find no tenant, and the ones after it find a name bound, be it the same.
-/

namespace MetadataRegistry

def Store.resourceName? (id : String) (store : Store) : Option (Option String) :=
  (store.tenant? id).map fun row => row.resourceName.text?

theorem resourceName?_of_getTenant {id : String} {store : Store} {tenant : Tenant}
    (read : store.getTenant id = .ok (some tenant)) : store.resourceName? id = some tenant.resourceName := by
  obtain ⟨row, found, named, _⟩ := row_of_getTenant read
  rw [Store.resourceName?, found, Option.map_some, named]
  cases tenant.resourceName <;> rfl

theorem text?_ofTenant (tenant : Tenant) : (TenantRow.ofTenant tenant).resourceName.text? = tenant.resourceName := by
  rw [TenantRow.ofTenant]
  cases tenant.resourceName <;> rfl

namespace Store.HoldsRecords

variable {store : Store}

theorem tenant?_ofTenant (records : store.HoldsRecords) {id : String} {row : TenantRow}
    (found : store.tenant? id = some row) : ∃ tenant : Tenant, row = .ofTenant tenant ∧ tenant.id = id := by
  obtain ⟨tenant, rfl⟩ := records.tenants row (mem_of_tenant? found)
  exact ⟨tenant, rfl, Cell.text.inj (id_of_tenant? found)⟩

theorem isNull_iff (records : store.HoldsRecords) {row : TenantRow} (member : row ∈ store.tenants) :
    row.resourceName = .null ↔ row.resourceName.text? = none := by
  obtain ⟨tenant, rfl⟩ := records.tenants row member
  rw [TenantRow.ofTenant]
  cases tenant.resourceName <;> simp [Cell.ofOption, Cell.text?]

end Store.HoldsRecords

theorem exists_tenant_iff {store : Store} (integral : store.Integral) (id : String) (holds : TenantRow → Prop) :
    (∃ row ∈ store.tenants, row.id = .text id ∧ holds row) ↔ ∃ row, store.tenant? id = some row ∧ holds row := by
  constructor
  · rintro ⟨row, member, named, held⟩
    cases found : store.tenant? id with
    | none => exact absurd ⟨row, member, named⟩ (tenant?_eq_none.mp found)
    | some first =>
        have same := List.inj_on_of_nodup_map integral.tenantIds (mem_of_tenant? found) member
          ((id_of_tenant? found).trans named.symm)
        exact ⟨first, rfl, same ▸ held⟩
  · rintro ⟨row, found, held⟩
    exact ⟨row, mem_of_tenant? found, id_of_tenant? found, held⟩

def Write.resourceNameAfter (id : String) : Write → Option (Option String) → Option (Option String)
  | insertTenant tenant, none => if tenant.id = id then some tenant.resourceName else none
  | bindResourceName other name, some none => if other = id then some (some name) else some none
  | _, found => found

theorem resourceName?_of_did (id : String) {now : Instant} {write : Write} {before after : Store}
    (records : before.HoldsRecords) (did : write.Did now before after) :
    after.resourceName? id = write.resourceNameAfter id (before.resourceName? id) := by
  rw [Store.resourceName?, tenant?_of_did id did, Store.resourceName?]
  cases found : before.tenant? id with
  | none =>
      cases write with
      | insertTenant tenant =>
          simp only [Write.tenantAfter, Write.resourceNameAfter, Option.none_or, Option.map_none]
          split
          · rw [Option.map_some, text?_ofTenant]
          · rfl
      | advanceCheckpoint | bindResourceName | insertDatabase | softDelete | finishDeletion | insertSegment
      | updateSegment | flushSegment | flushCollection => rfl
  | some row =>
      obtain ⟨tenant, rfl, same⟩ := records.tenant?_ofTenant found
      cases write with
      | advanceCheckpoint other time =>
          simp only [Write.tenantAfter, Write.resourceNameAfter, Option.map_some, advanced_ofTenant, text?_ofTenant]
          split <;> rfl
      | flushCollection flush =>
          simp only [Write.tenantAfter, Write.resourceNameAfter, Option.map_some, advanced_ofTenant, text?_ofTenant]
          split <;> rfl
      | bindResourceName other name =>
          simp only [Write.tenantAfter, Option.map_some, bound_ofTenant, text?_ofTenant, same]
          cases unbound : tenant.resourceName with
          | some bound => simp [Write.resourceNameAfter, unbound]
          | none =>
              by_cases addressed : other = id
              · simp [Write.resourceNameAfter, addressed]
              · simp [Write.resourceNameAfter, addressed, Ne.symm addressed, unbound]
      | insertTenant | insertDatabase | softDelete | finishDeletion | insertSegment | updateSegment
      | flushSegment => rfl

theorem bindResourceName_of_unknown (now : Instant) {id : String} (name : String) {store : Store}
    (unknown : store.resourceName? id = none) :
    store.bindResourceName now id name = .error (.notFound "tenant" id) := by
  have absent := tenant?_eq_none.mp (Option.map_eq_none_iff.mp unknown)
  rw [bindResourceName_eq, if_neg, if_neg absent]
  rintro ⟨row, member, named, _⟩
  exact absent ⟨row, member, named⟩

theorem bindResourceName_of_bound (now : Instant) {id : String} (name : String) {bound : String} {store : Store}
    (proper : store.IsProper) (taken : store.resourceName? id = some (some bound)) :
    store.bindResourceName now id name = .error (.alreadyBound "tenant" id "resource name") := by
  obtain ⟨row, found, text⟩ := Option.map_eq_some_iff.mp taken
  rw [bindResourceName_eq, if_neg, if_pos ⟨row, mem_of_tenant? found, id_of_tenant? found⟩]
  rw [exists_tenant_iff proper.integral]
  rintro ⟨other, again, unbound⟩
  cases found.symm.trans again
  rw [unbound] at text
  cases text

theorem bindResourceName_of_unbound (now : Instant) {id : String} (name : String) {store : Store}
    (proper : store.IsProper) (unbound : store.resourceName? id = some none) :
    ∃ changed, store.bindResourceName now id name = .ok changed ∧ changed.resourceName? id = some (some name) := by
  obtain ⟨row, found, text⟩ := Option.map_eq_some_iff.mp unbound
  have null := (proper.records.isNull_iff (mem_of_tenant? found)).mpr text
  have addressed := (exists_tenant_iff proper.integral id fun row => row.resourceName = .null).mpr ⟨row, found, null⟩
  have did : (Write.bindResourceName id name).Did now store _ := ⟨addressed, rfl⟩
  refine ⟨_, by rw [bindResourceName_eq, if_pos addressed], ?_⟩
  rw [resourceName?_of_did id proper.records did, unbound]
  exact if_pos rfl

/-! Attempts to bind. -/

def Operation.Stalls (reached : Table) : Operation → Prop
  | service _ stalled | sweep _ stalled => reached ∈ stalled
  | table _ | transaction _ _ | overwrite _ _ _ | migrate | close => False

instance (reached : Table) : DecidablePred (Operation.Stalls reached)
  | .service _ stalled | .sweep _ stalled => inferInstanceAs (Decidable (reached ∈ stalled))
  | .table _ | .transaction _ _ | .overwrite _ _ _ | .migrate | .close => isFalse id

/-- The name that a step tries to bind to a tenant. Requests that are invalid or that never reach the table
are no attempts. -/
def Step.binding? (id : String) (step : Step) : Option String :=
  match step.operation.write? step.clock with
  | some (.bindResourceName other name) => if other = id ∧ ¬step.operation.Stalls .tenants then some name else none
  | _ => none

theorem binding?_eq_some {id name : String} {step : Step} :
    step.binding? id = some name ↔
      step.operation.write? step.clock = some (.bindResourceName id name) ∧ ¬step.operation.Stalls .tenants := by
  unfold Step.binding?
  split
  · rename_i other tried makes
    rw [makes]
    simp only [Option.ite_none_right_eq_some, Option.some.injEq, Write.bindResourceName.injEq]
    tauto
  · rename_i others
    refine iff_of_false (by simp) ?_
    rintro ⟨makes, _⟩
    exact others _ _ makes

def Outcome.Tells (failure : Failure) (outcome : Outcome) : Prop :=
  outcome = .failed failure ∨ ∃ operation, outcome = .refused (.ofFailure operation failure)

def Outcome.MissesTenant (id : String) (outcome : Outcome) : Prop :=
  outcome = .failed (.notFound "tenant" id) ∨ outcome = .refused ⟨.notFound, s!"tenant `{id}` was not found"⟩

/-- The tenant has its resource name already, be it the name that was asked for. -/
def Outcome.FindsBound (id : String) (outcome : Outcome) : Prop :=
  outcome = .failed (.alreadyBound "tenant" id "resource name") ∨
    outcome = .refused ⟨.failedPrecondition, s!"tenant `{id}` already has a resource name bound"⟩

section Refusals

variable {id : String} {outcome : Outcome}

theorem Outcome.Tells.missesTenant (told : outcome.Tells (.notFound "tenant" id)) : outcome.MissesTenant id := by
  rcases told with failed | ⟨operation, refused⟩
  · exact Or.inl failed
  · exact Or.inr (refused.trans (congrArg Outcome.refused (ofFailure_notFound_tenant operation id)))

theorem Outcome.Tells.findsBound (told : outcome.Tells (.alreadyBound "tenant" id "resource name")) :
    outcome.FindsBound id := by
  rcases told with failed | ⟨operation, refused⟩
  · exact Or.inl failed
  · exact Or.inr (refused.trans (congrArg Outcome.refused (ofFailure_alreadyBound_tenant operation id)))

theorem Outcome.MissesTenant.not_done (missing : outcome.MissesTenant id) : outcome ≠ .answered .done := by
  rintro rfl
  rcases missing with impossible | impossible <;> cases impossible

theorem Outcome.FindsBound.not_done (bound : outcome.FindsBound id) : outcome ≠ .answered .done := by
  rintro rfl
  rcases bound with impossible | impossible <;> cases impossible

theorem Outcome.FindsBound.not_missesTenant (bound : outcome.FindsBound id) : ¬outcome.MissesTenant id := by
  rcases bound with rfl | rfl
  · rintro (impossible | impossible) <;> cases impossible
  · rintro (impossible | impossible)
    · cases impossible
    · cases congrArg Status.code (Outcome.refused.inj impossible)

end Refusals

theorem setTenantResourceName_run {request : ResourceBinding} {id name : String}
    (validId : required "id" request.id = .ok id) (validName : required "resource_name" request.resourceName = .ok name)
    (now : Instant) (stalled : List Table) (store : Store) :
    setTenantResourceName request ⟨now, stalled, true⟩ store =
      if stalled.contains .tenants then (.error (.deadlineExceeded "set_tenant_resource_name"), store)
      else match store.bindResourceName now id name with
        | .ok changed => (.ok (), changed)
        | .error failure => (.error (.ofFailure "set_tenant_resource_name" failure), store) := by
  simp only [setTenantResourceName, bind_run, Service.validated, validId, validName]
  exact Service.perform_writeTo_run _ .tenants (fun now => Store.bindResourceName now id name) now stalled store

theorem perform_bind {id name : String} {step : Step} {session : Session}
    (makes : step.operation.write? step.clock = some (.bindResourceName id name)) (opened : session.isOpen = true) :
    if step.operation.Stalls .tenants then (step.perform session).1.IsFailure
    else match session.store.bindResourceName step.clock id name with
      | .ok changed => (step.perform session).1 = .answered .done ∧ (step.perform session).2.store = changed
      | .error failure =>
          (step.perform session).1.Tells failure ∧ (step.perform session).2.store = session.store := by
  rcases step with ⟨clock, operation⟩
  rcases session with ⟨store, isOpen, earlier⟩
  cases opened
  cases operation with
  | table call =>
      cases call with
      | bindResourceName other tried =>
          cases makes
          have reaches : ¬(Operation.table (.bindResourceName id name)).Stalls .tenants := not_false
          rw [if_neg reaches]
          simp only [Step.perform, Session.perform, Session.circumstances, TableCall.run, TableCall.writing_run]
          cases store.bindResourceName clock id name with
          | ok changed => exact ⟨rfl, rfl⟩
          | error failure => exact ⟨Or.inl rfl, rfl⟩
      | _ => cases makes
  | service call stalled =>
      cases call with
      | setTenantResourceName request =>
          obtain ⟨_, validId, makes⟩ := Option.bind_eq_some_iff.mp makes
          obtain ⟨_, validName, makes⟩ := Option.bind_eq_some_iff.mp makes
          cases makes
          rw [toOption_eq_some_iff] at validId validName
          simp only [Step.perform, Session.perform, Session.circumstances, ServiceCall.run, bind_run,
            setTenantResourceName_run validId validName, Operation.Stalls]
          by_cases stalls : Table.tenants ∈ stalled
          · rw [if_pos stalls, if_pos (by simpa using stalls)]
            trivial
          · rw [if_neg stalls, if_neg (by simpa using stalls)]
            cases store.bindResourceName clock id name with
            | ok changed => exact ⟨rfl, rfl⟩
            | error failure => exact ⟨Or.inr ⟨_, rfl⟩, rfl⟩
      | _ => simp [Operation.write?, ServiceCall.write?, Option.bind_eq_some_iff] at makes
  | sweep grace stalled => simp [Operation.write?] at makes
  | transaction | overwrite | migrate | close => cases makes

section Attempts

variable {id name : String} {step : Step} {session : Session}

theorem attempt_of_unknown (tries : step.binding? id = some name) (live : session.IsLive)
    (unknown : session.store.resourceName? id = none) :
    (step.perform session).1.MissesTenant id := by
  obtain ⟨makes, reaches⟩ := binding?_eq_some.mp tries
  have performed := perform_bind makes live.isOpen
  rw [if_neg reaches, bindResourceName_of_unknown step.clock name unknown] at performed
  exact performed.1.missesTenant

theorem attempt_of_bound (tries : step.binding? id = some name) (live : session.IsLive) {bound : String}
    (taken : session.store.resourceName? id = some (some bound)) :
    (step.perform session).1.FindsBound id := by
  obtain ⟨makes, reaches⟩ := binding?_eq_some.mp tries
  have performed := perform_bind makes live.isOpen
  rw [if_neg reaches, bindResourceName_of_bound step.clock name live.proper taken] at performed
  exact performed.1.findsBound

theorem attempt_of_unbound (tries : step.binding? id = some name) (live : session.IsLive)
    (unbound : session.store.resourceName? id = some none) :
    (step.perform session).1 = .answered .done ∧
      (step.perform session).2.store.resourceName? id = some (some name) := by
  obtain ⟨makes, reaches⟩ := binding?_eq_some.mp tries
  obtain ⟨changed, done, bound⟩ := bindResourceName_of_unbound step.clock name live.proper unbound
  have performed := perform_bind makes live.isOpen
  rw [if_neg reaches, done] at performed
  exact ⟨performed.1, performed.2 ▸ bound⟩

theorem resourceNameAfter_of_bound (write : Write) (bound : String) :
    write.resourceNameAfter id (some (some bound)) = some (some bound) := by
  cases write <;> rfl

theorem resourceNameAfter_of_other {write : Write} (other : ∀ name, write ≠ .bindResourceName id name)
    (found : Option String) : write.resourceNameAfter id (some found) = some found := by
  cases write with
  | bindResourceName addressed name =>
      cases found with
      | some bound => rfl
      | none => exact if_neg fun same : addressed = id => other name (by rw [same])
  | insertTenant | advanceCheckpoint | insertDatabase | softDelete | finishDeletion | insertSegment | updateSegment
  | flushSegment | flushCollection => rfl

theorem resourceName?_after_of_bound (steps : List Step) (ordinary : ∀ step ∈ steps, step.operation.IsOrdinary)
    (proper : session.store.IsProper) {bound : String}
    (taken : session.store.resourceName? id = some (some bound)) :
    (session.after steps).store.resourceName? id = some (some bound) := by
  refine (session.store_after_keeps
    (fun store => store.HoldsRecords ∧ store.resourceName? id = some (some bound)) ?_ steps ordinary
    proper.records.hasIdentifiers ⟨proper.records, taken⟩).2
  rintro entry before after did ⟨records, held⟩
  refine ⟨holdsRecords_of_did did records, ?_⟩
  rw [resourceName?_of_did id records did, held, resourceNameAfter_of_bound]

theorem resourceName?_of_no_attempt (quiet : step.binding? id = none) (call : step.operation.IsCall)
    (live : session.IsLive) {found : Option String} (stored : session.store.resourceName? id = some found) :
    (step.perform session).2.store.resourceName? id = some found := by
  have others : ∀ entry ∈ step.log session, ∀ name, entry.write ≠ .bindResourceName id name := by
    intro entry logged name binds
    rcases write_of_mem_log logged with ⟨made, same⟩ | ⟨success, makes⟩
    · rw [binds] at same
      cases made <;> cases same
    · -- A write of this kind that is logged has not waited in vain, so it was an attempt after all.
      rw [binds] at makes
      have performed := perform_bind makes live.isOpen
      by_cases stalls : step.operation.Stalls .tenants
      · rw [if_pos stalls] at performed
        exact success performed
      · rw [binding?_eq_some.mpr ⟨makes, stalls⟩] at quiet
        cases quiet
  have records := live.proper.records
  refine ((replays_step step session call.isOrdinary records.hasIdentifiers).keeps
    (fun store => store.HoldsRecords ∧ store.resourceName? id = some found) ?_ records.hasIdentifiers
    ⟨records, stored⟩).2.2
  rintro entry logged before after did ⟨held, same⟩
  refine ⟨holdsRecords_of_did did held, ?_⟩
  rw [resourceName?_of_did id held did, same, resourceNameAfter_of_other (others entry logged)]

end Attempts

/-! Attempts over a run. -/

structure Attempt where
  name : String
  outcome : Outcome

def Step.attempt? (id : String) (step : Step) (session : Session) : Option Attempt :=
  (step.binding? id).map fun name => ⟨name, (step.perform session).1⟩

def Session.attempts (id : String) : List Step → Session → List Attempt
  | [], _ => []
  | step :: rest, session => (step.attempt? id session).toList ++ attempts id rest (step.perform session).2

section Runs

variable {id : String}

theorem attempts_cons_of_none {step : Step} (quiet : step.binding? id = none) (rest : List Step) (session : Session) :
    session.attempts id (step :: rest) = (step.perform session).2.attempts id rest := by
  rw [Session.attempts, Step.attempt?, quiet]
  rfl

theorem attempts_cons_of_some {step : Step} {name : String} (tries : step.binding? id = some name) (rest : List Step)
    (session : Session) : session.attempts id (step :: rest) =
      ⟨name, (step.perform session).1⟩ :: (step.perform session).2.attempts id rest := by
  rw [Session.attempts, Step.attempt?, tries]
  rfl

theorem attempts_of_bound {bound : String} (steps : List Step) : ∀ session : Session,
    (∀ step ∈ steps, step.operation.IsCall) → session.IsLive →
      session.store.resourceName? id = some (some bound) →
        ∀ attempt ∈ session.attempts id steps, attempt.outcome.FindsBound id := by
  induction steps with
  | nil => exact fun _ _ _ _ _ impossible => nomatch impossible
  | cons step rest ih =>
      intro session calls live taken
      rw [List.forall_mem_cons] at calls
      have kept := resourceName?_after_of_bound [step] (by simpa using calls.1.isOrdinary) live.proper taken
      have later := ih _ calls.2 (isLive_perform step session calls.1 live) kept
      cases tries : step.binding? id with
      | none => rwa [attempts_cons_of_none tries]
      | some name =>
          rw [attempts_cons_of_some tries, List.forall_mem_cons]
          exact ⟨attempt_of_bound tries live taken, later⟩

theorem attempts_until_unbound (steps : List Step) : ∀ session : Session,
    (∀ step ∈ steps, step.operation.IsCall) → session.IsLive →
      (session.after steps).store.resourceName? id = some none →
        ∀ attempt ∈ session.attempts id steps, attempt.outcome.MissesTenant id := by
  induction steps with
  | nil => exact fun _ _ _ _ _ impossible => nomatch impossible
  | cons step rest ih =>
      intro session calls live unbound
      have ordinary := fun step member => (calls step member).isOrdinary
      rw [List.forall_mem_cons] at calls ordinary
      have next := isLive_perform step session calls.1 live
      have later := ih _ calls.2 next unbound
      cases tries : step.binding? id with
      | none => rwa [attempts_cons_of_none tries]
      | some name =>
          rw [attempts_cons_of_some tries, List.forall_mem_cons]
          refine ⟨?_, later⟩
          cases before : session.store.resourceName? id with
          | none => exact attempt_of_unknown tries live before
          | some found =>
              cases found with
              -- An attempt that wins, and a name found bound, would both show at the end of the run.
              | none =>
                  have bound := (attempt_of_unbound tries live before).2
                  rw [Session.after_cons, resourceName?_after_of_bound rest ordinary.2 next.proper bound] at unbound
                  cases unbound
              | some bound =>
                  have kept := resourceName?_after_of_bound (step :: rest) (List.forall_mem_cons.mpr ordinary)
                    live.proper before
                  rw [kept] at unbound
                  cases unbound

theorem attempts_of_unbound (steps : List Step) : ∀ session : Session,
    (∀ step ∈ steps, step.operation.IsCall) → session.IsLive → session.store.resourceName? id = some none →
      match session.attempts id steps with
      | [] => (session.after steps).store.resourceName? id = some none
      | first :: others => first.outcome = .answered .done ∧
          (∀ other ∈ others, other.outcome.FindsBound id) ∧
          (session.after steps).store.resourceName? id = some (some first.name) := by
  induction steps with
  | nil => exact fun _ _ _ unbound => unbound
  | cons step rest ih =>
      intro session calls live unbound
      rw [List.forall_mem_cons] at calls
      have next := isLive_perform step session calls.1 live
      rw [Session.after_cons]
      cases tries : step.binding? id with
      | none =>
          rw [attempts_cons_of_none tries]
          exact ih _ calls.2 next (resourceName?_of_no_attempt tries calls.1 live unbound)
      | some name =>
          obtain ⟨done, bound⟩ := attempt_of_unbound tries live unbound
          rw [attempts_cons_of_some tries]
          refine ⟨done, attempts_of_bound rest _ calls.2 next bound, ?_⟩
          exact resourceName?_after_of_bound rest (fun other member => (calls.2 other member).isOrdinary) next.proper
            bound

end Runs

/-- After any calls on a new store an attempt to bind a name tells whether the tenant exists and whether it has
a name, the one that is read of it, and succeeds only while it has none. A name that is bound stays. So however the
attempts of a run lie between its other operations: those before the tenant exists do not find it, and the first one
after that wins. -/
theorem resource_name_is_bound_once (clock : Instant) (steps : List Step)
    (calls : ∀ step ∈ steps, step.operation.IsCall) (id : String) :
    let session := (Session.start clock).after steps
    (∀ (step : Step) (name : String), step.binding? id = some name →
      ((step.perform session).1 = .answered .done ↔ session.store.resourceName? id = some none) ∧
      ((step.perform session).1.FindsBound id ↔ ∃ bound, session.store.resourceName? id = some (some bound)) ∧
      ((step.perform session).1.MissesTenant id ↔ session.store.resourceName? id = none)) ∧
    (∀ tenant, session.store.getTenant id = .ok (some tenant) →
      session.store.resourceName? id = some tenant.resourceName) ∧
    (∀ bound, session.store.resourceName? id = some (some bound) →
      ∀ later : List Step, (∀ step ∈ later, step.operation.IsOrdinary) →
        (session.after later).store.resourceName? id = some (some bound)) ∧
    (session.store.resourceName? id = some none →
      (∀ attempt ∈ (Session.start clock).attempts id steps, attempt.outcome.MissesTenant id) ∧
      ∀ later : List Step, (∀ step ∈ later, step.operation.IsCall) →
        match session.attempts id later with
        | [] => (session.after later).store.resourceName? id = some none
        | first :: others => first.outcome = .answered .done ∧
            (∀ other ∈ others, other.outcome.FindsBound id) ∧
            (session.after later).store.resourceName? id = some (some first.name)) := by
  intro session
  have live : session.IsLive := Session.isLive_after steps _ calls (isLive_start clock)
  refine ⟨?_, fun tenant => resourceName?_of_getTenant, ?_, ?_⟩
  · intro step name tries
    cases known : session.store.resourceName? id with
    | none =>
        have missing := attempt_of_unknown tries live known
        exact ⟨iff_of_false missing.not_done (by simp),
          iff_of_false (fun bound => bound.not_missesTenant missing) (by simp), iff_of_true missing rfl⟩
    | some found =>
        cases found with
        | none =>
            have done := (attempt_of_unbound tries live known).1
            exact ⟨iff_of_true done rfl, iff_of_false (fun bound => bound.not_done done) (by simp),
              iff_of_false (fun missing => missing.not_done done) (by simp)⟩
        | some bound =>
            have found := attempt_of_bound tries live known
            exact ⟨iff_of_false found.not_done (by simp), iff_of_true found ⟨bound, rfl⟩,
              iff_of_false found.not_missesTenant (by simp)⟩
  · exact fun bound taken later ordinary => resourceName?_after_of_bound later ordinary live.proper taken
  · intro unbound
    refine ⟨attempts_until_unbound steps _ calls (isLive_start clock) unbound, ?_⟩
    exact fun later calls => attempts_of_unbound later session calls live unbound

def rivals : List Step × List Step :=
  ([⟨firstOfJune, .table (.bindResourceName "acme" "arn:0")⟩,
    ⟨firstOfJune, .service (.createTenant ⟨"acme"⟩) []⟩],
    [⟨firstOfJune, .service (.setTenantResourceName ⟨"acme", "arn:1"⟩) [.tenants]⟩,
      ⟨firstOfJune, .service (.setTenantResourceName ⟨" acme ", "arn:2 "⟩) []⟩,
      ⟨firstOfJune, .service (.setTenantResourceName ⟨"acme", "arn:3"⟩) []⟩,
      ⟨firstOfJune, .table (.bindResourceName "acme" "arn:2")⟩])

theorem resource_name_after_rivals :
    (((Session.start firstOfJune).after rivals.1).after rivals.2).store.resourceName? "acme" =
      some (some "arn:2") := by
  have once := (resource_name_is_bound_once firstOfJune rivals.1 (by decide) "acme").2.2.2 (by decide +kernel)
  have won := once.2 rivals.2 (by decide)
  cases listed : ((Session.start firstOfJune).after rivals.1).attempts "acme" rivals.2 with
  | nil => exact absurd (congrArg List.length listed) (by decide +kernel)
  | cons first others =>
      have named : some first.name = some "arn:2" :=
        (congrArg (fun attempts => attempts.head?.map Attempt.name) listed).symm.trans (by decide +kernel)
      rw [listed] at won
      exact won.2.2.trans (congrArg some named)

end MetadataRegistry
