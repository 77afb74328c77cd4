import MetadataRegistry.Proofs.Log
import MetadataRegistry.Proofs.Serving

/-!
Answers of the service. A request is checked before the store is touched, so that what it writes passes the checks
of the store; and at a time and with numbers that can be stored it leaves a store that can be read. So no call of
the service ever fails for a reason that lies in the store.
-/

namespace MetadataRegistry

def Checks {α : Type} (checked : Except Status α) : Prop :=
  ∀ status, checked = .error status → status.code = .invalidArgument

theorem checks_ok {α : Type} (value : α) : Checks (.ok value) := fun _ impossible => nomatch impossible

theorem checks_invalidArgument {α : Type} (message : String) :
    Checks (.error (.invalidArgument message) : Except Status α) := by
  intro status refused
  cases refused
  rfl

theorem checks_bind {α β : Type} {first : Except Status α} {next : α → Except Status β} (one : Checks first)
    (other : ∀ value, Checks (next value)) : Checks (first >>= next) := by
  cases first with
  | ok value => exact other value
  | error status =>
      intro told refused
      cases refused
      exact one status rfl

theorem checks_forM {α : Type} {check : α → Except Status Unit} (each : ∀ value, Checks (check value))
    (values : List α) : Checks (values.forM check) := by
  induction values with
  | nil => exact checks_ok ()
  | cons value rest ih => exact checks_bind (each value) fun _ => ih

theorem checks_if {α : Type} (wrong : Prop) [Decidable wrong] (message : String) (value : α) :
    Checks (if wrong then .error (.invalidArgument message) else .ok value) := by
  split
  · exact checks_invalidArgument message
  · exact checks_ok value

theorem checks_required (field value : String) : Checks (required field value) := checks_if _ _ _

theorem checks_requiredDatabaseName (value : String) : Checks (requiredDatabaseName value) :=
  checks_bind (checks_required "name" value) fun _ => checks_if _ _ _

theorem checks_requiredDatabaseId (value : String) : Checks (requiredDatabaseId value) := by
  unfold requiredDatabaseId
  split
  · exact checks_ok _
  · exact checks_invalidArgument _

theorem checks_requiredTime (field : String) (time : Int64) : Checks (requiredTime field time) := checks_if _ _ _

theorem checks_requiredRoles (flush : SegmentFlush) : Checks (requiredRoles flush) := checks_if _ _ _

theorem checks_requiredSegmentIds (request : SegmentCreation) : Checks (requiredSegmentIds request) := checks_if _ _ _

theorem checks_requiredCollectionId (request : SegmentUpdate) : Checks (requiredCollectionId request) :=
  checks_if _ _ _

theorem checkedLength_le (name : String) : Store.checkedLength name ≤ name.length := by
  rw [Store.checkedLength, Store.upToNul, String.length_ofList, ← String.length_toList]
  exact (List.takeWhile_sublist _).length_le

theorem checkedLength_of_required {value name : String} (checked : requiredDatabaseName value = .ok name) :
    Store.checkedLength name ≤ longestDatabaseName := by
  unfold requiredDatabaseName at checked
  cases first : required "name" value with
  | error status =>
      rw [first] at checked
      cases checked
  | ok trimmed =>
      rw [first] at checked
      by_cases long : longestDatabaseName < trimmed.length
      · have refused := (if_pos long).symm.trans checked
        cases refused
      · have accepted := (if_neg long).symm.trans checked
        cases accepted
        exact Nat.le_trans (checkedLength_le name) (Nat.le_of_not_lt long)

section Services

variable {α β : Type} {now : Instant}

theorem serves_valid {checked : Except Status α} {next : α → Service β} (checks : Checks checked)
    (serves : ∀ value, checked = .ok value → Serves Status.IsExpected now (next value)) :
    Serves Status.IsExpected now (Service.validated checked >>= next) := by
  constructor
  intro store readable
  rw [bind_run]
  cases checked with
  | ok value => exact (serves value rfl).served store readable
  | error status =>
      refine .refused ?_ readable
      rw [Status.IsExpected, checks status rfl]
      exact List.mem_cons_self

theorem serves_now {next : Instant → Service α} (serves : Serves Status.IsExpected now (next now)) :
    Serves Status.IsExpected now (Service.now >>= next) :=
  ⟨fun store readable => serves.served store readable⟩

theorem serves_perform {access : Access α} {fails : Interruption → Prop} {told : Status → Prop} (operation : String)
    (serves : Serves fails now access)
    (tells : ∀ interruption, fails interruption → told (interruption.status operation)) :
    Serves told now (Service.perform operation access) := by
  constructor
  intro store readable
  have served := serves.served store readable
  unfold Service.perform
  rcases done : access ⟨now, [], true⟩ store with ⟨outcome, after⟩
  rw [done] at served
  cases served with
  | answered kept => exact .answered kept
  | refused expected kept =>
      rename_i interruption
      cases interruption with
      | failed failure => exact .refused (tells _ expected) kept
      | stalled => exact .refused (tells _ expected) kept

theorem serves_looking {access : Access α} (operation : String) (serves : Serves Interruption.IsExpected now access) :
    Serves Status.IsExpected now (Service.perform operation access) :=
  serves_perform operation serves fun _ => isExpected_status operation

theorem serves_writing (operation : String) (table : Table) {change : Instant → Store → Except Failure Store}
    (write : Write) (same : ∀ now store, change now store = write.run now store) (fits : write.Fits)
    (reads : write.ReadsBack now) :
    Serves Status.IsExpected now (Service.perform operation (writeTo table change)) :=
  serves_perform operation (serves_bind (serves_reach table) fun _ => serves_write write same fits reads) fun _ =>
    isExpected_status operation

def ServiceCall.metadata? : ServiceCall → Option Metadata
  | createSegment request => request.metadata
  | updateSegment request => request.metadata
  | createTenant _ | getTenant _ | setTenantResourceName _ | setTenantLastCompactionTime _
  | getTenantLastCompactionTimes _ | createDatabase _ | getDatabase _ | listDatabases _ | deleteDatabase _
  | finishDatabaseDeletion _ | getSegments _ | flushSegmentCompaction _ | flushCollectionCompaction _ => none

theorem serves_createTenant (inYears : now.HasStoredYear) (request : TenantName) :
    Serves Status.IsExpected now (createTenant request) := by
  refine serves_valid (checks_required _ _) fun name _ => serves_now ?_
  refine serves_map ?_ fun _ => Tenant.create name now
  exact serves_writing _ .tenants (.insertTenant (.create name now)) (fun _ _ => rfl) trivial ⟨inYears, inYears⟩

theorem serves_setTenantResourceName (inYears : now.HasStoredYear) (request : ResourceBinding) :
    Serves Status.IsExpected now (setTenantResourceName request) := by
  refine serves_valid (checks_required _ _) fun id _ => ?_
  refine serves_valid (checks_required _ _) fun resourceName _ => ?_
  exact serves_writing _ .tenants (.bindResourceName id resourceName) (fun _ _ => rfl) trivial inYears

theorem serves_setTenantLastCompactionTime (inYears : now.HasStoredYear) (request : TenantCheckpoint) :
    Serves Status.IsExpected now (setTenantLastCompactionTime request) := by
  refine serves_valid (checks_required _ _) fun id _ => ?_
  refine serves_valid (checks_requiredTime _ _) fun time _ => ?_
  exact serves_writing _ .tenants (.advanceCheckpoint id time) (fun _ _ => rfl) trivial inYears

theorem serves_createDatabase (inYears : now.HasStoredYear) (request : DatabaseCreation) :
    Serves Status.IsExpected now (createDatabase request) := by
  refine serves_valid (checks_requiredDatabaseId _) fun id _ => ?_
  refine serves_valid (checks_requiredDatabaseName _) fun name short => ?_
  refine serves_valid (checks_required _ _) fun tenant _ => serves_now ?_
  refine serves_map ?_ fun _ => Database.create id name tenant now
  exact serves_writing _ .databases (.insertDatabase (.create id name tenant now)) (fun _ _ => rfl)
    (checkedLength_of_required short) ⟨inYears, inYears, fun _ impossible => nomatch impossible⟩

theorem serves_deleteDatabase (inYears : now.HasStoredYear) (request : DatabaseKey) :
    Serves Status.IsExpected now (deleteDatabase request) := by
  refine serves_valid (checks_requiredDatabaseName _) fun name _ => ?_
  refine serves_valid (checks_required _ _) fun tenant _ => ?_
  exact serves_writing _ .databases (.softDelete tenant name) (fun _ _ => rfl) trivial inYears

theorem serves_finishDatabaseDeletion (told : Status → Prop) (request : DeletionCutoff) :
    Serves told now (finishDatabaseDeletion request) := by
  have removes : Serves (fun _ => False) now (Access.statement fun _ => Store.finishDeletion request.cutoff) :=
    serves_finishDeletion _ request.cutoff
  exact serves_perform _ (serves_bind (serves_reach .databases) fun _ => removes) fun _ => False.elim

theorem serves_createSegment (inYears : now.HasStoredYear) (request : SegmentCreation)
    (finite : ∀ metadata ∈ request.metadata, metadata.IsFinite) :
    Serves Status.IsExpected now (createSegment request) := by
  refine serves_valid (checks_required _ _) fun segmentType _ => ?_
  refine serves_valid (checks_requiredSegmentIds request) fun _ _ => serves_now ?_
  refine serves_map ?_ fun _ =>
    Segment.create request.id segmentType request.scope request.collectionId request.metadata now
  exact serves_writing _ .segments (.insertSegment
    (.create request.id segmentType request.scope request.collectionId request.metadata now)) (fun _ _ => rfl) trivial
    ⟨inYears, inYears, finite⟩

theorem serves_updateSegment (inYears : now.HasStoredYear) (request : SegmentUpdate)
    (finite : ∀ metadata ∈ request.metadata, metadata.IsFinite) :
    Serves Status.IsExpected now (updateSegment request) := by
  refine serves_valid (checks_requiredCollectionId request) fun _ _ => ?_
  exact serves_writing _ .segments (.updateSegment request) (fun _ _ => rfl) trivial ⟨inYears, fun _ => finite⟩

theorem serves_flushSegmentCompaction (inYears : now.HasStoredYear) (request : SegmentFlush) :
    Serves Status.IsExpected now (flushSegmentCompaction request) := by
  refine serves_valid (checks_requiredRoles request) fun _ _ => ?_
  exact serves_writing _ .segments (.flushSegment none request) (fun _ _ => rfl) trivial inYears

theorem serves_flushCollectionCompaction (inYears : now.HasStoredYear) (request : CollectionFlush) :
    Serves Status.IsExpected now (flushCollectionCompaction request) := by
  refine serves_valid (checks_required _ _) fun tenantId _ => ?_
  refine serves_valid (checks_requiredTime _ _) fun compactionTime _ => ?_
  refine serves_valid (checks_forM checks_requiredRoles _) fun _ _ => ?_
  dsimp only
  rw [Access.flushCollection_eq_write]
  exact serves_writing _ .segments (.flushCollection { request with tenantId, compactionTime }) (fun _ _ => rfl)
    trivial inYears

theorem serves_getTenant (request : TenantName) : Serves Status.IsExpected now (getTenant request) :=
  serves_valid (checks_required _ _) fun name _ => serves_looking _ (serves_findTenant name)

theorem serves_getTenantLastCompactionTimes (ids : List String) :
    Serves Status.IsExpected now (getTenantLastCompactionTimes ids) :=
  serves_looking _ (serves_bind (serves_reach .tenants) fun _ => serves_checkpoints ids)

theorem serves_getDatabase (request : DatabaseKey) : Serves Status.IsExpected now (getDatabase request) := by
  refine serves_valid (checks_requiredDatabaseName _) fun name _ => ?_
  refine serves_valid (checks_required _ _) fun tenant _ => ?_
  exact serves_looking _ (serves_findDatabase tenant name)

theorem serves_listDatabases (request : DatabasePage) : Serves Status.IsExpected now (listDatabases request) := by
  refine serves_valid (checks_required _ _) fun tenant _ => ?_
  exact serves_looking _ (serves_listTenantDatabases tenant request.limit request.offset)

theorem serves_getSegments (request : SegmentFilter) : Serves Status.IsExpected now (getSegments request) :=
  serves_map (serves_looking _ (serves_segmentCandidates request.normalized.id)) request.normalized.apply

theorem serves_serviceCall (inYears : now.HasStoredYear) (call : ServiceCall)
    (finite : ∀ metadata ∈ call.metadata?, metadata.IsFinite) : Serves Status.IsExpected now call.run := by
  cases call with
  | createTenant request =>
      exact serves_map (serves_createTenant inYears request) fun tenant => Answer.tenant (some tenant)
  | getTenant request => exact serves_map (serves_getTenant request) fun tenant => Answer.tenant (some tenant)
  | setTenantResourceName request =>
      exact serves_map (serves_setTenantResourceName inYears request) fun _ => Answer.done
  | setTenantLastCompactionTime request =>
      exact serves_map (serves_setTenantLastCompactionTime inYears request) fun _ => Answer.done
  | getTenantLastCompactionTimes ids =>
      exact serves_map (serves_getTenantLastCompactionTimes ids) Answer.checkpoints
  | createDatabase request =>
      exact serves_map (serves_createDatabase inYears request) fun database => Answer.database (some database)
  | getDatabase request => exact serves_map (serves_getDatabase request) fun database => Answer.database (some database)
  | listDatabases request => exact serves_map (serves_listDatabases request) Answer.databases
  | deleteDatabase request => exact serves_map (serves_deleteDatabase inYears request) fun _ => Answer.done
  | finishDatabaseDeletion request => exact serves_map (serves_finishDatabaseDeletion _ request) Answer.count
  | createSegment request =>
      exact serves_map (serves_createSegment inYears request finite) fun segment => Answer.segment (some segment)
  | getSegments request => exact serves_map (serves_getSegments request) Answer.segments
  | updateSegment request => exact serves_map (serves_updateSegment inYears request finite) fun _ => Answer.done
  | flushSegmentCompaction request =>
      exact serves_map (serves_flushSegmentCompaction inYears request) fun _ => Answer.done
  | flushCollectionCompaction request =>
      exact serves_map (serves_flushCollectionCompaction inYears request) fun _ => Answer.done

end Services

structure Step.IsRegular (step : Step) : Prop where
  inYears : step.clock.HasStoredYear
  prompt : match step.operation with
    | .service call stalled => stalled = [] ∧ ∀ metadata ∈ call.metadata?, metadata.IsFinite
    | .sweep _ stalled => stalled = []
    | .table _ | .transaction _ _ | .overwrite _ _ _ | .migrate | .close => False

structure Session.IsReady (session : Session) : Prop where
  isOpen : session.isOpen = true
  readable : session.store.IsReadable

theorem isReady_start (clock : Instant) : (Session.start clock).IsReady := ⟨rfl, isReadable_empty⟩

section Steps

variable {now : Instant} {session : Session}

theorem service_perform (ready : session.IsReady) (inYears : now.HasStoredYear) (call : ServiceCall)
    (finite : ∀ metadata ∈ call.metadata?, metadata.IsFinite) :
    (Step.perform ⟨now, .service call []⟩ session).2.IsReady ∧
      ((∃ answer, (Step.perform ⟨now, .service call []⟩ session).1 = .answered answer) ∨
        ∃ status, (Step.perform ⟨now, .service call []⟩ session).1 = .refused status ∧ status.IsExpected) := by
  rcases session with ⟨store, isOpen, clock⟩
  obtain ⟨opened, readable⟩ := ready
  cases opened
  have served := (serves_serviceCall inYears call finite).served store readable
  simp only [Step.perform, Session.perform, Session.circumstances]
  rcases done : call.run ⟨now, [], true⟩ store with ⟨outcome, after⟩
  rw [done] at served
  cases served with
  | answered kept => exact ⟨⟨rfl, kept⟩, Or.inl ⟨_, rfl⟩⟩
  | refused expected kept => exact ⟨⟨rfl, kept⟩, Or.inr ⟨_, rfl, expected⟩⟩

theorem sweep_perform (ready : session.IsReady) (grace : Period) :
    (Step.perform ⟨now, .sweep grace []⟩ session).2.IsReady ∧
      match sweepCutoff? grace now with
      | some _ => ∃ count, (Step.perform ⟨now, .sweep grace []⟩ session).1 = .swept (.removed count)
      | none => (Step.perform ⟨now, .sweep grace []⟩ session).1 = .swept .aborted := by
  rcases session with ⟨store, isOpen, clock⟩
  obtain ⟨opened, readable⟩ := ready
  cases opened
  simp only [Step.perform, Session.perform, Session.circumstances, sweep]
  cases sweepCutoff? grace now with
  | none => exact ⟨⟨rfl, readable⟩, rfl⟩
  | some cutoff =>
      have serves : Serves (fun _ => False) now (finishDatabaseDeletion ⟨cutoff⟩) :=
        serves_finishDatabaseDeletion _ ⟨cutoff⟩
      have served := serves.served store readable
      dsimp only
      rcases done : finishDatabaseDeletion ⟨cutoff⟩ ⟨now, [], true⟩ store with ⟨outcome, after⟩
      rw [done] at served
      cases served with
      | answered kept => exact ⟨⟨rfl, kept⟩, _, rfl⟩
      | refused impossible => exact impossible.elim

end Steps

theorem isReady_perform (step : Step) (session : Session) (regular : step.IsRegular) (ready : session.IsReady) :
    (step.perform session).2.IsReady := by
  rcases step with ⟨now, operation⟩
  obtain ⟨inYears, prompt⟩ := regular
  cases operation with
  | service call stalled =>
      obtain ⟨rfl, finite⟩ := prompt
      exact (service_perform ready inYears call finite).1
  | sweep grace stalled =>
      cases prompt
      exact (sweep_perform ready grace).1
  | table | transaction | overwrite | migrate | close => exact prompt.elim

/-- The service never fails for a reason of its own: after any of its calls and sweeps, at times whose years have
four digits, with finite numbers as metadata and with no table stalled, a call is answered or refused as an
invalid argument, as something that is missing or exists already, or as a precondition that fails; and a sweep
removes what it finds if there is a cutoff. -/
theorem service_never_fails_internally (clock : Instant) (steps : List Step) (step : Step)
    (regular : ∀ earlier ∈ steps, earlier.IsRegular) (last : step.IsRegular) :
    let outcome := (step.perform ((Session.start clock).after steps)).1
    (∀ call stalled, step.operation = .service call stalled →
      (∃ answer, outcome = .answered answer) ∨
        ∃ status, outcome = .refused status ∧
          status.code ∈ [StatusCode.invalidArgument, .notFound, .alreadyExists, .failedPrecondition]) ∧
    (∀ grace stalled, step.operation = .sweep grace stalled →
      match sweepCutoff? grace step.clock with
      | some _ => ∃ count, outcome = .swept (.removed count)
      | none => outcome = .swept .aborted) := by
  intro outcome
  have ready : ((Session.start clock).after steps).IsReady :=
    Session.after_keeps Session.IsReady _ isReady_perform steps _ regular (isReady_start clock)
  rcases step with ⟨now, operation⟩
  obtain ⟨inYears, prompt⟩ := last
  constructor
  · rintro call stalled rfl
    obtain ⟨rfl, finite⟩ := prompt
    exact (service_perform ready inYears call finite).2
  · rintro grace stalled rfl
    cases prompt
    exact (sweep_perform ready grace).2

def oneHalf : Metadata := .ofEntries [("weight", .real ⟨4602678819172646912⟩)]

def bookkeeping : List Step × Step :=
  ([⟨firstOfJune, .service (.createTenant ⟨" acme"⟩) []⟩,
    ⟨firstOfJune, .service (.createSegment ⟨.ofByte 1, "urn", .vector, .ofByte 3, some oneHalf⟩) []⟩,
    ⟨firstOfJune, .service (.updateSegment ⟨.ofByte 1, none, some oneHalf, false, some 7⟩) []⟩,
    ⟨firstOfJune, .sweep (.seconds 86400) []⟩],
    ⟨firstOfJune, .service (.deleteDatabase ⟨"main", "acme"⟩) []⟩)

theorem service_never_fails_bookkeeping :
    ∃ status, (bookkeeping.2.perform ((Session.start firstOfJune).after bookkeeping.1)).1 = .refused status ∧
      status.code ∈ [StatusCode.invalidArgument, .notFound, .alreadyExists, .failedPrecondition] := by
  have inYears : firstOfJune.HasStoredYear := by decide +kernel
  have finite : ∀ metadata ∈ some oneHalf, metadata.IsFinite := by decide +kernel
  have nothing : ∀ metadata ∈ (none : Option Metadata), metadata.IsFinite := by decide
  have regular : ∀ earlier ∈ bookkeeping.1, earlier.IsRegular := by
    simp only [bookkeeping, List.forall_mem_cons, List.not_mem_nil, false_implies, implies_true, and_true]
    exact ⟨⟨inYears, rfl, nothing⟩, ⟨inYears, rfl, finite⟩, ⟨inYears, rfl, finite⟩, ⟨inYears, rfl⟩⟩
  refine ((service_never_fails_internally firstOfJune bookkeeping.1 bookkeeping.2 regular
    ⟨inYears, rfl, nothing⟩).1 _ _ rfl).resolve_left ?_
  rintro ⟨answer, answered⟩
  have succeeded : decide (bookkeeping.2.perform ((Session.start firstOfJune).after bookkeeping.1)).1.IsFailure =
      false := congrArg (fun outcome : Outcome => decide outcome.IsFailure) answered
  exact absurd succeeded (by decide +kernel)

end MetadataRegistry
