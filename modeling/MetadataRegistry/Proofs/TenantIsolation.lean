import Mathlib.Data.List.Nodup
import Mathlib.Data.List.Pairwise
import MetadataRegistry.Proofs.CellOrder
import MetadataRegistry.Proofs.Checkpoints
import MetadataRegistry.Proofs.Records
import MetadataRegistry.Proofs.Requests

/-!
Tenants are isolated. What is answered about a tenant depends on the row of the tenant and on its active databases,
whatever else the store holds and in whatever order; and only the writes that are addressed to the tenant change
these.
-/

namespace MetadataRegistry

def DatabaseRow.IsActiveOf (tenant : String) (row : DatabaseRow) : Prop :=
  row.tenantId = .text tenant ∧ row.state = .text "active"

theorem isActiveNamed_iff_isActiveOf {tenant name : String} {row : DatabaseRow} :
    row.isActiveNamed tenant name = true ↔ row.IsActiveOf tenant ∧ row.name = .text name := by
  rw [isActiveNamed_iff]
  constructor
  · rintro ⟨owned, named, active⟩
    exact ⟨⟨owned, active⟩, named⟩
  · rintro ⟨⟨owned, active⟩, named⟩
    exact ⟨owned, named, active⟩

theorem isActiveOf_iff (tenant : String) (row : DatabaseRow) :
    (row.tenantId.same (.text tenant) && row.isActive) = true ↔ row.IsActiveOf tenant := by
  rw [Bool.and_eq_true, Cell.same_text_iff, isActive_iff]
  exact Iff.rfl

/-- Two stores hold the same row of a tenant and the same rows of its active databases. -/
structure Store.Agrees (tenant : String) (left right : Store) : Prop where
  tenants : ∀ row : TenantRow, row.id = .text tenant → (row ∈ left.tenants ↔ row ∈ right.tenants)
  databases : ∀ row : DatabaseRow, row.IsActiveOf tenant → (row ∈ left.databases ↔ row ∈ right.databases)

namespace Store.Agrees

variable {tenant : String} {left between right : Store}

theorem refl (tenant : String) (store : Store) : store.Agrees tenant store := ⟨fun _ _ => Iff.rfl, fun _ _ => Iff.rfl⟩

theorem trans (first : left.Agrees tenant between) (second : between.Agrees tenant right) :
    left.Agrees tenant right where
  tenants row named := (first.tenants row named).trans (second.tenants row named)
  databases row active := (first.databases row active).trans (second.databases row active)

end Store.Agrees

/-- The tenant that a write is addressed to. Removals and writes to segments are addressed to none. -/
def Write.addressed? : Write → Option String
  | insertTenant tenant => some tenant.id
  | advanceCheckpoint id _ => some id
  | bindResourceName id _ => some id
  | insertDatabase database => some database.tenant
  | softDelete tenant _ => some tenant
  | flushCollection flush => some flush.tenantId
  | finishDeletion _ | insertSegment _ | updateSegment _ | flushSegment _ _ => none

theorem mem_map_of_kept {Row : Type} {belongs : Row → Prop} {change : Row → Row}
    (kept : ∀ row, belongs row → change row = row) (made : ∀ row, belongs (change row) → change row = row)
    (rows : List Row) (row : Row) (belong : belongs row) : row ∈ rows ↔ row ∈ rows.map change := by
  rw [List.mem_map]
  constructor
  · exact fun member => ⟨row, member, kept row belong⟩
  · rintro ⟨before, member, rfl⟩
    exact (made before belong).symm ▸ member

theorem mem_append_of_other {Row : Type} (belongs : Row → Prop) {added : Row} (other : ¬belongs added)
    (rows : List Row) (row : Row) (belong : belongs row) : row ∈ rows ↔ row ∈ rows ++ [added] := by
  have different : row ≠ added := fun same => other (same ▸ belong)
  simp [different]

section Writes

variable {now : Instant} {tenant : String}

theorem mem_map_tenants {change : TenantRow → TenantRow} (named : ∀ row, (change row).id = row.id)
    (kept : ∀ row, row.id = .text tenant → change row = row) (rows : List TenantRow) :
    ∀ row : TenantRow, row.id = .text tenant → (row ∈ rows ↔ row ∈ rows.map change) :=
  mem_map_of_kept kept (fun row same => kept row ((named row).symm.trans same)) rows

theorem advanced_of_other {id : String} (other : id ≠ tenant) (time : Int64) {row : TenantRow}
    (named : row.id = .text tenant) : row.advanced now id time = row := by
  refine if_neg fun same => ?_
  exact other (Cell.text.inj (same.symm.trans named))

theorem bound_of_other {id : String} (other : id ≠ tenant) (resourceName : String) {row : TenantRow}
    (named : row.id = .text tenant) : row.bound now id resourceName = row := by
  refine if_neg fun same => ?_
  exact other (Cell.text.inj (same.1.symm.trans named))

theorem deleted_of_other {other : String} (different : other ≠ tenant) (name : String) {row : DatabaseRow}
    (named : row.tenantId = .text tenant) : row.deleted now other name = row := by
  refine if_neg fun same => ?_
  exact different (Cell.text.inj (same.1.symm.trans named))

theorem not_isExpired_of_active {row : DatabaseRow} (active : row.state = .text "active") (cutoff : Int64) :
    row.isExpired cutoff = false := by
  rw [Bool.eq_false_iff]
  intro expired
  have deleted := (Cell.same_text_iff _ _).mp (Bool.and_eq_true_iff.mp expired).1
  rw [active] at deleted
  exact absurd deleted (by decide)

end Writes

theorem agrees_of_did {now : Instant} {write : Write} {tenant : String} {before after : Store}
    (did : write.Did now before after) (other : write.addressed? ≠ some tenant) : before.Agrees tenant after := by
  cases write with
  | insertTenant added =>
      obtain ⟨_, rfl⟩ := did
      have different : ¬(TenantRow.ofTenant added).id = .text tenant :=
        fun same => other (congrArg some (Cell.text.inj same))
      exact { Store.Agrees.refl tenant before with
        tenants := mem_append_of_other (·.id = .text tenant) different before.tenants }
  | advanceCheckpoint id time =>
      obtain ⟨_, rfl⟩ := did
      have different : id ≠ tenant := fun same => other (congrArg some same)
      exact { Store.Agrees.refl tenant before with
        tenants := mem_map_tenants (id_advanced now id time) (fun _ => advanced_of_other different time)
          before.tenants }
  | bindResourceName id resourceName =>
      obtain ⟨_, rfl⟩ := did
      have different : id ≠ tenant := fun same => other (congrArg some same)
      exact { Store.Agrees.refl tenant before with
        tenants := mem_map_tenants (id_bound now id resourceName) (fun _ => bound_of_other different resourceName)
          before.tenants }
  | insertDatabase database =>
      obtain ⟨_, _, _, rfl⟩ := did
      have different : ¬(DatabaseRow.ofDatabase database).IsActiveOf tenant :=
        fun same => other (congrArg some (Cell.text.inj same.1))
      exact { Store.Agrees.refl tenant before with
        databases := mem_append_of_other (·.IsActiveOf tenant) different before.databases }
  | softDelete owner name =>
      obtain ⟨_, rfl⟩ := did
      have different : owner ≠ tenant := fun same => other (congrArg some same)
      refine { Store.Agrees.refl tenant before with databases := mem_map_of_kept ?_ ?_ before.databases }
      · exact fun row belongs => deleted_of_other different name belongs.1
      · exact fun row belongs => deleted_of_active belongs.2
  | finishDeletion cutoff =>
      obtain ⟨kept, sublist, valid, rfl⟩ := did
      refine { Store.Agrees.refl tenant before with
        databases := fun row belongs => ⟨?_, fun stays => sublist.subset stays⟩ }
      exact fun member => valid row member (not_isExpired_of_active belongs.2 _)
  | insertSegment | flushSegment =>
      obtain ⟨_, rfl⟩ := did
      exact { Store.Agrees.refl tenant before with }
  | updateSegment =>
      obtain ⟨_, _, rfl⟩ := did
      exact { Store.Agrees.refl tenant before with }
  | flushCollection flush =>
      obtain ⟨_, rfl⟩ := did
      have different : flush.tenantId ≠ tenant := fun same => other (congrArg some same)
      exact { Store.Agrees.refl tenant before with
        tenants := mem_map_tenants (id_advanced now flush.tenantId flush.compactionTime)
          (fun _ => advanced_of_other different flush.compactionTime) before.tenants }

/-! What is read of stores that agree. -/

theorem find?_eq_some_of_single {Row : Type} {wanted : Row → Bool} {rows : List Row} {row : Row} (stored : row ∈ rows)
    (wants : wanted row) (single : ∀ other ∈ rows, wanted other → other = row) : rows.find? wanted = some row := by
  cases found : rows.find? wanted with
  | none => exact absurd wants (List.find?_eq_none.mp found row stored)
  | some other => rw [single other (List.mem_of_find?_eq_some found) (List.find?_some found)]

theorem find?_eq_of_same {Row : Type} {wanted : Row → Bool} {left right : List Row}
    (single : ∀ row ∈ left, ∀ other ∈ left, wanted row → wanted other → row = other)
    (same : ∀ row, wanted row → (row ∈ left ↔ row ∈ right)) : left.find? wanted = right.find? wanted := by
  cases found : right.find? wanted with
  | none =>
      rw [List.find?_eq_none] at found ⊢
      exact fun row member wants => found row ((same row wants).mp member) wants
  | some row =>
      have wants := List.find?_some found
      have stored := (same row wants).mpr (List.mem_of_find?_eq_some found)
      exact find?_eq_some_of_single stored wants
        fun other also otherWants => single other also row stored otherWants wants

namespace Store

variable {tenant : String} {left right : Store}

def HasNames (tenant : String) (store : Store) : Prop :=
  ∀ row ∈ store.databases, row.IsActiveOf tenant → ∃ name, row.name = .text name

theorem Integral.same_active (integral : left.Integral) {row other : DatabaseRow} (member : row ∈ left.databases)
    (also : other ∈ left.databases) (active : row.IsActiveOf tenant) (otherActive : other.IsActiveOf tenant)
    (named : row.name = other.name) : row = other := by
  have symmetric : Std.Symm fun left right : DatabaseRow => left.state = .text "active" →
      right.state = .text "active" → left.tenantId = right.tenantId → left.name ≠ right.name :=
    ⟨fun _ _ distinct rightActive leftActive owned same => distinct leftActive rightActive owned.symm same.symm⟩
  by_contra different
  exact integral.activeNames.forall member also different active.2 otherActive.2
    (active.1.trans otherActive.1.symm) named

theorem Integral.same_activeNamed (integral : left.Integral) {row other : DatabaseRow} (member : row ∈ left.databases)
    (also : other ∈ left.databases) {name : String} (wanted : row.isActiveNamed tenant name = true)
    (otherWanted : other.isActiveNamed tenant name = true) : row = other := by
  obtain ⟨active, named⟩ := isActiveNamed_iff_isActiveOf.mp wanted
  obtain ⟨otherActive, otherNamed⟩ := isActiveNamed_iff_isActiveOf.mp otherWanted
  exact integral.same_active member also active otherActive (named.trans otherNamed.symm)

theorem Agrees.getTenant (same : left.Agrees tenant right) (integral : left.Integral) :
    left.getTenant tenant = right.getTenant tenant := by
  have found : left.tenant? tenant = right.tenant? tenant := by
    refine find?_eq_of_same ?_ ?_
    · intro row member other also named otherNamed
      have names := (of_decide_eq_true named).trans (of_decide_eq_true otherNamed).symm
      exact List.inj_on_of_nodup_map integral.tenantIds member also names
    · exact fun row named => same.tenants row (of_decide_eq_true named)
  rw [getTenant_eq, getTenant_eq, found]

theorem Agrees.getDatabaseByName (same : left.Agrees tenant right) (integral : left.Integral) (name : String) :
    left.getDatabaseByName tenant name = right.getDatabaseByName tenant name := by
  have found : left.databases.find? (DatabaseRow.isActiveNamed tenant name) =
      right.databases.find? (DatabaseRow.isActiveNamed tenant name) := by
    refine find?_eq_of_same ?_ ?_
    · exact fun row member other also wanted otherWanted => integral.same_activeNamed member also wanted otherWanted
    · exact fun row wanted => same.databases row (isActiveNamed_iff_isActiveOf.mp wanted).1
  rw [Store.getDatabaseByName, Store.getDatabaseByName, found]

theorem Agrees.listDatabases (same : left.Agrees tenant right) (integral : left.Integral)
    (rightIntegral : right.Integral) (names : left.HasNames tenant) (limit offset : Option UInt32) :
    left.listDatabases tenant limit offset = right.listDatabases tenant limit offset := by
  let active (row : DatabaseRow) : Bool := row.tenantId.same (.text tenant) && row.isActive
  have belongs : ∀ row, active row = true ↔ row.IsActiveOf tenant := isActiveOf_iff tenant
  have permuted : (left.databases.filter active).Perm (right.databases.filter active) := by
    refine (List.perm_ext_iff_of_nodup (integral.databaseIds.of_map.filter _)
      (rightIntegral.databaseIds.of_map.filter _)).mpr fun row => ?_
    rw [List.mem_filter, List.mem_filter, belongs]
    exact and_congr_left (same.databases row)
  have sorted : sortRows (·.createdAt) (·.name) (left.databases.filter active) =
      sortRows (·.createdAt) (·.name) (right.databases.filter active) := by
    refine sortRows_eq_of_perm _ _ permuted ?_
    intro row member other also tied
    obtain ⟨stored, rowActive⟩ := List.mem_filter.mp member
    obtain ⟨alsoStored, otherActive⟩ := List.mem_filter.mp also
    rw [belongs] at rowActive otherActive
    obtain ⟨name, named⟩ := names row stored rowActive
    obtain ⟨otherName, otherNamed⟩ := names other alsoStored otherActive
    have tie := (compareRows_eq_iff.mp tied).2
    rw [named, otherNamed, Cell.compare_text_eq_iff] at tie
    exact integral.same_active stored alsoStored rowActive otherActive (by rw [named, otherNamed, tie])
  simp only [Store.listDatabases]
  rw [sorted]

end Store

/-! Actions that ask. -/

structure Alike {α ε : Type} (left right : Store) (action : ReaderT Circumstances (ExceptT ε (StateM Store)) α) :
    Prop where
  answers : ∀ circumstances, ∃ outcome, action circumstances left = (outcome, left) ∧
    action circumstances right = (outcome, right)

section Asking

variable {α β ε : Type} {left right : Store}

theorem alike_pure (value : α) :
    Alike left right (pure value : ReaderT Circumstances (ExceptT ε (StateM Store)) α) :=
  ⟨fun _ => ⟨.ok value, rfl, rfl⟩⟩

theorem alike_bind {first : ReaderT Circumstances (ExceptT ε (StateM Store)) α}
    {next : α → ReaderT Circumstances (ExceptT ε (StateM Store)) β} (asks : Alike left right first)
    (goesOn : ∀ value, Alike left right (next value)) : Alike left right (first >>= next) := by
  constructor
  intro circumstances
  obtain ⟨outcome, onLeft, onRight⟩ := asks.answers circumstances
  simp only [bind_run, onLeft, onRight]
  cases outcome with
  | ok value => exact (goesOn value).answers circumstances
  | error interruption => exact ⟨.error interruption, rfl, rfl⟩

theorem alike_fail (failure : Failure) : Alike left right (Access.fail failure : Access α) :=
  ⟨fun _ => ⟨.error (.failed failure), rfl, rfl⟩⟩

theorem alike_reach (table : Table) : Alike left right (Access.reach table) := by
  constructor
  intro circumstances
  unfold Access.reach
  split
  · exact ⟨_, rfl, rfl⟩
  · exact ⟨_, rfl, rfl⟩

theorem alike_query {read : Store → Except Failure α} (same : read left = read right) :
    Alike left right (Access.query read) := by
  constructor
  intro circumstances
  simp only [Access.query, Access.statement, same]
  split
  · cases read right <;> exact ⟨_, rfl, rfl⟩
  · exact ⟨_, rfl, rfl⟩

theorem alike_of_valid (checked : Except Status α) {next : α → Service β}
    (goesOn : ∀ value, checked = .ok value → Alike left right (next value)) :
    Alike left right (Service.validated checked >>= next) := by
  constructor
  intro circumstances
  simp only [bind_run, Service.validated]
  cases checked with
  | ok value => exact (goesOn value rfl).answers circumstances
  | error status => exact ⟨.error status, rfl, rfl⟩

theorem alike_perform (operation : String) {access : Access α} (asks : Alike left right access) :
    Alike left right (Service.perform operation access) := by
  constructor
  intro circumstances
  obtain ⟨outcome, onLeft, onRight⟩ := asks.answers circumstances
  simp only [Service.perform, onLeft, onRight]
  cases outcome with
  | ok value => exact ⟨_, rfl, rfl⟩
  | error interruption => cases interruption <;> exact ⟨_, rfl, rfl⟩

end Asking

section LookUps

variable {tenant : String} {left right : Store}

theorem alike_findTenant (same : left.Agrees tenant right) (integral : left.Integral) :
    Alike left right (findTenant tenant) := by
  refine alike_bind (alike_reach .tenants) fun _ => alike_bind (alike_query (same.getTenant integral)) fun found => ?_
  cases found with
  | some value => exact alike_pure value
  | none => exact alike_fail _

theorem alike_findDatabase (same : left.Agrees tenant right) (integral : left.Integral) (name : String) :
    Alike left right (findDatabase tenant name) := by
  refine alike_bind (alike_reach .databases) fun _ =>
    alike_bind (alike_query (same.getDatabaseByName integral name)) fun found => ?_
  cases found with
  | some value => exact alike_pure value
  | none => exact alike_bind (alike_findTenant same integral) fun _ => alike_fail _

theorem alike_listTenantDatabases (same : left.Agrees tenant right) (integral : left.Integral)
    (rightIntegral : right.Integral) (names : left.HasNames tenant) (limit offset : Option UInt32) :
    Alike left right (listTenantDatabases tenant limit offset) :=
  alike_bind (alike_findTenant same integral) fun _ => alike_bind (alike_reach .databases) fun _ =>
    alike_query (same.listDatabases integral rightIntegral names limit offset)

end LookUps

def ServiceCall.asked? : ServiceCall → Option String
  | getTenant request => some (trimText request.name)
  | getDatabase request => some (trimText request.tenant)
  | listDatabases request => some (trimText request.tenant)
  | createTenant _ | setTenantResourceName _ | setTenantLastCompactionTime _ | getTenantLastCompactionTimes _
  | createDatabase _ | deleteDatabase _ | finishDatabaseDeletion _ | createSegment _ | getSegments _ | updateSegment _
  | flushSegmentCompaction _ | flushCollectionCompaction _ => none

theorem alike_of_asked {tenant : String} {left right : Store} (same : left.Agrees tenant right)
    (integral : left.Integral) (rightIntegral : right.Integral) (names : left.HasNames tenant) {call : ServiceCall}
    (asks : call.asked? = some tenant) : Alike left right call.run := by
  have owner {field value name : String} (valid : required field value = .ok name)
      (trimmed : trimText value = tenant) : name = tenant := (required_eq_ok_iff.mp valid).1.symm.trans trimmed
  cases call with
  | getTenant request =>
      refine alike_bind (alike_of_valid _ fun name valid => ?_) fun found => alike_pure _
      cases owner valid (Option.some.inj asks)
      exact alike_perform _ (alike_findTenant same integral)
  | getDatabase request =>
      refine alike_bind (alike_of_valid _ fun name _ => alike_of_valid _ fun named valid => ?_) fun _ => alike_pure _
      cases owner valid (Option.some.inj asks)
      exact alike_perform _ (alike_findDatabase same integral name)
  | listDatabases request =>
      refine alike_bind (alike_of_valid _ fun name valid => ?_) fun found => alike_pure _
      cases owner valid (Option.some.inj asks)
      exact alike_perform _ (alike_listTenantDatabases same integral rightIntegral names request.limit request.offset)
  | _ => cases asks

def Step.Asks (tenant : String) (step : Step) : Prop :=
  ∃ call stalled, step.operation = .service call stalled ∧ call.asked? = some tenant

theorem outcome_of_agrees {tenant : String} {left right : Session} (same : left.store.Agrees tenant right.store)
    (opened : left.isOpen = right.isOpen) (integral : left.store.Integral) (rightIntegral : right.store.Integral)
    (names : left.store.HasNames tenant) {ask : Step} (asks : ask.Asks tenant) :
    (ask.perform left).1 = (ask.perform right).1 := by
  rcases ask with ⟨clock, operation⟩
  obtain ⟨call, stalled, rfl, asked⟩ := asks
  obtain ⟨outcome, onLeft, onRight⟩ := (alike_of_asked same integral rightIntegral names asked).answers
    ⟨clock, stalled, left.isOpen⟩
  rw [opened] at onRight
  simp only [Step.perform, Session.perform, Session.circumstances, onLeft, onRight]
  cases outcome <;> rfl

def ServiceCall.addressed? : ServiceCall → Option String
  | createTenant request => some (trimText request.name)
  | setTenantResourceName request => some (trimText request.id)
  | setTenantLastCompactionTime request => some (trimText request.tenantId)
  | createDatabase request => some (trimText request.tenant)
  | deleteDatabase request => some (trimText request.tenant)
  | flushCollectionCompaction request => some (trimText request.tenantId)
  | getTenant _ | getTenantLastCompactionTimes _ | getDatabase _ | listDatabases _ | finishDatabaseDeletion _
  | createSegment _ | getSegments _ | updateSegment _ | flushSegmentCompaction _ => none

theorem ServiceCall.Writes.addressed? {now : Instant} {call : ServiceCall} {write : Write}
    (writes : call.Writes now write) : write.addressed? = call.addressed? := by
  have owner {field value name : String} (valid : required field value = .ok name) :
      some name = some (trimText value) := congrArg some (required_eq_ok_iff.mp valid).1.symm
  cases writes with
  | createTenant named => exact owner named
  | setTenantResourceName named bound => exact owner named
  | setTenantLastCompactionTime named reached => exact owner named
  | createDatabase identified named owned => exact owner owned
  | deleteDatabase named owned => exact owner owned
  | flushCollectionCompaction named reached visible => exact owner named
  | finishDatabaseDeletion | createSegment | updateSegment | flushSegmentCompaction => rfl

theorem Operation.IsOffered.writes {operation : Operation} {now : Instant} {write : Write}
    (offered : operation.IsOffered) (makes : operation.write? now = some write) :
    (∃ call stalled, operation = .service call stalled ∧ call.Writes now write) ∨
      ∃ cutoff, write = .finishDeletion cutoff := by
  cases operation with
  | service call stalled => exact Or.inl ⟨call, stalled, rfl, ServiceCall.writes_of_write? makes⟩
  | sweep grace stalled =>
      obtain ⟨cutoff, _, same⟩ := Option.map_eq_some_iff.mp makes
      exact Or.inr ⟨cutoff, same.symm⟩
  | table | transaction | overwrite | migrate | close => exact offered.elim

def Operation.Spares (tenant : String) : Operation → Prop
  | service call _ => call.addressed? ≠ some tenant
  | sweep _ _ => True
  | table _ | transaction _ _ | overwrite _ _ _ | migrate | close => False

instance (tenant : String) : DecidablePred (Operation.Spares tenant)
  | .service call _ => inferInstanceAs (Decidable (call.addressed? ≠ some tenant))
  | .sweep _ _ => isTrue trivial
  | .table _ | .transaction _ _ | .overwrite _ _ _ | .migrate | .close => isFalse id

section Sparing

variable {tenant : String} {operation : Operation}

theorem Operation.Spares.isOffered (spares : operation.Spares tenant) : operation.IsOffered := by
  cases operation with
  | service | sweep => trivial
  | table | transaction | overwrite | migrate | close => exact spares.elim

theorem Operation.Spares.addressed? (spares : operation.Spares tenant) {now : Instant} {write : Write}
    (makes : operation.write? now = some write) : write.addressed? ≠ some tenant := by
  rcases spares.isOffered.writes makes with ⟨call, stalled, rfl, writes⟩ | ⟨cutoff, rfl⟩
  · rw [writes.addressed?]
    exact spares
  · exact nofun

theorem agrees_after (others : List Step) (session : Session) (spare : ∀ step ∈ others, step.operation.Spares tenant)
    (identified : session.store.HasIdentifiers) : session.store.Agrees tenant (session.after others).store :=
  Session.store_after_keeps_of_single (session.store.Agrees tenant) (·.operation.Spares tenant)
    (fun _ spares => spares.isOffered.isSingle)
    (fun _ _ _ _ spares makes did same => same.trans (agrees_of_did did (spares.addressed? makes)))
    others session spare identified (.refl tenant session.store)

end Sparing

theorem Session.isOpen_after (steps : List Step) (session : Session) (calls : ∀ step ∈ steps, step.operation.IsCall) :
    (session.after steps).isOpen = session.isOpen :=
  after_keeps (fun other => other.isOpen = session.isOpen) _
    (fun step other call same => (isOpen_perform step.operation { other with clock := step.clock } call).trans same)
    steps session calls rfl

theorem Store.HoldsRecords.hasNames {store : Store} (records : store.HoldsRecords) (tenant : String) :
    store.HasNames tenant := by
  intro row member _
  obtain ⟨database, rfl⟩ := records.databases row member
  exact ⟨database.name, rfl⟩

/-- What the service answers about a tenant and its databases, at any time, is the same before and after any
operations of the service that are not writes addressed to this tenant, whatever they write elsewhere. And it is the
same on any two stores that hold the same row of the tenant and the same rows of its active databases, in whatever
order, whatever else they hold: of the other rows only the uniqueness that the store enforces is taken for granted. -/
theorem tenants_are_isolated (tenant : String) :
    (∀ (clock : Instant) (steps others : List Step) (ask : Step), (∀ step ∈ steps, step.operation.IsOrdinary) →
      (∀ step ∈ others, step.operation.Spares tenant) → ask.Asks tenant →
        (ask.perform (((Session.start clock).after steps).after others)).1 =
          (ask.perform ((Session.start clock).after steps)).1) ∧
    (∀ (left right : Session) (ask : Step), left.isOpen = right.isOpen → left.store.Agrees tenant right.store →
      left.store.Integral → right.store.Integral → left.store.HasNames tenant → ask.Asks tenant →
        (ask.perform left).1 = (ask.perform right).1) := by
  refine ⟨?_, fun left right ask opened same integral rightIntegral names asks =>
    outcome_of_agrees same opened integral rightIntegral names asks⟩
  intro clock steps others ask ordinary spare asks
  have proper := Session.isProper_after steps (Session.start clock) ordinary isProper_empty
  have calls := fun step member => (spare step member).isOffered.isCall
  have later := Session.isProper_after others _ (fun step member => (calls step member).isOrdinary) proper
  have same := agrees_after others _ spare proper.records.hasIdentifiers
  have opened := Session.isOpen_after others ((Session.start clock).after steps) calls
  exact (outcome_of_agrees same opened.symm proper.integral later.integral (proper.records.hasNames tenant) asks).symm

def neighbours : List Step × List Step :=
  let created (byte : UInt8) (tenant : String) : Database := .create (.ofByte byte) "main" tenant firstOfJune
  ([⟨firstOfJune, .service (.createTenant ⟨"acme"⟩) []⟩, ⟨firstOfJune, .service (.createTenant ⟨"zenith"⟩) []⟩,
    ⟨firstOfJune, .table (.insertDatabase (created 1 "acme"))⟩,
    ⟨firstOfJune, .table (.insertDatabase (created 2 "zenith"))⟩],
    [⟨firstOfJune, .service (.setTenantResourceName ⟨"zenith", "arn"⟩) []⟩,
      ⟨firstOfJune, .service (.deleteDatabase ⟨"main", " zenith"⟩) []⟩, ⟨firstOfJune, .sweep (.seconds (-1)) []⟩])

theorem tenants_are_isolated_neighbours :
    let before := (Session.start firstOfJune).after neighbours.1
    let ask : Step := ⟨firstOfJune, .service (.listDatabases ⟨" acme", some 10, none⟩) []⟩
    let turned : Session := { before with store := { before.store with databases := before.store.databases.reverse } }
    before.store.databases.length = 2 ∧ (before.after neighbours.2).store.databases.length = 1 ∧
      (ask.perform (before.after neighbours.2)).1 = (ask.perform before).1 ∧
      (ask.perform before).1 = (ask.perform turned).1 := by
  intro before ask turned
  have asks : ask.Asks "acme" := ⟨_, _, rfl, by decide +kernel⟩
  have proper := Session.isProper_after neighbours.1 (Session.start firstOfJune) (by decide) isProper_empty
  have same : before.store.Agrees "acme" turned.store := ⟨fun _ _ => Iff.rfl, fun _ _ => List.mem_reverse.symm⟩
  have integral : turned.store.Integral := { proper.integral with
    databaseIds := by decide +kernel
    activeNames := by decide +kernel
    references := by decide +kernel }
  obtain ⟨apart, alike⟩ := tenants_are_isolated "acme"
  exact ⟨by decide +kernel, by decide +kernel,
    apart firstOfJune neighbours.1 neighbours.2 ask (by decide) (by decide +kernel) asks,
    alike before turned ask rfl same proper.integral integral (proper.records.hasNames "acme") asks⟩

end MetadataRegistry
