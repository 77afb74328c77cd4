import MetadataRegistry.Proofs.TenantRows

/-!
The checkpoint of a tenant is the greatest of the one that it was inserted with and of all that were accepted
for it since, by themselves or with a collection flush. So it never goes back, and the order in which
checkpoints arrive makes no difference.
-/

namespace MetadataRegistry

theorem toInt_max (left right : Int64) : (max left right).toInt = max left.toInt right.toInt := by
  have order : left ≤ right ↔ left.toInt ≤ right.toInt := Int64.le_iff_toInt_le
  have maximum : max left right = if left ≤ right then right else left := rfl
  rw [maximum]
  by_cases less : left ≤ right
  · have := order.mp less
    rw [if_pos less]
    omega
  · have := mt order.mpr less
    rw [if_neg less]
    omega

theorem max_right_comm_word (first second third : Int64) :
    max (max first second) third = max (max first third) second := by
  apply Int64.toInt_inj.mp
  simp only [toInt_max]
  omega

theorem le_foldl_max (times : List Int64) : ∀ old : Int64, old ≤ times.foldl max old := by
  induction times with
  | nil => exact Int64.le_refl
  | cons time rest ih =>
      intro old
      have grown : old ≤ max old time := by
        rw [Int64.le_iff_toInt_le, toInt_max]
        omega
      exact Int64.le_trans grown (ih (max old time))

def Cell.integer? : Cell → Option Int64
  | .integer value => some value
  | _ => none

def Store.checkpoint? (id : String) (store : Store) : Option Int64 :=
  (store.tenant? id).bind fun row => row.lastCompactionTime.integer?

theorem checkpoint?_of_getTenant {id : String} {store : Store} {tenant : Tenant}
    (read : store.getTenant id = .ok (some tenant)) : store.checkpoint? id = some tenant.lastCompactionTime := by
  obtain ⟨row, found, _, stored⟩ := row_of_getTenant read
  rw [Store.checkpoint?, found, Option.bind_some, stored]
  rfl

def Write.advance? (id : String) : Write → Option Int64
  | advanceCheckpoint other time => if other = id then some time else none
  | flushCollection flush => if flush.tenantId = id then some flush.compactionTime else none
  | insertTenant _ | bindResourceName _ _ | insertDatabase _ | softDelete _ _ | finishDeletion _ | insertSegment _
  | updateSegment _ | flushSegment _ _ => none

def Session.advances (id : String) (steps : List Step) (session : Session) : List Int64 :=
  (session.log steps).filterMap fun entry => entry.write.advance? id

structure TenantRow.HasCheckpoint (id : String) (time : Int64) (row : TenantRow) : Prop where
  named : row.id = .text id
  stored : row.lastCompactionTime = .integer time

theorem hasCheckpoint_advanced {id : String} {old : Int64} {row : TenantRow} (before : row.HasCheckpoint id old)
    (now : Instant) (other : String) (time : Int64) :
    (row.advanced now other time).HasCheckpoint id (if other = id then max old time else old) := by
  refine ⟨by rw [id_advanced, before.named], ?_⟩
  unfold TenantRow.advanced
  by_cases same : other = id
  · rw [if_pos same, if_pos (by rw [before.named, same])]
    simp only [before.stored, laterCheckpoint]
  · rw [if_neg same, if_neg (by rw [before.named]; simpa using Ne.symm same)]
    exact before.stored

theorem hasCheckpoint_tenantAfter {id : String} {old : Int64} {row : TenantRow} (before : row.HasCheckpoint id old)
    (now : Instant) (write : Write) :
    ∃ after, write.tenantAfter now id (some row) = some after ∧
      after.HasCheckpoint id (((write.advance? id).map (max old)).getD old) := by
  cases write with
  | advanceCheckpoint other time =>
      refine ⟨_, rfl, ?_⟩
      have advanced := hasCheckpoint_advanced before now other time
      rw [Write.advance?]
      split <;> simpa [*] using advanced
  | flushCollection flush =>
      refine ⟨_, rfl, ?_⟩
      have advanced := hasCheckpoint_advanced before now flush.tenantId flush.compactionTime
      rw [Write.advance?]
      split <;> simpa [*] using advanced
  | bindResourceName other resourceName =>
      refine ⟨_, rfl, by rw [id_bound, before.named], ?_⟩
      unfold TenantRow.bound
      split <;> exact before.stored
  | insertTenant | insertDatabase | softDelete | finishDeletion | insertSegment | updateSegment | flushSegment =>
      exact ⟨row, rfl, before⟩

theorem hasCheckpoint_foldl (id : String) (log : List LogEntry) : ∀ (row : TenantRow) (old : Int64),
    row.HasCheckpoint id old →
      ∃ after, log.foldl (fun row entry => entry.write.tenantAfter entry.time id row) (some row) = some after ∧
        after.HasCheckpoint id ((log.filterMap fun entry => entry.write.advance? id).foldl max old) := by
  induction log with
  | nil => exact fun row old before => ⟨row, rfl, before⟩
  | cons entry rest ih =>
      intro row old before
      obtain ⟨between, changed, stored⟩ := hasCheckpoint_tenantAfter before entry.time entry.write
      obtain ⟨after, folded, final⟩ := ih between _ stored
      refine ⟨after, by rw [List.foldl_cons, changed, folded], ?_⟩
      cases accepted : entry.write.advance? id with
      | none => simpa [List.filterMap_cons, accepted] using final
      | some time => simpa [List.filterMap_cons, accepted] using final

theorem hasCheckpoint_of_checkpoint? {id : String} {store : Store} {time : Int64}
    (stored : store.checkpoint? id = some time) :
    ∃ row, store.tenant? id = some row ∧ row.HasCheckpoint id time := by
  obtain ⟨row, found, read⟩ := Option.bind_eq_some_iff.mp stored
  refine ⟨row, found, id_of_tenant? found, ?_⟩
  cases cell : row.lastCompactionTime with
  | integer value =>
      rw [cell] at read
      rw [Option.some.inj read]
  | null | real | text | bytes =>
      rw [cell] at read
      cases read

theorem checkpoint?_after {id : String} {old : Int64} {session : Session} (steps : List Step)
    (ordinary : ∀ step ∈ steps, step.operation.IsOrdinary) (identified : session.store.HasIdentifiers)
    (stored : session.store.checkpoint? id = some old) :
    (session.after steps).store.checkpoint? id = some ((session.advances id steps).foldl max old) := by
  obtain ⟨row, found, before⟩ := hasCheckpoint_of_checkpoint? stored
  obtain ⟨after, folded, final⟩ := hasCheckpoint_foldl id (session.log steps) row old before
  have replayed := tenant?_replays id (replays_log steps session ordinary identified) identified
  rw [found, folded] at replayed
  rw [Store.checkpoint?, replayed, Option.bind_some, final.stored]
  rfl

theorem checkpoint?_of_insertion {now : Instant} {tenant : Tenant} {before after : Store}
    (did : (Write.insertTenant tenant).Did now before after) :
    after.checkpoint? tenant.id = some tenant.lastCompactionTime := by
  have absent : before.tenant? tenant.id = none := tenant?_eq_none.mpr did.1
  rw [Store.checkpoint?, tenant?_of_did tenant.id did, absent]
  simp [Write.tenantAfter, TenantRow.ofTenant, Cell.integer?]

def Operation.IsOffered : Operation → Prop
  | service _ _ | sweep _ _ => True
  | table _ | transaction _ _ | overwrite _ _ _ | migrate | close => False

instance : DecidablePred Operation.IsOffered
  | .service _ _ | .sweep _ _ => isTrue trivial
  | .table _ | .transaction _ _ | .overwrite _ _ _ | .migrate | .close => isFalse id

theorem Operation.IsOffered.isSingle {operation : Operation} (offered : operation.IsOffered) : operation.IsSingle := by
  cases operation with
  | service | sweep => trivial
  | table | transaction | overwrite | migrate | close => exact offered.elim

theorem Operation.IsOffered.isCall {operation : Operation} (offered : operation.IsOffered) : operation.IsCall := by
  cases operation with
  | service | sweep => trivial
  | table | transaction | overwrite | migrate | close => exact offered.elim

theorem lastCompactionTime_of_offered {operation : Operation} {now : Instant} {tenant : Tenant}
    (offered : operation.IsOffered) (inserts : operation.write? now = some (.insertTenant tenant)) :
    tenant.lastCompactionTime = Tenant.neverCompactedTime := by
  cases operation with
  | service call stalled =>
      cases call with
      | createTenant request =>
          obtain ⟨name, _, created⟩ := Option.bind_eq_some_iff.mp inserts
          cases created
          rfl
      | _ => simp [Operation.write?, ServiceCall.write?, Option.bind_eq_some_iff] at inserts
  | sweep grace stalled => simp [Operation.write?] at inserts
  | table | transaction | overwrite | migrate | close => exact offered.elim

/-- However a run goes on after a tenant is inserted: its checkpoint, as it is stored and as it is read, is the
greatest of the one inserted and of those accepted since, whatever their order. It never goes back, and below zero
only a direct call on the table can bring it. -/
theorem checkpoint_is_maximum (clock : Instant) (earlier later : List Step) (insertion : Step) (tenant : Tenant)
    (ordinary : ∀ step ∈ earlier ++ insertion :: later, step.operation.IsOrdinary)
    (inserts : insertion.operation.write? insertion.clock = some (.insertTenant tenant))
    (success : ¬(insertion.perform ((Session.start clock).after earlier)).1.IsFailure) :
    let inserted := (insertion.perform ((Session.start clock).after earlier)).2
    (inserted.after later).store.checkpoint? tenant.id =
        some ((inserted.advances tenant.id later).foldl max tenant.lastCompactionTime) ∧
      (∀ read, (inserted.after later).store.getTenant tenant.id = .ok (some read) →
        read.lastCompactionTime = (inserted.advances tenant.id later).foldl max tenant.lastCompactionTime) ∧
      (∀ other : List Step, (∀ step ∈ other, step.operation.IsOrdinary) →
        (inserted.advances tenant.id other).Perm (inserted.advances tenant.id later) →
          (inserted.after other).store.checkpoint? tenant.id = (inserted.after later).store.checkpoint? tenant.id) ∧
      (∀ front back : List Step, later = front ++ back →
        ∃ between final, (inserted.after front).store.checkpoint? tenant.id = some between ∧
          (inserted.after later).store.checkpoint? tenant.id = some final ∧ between ≤ final) ∧
      ((∀ step ∈ earlier ++ insertion :: later, step.operation.IsOffered) →
        ∃ final, (inserted.after later).store.checkpoint? tenant.id = some final ∧ 0 ≤ final) := by
  intro inserted
  rw [List.forall_mem_append, List.forall_mem_cons] at ordinary
  obtain ⟨before, _, after⟩ := ordinary
  have identified := Session.hasIdentifiers_after earlier (Session.start clock) before hasIdentifiers_empty
  have did := did_of_success inserts success identified
  have between := hasIdentifiers_of_did identified did
  have stored : inserted.store.checkpoint? tenant.id = some tenant.lastCompactionTime := checkpoint?_of_insertion did
  have reached := fun steps ordinary => checkpoint?_after steps ordinary between stored
  refine ⟨reached later after, ?_, ?_, ?_, ?_⟩
  · intro read told
    exact Option.some.inj ((checkpoint?_of_getTenant told).symm.trans (reached later after))
  · intro other others same
    rw [reached other others, reached later after]
    congr 1
    exact same.foldl_eq' (fun _ _ _ _ _ => max_right_comm_word _ _ _) _
  · rintro front back rfl
    obtain ⟨fronts, backs⟩ := List.forall_mem_append.mp after
    have middle := Session.hasIdentifiers_after front inserted fronts between
    have final := checkpoint?_after back backs middle (reached front fronts)
    rw [← Session.after_append] at final
    exact ⟨_, _, reached front fronts, final, le_foldl_max _ _⟩
  · intro offered
    have never := lastCompactionTime_of_offered (offered insertion (by simp)) inserts
    refine ⟨_, reached later after, ?_⟩
    rw [never]
    exact le_foldl_max _ Tenant.neverCompactedTime

def advancing : Step × List Step :=
  (⟨firstOfJune, .table (.insertTenant ⟨"acme", none, 5, firstOfJune, firstOfJune⟩)⟩,
    [⟨firstOfJune, .table (.advanceCheckpoint "acme" 3)⟩,
      ⟨firstOfJune, .service (.setTenantLastCompactionTime ⟨" acme ", 9⟩) []⟩,
      ⟨firstOfJune, .table (.flushCollection ⟨"acme", .ofByte 3, [⟨.ofByte 1, .empty⟩], 100⟩)⟩,
      ⟨firstOfJune, .service (.flushCollectionCompaction ⟨"acme", .ofByte 3, [], 7⟩) []⟩])

theorem checkpoint_after_advancing :
    ((advancing.1.perform (Session.start firstOfJune)).2.after advancing.2).store.checkpoint? "acme" = some 9 := by
  have maximum := (checkpoint_is_maximum firstOfJune [] advancing.2 advancing.1
    ⟨"acme", none, 5, firstOfJune, firstOfJune⟩ (by decide +kernel) rfl (by decide +kernel)).1
  exact maximum.trans (by decide +kernel)

end MetadataRegistry
