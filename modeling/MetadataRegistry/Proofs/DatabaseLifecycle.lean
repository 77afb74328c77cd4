import Mathlib.Data.List.Nodup
import Mathlib.Logic.ExistsUnique
import MetadataRegistry.Proofs.Records
import MetadataRegistry.Proofs.StoredTime

/-!
The lifecycle of a database goes one way: from active to soft-deleted, by a deletion, and from there out of the
store, by a sweep whose cutoff it lies before. Nothing else changes the row of a database.
-/

namespace MetadataRegistry

namespace DatabaseRow

def softDeleted (now : Instant) (row : DatabaseRow) : DatabaseRow :=
  { row with
    state := .text "soft_deleted"
    deletedAt := .integer (.ofInt now.epochMillis)
    updatedAt := .text now.storedText }

structure WasDeletedBefore (cutoff : Instant) (row : DatabaseRow) : Prop where
  state : row.state = .text "soft_deleted"
  deletedAt : ∃ millis, row.deletedAt = .integer millis ∧ millis.toInt < cutoff.epochMillis

end DatabaseRow

theorem deleted_of_named {tenant name : String} {row : DatabaseRow} (named : row.HasActiveName tenant name)
    (now : Instant) : row.deleted now tenant name = row.softDeleted now := if_pos named

theorem wasDeletedBefore_of_isExpired {cutoff : Instant} {database : Database}
    (expired : (DatabaseRow.ofDatabase database).isExpired (.ofInt cutoff.epochMillis) = true) :
    (DatabaseRow.ofDatabase database).WasDeletedBefore cutoff := by
  obtain ⟨deleted, below⟩ := Bool.and_eq_true_iff.mp expired
  refine ⟨(Cell.same_text_iff _ _).mp deleted, ?_⟩
  rw [DatabaseRow.ofDatabase] at below ⊢
  cases deletedAt : database.deletedAt with
  | none =>
      rw [deletedAt] at below
      cases below
  | some instant =>
      rw [deletedAt] at below
      have earlier := (Cell.below_integer _ _).mp below
      rw [toInt_epochMillis cutoff] at earlier
      exact ⟨.ofInt instant.epochMillis, rfl, earlier⟩

theorem Store.Integral.same_database {store : Store} (integral : store.Integral) {row other : DatabaseRow}
    (member : row ∈ store.databases) (also : other ∈ store.databases) (same : row.databaseId = other.databaseId) :
    row = other :=
  List.inj_on_of_nodup_map integral.databaseIds member also same

theorem state_ne : Cell.text "soft_deleted" ≠ .text "active" := by decide

/-- What can become of the row of a database in one step. -/
inductive Fate where
  | kept
  | softDeleted
  | removed

def Fate.Meets (step : Step) (outcome : Outcome) (after : Store) (row : DatabaseRow) : Fate → Prop
  | kept => row ∈ after.databases
  | softDeleted => ∃ tenant name, step.operation.write? step.clock = some (.softDelete tenant name) ∧
      ¬outcome.IsFailure ∧ row.HasActiveName tenant name ∧ row.softDeleted step.clock ∈ after.databases
  | removed => ∃ cutoff, step.operation.write? step.clock = some (.finishDeletion cutoff) ∧
      ¬outcome.IsFailure ∧ row.WasDeletedBefore cutoff ∧ ∀ other ∈ after.databases, other.databaseId ≠ row.databaseId

section Fates

variable {step : Step} {outcome : Outcome} {before after : Store} {row : DatabaseRow}

theorem not_kept_and_softDeleted (integral : after.Integral) (kept : Fate.kept.Meets step outcome after row)
    (deleted : Fate.softDeleted.Meets step outcome after row) : False := by
  obtain ⟨tenant, name, _, _, ⟨_, _, active⟩, changed⟩ := deleted
  have same : row = row.softDeleted step.clock := integral.same_database kept changed rfl
  rw [same] at active
  exact state_ne active

theorem not_removed_and_softDeleted (removed : Fate.removed.Meets step outcome after row)
    (deleted : Fate.softDeleted.Meets step outcome after row) : False := by
  obtain ⟨_, _, _, _, gone⟩ := removed
  obtain ⟨_, _, _, _, _, changed⟩ := deleted
  exact gone _ changed rfl

theorem not_kept_and_removed (kept : Fate.kept.Meets step outcome after row)
    (removed : Fate.removed.Meets step outcome after row) : False := by
  obtain ⟨_, _, _, _, gone⟩ := removed
  exact gone row kept rfl

theorem Fate.Meets.unique (integral : after.Integral) {first second : Fate}
    (one : first.Meets step outcome after row) (other : second.Meets step outcome after row) : second = first := by
  cases first with
  | kept =>
      cases second with
      | kept => rfl
      | softDeleted => exact (not_kept_and_softDeleted integral one other).elim
      | removed => exact (not_kept_and_removed one other).elim
  | softDeleted =>
      cases second with
      | kept => exact (not_kept_and_softDeleted integral other one).elim
      | softDeleted => rfl
      | removed => exact (not_removed_and_softDeleted other one).elim
  | removed =>
      cases second with
      | kept => exact (not_kept_and_removed other one).elim
      | softDeleted => exact (not_removed_and_softDeleted one other).elim
      | removed => rfl

theorem kept_of_transactionWrite {now : Instant} (made : TransactionWrite) (did : made.write.Did now before after)
    (member : row ∈ before.databases) : row ∈ after.databases := by
  cases made with
  | insertTenant | advanceCheckpoint | flushSegment =>
      obtain ⟨_, rfl⟩ := did
      exact member
  | insertDatabase database =>
      obtain ⟨_, _, _, rfl⟩ := did
      exact List.mem_append_left _ member

theorem meets_of_did {write : Write} (proper : before.IsProper)
    (makes : step.operation.write? step.clock = some write) (success : ¬outcome.IsFailure)
    (did : write.Did step.clock before after) (member : row ∈ before.databases) :
    ∃ fate : Fate, fate.Meets step outcome after row := by
  cases write with
  | softDelete tenant name =>
      obtain ⟨_, rfl⟩ := did
      have changed : row.deleted step.clock tenant name ∈ before.databases.map (.deleted step.clock tenant name) :=
        List.mem_map_of_mem member
      by_cases named : row.HasActiveName tenant name
      · rw [deleted_of_named named] at changed
        exact ⟨.softDeleted, tenant, name, makes, success, named, changed⟩
      · rw [DatabaseRow.deleted, if_neg named] at changed
        exact ⟨.kept, changed⟩
  | finishDeletion cutoff =>
      obtain ⟨kept, sublist, valid, rfl⟩ := did
      by_cases stays : row ∈ kept
      · exact ⟨.kept, stays⟩
      · obtain ⟨database, rfl⟩ := proper.records.databases row member
        have expired := mt (valid _ member) stays
        rw [Bool.not_eq_false] at expired
        refine ⟨.removed, cutoff, makes, success, wasDeletedBefore_of_isExpired expired, ?_⟩
        -- A row that remains was there before, and no other row had this identifier.
        intro other remains same
        exact stays (proper.integral.same_database (sublist.subset remains) member same ▸ remains)
  | insertDatabase database =>
      obtain ⟨_, _, _, rfl⟩ := did
      exact ⟨.kept, List.mem_append_left _ member⟩
  | updateSegment =>
      obtain ⟨_, _, rfl⟩ := did
      exact ⟨.kept, member⟩
  | insertTenant | advanceCheckpoint | bindResourceName | insertSegment | flushSegment | flushCollection =>
      obtain ⟨_, rfl⟩ := did
      exact ⟨.kept, member⟩

end Fates

theorem meets_of_perform {step : Step} {session : Session} {row : DatabaseRow}
    (ordinary : step.operation.IsOrdinary) (proper : session.store.IsProper)
    (member : row ∈ session.store.databases) :
    ∃ fate : Fate, fate.Meets step (step.perform session).1 (step.perform session).2.store row := by
  have identified := proper.records.hasIdentifiers
  cases makes : step.operation.write? step.clock with
  | none =>
      -- Only a transaction writes here, and its log has neither a deletion nor a removal.
      have replayed := replays_step step session ordinary identified
      refine ⟨.kept, (replayed.keeps (fun store => row ∈ store.databases) ?_ identified member).2⟩
      intro entry logged before after did stored
      rcases write_of_mem_log logged with ⟨made, same⟩ | ⟨_, impossible⟩
      · rw [← same] at did
        exact kept_of_transactionWrite made did stored
      · rw [makes] at impossible
        cases impossible
  | some write =>
      by_cases failure : (step.perform session).1.IsFailure
      · have performed := performed_perform step.operation { session with clock := step.clock }
          (isSingle_of_write? makes) identified
        have unchanged : (step.perform session).2.store = session.store := performed.kept failure
        exact ⟨.kept, unchanged.symm ▸ member⟩
      · exact meets_of_did proper makes failure (did_of_success makes failure identified) member

theorem map_deleted_of_others (now : Instant) {tenant name : String} {rows : List DatabaseRow}
    (others : ∀ row ∈ rows, ¬row.HasActiveName tenant name) : rows.map (.deleted now tenant name) = rows := by
  refine (List.map_congr_left ?_).trans (List.map_id rows)
  intro row member
  exact if_neg (others row member)

theorem databases_of_softDelete {now : Instant} {tenant name : String} {before after : Store}
    (integral : before.Integral) (did : (Write.softDelete tenant name).Did now before after) :
    ∃ front row back, before.databases = front ++ row :: back ∧ row.HasActiveName tenant name ∧
      after.databases = front ++ row.softDeleted now :: back := by
  obtain ⟨⟨row, member, named⟩, rfl⟩ := did
  obtain ⟨front, back, parts⟩ := List.append_of_mem member
  have distinct := integral.activeNames
  rw [parts, List.pairwise_append, List.pairwise_cons] at distinct
  obtain ⟨_, ⟨behind, _⟩, across⟩ := distinct
  have inFront : ∀ other ∈ front, ¬other.HasActiveName tenant name := by
    rintro other member ⟨sameTenant, sameName, otherActive⟩
    exact across other member row List.mem_cons_self otherActive named.2.2
      (sameTenant.trans named.1.symm) (sameName.trans named.2.1.symm)
  have inBack : ∀ other ∈ back, ¬other.HasActiveName tenant name := by
    rintro other member ⟨sameTenant, sameName, otherActive⟩
    exact behind other member named.2.2 otherActive (named.1.trans sameTenant.symm)
      (named.2.1.trans sameName.symm)
  refine ⟨front, row, back, parts, named, ?_⟩
  rw [parts, List.map_append, List.map_cons, map_deleted_of_others now inFront, map_deleted_of_others now inBack,
    deleted_of_named named]

def afterFirstOfJune : Instant := ⟨1717200001, 0, by decide, by decide⟩

def turnover : List Step × Step :=
  let created (byte : UInt8) : Database := .create (.ofByte byte) "main" "acme" firstOfJune
  ([⟨firstOfJune, .service (.createTenant ⟨"acme"⟩) []⟩,
    ⟨firstOfJune, .table (.insertDatabase (created 1))⟩,
    ⟨firstOfJune, .service (.deleteDatabase ⟨"main", "acme"⟩) []⟩,
    ⟨firstOfJune, .table (.insertDatabase (created 2))⟩],
    ⟨afterFirstOfJune, .service (.deleteDatabase ⟨" main", "acme "⟩) []⟩)

end MetadataRegistry
