import Mathlib.Algebra.GroupWithZero.Nat
import MetadataRegistry.Proofs.Access
import MetadataRegistry.Proofs.CellOrder
import MetadataRegistry.Proofs.Failures
import MetadataRegistry.Proofs.Periods
import MetadataRegistry.Proofs.ResourceNames

/-!
Sweeps of deleted databases. A removal takes the candidates one by one, yet it comes to one selection: the rows
that are due by its cutoff go, and their number is told. So removals with nothing written in between come to the
one with the latest cutoff, in whatever order they are made.
-/

namespace MetadataRegistry

structure DatabaseRow.IsDue (cutoff : Instant) (row : DatabaseRow) : Prop where
  state : row.state = .text "soft_deleted"
  deletedAt : ∃ millis ∈ row.deletedAt.number?, millis < cutoff.epochMillis * twoTo 1074

theorem isExpired_iff (cutoff : Instant) (row : DatabaseRow) :
    row.isExpired (.ofInt cutoff.epochMillis) = true ↔ row.IsDue cutoff := by
  rw [DatabaseRow.isExpired, Bool.and_eq_true, DatabaseRow.isSoftDeleted, Cell.same_text_iff, Cell.below_integer_iff,
    toInt_epochMillis]
  exact ⟨fun ⟨state, deletedAt⟩ => ⟨state, deletedAt⟩, fun due => ⟨due.state, due.deletedAt⟩⟩

instance (cutoff : Instant) : DecidablePred (DatabaseRow.IsDue cutoff) :=
  fun row => decidable_of_iff (row.isExpired (.ofInt cutoff.epochMillis) = true) (isExpired_iff cutoff row)

theorem DatabaseRow.IsDue.of_le {earlier later : Instant} {row : DatabaseRow} (due : row.IsDue earlier)
    (ordered : earlier.epochMillis ≤ later.epochMillis) : row.IsDue later := by
  obtain ⟨millis, stored, below⟩ := due.deletedAt
  have scaled : earlier.epochMillis * twoTo 1074 ≤ later.epochMillis * twoTo 1074 :=
    Int.mul_le_mul_of_nonneg_right ordered (Int.natCast_nonneg _)
  exact ⟨due.state, millis, stored, Int.lt_of_lt_of_le below scaled⟩

theorem isDue_ofDatabase (cutoff : Instant) (database : Database) :
    (DatabaseRow.ofDatabase database).IsDue cutoff ↔
      database.state = .softDeleted ∧ ∃ deletedAt ∈ database.deletedAt, deletedAt.epochMillis < cutoff.epochMillis := by
  have state : (DatabaseRow.ofDatabase database).state = .text DatabaseState.softDeleted.text ↔
      database.state = .softDeleted := by
    show Cell.text database.state.text = _ ↔ _
    cases database.state <;> decide
  have deletedAt : (∃ millis ∈ (DatabaseRow.ofDatabase database).deletedAt.number?,
      millis < cutoff.epochMillis * twoTo 1074) ↔
        ∃ deletedAt ∈ database.deletedAt, deletedAt.epochMillis < cutoff.epochMillis := by
    rw [DatabaseRow.ofDatabase]
    cases database.deletedAt with
    | none => simp only [Cell.ofOption, Cell.number?, Option.not_mem_none, false_and, exists_false]
    | some instant =>
        simp only [Cell.ofOption, Cell.ofMillis, Cell.number?, toInt_epochMillis, Option.mem_some_iff,
          exists_eq_left', Cell.scaled_lt_iff]
  rw [← state, ← deletedAt]
  constructor
  · exact fun due => ⟨due.state, due.deletedAt⟩
  · rintro ⟨softDeleted, below⟩
    exact ⟨softDeleted, below⟩

namespace Store

variable {store : Store}

def due (cutoff : Instant) (store : Store) : List DatabaseRow := store.databases.filter (·.IsDue cutoff)

def withoutDue (cutoffs : List Instant) (store : Store) : Store :=
  { store with databases := store.databases.filter fun row => ∀ cutoff ∈ cutoffs, ¬row.IsDue cutoff }

theorem withoutDue_nil (store : Store) : store.withoutDue [] = store := by
  simp [withoutDue]

theorem withoutDue_append (first second : List Instant) (store : Store) :
    store.withoutDue (first ++ second) = (store.withoutDue first).withoutDue second := by
  simp only [withoutDue, List.filter_filter, List.forall_mem_append, Bool.decide_and, Bool.and_comm]

theorem withoutDue_eq_of_latest {cutoffs : List Instant} {latest : Instant}
    (reached : ∃ cutoff ∈ cutoffs, cutoff.epochMillis = latest.epochMillis)
    (greatest : ∀ cutoff ∈ cutoffs, cutoff.epochMillis ≤ latest.epochMillis) (store : Store) :
    store.withoutDue cutoffs = store.withoutDue [latest] := by
  have same (row : DatabaseRow) : (∀ cutoff ∈ cutoffs, ¬row.IsDue cutoff) ↔ ∀ cutoff ∈ [latest], ¬row.IsDue cutoff := by
    rw [List.forall_mem_singleton]
    constructor
    · intro kept due
      obtain ⟨cutoff, member, equal⟩ := reached
      exact kept cutoff member (due.of_le (Int.le_of_eq equal.symm))
    · intro kept cutoff member due
      exact kept (due.of_le (greatest cutoff member))
  simp only [withoutDue, same]

theorem due_withoutDue {earlier cutoff : Instant} (ordered : earlier.epochMillis ≤ cutoff.epochMillis)
    (store : Store) : (store.withoutDue [cutoff]).due earlier = [] := by
  refine List.filter_eq_nil_iff.mpr ?_
  intro row member due
  have kept := of_decide_eq_true (List.mem_filter.mp member).2
  exact kept cutoff List.mem_cons_self ((of_decide_eq_true due).of_le ordered)

theorem length_due_add (cutoff : Instant) (store : Store) :
    (store.due cutoff).length + (store.withoutDue [cutoff]).databases.length = store.databases.length := by
  simp only [due, withoutDue, List.forall_mem_singleton, ← List.countP_eq_length_filter]
  rw [List.length_eq_countP_add_countP fun row : DatabaseRow => decide (row.IsDue cutoff)]
  simp only [decide_eq_true_eq]

structure IsKeyed (store : Store) : Prop where
  bytes : ∀ row ∈ store.databases, ∃ idBytes, row.databaseId = .bytes idBytes
  distinct : (store.databases.map (·.databaseId)).Nodup

theorem IsKeyed.hasIdentifiers (keyed : store.IsKeyed) : store.HasIdentifiers := by
  intro row member
  obtain ⟨idBytes, same⟩ := keyed.bytes row member
  exact ⟨idBytes, by rw [same]; rfl⟩

end Store

theorem isKeyed_of_did {now : Instant} {write : Write} {before after : Store} (did : write.Did now before after)
    (keyed : before.IsKeyed) : after.IsKeyed := by
  cases write with
  | insertTenant | advanceCheckpoint | bindResourceName | insertSegment | flushSegment | flushCollection =>
      obtain ⟨_, rfl⟩ := did
      exact ⟨keyed.bytes, keyed.distinct⟩
  | updateSegment =>
      obtain ⟨_, _, rfl⟩ := did
      exact ⟨keyed.bytes, keyed.distinct⟩
  | insertDatabase database =>
      obtain ⟨_, free, _, rfl⟩ := did
      refine ⟨?_, nodup_map_append keyed.distinct fun taken => free (Or.inl taken)⟩
      intro row member
      rcases List.mem_append.mp member with stored | new
      · exact keyed.bytes row stored
      · cases List.mem_singleton.mp new
        exact ⟨database.id.bytes, rfl⟩
  | softDelete tenant name =>
      obtain ⟨_, rfl⟩ := did
      refine ⟨?_, ?_⟩
      · rw [List.forall_mem_map]
        intro row member
        rw [databaseId_deleted]
        exact keyed.bytes row member
      · rw [map_map_key (databaseId_deleted now tenant name)]
        exact keyed.distinct
  | finishDeletion =>
      obtain ⟨kept, sublist, _, rfl⟩ := did
      exact ⟨fun row member => keyed.bytes row (sublist.subset member), (sublist.map _).nodup keyed.distinct⟩

theorem isKeyed_of_databaseIds {before after : Store}
    (same : after.databases.map (·.databaseId) = before.databases.map (·.databaseId)) (keyed : before.IsKeyed) :
    after.IsKeyed := by
  refine ⟨?_, same ▸ keyed.distinct⟩
  intro row member
  obtain ⟨earlier, stored, kept⟩ := List.mem_map.mp (same ▸ List.mem_map_of_mem member)
  exact kept ▸ keyed.bytes earlier stored

theorem isKeyed_perform (step : Step) (session : Session) (keeps : step.operation.KeepsIdentifiers)
    (keyed : session.store.IsKeyed) : (step.perform session).2.store.IsKeyed := by
  rcases step with ⟨clock, operation⟩
  cases operation with
  | overwrite address column cell =>
      simp only [Step.perform, Session.perform]
      split
      · rename_i done
        exact isKeyed_of_databaseIds (databaseIds_overwrite keeps done) keyed
      · exact keyed
  | service | sweep | table | transaction | migrate | close =>
      refine ((written_perform _ { session with clock } ?_ keyed.hasIdentifiers).keeps Store.IsKeyed
        (fun _ _ _ => isKeyed_of_did) keyed.hasIdentifiers keyed).2
      trivial

theorem Session.isKeyed_after (clock : Instant) (steps : List Step)
    (keeps : ∀ step ∈ steps, step.operation.KeepsIdentifiers) : ((Session.start clock).after steps).store.IsKeyed :=
  after_keeps (fun session => session.store.IsKeyed) _ isKeyed_perform steps (Session.start clock) keeps
    ⟨(fun _ member => nomatch member), List.nodup_nil⟩

/-! One removal. -/

theorem length_filter_of_distinct {Row Key : Type} [DecidableEq Key] {key : Row → Key} {rows : List Row}
    (distinct : (rows.map key).Nodup) (value : Key) (goes : Row → Bool)
    (named : ∀ row ∈ rows, goes row = true → key row = value) :
    (if rows.any goes then 1 else 0) + (rows.filter fun row => !goes row).length = rows.length := by
  have single : rows.countP goes ≤ 1 := by
    calc rows.countP goes
        ≤ rows.countP fun row => key row == value :=
          List.countP_mono_left fun row member gone => beq_iff_eq.mpr (named row member gone)
      _ = (rows.map key).count value := by
          rw [List.count, List.countP_map]
          rfl
      _ ≤ 1 := List.nodup_iff_count_le_one.mp distinct value
  have found : rows.any goes = true ↔ 0 < rows.countP goes := by
    rw [List.countP_pos_iff, List.any_eq_true]
  have parts := List.length_eq_countP_add_countP goes (l := rows)
  simp only [Bool.not_eq_true, Bool.decide_eq_false] at parts
  rw [← List.countP_eq_length_filter]
  by_cases gone : rows.any goes = true
  · have some := found.mp gone
    rw [if_pos gone]
    omega
  · have none := mt found.mpr gone
    rw [if_neg gone]
    omega

namespace Store

variable {store : Store}

theorem count_removeExpired (distinct : (store.databases.map (·.databaseId)).Nodup) (cutoff : Int64)
    (idBytes : List UInt8) :
    (store.removeExpired cutoff idBytes).1 + (store.removeExpired cutoff idBytes).2.databases.length =
      store.databases.length := by
  refine length_filter_of_distinct distinct (.bytes idBytes) _ ?_
  intro row _ goes
  exact (Cell.same_bytes_iff row.databaseId idBytes).mp (Bool.and_eq_true_iff.mp goes).1

theorem count_removeCandidates (cutoff : Int64) (candidates : List DatabaseRow) :
    ∀ (removed count : Nat) (store after : Store), (store.databases.map (·.databaseId)).Nodup →
      removeCandidates cutoff candidates removed store = (.ok count, after) →
        count + after.databases.length = removed + store.databases.length := by
  induction candidates with
  | nil =>
      intro removed count store after _ done
      cases done
      rfl
  | cons candidate rest ih =>
      intro removed count store after distinct done
      rw [removeCandidates] at done
      cases read : candidate.databaseId.readBytes "database_id" with
      | error failure =>
          rw [read] at done
          cases done
      | ok idBytes =>
          rw [read] at done
          have counted := count_removeExpired distinct cutoff idBytes
          have remains : ((store.removeExpired cutoff idBytes).2.databases.map (·.databaseId)).Nodup :=
            (List.filter_sublist.map _).nodup distinct
          have later := ih (removed + (store.removeExpired cutoff idBytes).1) count
            (store.removeExpired cutoff idBytes).2 after remains done
          omega

theorem IsKeyed.names_self (keyed : store.IsKeyed) {row : DatabaseRow} (member : row ∈ store.databases) :
    row.names row = true := by
  obtain ⟨idBytes, same⟩ := keyed.bytes row member
  rw [DatabaseRow.names, same]
  exact (Cell.same_bytes_iff _ _).mpr rfl

theorem finishDeletion_of_isKeyed (keyed : store.IsKeyed) (cutoff : Instant) :
    store.finishDeletion cutoff = (.ok (store.due cutoff).length, store.withoutDue [cutoff]) := by
  let candidates := store.deletionCandidates (.ofInt cutoff.epochMillis)
  have all : store.finishDeletion cutoff = removeCandidates (.ofInt cutoff.epochMillis) candidates 0 store := by
    rw [finishDeletion, finishDeletionUntil, List.take_length]
  obtain ⟨count, removed⟩ := removeCandidates_eq (.ofInt cutoff.epochMillis) candidates 0 store
    fun candidate member => keyed.hasIdentifiers candidate (mem_deletionCandidates.mp member).1
  have kept : store.databases.filter (fun row => !(row.isExpired (.ofInt cutoff.epochMillis) &&
      candidates.any fun candidate => candidate.names row)) = (store.withoutDue [cutoff]).databases := by
    refine List.filter_congr fun row member => ?_
    rw [Bool.eq_iff_iff, Bool.not_eq_true', Bool.eq_false_iff, decide_eq_true_iff, List.forall_mem_singleton,
      not_iff_not, Bool.and_eq_true, isExpired_iff]
    refine ⟨And.left, fun due => ⟨due, ?_⟩⟩
    have candidate := mem_deletionCandidates.mpr ⟨member, (isExpired_iff cutoff row).mpr due⟩
    exact List.any_eq_true.mpr ⟨row, candidate, keyed.names_self member⟩
  rw [kept] at removed
  have counted : count + (store.withoutDue [cutoff]).databases.length = 0 + store.databases.length :=
    count_removeCandidates _ _ 0 count store _ keyed.distinct removed
  have parts := length_due_add cutoff store
  have exact : count = (store.due cutoff).length := by omega
  rw [all, ← exact]
  exact removed

/-- A deletion that a deadline ends between two of its statements leaves rows as they were and rows that were due
gone, and the next one takes the rest of what is due. -/
theorem finishDeletion_of_interrupted (keyed : store.IsKeyed) (statements : Nat) (cutoff : Instant) :
    ∃ removed kept, store.finishDeletionUntil statements cutoff = (.ok removed, { store with databases := kept }) ∧
      kept.Sublist store.databases ∧ (∀ row ∈ store.databases, row ∈ kept ∨ row.IsDue cutoff) ∧
      ∃ rest, ({ store with databases := kept } : Store).finishDeletion cutoff =
        (.ok rest, store.withoutDue [cutoff]) ∧ removed + rest = (store.due cutoff).length := by
  obtain ⟨removed, keeps, valid, came⟩ := finishDeletionUntil_eq statements cutoff store keyed.hasIdentifiers
  have spared (row : DatabaseRow) (valued : ¬row.IsDue cutoff) : keeps row = true :=
    valid row (Bool.eq_false_iff.mpr (mt (isExpired_iff cutoff row).mp valued))
  let interrupted : Store := { store with databases := store.databases.filter keeps }
  have sublist : interrupted.databases.Sublist store.databases := List.filter_sublist
  have stillKeyed : interrupted.IsKeyed :=
    ⟨fun row member => keyed.bytes row (sublist.subset member), (sublist.map _).nodup keyed.distinct⟩
  have same : interrupted.withoutDue [cutoff] = store.withoutDue [cutoff] := by
    simp only [interrupted, withoutDue, List.filter_filter, List.forall_mem_singleton]
    congr 1
    refine List.filter_congr fun row _ => ?_
    rw [Bool.eq_iff_iff, Bool.and_eq_true, decide_eq_true_iff]
    exact ⟨And.left, fun valued => ⟨valued, spared row valued⟩⟩
  refine ⟨removed, _, came, sublist, fun row member => ?_, (interrupted.due cutoff).length, ?_, ?_⟩
  · by_cases due : row.IsDue cutoff
    · exact Or.inr due
    · exact Or.inl (List.mem_filter.mpr ⟨member, spared row due⟩)
  · rw [← same]
    exact finishDeletion_of_isKeyed stillKeyed cutoff
  · have counted := count_removeCandidates _ _ 0 removed store interrupted keyed.distinct came
    have parts := length_due_add cutoff store
    have later := length_due_add cutoff interrupted
    rw [same] at later
    omega

end Store

theorem finishDatabaseDeletion_run {store : Store} (keyed : store.IsKeyed) (cutoff now : Instant)
    (stalled : List Table) :
    finishDatabaseDeletion ⟨cutoff⟩ ⟨now, stalled, true⟩ store =
      if stalled.contains .databases then (.error (.deadlineExceeded "finish_database_deletion"), store)
      else (.ok (store.due cutoff).length, store.withoutDue [cutoff]) := by
  rw [finishDatabaseDeletion, Service.perform, bind_run, Access.reach]
  by_cases stalls : stalled.contains .databases = true
  · rw [if_pos stalls, if_pos stalls]
  · rw [if_neg stalls, if_neg stalls]
    dsimp only
    rw [Access.statement, if_pos rfl, Store.finishDeletion_of_isKeyed keyed]

def Outcome.removed? : Outcome → Option Nat
  | answered (.count count) | swept (.removed count) => some count
  | _ => none

def Step.removal? (step : Step) : Option Instant :=
  match step.operation.write? step.clock with
  | some (.finishDeletion cutoff) => if step.operation.Stalls .databases then none else some cutoff
  | _ => none

theorem removal?_eq_some {step : Step} {cutoff : Instant} :
    step.removal? = some cutoff ↔
      step.operation.write? step.clock = some (.finishDeletion cutoff) ∧ ¬step.operation.Stalls .databases := by
  unfold Step.removal?
  split
  · rename_i other makes
    rw [makes]
    simp only [Option.ite_none_left_eq_some, Option.some.injEq, Write.finishDeletion.injEq]
    exact and_comm
  · rename_i others
    exact iff_of_false nofun fun removes => others _ removes.1

section Removals

variable {step : Step} {session : Session} {cutoff : Instant}

theorem perform_finishDeletion (makes : step.operation.write? step.clock = some (.finishDeletion cutoff))
    (opened : session.isOpen = true) (keyed : session.store.IsKeyed) :
    if step.operation.Stalls .databases then (step.perform session).1.IsFailure
    else (step.perform session).1.removed? = some (session.store.due cutoff).length ∧
      (step.perform session).2 = ⟨session.store.withoutDue [cutoff], true, step.clock⟩ := by
  rcases step with ⟨clock, operation⟩
  rcases session with ⟨store, isOpen, earlier⟩
  cases opened
  cases operation with
  | table call =>
      cases call with
      | finishDeletion other =>
          cases makes
          have reaches : ¬(Operation.table (.finishDeletion cutoff)).Stalls .databases := not_false
          rw [if_neg reaches]
          simp only [Step.perform, Session.perform, Session.circumstances, TableCall.run, bind_run, Access.statement,
            Store.finishDeletion_of_isKeyed keyed]
          exact ⟨rfl, rfl⟩
      | _ => cases makes
  | service call stalled =>
      cases call with
      | finishDatabaseDeletion request =>
          cases makes
          simp only [Step.perform, Session.perform, Session.circumstances, ServiceCall.run, bind_run,
            finishDatabaseDeletion_run keyed, Operation.Stalls]
          by_cases stalls : Table.databases ∈ stalled
          · rw [if_pos stalls, if_pos (by simpa using stalls)]
            trivial
          · rw [if_neg stalls, if_neg (by simpa using stalls)]
            exact ⟨rfl, rfl⟩
      | _ => simp [Operation.write?, ServiceCall.write?, Option.bind_eq_some_iff] at makes
  | sweep grace stalled =>
      obtain ⟨_, same, makes⟩ := Option.map_eq_some_iff.mp makes
      cases makes
      have reckoned : sweepCutoff? grace clock = some cutoff := same
      simp only [Step.perform, Session.perform, sweep, Session.circumstances, reckoned,
        finishDatabaseDeletion_run keyed, Operation.Stalls]
      by_cases stalls : Table.databases ∈ stalled
      · rw [if_pos stalls, if_pos (by simpa using stalls)]
        trivial
      · rw [if_neg stalls, if_neg (by simpa using stalls)]
        exact ⟨rfl, rfl⟩
  | transaction | overwrite | migrate | close => cases makes

theorem perform_removal (removes : step.removal? = some cutoff) (opened : session.isOpen = true)
    (keyed : session.store.IsKeyed) :
    (step.perform session).1.removed? = some (session.store.due cutoff).length ∧
      (step.perform session).2 = ⟨session.store.withoutDue [cutoff], true, step.clock⟩ := by
  obtain ⟨makes, reaches⟩ := removal?_eq_some.mp removes
  have performed := perform_finishDeletion makes opened keyed
  rwa [if_neg reaches] at performed

structure Step.OnlyRemoves (step : Step) : Prop where
  call : step.operation.IsCall
  single : step.operation.IsSingle
  removes : ∀ write ∈ step.operation.write? step.clock, ∃ cutoff, write = .finishDeletion cutoff

theorem onlyRemoves_of_removal? (removes : step.removal? = some cutoff) : step.OnlyRemoves := by
  obtain ⟨makes, _⟩ := removal?_eq_some.mp removes
  refine ⟨?_, isSingle_of_write? makes, fun write made => ⟨cutoff, Option.some.inj (made.symm.trans makes)⟩⟩
  rcases step with ⟨clock, operation⟩
  cases operation with
  | transaction | overwrite | migrate | close => cases makes
  | service | sweep | table => trivial

theorem store_perform_of_no_removal (only : step.OnlyRemoves) (quiet : step.removal? = none)
    (opened : session.isOpen = true) (keyed : session.store.IsKeyed) :
    (step.perform session).2.store = session.store := by
  cases makes : step.operation.write? step.clock with
  | none => exact store_perform_of_no_write only.single keyed.hasIdentifiers makes
  | some write =>
      obtain ⟨cutoff, rfl⟩ := only.removes write makes
      have came := perform_finishDeletion makes opened keyed
      by_cases stalls : step.operation.Stalls .databases
      · rw [if_pos stalls] at came
        exact store_perform_of_failure step.operation _ keyed.hasIdentifiers came
      · rw [removal?_eq_some.mpr ⟨makes, stalls⟩] at quiet
        cases quiet

end Removals

/-! Removals over a run. -/

def Session.removals : List Step → Session → List Nat
  | [], _ => []
  | step :: rest, session =>
      (step.removal?.bind fun _ => (step.perform session).1.removed?).toList ++ removals rest (step.perform session).2

theorem after_removals (sweeps : List Step) : ∀ session : Session, (∀ step ∈ sweeps, step.OnlyRemoves) →
    session.isOpen = true → session.store.IsKeyed →
      (session.after sweeps).store = session.store.withoutDue (sweeps.filterMap Step.removal?) ∧
        (session.removals sweeps).sum + (session.after sweeps).store.databases.length =
          session.store.databases.length := by
  induction sweeps with
  | nil =>
      intro session _ _ _
      exact ⟨(Store.withoutDue_nil session.store).symm, Nat.zero_add _⟩
  | cons step rest ih =>
      intro session only opened keyed
      rw [List.forall_mem_cons] at only
      have call := only.1.call
      have stillKeyed := isKeyed_perform step session call.isOrdinary.keepsIdentifiers keyed
      obtain ⟨store, counted⟩ := ih (step.perform session).2 only.2
        ((isOpen_perform step.operation _ call).trans opened) stillKeyed
      rw [Session.after_cons, Session.removals, List.filterMap_cons]
      cases removes : step.removal? with
      | none =>
          have kept := store_perform_of_no_removal only.1 removes opened keyed
          rw [kept] at store counted
          simpa [store] using counted
      | some cutoff =>
          obtain ⟨told, after⟩ := perform_removal removes opened keyed
          have parts := Store.length_due_add cutoff session.store
          rw [after] at store counted
          refine ⟨?_, ?_⟩
          · rw [after, store, ← Store.withoutDue_append]
            rfl
          · rw [told, Option.bind_some, Option.toList_some, List.singleton_append, List.sum_cons, after]
            calc (session.store.due cutoff).length + _ + _
                = (session.store.due cutoff).length + (session.store.withoutDue [cutoff]).databases.length := by
                  rw [Nat.add_assoc, counted]
              _ = session.store.databases.length := parts

/-- On every open store whose identifiers are bytes and distinct, as they are in every state that operations lead to
(`Session.isKeyed_after`). A removal, whether it is a call or a sweep, takes the rows that are due by its cutoff,
nothing else, and tells their number. So removals in any order, with nothing written in between, leave what the one
with the latest cutoff leaves, and tell together what it tells; a removal with no later cutoff after it finds nothing.
A removal that is cut short after any of its statements has removed whole rows that were due, and the next one removes
the rest. A database is due if it was soft-deleted, at a known time, in an earlier millisecond than that of the cutoff.
A sweep is the removal whose cutoff lies the period of grace before its time, to the nanosecond and in either
direction, as long as there is such an instant. -/
theorem deletion_sweeps_compose (session : Session) (opened : session.isOpen = true) (keyed : session.store.IsKeyed) :
    (∀ (step : Step) (cutoff : Instant), step.removal? = some cutoff →
      (step.perform session).1.removed? = some (session.store.due cutoff).length ∧
        (step.perform session).2 = ⟨session.store.withoutDue [cutoff], true, step.clock⟩) ∧
    (∀ (sweeps : List Step) (last : Step) (latest : Instant), (∀ step ∈ sweeps, step.OnlyRemoves) →
      last.removal? = some latest →
      (∃ cutoff ∈ sweeps.filterMap Step.removal?, cutoff.epochMillis = latest.epochMillis) →
      (∀ cutoff ∈ sweeps.filterMap Step.removal?, cutoff.epochMillis ≤ latest.epochMillis) →
        (session.after sweeps).store = (last.perform session).2.store ∧
          (last.perform session).1.removed? = some (session.removals sweeps).sum) ∧
    (∀ (step again : Step) (cutoff earlier : Instant), step.removal? = some cutoff → again.removal? = some earlier →
      earlier.epochMillis ≤ cutoff.epochMillis →
        (again.perform (step.perform session).2).1.removed? = some 0 ∧
          (again.perform (step.perform session).2).2.store = (step.perform session).2.store) ∧
    (∀ (statements : Nat) (cutoff : Instant), ∃ removed kept,
      session.store.finishDeletionUntil statements cutoff = (.ok removed, { session.store with databases := kept }) ∧
        kept.Sublist session.store.databases ∧ (∀ row ∈ session.store.databases, row ∈ kept ∨ row.IsDue cutoff) ∧
        ∃ rest, ({ session.store with databases := kept } : Store).finishDeletion cutoff =
          (.ok rest, session.store.withoutDue [cutoff]) ∧ removed + rest = (session.store.due cutoff).length) ∧
    (∀ (database : Database) (cutoff : Instant), (DatabaseRow.ofDatabase database).IsDue cutoff ↔
      database.state = .softDeleted ∧ ∃ deletedAt ∈ database.deletedAt, deletedAt.epochMillis < cutoff.epochMillis) ∧
    (∀ (grace : Period) (now : Instant) (stalled : List Table), .databases ∉ stalled →
      ∀ cutoff ∈ sweepCutoff? grace now,
        (Step.mk now (.sweep grace stalled)).removal? = some cutoff ∧
          (Step.mk now (.table (.finishDeletion cutoff))).removal? = some cutoff) ∧
    (∀ (grace : Period) (now : Instant),
      ((sweepCutoff? grace now).isSome = true ↔ grace.nanos.natAbs ≤ Period.longest ∧
        firstSecond * nanosPerSecond ≤ now.nanosAfter (-grace) ∧
          (now.nanosAfter (-grace) < (lastSecond + 1) * nanosPerSecond ∨ now.StaysInLeap (-grace))) ∧
      ∀ cutoff ∈ sweepCutoff? grace now, cutoff.epochNanos = now.nanosAfter (-grace)) ∧
    (∀ (grace : Int) (now : Instant), 0 ≤ grace →
      ((sweepCutoff? grace now).isSome = true ↔
        grace ≤ longestGrace ∧ firstSecond * 1000 ≤ now.epochMillis - 1000 * grace) ∧
      ∀ cutoff ∈ sweepCutoff? grace now, cutoff.epochMillis = now.epochMillis - 1000 * grace) := by
  have single := fun (step : Step) (cutoff : Instant) (removes : step.removal? = some cutoff) =>
    perform_removal removes opened keyed
  refine ⟨single, ?_, ?_, Store.finishDeletion_of_interrupted keyed,
    fun database cutoff => isDue_ofDatabase cutoff database, ?_, ?_, ?_⟩
  · intro sweeps last latest only removes reached greatest
    obtain ⟨told, after⟩ := single last latest removes
    obtain ⟨store, counted⟩ := after_removals sweeps session only opened keyed
    rw [Store.withoutDue_eq_of_latest reached greatest] at store
    have parts := Store.length_due_add latest session.store
    have total : (session.removals sweeps).sum = (session.store.due latest).length := by
      rw [store] at counted
      omega
    rw [after, store, told, total]
    exact ⟨rfl, rfl⟩
  · intro step again cutoff earlier removes repeated ordered
    obtain ⟨_, after⟩ := single step cutoff removes
    have remains := isKeyed_perform step session
      (onlyRemoves_of_removal? removes).call.isOrdinary.keepsIdentifiers keyed
    have stillOpen : (step.perform session).2.isOpen = true := by rw [after]
    obtain ⟨told, later⟩ := perform_removal repeated stillOpen remains
    have latest : session.store.withoutDue [cutoff, earlier] = session.store.withoutDue [cutoff] :=
      Store.withoutDue_eq_of_latest ⟨cutoff, List.mem_cons_self, rfl⟩ (by simpa using ordered) session.store
    refine ⟨by rw [told, after, Store.due_withoutDue ordered, List.length_nil], ?_⟩
    rw [later, after, ← Store.withoutDue_append]
    exact latest
  · intro grace now stalled reaches cutoff reckoned
    refine ⟨removal?_eq_some.mpr ⟨?_, reaches⟩, rfl⟩
    exact congrArg (Option.map Write.finishDeletion) reckoned
  · exact fun grace now => ⟨isSome_sweepCutoff?_iff grace now, fun cutoff => epochNanos_of_sweepCutoff?⟩
  · intro grace now backward
    exact ⟨isSome_sweepCutoff?_seconds_iff backward now, fun cutoff => epochMillis_of_sweepCutoff? backward⟩

def secondOfJune : Instant := ⟨1717286400, 0, by decide, by decide⟩

def thirdOfJune : Instant := ⟨1717372800, 0, by decide, by decide⟩

def departures : List Step :=
  let created (byte : UInt8) (name : String) : Database := .create (.ofByte byte) name "acme" firstOfJune
  [⟨firstOfJune, .service (.createTenant ⟨"acme"⟩) []⟩,
    ⟨firstOfJune, .table (.insertDatabase (created 1 "first"))⟩,
    ⟨firstOfJune, .table (.insertDatabase (created 2 "second"))⟩,
    ⟨firstOfJune, .table (.insertDatabase { created 3 "third" with state := .softDeleted })⟩,
    ⟨firstOfJune, .service (.deleteDatabase ⟨"first", "acme"⟩) []⟩,
    ⟨secondOfJune, .service (.deleteDatabase ⟨"second", "acme"⟩) []⟩]

theorem deletion_sweeps_compose_departures :
    let session := (Session.start firstOfJune).after departures
    let early : Step := ⟨thirdOfJune, .table (.finishDeletion secondOfJune)⟩
    let late : Step := ⟨thirdOfJune, .sweep (.seconds 3600) []⟩
    session.removals [early, late] = [1, 1] ∧ (session.after [early, late]).store = (late.perform session).2.store ∧
      (late.perform session).1.removed? = some 2 := by
  intro session early late
  have keyed : session.store.IsKeyed :=
    Session.isKeyed_after firstOfJune departures (by simp [departures, Operation.KeepsIdentifiers])
  have told : session.removals [early, late] = [1, 1] := by decide +kernel
  let latest : Instant := ⟨1717369200, 0, by decide, by decide⟩
  have reckoned : late.removal? = some latest := by decide +kernel
  have only : ∀ step ∈ [early, late], step.OnlyRemoves := by
    rw [List.forall_mem_cons, List.forall_mem_singleton]
    exact ⟨onlyRemoves_of_removal? (show early.removal? = some secondOfJune from rfl), onlyRemoves_of_removal? reckoned⟩
  have composed := (deletion_sweeps_compose session rfl keyed).2.1 [early, late] late latest only reckoned
    ⟨latest, by decide +kernel, rfl⟩ (by decide +kernel)
  rw [told] at composed
  exact ⟨told, composed⟩

end MetadataRegistry
