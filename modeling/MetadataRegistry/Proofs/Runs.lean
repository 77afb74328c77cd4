import MetadataRegistry.Proofs.Writes

/-!
Runs of a session: operations in turn, each at a time of its own. What every write keeps, every run
keeps.
-/

namespace MetadataRegistry

inductive Written (now : Instant) : Store → Store → Prop where
  | unchanged (store : Store) : Written now store store
  | write {before between after : Store} (write : Write) (done : write.run now before = .ok between)
      (rest : Written now between after) : Written now before after

theorem hasIdentifiers_of_did {now : Instant} {write : Write} {before after : Store}
    (identified : before.HasIdentifiers) (did : write.Did now before after) : after.HasIdentifiers := by
  cases write with
  | insertTenant | advanceCheckpoint | bindResourceName | insertSegment | flushSegment | flushCollection =>
      obtain ⟨_, rfl⟩ := did
      exact identified
  | updateSegment =>
      obtain ⟨_, _, rfl⟩ := did
      exact identified
  | insertDatabase database =>
      obtain ⟨_, _, _, rfl⟩ := did
      intro row member
      rcases List.mem_append.mp member with stored | new
      · exact identified row stored
      · cases List.mem_singleton.mp new
        exact ⟨database.id.bytes, rfl⟩
  | softDelete tenant name =>
      obtain ⟨_, rfl⟩ := did
      intro row member
      obtain ⟨stored, found, rfl⟩ := List.mem_map.mp member
      rw [databaseId_deleted]
      exact identified stored found
  | finishDeletion =>
      obtain ⟨kept, sublist, _, rfl⟩ := did
      exact fun row member => identified row (sublist.subset member)

theorem Written.keeps {now : Instant} {before after : Store} (written : Written now before after)
    (holds : Store → Prop)
    (kept : ∀ (write : Write) (before after : Store), write.Did now before after → holds before → holds after)
    (identified : before.HasIdentifiers) (held : holds before) :
    after.HasIdentifiers ∧ holds after := by
  induction written with
  | unchanged store => exact ⟨identified, held⟩
  | write write done rest ih =>
      have did := did_of_run identified done
      exact ih (hasIdentifiers_of_did identified did) (kept write _ _ did held)

def TransactionWrite.write : TransactionWrite → Write
  | insertTenant tenant => .insertTenant tenant
  | insertDatabase database => .insertDatabase database
  | advanceCheckpoint id time => .advanceCheckpoint id time
  | flushSegment flush collectionId => .flushSegment collectionId flush

theorem transactionWrite_apply (now : Instant) (store : Store) (write : TransactionWrite) :
    write.apply now store = write.write.run now store := by
  cases write <;> rfl

theorem written_applyWrites (now : Instant) (writes : List TransactionWrite) :
    ∀ store : Store, Written now store (applyWrites now writes store).2 := by
  induction writes with
  | nil => exact .unchanged
  | cons write rest ih =>
      intro store
      rw [applyWrites]
      cases applied : write.apply now store with
      | ok changed =>
          have done := (transactionWrite_apply now store write).symm.trans applied
          exact .write write.write done (ih changed)
      | error failure => exact ih store

def Outcome.IsFailure : Outcome → Prop
  | refused _ | failed _ | stalled | swept .failed | swept .aborted | overwritten none | migrationFailed => True
  | writes outcomes => ∀ outcome ∈ outcomes, outcome.isOk = false
  | answered _ | swept (.removed _) | overwritten (some _) => False

instance : DecidablePred Outcome.IsFailure
  | .refused _ | .failed _ | .stalled | .swept .failed | .swept .aborted | .overwritten none
  | .migrationFailed => isTrue trivial
  | .writes outcomes => inferInstanceAs (Decidable (∀ outcome ∈ outcomes, outcome.isOk = false))
  | .answered _ | .swept (.removed _) | .overwritten (some _) => isFalse id

def Operation.IsOrdinary : Operation → Prop
  | overwrite _ _ _ => False
  | service _ _ | sweep _ _ | table _ | transaction _ _ | migrate | close => True

instance : DecidablePred Operation.IsOrdinary
  | .overwrite _ _ _ => isFalse id
  | .service _ _ | .sweep _ _ | .table _ | .transaction _ _ | .migrate | .close => isTrue trivial

def Operation.IsCall : Operation → Prop
  | overwrite _ _ _ | close => False
  | service _ _ | sweep _ _ | table _ | transaction _ _ | migrate => True

instance : DecidablePred Operation.IsCall
  | .overwrite _ _ _ | .close => isFalse id
  | .service _ _ | .sweep _ _ | .table _ | .transaction _ _ | .migrate => isTrue trivial

theorem Operation.IsCall.isOrdinary {operation : Operation} (call : operation.IsCall) : operation.IsOrdinary := by
  cases operation with
  | overwrite | close => exact call.elim
  | service | sweep | table | transaction | migrate => trivial

theorem isOpen_perform (operation : Operation) (session : Session) (call : operation.IsCall) :
    (session.perform operation).2.isOpen = session.isOpen := by
  cases operation with
  | service | table =>
      simp only [Session.perform]
      split <;> rfl
  | sweep => rfl
  | transaction =>
      simp only [Session.perform]
      split <;> rfl
  | migrate => rfl
  | overwrite | close => exact call.elim

def Operation.IsSingle : Operation → Prop
  | transaction _ _ | overwrite _ _ _ => False
  | service _ _ | sweep _ _ | table _ | migrate | close => True

theorem Operation.IsSingle.isOrdinary {operation : Operation} (single : operation.IsSingle) : operation.IsOrdinary := by
  cases operation with
  | transaction | overwrite => exact single.elim
  | service | sweep | table | migrate | close => trivial

/-- What an operation of one write comes to. -/
inductive Performed (operation : Operation) (session : Session) : Outcome × Session → Prop where
  | done {outcome : Outcome} {after : Session} (success : ¬outcome.IsFailure)
      (written : runWrite? session.clock session.store (operation.write? session.clock) = .ok after.store) :
      Performed operation session (outcome, after)
  | failed {outcome : Outcome} {after : Session} (failure : outcome.IsFailure) (kept : after.store = session.store) :
      Performed operation session (outcome, after)

theorem Performed.kept {operation : Operation} {session : Session} {result : Outcome × Session}
    (performed : Performed operation session result) (failure : result.1.IsFailure) :
    result.2.store = session.store := by
  cases performed with
  | done success _ => exact absurd failure success
  | failed _ kept => exact kept

theorem written_of_performed {operation : Operation} {session : Session} {result : Outcome × Session}
    (performed : Performed operation session result) : Written session.clock session.store result.2.store := by
  cases performed with
  | failed failure kept =>
      rw [kept]
      exact .unchanged session.store
  | done success written =>
      rename_i after
      cases write : operation.write? session.clock with
      | none =>
          rw [write] at written
          rw [← Except.ok.inj written]
          exact .unchanged session.store
      | some single =>
          rw [write] at written
          exact .write single written (.unchanged after.store)

theorem performed_sweep (grace : Period) (stalled : List Table) (session : Session)
    (identified : session.store.HasIdentifiers) :
    Performed (.sweep grace stalled) session (session.perform (.sweep grace stalled)) := by
  cases reckoned : sweepCutoff? grace session.clock with
  | none =>
      simp only [Session.perform, sweep, Session.circumstances, reckoned]
      exact .failed trivial rfl
  | some cutoff =>
      have settles := (makes_finishDatabaseDeletion ⟨cutoff⟩).settles (session.circumstances stalled) session.store
        identified
      rcases result : finishDatabaseDeletion ⟨cutoff⟩ (session.circumstances stalled) session.store with
        ⟨outcome, after⟩
      rw [result] at settles
      simp only [Session.circumstances] at result settles
      simp only [Session.perform, sweep, Session.circumstances, reckoned, result]
      cases outcome with
      | ok count =>
          refine .done id ?_
          rw [Operation.write?, reckoned]
          exact settles
      | error status => exact .failed trivial settles

theorem performed_perform (operation : Operation) (session : Session) (single : operation.IsSingle)
    (identified : session.store.HasIdentifiers) : Performed operation session (session.perform operation) := by
  cases operation with
  | service call stalled =>
      have settles := (makes_serviceCall call).settles (session.circumstances stalled) session.store identified
      rcases result : call.run (session.circumstances stalled) session.store with ⟨outcome, after⟩
      rw [result] at settles
      simp only [Session.perform, result]
      cases outcome with
      | ok answer => exact .done id settles
      | error status => exact .failed trivial settles
  | sweep grace stalled => exact performed_sweep grace stalled session identified
  | table call =>
      have settles := (makes_tableCall call).settles (session.circumstances []) session.store identified
      rcases result : call.run (session.circumstances []) session.store with ⟨outcome, after⟩
      rw [result] at settles
      simp only [Session.perform, result]
      cases outcome with
      | ok answer => exact .done id settles
      | error interruption => cases interruption <;> exact .failed trivial settles
  | migrate =>
      simp only [Session.perform]
      split
      · exact .done id rfl
      · exact .failed trivial rfl
  | close => exact .done id rfl
  | transaction | overwrite => exact single.elim

theorem keeps_perform (holds : Store → Prop) {operation : Operation} {session : Session} (single : operation.IsSingle)
    (identified : session.store.HasIdentifiers)
    (kept : ∀ write after, operation.write? session.clock = some write →
      write.Did session.clock session.store after → holds after)
    (held : holds session.store) : holds (session.perform operation).2.store := by
  have performed := performed_perform operation session single identified
  rcases result : session.perform operation with ⟨outcome, after⟩
  rw [result] at performed
  cases performed with
  | failed _ same => exact same ▸ held
  | done _ written =>
      cases makes : operation.write? session.clock with
      | none =>
          rw [makes] at written
          exact Except.ok.inj written ▸ held
      | some write =>
          rw [makes] at written
          exact kept write after.store makes (did_of_run identified written)

theorem store_perform_of_no_write {operation : Operation} {session : Session} (single : operation.IsSingle)
    (identified : session.store.HasIdentifiers) (quiet : operation.write? session.clock = none) :
    (session.perform operation).2.store = session.store := by
  refine keeps_perform (· = session.store) single identified (fun write after makes _ => ?_) rfl
  rw [quiet] at makes
  cases makes

theorem written_perform (operation : Operation) (session : Session) (ordinary : operation.IsOrdinary)
    (identified : session.store.HasIdentifiers) :
    Written session.clock session.store (session.perform operation).2.store := by
  cases operation with
  | transaction writes commit =>
      simp only [Session.perform, runTransaction]
      split
      · cases commit with
        | true => exact written_applyWrites session.clock writes session.store
        | false => exact .unchanged session.store
      · exact .unchanged session.store
  | overwrite => exact ordinary.elim
  | service | sweep | table | migrate | close =>
      exact written_of_performed (performed_perform _ session trivial identified)

def firstOfJune : Instant := ⟨1717200000, 0, by decide, by decide⟩

def Identifier.ofByte {kind : IdentifierKind} (byte : UInt8) : Identifier kind := ⟨List.replicate 16 byte, rfl⟩

structure Step where
  clock : Instant
  operation : Operation

def Step.perform (step : Step) (session : Session) : Outcome × Session :=
  Session.perform step.operation { session with clock := step.clock }

namespace Session

def after (steps : List Step) (session : Session) : Session :=
  steps.foldl (fun session step => (step.perform session).2) session

theorem after_cons (step : Step) (rest : List Step) (session : Session) :
    session.after (step :: rest) = (step.perform session).2.after rest := rfl

theorem after_keeps (holds : Session → Prop) (admitted : Step → Prop)
    (kept : ∀ (step : Step) (session : Session), admitted step → holds session → holds (step.perform session).2)
    (steps : List Step) : ∀ session : Session, (∀ step ∈ steps, admitted step) → holds session →
      holds (session.after steps) := by
  induction steps with
  | nil => exact fun _ _ held => held
  | cons step rest ih =>
      intro session allowed held
      rw [after_cons]
      exact ih _ (fun other member => allowed other (List.mem_cons_of_mem step member))
        (kept step session (allowed step List.mem_cons_self) held)

/-- What the writes of single operations keep, runs of these operations keep. -/
theorem store_after_keeps_of_single (holds : Store → Prop) (admitted : Step → Prop)
    (single : ∀ step, admitted step → step.operation.IsSingle)
    (kept : ∀ step write before after, admitted step → step.operation.write? step.clock = some write →
      write.Did step.clock before after → holds before → holds after)
    (steps : List Step) (session : Session) (allowed : ∀ step ∈ steps, admitted step)
    (identified : session.store.HasIdentifiers) (held : holds session.store) : holds (session.after steps).store := by
  refine (after_keeps (fun session => session.store.HasIdentifiers ∧ holds session.store) admitted ?_ steps session
    allowed ⟨identified, held⟩).2
  rintro step session allow ⟨identified, held⟩
  constructor
  · exact keeps_perform Store.HasIdentifiers (single step allow) identified
      (fun write after _ did => hasIdentifiers_of_did identified did) identified
  · exact keeps_perform holds (single step allow) identified
      (fun write after makes did => kept step write session.store after allow makes did held) held

end Session

end MetadataRegistry
