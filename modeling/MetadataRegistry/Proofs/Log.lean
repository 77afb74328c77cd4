import MetadataRegistry.Proofs.Runs

/-!
The log of a run: the writes that took effect, in turn, each with its time. The outcomes of the operations
tell which they are, and replaying the log on the first store gives the last one.
-/

namespace MetadataRegistry

structure LogEntry where
  time : Instant
  write : Write

/-- Every write of the log takes effect in its turn. -/
inductive Replays : List LogEntry → Store → Store → Prop where
  | nil (store : Store) : Replays [] store store
  | cons (entry : LogEntry) {before between after : Store} {rest : List LogEntry}
      (done : entry.write.run entry.time before = .ok between) (later : Replays rest between after) :
      Replays (entry :: rest) before after

namespace Replays

variable {log : List LogEntry} {before after : Store}

theorem append {more : List LogEntry} {between : Store} (first : Replays log before between)
    (second : Replays more between after) : Replays (log ++ more) before after := by
  induction first with
  | nil store => exact second
  | cons entry done later ih => exact .cons entry done (ih second)

theorem keeps (replayed : Replays log before after) (holds : Store → Prop)
    (kept : ∀ entry ∈ log, ∀ before after : Store, entry.write.Did entry.time before after → holds before → holds after)
    (identified : before.HasIdentifiers) (held : holds before) : after.HasIdentifiers ∧ holds after := by
  induction replayed with
  | nil store => exact ⟨identified, held⟩
  | cons entry done later ih =>
      have did := did_of_run identified done
      exact ih (fun other member => kept other (List.mem_cons_of_mem entry member))
        (hasIdentifiers_of_did identified did) (kept entry List.mem_cons_self _ _ did held)

theorem fold {Part : Type} (replayed : Replays log before after) (part : Store → Part)
    (change : Part → LogEntry → Part)
    (agrees : ∀ (entry : LogEntry) (before after : Store), entry.write.Did entry.time before after →
      part after = change (part before) entry)
    (identified : before.HasIdentifiers) : part after = log.foldl change (part before) := by
  induction replayed with
  | nil store => rfl
  | cons entry done later ih =>
      have did := did_of_run identified done
      rw [List.foldl_cons, ← agrees entry _ _ did]
      exact ih (hasIdentifiers_of_did identified did)

end Replays

def acceptedWrites : List TransactionWrite → List (Except Failure Unit) → List Write
  | write :: writes, .ok () :: outcomes => write.write :: acceptedWrites writes outcomes
  | _ :: writes, .error _ :: outcomes => acceptedWrites writes outcomes
  | _, _ => []

/-- The writes of an operation that took effect. Of a transaction that commits these are the ones that
succeeded, of one that does not there are none. -/
def Operation.accepted (now : Instant) : Operation → Outcome → List Write
  | transaction writes true, .writes outcomes => acceptedWrites writes outcomes
  | transaction _ _, _ => []
  | operation, outcome => if outcome.IsFailure then [] else (operation.write? now).toList

def Step.log (step : Step) (session : Session) : List LogEntry :=
  (step.operation.accepted step.clock (step.perform session).1).map (LogEntry.mk step.clock)

def Session.log : List Step → Session → List LogEntry
  | [], _ => []
  | step :: rest, session => step.log session ++ log rest (step.perform session).2

theorem exists_of_mem_acceptedWrites {write : Write} (writes : List TransactionWrite) :
    ∀ outcomes, write ∈ acceptedWrites writes outcomes → ∃ made ∈ writes, made.write = write := by
  induction writes with
  | nil => exact fun _ impossible => nomatch impossible
  | cons made rest ih =>
      intro outcomes accepted
      cases outcomes with
      | nil => cases accepted
      | cons outcome others =>
          cases outcome with
          | ok =>
              rcases List.mem_cons.mp accepted with rfl | later
              · exact ⟨made, List.mem_cons_self, rfl⟩
              · obtain ⟨found, member, same⟩ := ih others later
                exact ⟨found, List.mem_cons_of_mem made member, same⟩
          | error =>
              obtain ⟨found, member, same⟩ := ih others accepted
              exact ⟨found, List.mem_cons_of_mem made member, same⟩

theorem write_of_mem_log {entry : LogEntry} {step : Step} {session : Session} (logged : entry ∈ step.log session) :
    (∃ made : TransactionWrite, made.write = entry.write) ∨
      (¬(step.perform session).1.IsFailure ∧ step.operation.write? step.clock = some entry.write) := by
  obtain ⟨write, accepted, rfl⟩ := List.mem_map.mp logged
  rcases step with ⟨clock, operation⟩
  cases operation with
  | transaction writes commit =>
      left
      unfold Operation.accepted at accepted
      split at accepted
      · rename_i same _
        cases same
        obtain ⟨made, _, same⟩ := exists_of_mem_acceptedWrites _ _ accepted
        exact ⟨made, same⟩
      · cases accepted
      · rename_i other _
        exact absurd rfl (other writes commit)
  | service | sweep | table | overwrite | migrate | close =>
      right
      simp only [Operation.accepted] at accepted
      split at accepted
      · cases accepted
      · rename_i success
        exact ⟨success, Option.mem_toList.mp accepted⟩

theorem replays_applyWrites (now : Instant) (writes : List TransactionWrite) : ∀ store : Store,
    Replays ((acceptedWrites writes (applyWrites now writes store).1).map (LogEntry.mk now)) store
      (applyWrites now writes store).2 := by
  induction writes with
  | nil => exact .nil
  | cons write rest ih =>
      intro store
      rw [applyWrites]
      cases applied : write.apply now store with
      | ok changed =>
          have done := (transactionWrite_apply now store write).symm.trans applied
          exact .cons ⟨now, write.write⟩ done (ih changed)
      | error failure => exact ih store

theorem replays_performed {operation : Operation} {session : Session} {result : Outcome × Session}
    (performed : Performed operation session result) :
    Replays ((if result.1.IsFailure then [] else (operation.write? session.clock).toList).map
      (LogEntry.mk session.clock)) session.store result.2.store := by
  cases performed with
  | failed failure kept =>
      rw [if_pos failure, kept]
      exact .nil session.store
  | done success written =>
      rename_i after
      rw [if_neg success]
      cases write : operation.write? session.clock with
      | none =>
          rw [write] at written
          rw [← Except.ok.inj written]
          exact .nil session.store
      | some single =>
          rw [write] at written
          exact .cons ⟨session.clock, single⟩ written (.nil after.store)

theorem replays_step (step : Step) (session : Session) (ordinary : step.operation.IsOrdinary)
    (identified : session.store.HasIdentifiers) :
    Replays (step.log session) session.store (step.perform session).2.store := by
  rcases step with ⟨clock, operation⟩
  cases operation with
  | transaction writes commit =>
      simp only [Step.log, Step.perform, Session.perform, runTransaction]
      split
      · cases commit with
        | true => exact replays_applyWrites clock writes session.store
        | false => exact .nil session.store
      · cases commit <;> exact .nil session.store
  | overwrite => exact ordinary.elim
  | close => exact replays_performed (performed_perform .close { session with clock } trivial identified)
  | service | sweep | table | migrate =>
      refine replays_performed (performed_perform _ { session with clock } ?_ identified)
      trivial

theorem replays_log (steps : List Step) : ∀ session : Session, (∀ step ∈ steps, step.operation.IsOrdinary) →
    session.store.HasIdentifiers → Replays (session.log steps) session.store (session.after steps).store := by
  induction steps with
  | nil => exact fun session _ _ => .nil session.store
  | cons step rest ih =>
      intro session ordinary identified
      have first := replays_step step session (ordinary step List.mem_cons_self) identified
      have between := (first.keeps (fun _ => True) (fun _ _ _ _ _ _ => trivial) identified trivial).1
      exact first.append (ih _ (fun other member => ordinary other (List.mem_cons_of_mem step member)) between)

theorem Session.after_append (front back : List Step) (session : Session) :
    session.after (front ++ back) = (session.after front).after back := List.foldl_append

theorem hasIdentifiers_empty : Store.empty.HasIdentifiers := fun _ member => nomatch member

namespace Session

theorem store_after_keeps (holds : Store → Prop)
    (kept : ∀ (entry : LogEntry) (before after : Store), entry.write.Did entry.time before after → holds before →
      holds after)
    (steps : List Step) (session : Session) (ordinary : ∀ step ∈ steps, step.operation.IsOrdinary)
    (identified : session.store.HasIdentifiers) (held : holds session.store) : holds (session.after steps).store :=
  ((replays_log steps session ordinary identified).keeps holds (fun entry _ => kept entry) identified held).2

theorem hasIdentifiers_after (steps : List Step) (session : Session)
    (ordinary : ∀ step ∈ steps, step.operation.IsOrdinary) (identified : session.store.HasIdentifiers) :
    (session.after steps).store.HasIdentifiers :=
  store_after_keeps Store.HasIdentifiers (fun _ _ _ did held => hasIdentifiers_of_did held did) steps session ordinary
    identified identified

end Session

theorem isSingle_of_write? {operation : Operation} {now : Instant} {write : Write}
    (makes : operation.write? now = some write) : operation.IsSingle := by
  cases operation with
  | transaction | overwrite => cases makes
  | service | sweep | table | migrate | close => trivial

theorem did_of_success {step : Step} {session : Session} {write : Write}
    (makes : step.operation.write? step.clock = some write) (success : ¬(step.perform session).1.IsFailure)
    (identified : session.store.HasIdentifiers) :
    write.Did step.clock session.store (step.perform session).2.store := by
  have performed := performed_perform step.operation { session with clock := step.clock } (isSingle_of_write? makes)
    identified
  rcases result : Session.perform step.operation { session with clock := step.clock } with ⟨outcome, after⟩
  rw [Step.perform, result] at success ⊢
  rw [result] at performed
  cases performed with
  | failed failure _ => exact absurd failure success
  | done _ written =>
      rw [makes] at written
      exact did_of_run identified written

end MetadataRegistry
