import MetadataRegistry.Proofs.Access
import MetadataRegistry.Proofs.Runs

/-!
What direct calls on the tables do to a session. A call that writes changes the store if it is done, and a call
that asks only answers; neither does anything on a closed store.
-/

namespace MetadataRegistry

variable {α : Type}

namespace TableCall

def querying (answer : α → Answer) (read : Store → Except Failure α) : Access Answer := do
  return answer (← Access.query read)

theorem querying_run (answer : α → Answer) (read : Store → Except Failure α) (now : Instant) (stalled : List Table)
    (store : Store) :
    querying answer read ⟨now, stalled, true⟩ store =
      match read store with
      | .ok value => (.ok (answer value), store)
      | .error failure => (.error (.failed failure), store) := by
  rw [querying, bind_run, Access.query_run]
  cases read store <;> rfl

end TableCall

namespace Session

variable {session : Session} {call : TableCall}

theorem perform_querying {answer : α → Answer} {read : Store → Except Failure α}
    (asks : call.run = TableCall.querying answer read) (isOpen : session.isOpen = true) :
    session.perform (.table call) =
      (match read session.store with
        | .ok value => .answered (answer value)
        | .error failure => .failed failure, session) := by
  rcases session with ⟨store, opened, clock⟩
  cases isOpen
  simp only [perform, circumstances, asks, TableCall.querying_run]
  cases read store <;> rfl

theorem answered_of_read {answer : α → Answer} {read : Store → Except Failure α} {value : α}
    (asks : call.run = TableCall.querying answer read) (isOpen : session.isOpen = true)
    (found : read session.store = .ok value) (askedAt : Instant) :
    (Step.perform ⟨askedAt, .table call⟩ session).1 = .answered (answer value) := by
  have stillOpen : (Session.mk session.store session.isOpen askedAt).isOpen = true := isOpen
  show (Session.perform (.table call) ⟨session.store, session.isOpen, askedAt⟩).1 = _
  simp only [perform_querying asks stillOpen, found]

theorem read_of_answered {answer : α → Answer} {read : Store → Except Failure α} {given : Answer}
    (asks : call.run = TableCall.querying answer read)
    (answered : (session.perform (.table call)).1 = .answered given) :
    session.isOpen = true ∧ ∃ value, read session.store = .ok value ∧ given = answer value := by
  rcases session with ⟨store, opened, clock⟩
  cases opened with
  | false =>
      simp only [perform, circumstances, asks] at answered
      cases answered
  | true =>
      refine ⟨rfl, ?_⟩
      rw [perform_querying asks rfl] at answered
      cases found : read store with
      | error failure =>
          simp only [found] at answered
          cases answered
      | ok value =>
          simp only [found] at answered
          cases answered
          exact ⟨value, rfl, rfl⟩

theorem perform_writing {change : Instant → Store → Except Failure Store} (writes : call.run = TableCall.writing change)
    (isOpen : session.isOpen = true) :
    session.perform (.table call) =
      match change session.clock session.store with
      | .ok changed => (.answered .done, { session with store := changed })
      | .error failure => (.failed failure, session) := by
  rcases session with ⟨store, opened, clock⟩
  cases isOpen
  simp only [perform, circumstances, writes, TableCall.writing_run]
  cases change clock store <;> rfl

theorem written_of_done {change : Instant → Store → Except Failure Store} (writes : call.run = TableCall.writing change)
    (done : (session.perform (.table call)).1 = .answered .done) :
    session.isOpen = true ∧ ∃ changed, change session.clock session.store = .ok changed ∧
      (session.perform (.table call)).2 = { session with store := changed } := by
  rcases session with ⟨store, opened, clock⟩
  cases opened with
  | false =>
      simp only [perform, circumstances, writes] at done
      cases done
  | true =>
      refine ⟨rfl, ?_⟩
      rw [perform_writing writes rfl] at done ⊢
      cases made : change clock store with
      | error failure =>
          simp only [made] at done
          cases done
      | ok changed => exact ⟨changed, rfl, rfl⟩

end Session

end MetadataRegistry
