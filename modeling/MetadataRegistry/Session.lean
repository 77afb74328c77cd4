import MetadataRegistry.Service
import MetadataRegistry.Store.Overwrite

/-!
A session: one store and a clock on which operations act in turn. The clock moves one second on with
each operation unless a time is given. A closed store fails every operation that needs it.
-/

namespace MetadataRegistry

structure Session where
  store : Store
  isOpen : Bool
  clock : Instant

inductive Operation where
  | service (call : ServiceCall) (stalled : List Table)
  | sweep (grace : Period) (stalled : List Table)
  | table (call : TableCall)
  | transaction (writes : List TransactionWrite) (commit : Bool)
  | overwrite (address : RowAddress) (column : String) (cell : Cell)
  | migrate
  | close

inductive Outcome where
  | answered (answer : Answer)
  | refused (status : Status)
  | failed (failure : Failure)
  | stalled
  | swept (outcome : SweepOutcome)
  | writes (outcomes : List (Except Failure Unit))
  | overwritten (rows : Option Nat)
  | migrationFailed

namespace Session

def start (clock : Instant) : Session := ⟨.empty, true, clock⟩

/-- The time of the next operation; the clock stops at the last instant there is. -/
def tick (session : Session) : Session :=
  { session with clock := (session.clock.add? (.seconds 1)).getD session.clock }

def circumstances (session : Session) (stalled : List Table) : Circumstances :=
  ⟨session.clock, stalled, session.isOpen⟩

def perform (operation : Operation) (session : Session) : Outcome × Session :=
  match operation with
  | .service call stalled =>
      match call.run (session.circumstances stalled) session.store with
      | (.ok answer, store) => (.answered answer, { session with store })
      | (.error status, store) => (.refused status, { session with store })
  | .sweep grace stalled =>
      let (outcome, store) := MetadataRegistry.sweep grace (session.circumstances stalled) session.store
      (.swept outcome, { session with store })
  | .table call =>
      match call.run (session.circumstances []) session.store with
      | (.ok answer, store) => (.answered answer, { session with store })
      | (.error (.failed failure), store) => (.failed failure, { session with store })
      | (.error .stalled, store) => (.stalled, { session with store })
  | .transaction writes commit =>
      if session.isOpen then
        let (outcomes, store) := runTransaction session.clock writes commit session.store
        (.writes outcomes, { session with store })
      else (.failed (.internal .store), session)
  | .overwrite address column cell =>
      match session.isOpen, session.store.overwrite address column cell with
      | true, some (rows, store) => (.overwritten (some rows), { session with store })
      | _, _ => (.overwritten none, session)
  | .migrate => (if session.isOpen then .answered .done else .migrationFailed, session)
  | .close => (.answered .done, { session with isOpen := false })

end Session

end MetadataRegistry
