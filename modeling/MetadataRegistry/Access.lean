import MetadataRegistry.Store.Transaction

/-!
Access to the store under given circumstances. A table that is stalled never answers, which ends
the access that reaches it; a closed store fails every statement. Access keeps the changes made up
to where it ends.
-/

namespace MetadataRegistry

inductive Table where
  | tenants
  | databases
  | segments
  deriving DecidableEq, Repr

structure Circumstances where
  now : Instant
  stalled : List Table
  isOpen : Bool

inductive Interruption where
  | failed (failure : Failure)
  | stalled
  deriving DecidableEq, Repr

abbrev Access (α : Type) := ReaderT Circumstances (ExceptT Interruption (StateM Store)) α

namespace Access

def reach (table : Table) : Access Unit := fun circumstances store =>
  if circumstances.stalled.contains table then (.error .stalled, store) else (.ok (), store)

def statement {α : Type} (run : Instant → Store → Except Failure α × Store) : Access α :=
  fun circumstances store =>
    if circumstances.isOpen then
      match run circumstances.now store with
      | (.ok value, after) => (.ok value, after)
      | (.error failure, after) => (.error (.failed failure), after)
    else (.error (.failed (.internal .store)), store)

def query {α : Type} (read : Store → Except Failure α) : Access α :=
  statement fun _ store => (read store, store)

def write (change : Instant → Store → Except Failure Store) : Access Unit :=
  statement fun now store =>
    match change now store with
    | .ok changed => (.ok (), changed)
    | .error failure => (.error failure, store)

/-- Statements that take effect together. The transaction is committed when its body is done; one that the body leaves
by a failure or while it waits is rolled back to where it began. -/
def transaction {α : Type} (body : Access α) : Access α := fun circumstances begun =>
  if circumstances.isOpen then
    match body circumstances begun with
    | (.ok value, changed) => (.ok value, changed)
    | (.error interruption, _) => (.error interruption, begun)
  else (.error (.failed (.internal .store)), begun)

def fail {α : Type} (failure : Failure) : Access α := fun _ store => (.error (.failed failure), store)

end Access

end MetadataRegistry
