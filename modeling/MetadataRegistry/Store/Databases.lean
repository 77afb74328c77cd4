import MetadataRegistry.Store.Tenants

/-!
Operations on the database table. Every row refers to a tenant, and among the active rows of a
tenant each name occurs once. Finishing deletions removes rows one by one, so a failure on the way
leaves the rows before it removed.
-/

namespace MetadataRegistry

def longestDatabaseName : Nat := 128

namespace DatabaseRow

def isActive (row : DatabaseRow) : Bool := row.state.same (.text DatabaseState.active.text)

def isSoftDeleted (row : DatabaseRow) : Bool := row.state.same (.text DatabaseState.softDeleted.text)

def isActiveNamed (tenant name : String) (row : DatabaseRow) : Bool :=
  row.tenantId.same (.text tenant) && row.name.same (.text name) && row.isActive

def isExpired (cutoff : Int64) (row : DatabaseRow) : Bool :=
  row.isSoftDeleted && row.deletedAt.below (.integer cutoff)

end DatabaseRow

namespace Store

/-- The length of a name as the store's check counts it. -/
def checkedLength (name : String) : Nat := (upToNul name).length

def databaseViolations (database : Database) (store : Store) : List Constraint :=
  let sameId (row : DatabaseRow) : Bool := row.databaseId.same (.ofIdentifier database.id)
  let sameName (row : DatabaseRow) : Bool := row.isActiveNamed database.tenant database.name
  (if longestDatabaseName < checkedLength database.name then [.check] else []) ++
    (if store.databases.any sameId || (database.state == .active && store.databases.any sameName) then [.unique]
      else []) ++
    (if store.hasTenant database.tenant then [] else [.reference])

def qualifiedName (tenant name : String) : String := s!"{tenant}/{name}"

def insertDatabase (database : Database) (store : Store) : Except Failure Store :=
  match reportedViolation (store.databaseViolations database) with
  | none => .ok { store with databases := store.databases ++ [.ofDatabase database] }
  | some violated =>
      match (StoreError.violation violated).fault with
      | .conflict => .error (.alreadyExists "database" (qualifiedName database.tenant database.name))
      | .notFound => .error (.notFound "tenant" database.tenant)
      | .other => .error (.internal .store)

def getDatabase (id : DatabaseId) (store : Store) : Except Failure (Option Database) :=
  match store.databases.find? fun row => row.databaseId.same (.ofIdentifier id) with
  | none => .ok none
  | some row => row.database.map some

def getDatabaseByName (tenant name : String) (store : Store) : Except Failure (Option Database) :=
  match store.databases.find? (DatabaseRow.isActiveNamed tenant name) with
  | none => .ok none
  | some row => row.database.map some

/-- A page of a tenant's active databases, in the order of their stored creation times and then of
their names. Only the rows of the page are read. -/
def listDatabases (tenant : String) (limit offset : Option UInt32) (store : Store) :
    Except Failure (List Database) :=
  let active := store.databases.filter fun row => row.tenantId.same (.text tenant) && row.isActive
  let remaining := (sortRows (·.createdAt) (·.name) active).drop ((offset.map UInt32.toNat).getD 0)
  let page := match limit with
    | none => remaining
    | some limit => remaining.take limit.toNat
  page.mapM DatabaseRow.database

def softDelete (now : Instant) (tenant name : String) (store : Store) : Except Failure Store :=
  let delete (row : DatabaseRow) : DatabaseRow :=
    { row with
      state := .text DatabaseState.softDeleted.text
      deletedAt := .ofMillis now
      updatedAt := .ofInstant now }
  match updateRows (DatabaseRow.isActiveNamed tenant name) delete store.databases with
  | some databases => .ok { store with databases }
  | none => .error (.notFound "database" (qualifiedName tenant name))

def removeExpired (cutoff : Int64) (idBytes : List UInt8) (store : Store) : Nat × Store :=
  let doomed (row : DatabaseRow) : Bool := row.databaseId.same (.bytes idBytes) && row.isExpired cutoff
  (if store.databases.any doomed then 1 else 0,
    { store with databases := store.databases.filter fun row => !doomed row })

def removeCandidates (cutoff : Int64) : List DatabaseRow → Nat → Store → Except Failure Nat × Store
  | [], removed, store => (.ok removed, store)
  | candidate :: rest, removed, store =>
      match candidate.databaseId.readBytes "database_id" with
      | .error failure => (.error failure, store)
      | .ok idBytes =>
          let (count, store) := store.removeExpired cutoff idBytes
          removeCandidates cutoff rest (removed + count) store

def deletionCandidates (cutoff : Int64) (store : Store) : List DatabaseRow :=
  sortRows (·.deletedAt) (·.deletedAt) (store.databases.filter (DatabaseRow.isExpired cutoff))

/-- A deletion that comes no further than so many of its statements, one for each candidate. -/
def finishDeletionUntil (statements : Nat) (cutoff : Instant) (store : Store) : Except Failure Nat × Store :=
  let cutoff : Int64 := .ofInt cutoff.epochMillis
  removeCandidates cutoff ((store.deletionCandidates cutoff).take statements) 0 store

def finishDeletion (cutoff : Instant) (store : Store) : Except Failure Nat × Store :=
  store.finishDeletionUntil (store.deletionCandidates (.ofInt cutoff.epochMillis)).length cutoff

end Store

end MetadataRegistry
