import MetadataRegistry.Proofs.ServiceAnswers
import MetadataRegistry.Proofs.TenantIsolation

/-!
The creation of a database. The request decides first, then the identifiers and the active names in the store, then
the tenant; a creation that none of them refuses adds one row. The name that a request brings through its checks
passes the check of the store, and what was soft-deleted takes no part.
-/

namespace MetadataRegistry

def DatabaseRow.created (id : DatabaseId) (name tenant : String) (now : Instant) : DatabaseRow where
  databaseId := .ofIdentifier id
  name := .text name
  tenantId := .text tenant
  ts := .integer 0
  state := .text "active"
  deletedAt := .null
  createdAt := .text now.storedText
  updatedAt := .text now.storedText

theorem required_eq (field value : String) :
    required field value =
      if trimText value = "" then .error (.invalidArgument s!"{field} cannot be empty") else .ok (trimText value) := by
  simp only [required, String.isEmpty_iff]

theorem requiredDatabaseName_eq (value : String) :
    requiredDatabaseName value =
      if trimText value = "" then .error (.invalidArgument "name cannot be empty")
      else if 128 < (trimText value).length then .error (.invalidArgument "name must be at most 128 characters")
      else .ok (trimText value) := by
  have missing : toString "name" ++ toString " cannot be empty" = "name cannot be empty" := by decide +kernel
  have long : s!"name must be at most {longestDatabaseName} characters" = "name must be at most 128 characters" := by
    decide +kernel
  rw [requiredDatabaseName, required_eq, missing, long, longestDatabaseName]
  generalize trimText value = trimmed
  by_cases empty : trimmed = ""
  · rw [if_pos empty, if_pos empty]
    rfl
  · rw [if_neg empty, if_neg empty]
    rfl

def DatabaseCreation.database (request : DatabaseCreation) (now : Instant) : Except Status Database := do
  let id ← requiredDatabaseId request.id
  let name ← requiredDatabaseName request.name
  let tenant ← required "tenant" request.tenant
  return .create id name tenant now

theorem DatabaseCreation.database_eq (request : DatabaseCreation) (now : Instant) :
    request.database now =
      match Identifier.parse (trimText request.id) with
      | .error fault => .error (.invalidArgument s!"invalid database id: {fault.message}")
      | .ok id =>
          if trimText request.name = "" then .error (.invalidArgument "name cannot be empty")
          else if 128 < (trimText request.name).length then
            .error (.invalidArgument "name must be at most 128 characters")
          else if trimText request.tenant = "" then .error (.invalidArgument "tenant cannot be empty")
          else .ok (.create id (trimText request.name) (trimText request.tenant) now) := by
  have missing : toString "tenant" ++ toString " cannot be empty" = "tenant cannot be empty" := by decide +kernel
  rw [DatabaseCreation.database, requiredDatabaseId, requiredDatabaseName_eq, required_eq, missing]
  generalize trimText request.name = name
  generalize trimText request.tenant = tenant
  cases Identifier.parse (trimText request.id) with
  | error fault => rfl
  | ok id =>
      dsimp only
      by_cases unnamed : name = ""
      · rw [if_pos unnamed, if_pos unnamed]
        rfl
      · rw [if_neg unnamed, if_neg unnamed]
        by_cases long : 128 < name.length
        · rw [if_pos long, if_pos long]
          rfl
        · rw [if_neg long, if_neg long]
          by_cases unowned : tenant = ""
          · rw [if_pos unowned, if_pos unowned]
            rfl
          · rw [if_neg unowned, if_neg unowned]
            rfl

theorem Service.validated_bind_run {α β : Type} (checked : Except Status α) (next : α → Service β)
    (circumstances : Circumstances) (store : Store) :
    (Service.validated checked >>= next) circumstances store =
      match checked with
      | .ok value => next value circumstances store
      | .error status => (.error status, store) := by
  cases checked <;> rfl

theorem Service.now_bind_run {α : Type} (next : Instant → Service α) (circumstances : Circumstances) (store : Store) :
    (Service.now >>= next) circumstances store = next circumstances.now circumstances store := rfl

theorem createDatabase_run (request : DatabaseCreation) (now : Instant) (store : Store) :
    createDatabase request ⟨now, [], true⟩ store =
      match request.database now with
      | .error status => (.error status, store)
      | .ok database =>
          match store.insertDatabase database with
          | .ok after => (.ok database, after)
          | .error failure => (.error (.ofFailure "create_database" failure), store) := by
  have performs (database : Database) :
      (Service.perform "create_database" (writeTo .databases fun _ => Store.insertDatabase database) >>=
        fun _ => pure database) ⟨now, [], true⟩ store =
        match store.insertDatabase database with
        | .ok after => (.ok database, after)
        | .error failure => (.error (.ofFailure "create_database" failure), store) := by
    rw [bind_run, Service.perform_writeTo_run]
    cases store.insertDatabase database <;> rfl
  simp only [createDatabase, DatabaseCreation.database, Service.validated_bind_run, Service.now_bind_run]
  cases requiredDatabaseId request.id with
  | error status => rfl
  | ok id =>
      cases requiredDatabaseName request.name with
      | error status => rfl
      | ok name =>
          cases required "tenant" request.tenant with
          | error status => rfl
          | ok tenant => exact performs (.create id name tenant now)

theorem perform_createDatabase {session : Session} (opened : session.isOpen = true) (request : DatabaseCreation) :
    session.perform (.service (.createDatabase request) []) =
      match request.database session.clock with
      | .error status => (.refused status, session)
      | .ok database =>
          match session.store.insertDatabase database with
          | .ok store => (.answered (.database (some database)), { session with store })
          | .error failure => (.refused (.ofFailure "create_database" failure), session) := by
  rcases session with ⟨store, isOpen, clock⟩
  cases opened
  simp only [Session.perform, Session.circumstances, ServiceCall.run, bind_run, createDatabase_run]
  cases request.database clock with
  | error status => rfl
  | ok database =>
      dsimp only
      cases store.insertDatabase database <;> rfl

/-- The identifier is that of a row, or the name that of an active row of the tenant. -/
def Store.Occupies (store : Store) (id : DatabaseId) (tenant name : String) : Prop :=
  (∃ row ∈ store.databases, row.databaseId = .ofIdentifier id) ∨ ∃ row ∈ store.databases, row.HasActiveName tenant name

instance (store : Store) (id : DatabaseId) (tenant name : String) : Decidable (store.Occupies id tenant name) :=
  inferInstanceAs (Decidable (_ ∨ _))

def Session.createsDatabase (session : Session) (request : DatabaseCreation) : Outcome × Session :=
  let name := trimText request.name
  let tenant := trimText request.tenant
  let refused (code : StatusCode) (message : String) : Outcome × Session := (.refused ⟨code, message⟩, session)
  match Identifier.parse (trimText request.id) with
  | .error fault => refused .invalidArgument s!"invalid database id: {fault.message}"
  | .ok id =>
      if name = "" then refused .invalidArgument "name cannot be empty"
      else if 128 < name.length then refused .invalidArgument "name must be at most 128 characters"
      else if tenant = "" then refused .invalidArgument "tenant cannot be empty"
      else if session.store.Occupies id tenant name then
        refused .alreadyExists s!"database `{tenant}/{name}` already exists"
      else if ∃ row ∈ session.store.tenants, row.id = .text tenant then
        (.answered (.database (some ⟨id, name, tenant, 0, .active, none, session.clock, session.clock⟩)),
          { session with store := { session.store with
            databases := session.store.databases ++ [.created id name tenant session.clock] } })
      else refused .notFound s!"tenant `{tenant}` was not found"

theorem insertDatabase_of_short {name : String} (short : name.length ≤ 128) (id : DatabaseId) (tenant : String)
    (now : Instant) (store : Store) :
    store.insertDatabase (.create id name tenant now) =
      if store.Occupies id tenant name then .error (.alreadyExists "database" s!"{tenant}/{name}")
      else if ∃ row ∈ store.tenants, row.id = .text tenant then
        .ok { store with databases := store.databases ++ [.created id name tenant now] }
      else .error (.notFound "tenant" tenant) := by
  -- The store counts a name only up to a NUL character, so it counts no more than the service does.
  have fits : Store.checkedLength (Database.create id name tenant now).name ≤ longestDatabaseName :=
    Nat.le_trans (checkedLength_le name) short
  have occupies : (Database.create id name tenant now).IsTaken store ↔ store.Occupies id tenant name :=
    or_congr_right (and_iff_right rfl)
  rw [insertDatabase_eq]
  simp only [occupies]
  rw [if_neg (Nat.not_lt.mpr fits)]
  rfl

theorem perform_createDatabase_eq {session : Session} (opened : session.isOpen = true) (request : DatabaseCreation) :
    session.perform (.service (.createDatabase request) []) = session.createsDatabase request := by
  rw [perform_createDatabase opened, DatabaseCreation.database_eq, Session.createsDatabase]
  generalize trimText request.name = name
  generalize trimText request.tenant = tenant
  cases Identifier.parse (trimText request.id) with
  | error fault => rfl
  | ok id =>
      dsimp only
      by_cases unnamed : name = ""
      · rw [if_pos unnamed, if_pos unnamed]
        rfl
      · by_cases long : 128 < name.length
        · rw [if_neg unnamed, if_neg unnamed, if_pos long, if_pos long]
          rfl
        · by_cases unowned : tenant = ""
          · rw [if_neg unnamed, if_neg unnamed, if_neg long, if_neg long, if_pos unowned, if_pos unowned]
            rfl
          · rw [if_neg unnamed, if_neg unnamed, if_neg long, if_neg long, if_neg unowned, if_neg unowned]
            dsimp only
            rw [insertDatabase_of_short (Nat.not_lt.mp long)]
            by_cases occupied : session.store.Occupies id tenant name
            · rw [if_pos occupied, if_pos occupied]
              dsimp only
              rw [ofFailure_alreadyExists_database]
            · by_cases known : ∃ row ∈ session.store.tenants, row.id = .text tenant
              · rw [if_neg occupied, if_neg occupied, if_pos known, if_pos known]
                rfl
              · rw [if_neg occupied, if_neg occupied, if_neg known, if_neg known]
                dsimp only
                rw [ofFailure_notFound_tenant]

theorem isExpected_createsDatabase {session : Session} {request : DatabaseCreation} {status : Status}
    (refused : (session.createsDatabase request).1 = .refused status) :
    status.code ∈ [StatusCode.invalidArgument, .alreadyExists, .notFound] := by
  unfold Session.createsDatabase at refused
  dsimp only at refused
  split at refused
  · cases refused
    simp
  · split_ifs at refused <;> cases refused <;> simp

theorem createsDatabase_of_softDeleted {session : Session} {request : DatabaseCreation} {id : DatabaseId}
    (identified : Identifier.parse (trimText request.id) = .ok id) (named : trimText request.name ≠ "")
    (short : (trimText request.name).length ≤ 128) (owned : trimText request.tenant ≠ "")
    (known : ∃ row ∈ session.store.tenants, row.id = .text (trimText request.tenant))
    (fresh : ∀ row ∈ session.store.databases, row.databaseId ≠ .ofIdentifier id)
    (deleted : ∀ row ∈ session.store.databases, row.tenantId = .text (trimText request.tenant) →
      row.name = .text (trimText request.name) → row.state = .text "soft_deleted") :
    (session.createsDatabase request).1 = .answered (.database (some
      ⟨id, trimText request.name, trimText request.tenant, 0, .active, none, session.clock, session.clock⟩)) := by
  have free : ¬session.store.Occupies id (trimText request.tenant) (trimText request.name) := by
    rintro (⟨row, member, same⟩ | ⟨row, member, tenant, name, active⟩)
    · exact fresh row member same
    · exact absurd ((deleted row member tenant name).symm.trans active) (by decide)
  rw [Session.createsDatabase]
  dsimp only
  rw [identified]
  dsimp only
  rw [if_neg named, if_neg (Nat.not_lt.mpr short), if_neg owned, if_neg free, if_pos known]

def vacancy : List Step :=
  let created (byte : UInt8) : Database := .create (.ofByte byte) "main" "acme" firstOfJune
  [⟨firstOfJune, .service (.createTenant ⟨"acme"⟩) []⟩,
    ⟨firstOfJune, .table (.insertDatabase (created 1))⟩,
    ⟨firstOfJune, .service (.deleteDatabase ⟨"main", "acme"⟩) []⟩,
    ⟨firstOfJune, .table (.insertDatabase (created 2))⟩,
    ⟨firstOfJune, .service (.deleteDatabase ⟨"main", "acme"⟩) []⟩]

end MetadataRegistry
