import MetadataRegistry.Store
import MetadataRegistry.Store.Fault

/-!
Operations on the tenant table. A write gives the new store or a failure; the time of a write is
handed in.
-/

namespace MetadataRegistry

namespace Store

def hasTenant (store : Store) (id : String) : Bool :=
  store.tenants.any fun row => row.id.same (.text id)

def insertTenant (tenant : Tenant) (store : Store) : Except Failure Store :=
  if store.hasTenant tenant.id then
    .error ((StoreError.violation .unique).failure "tenant" tenant.id)
  else .ok { store with tenants := store.tenants ++ [.ofTenant tenant] }

def listTenants (store : Store) : Except Failure (List Tenant) :=
  (sortRows (·.createdAt) (·.id) store.tenants).mapM TenantRow.tenant

def getTenant (id : String) (store : Store) : Except Failure (Option Tenant) :=
  match store.tenants.find? fun row => row.id.same (.text id) with
  | none => .ok none
  | some row => row.tenant.map some

/-- The checkpoint never moves backwards; an earlier time still counts as a write. -/
def advanceCheckpoint (now : Instant) (id : String) (time : Int64) (store : Store) : Except Failure Store :=
  let advance (row : TenantRow) : TenantRow :=
    { row with
      lastCompactionTime := row.lastCompactionTime.greater (.integer time)
      updatedAt := .ofInstant now }
  match updateRows (fun row => row.id.same (.text id)) advance store.tenants with
  | some tenants => .ok { store with tenants }
  | none => .error (.notFound "tenant" id)

def bindResourceName (now : Instant) (id resourceName : String) (store : Store) : Except Failure Store :=
  let unbound (row : TenantRow) : Bool := row.id.same (.text id) && row.resourceName.isNull
  let bind (row : TenantRow) : TenantRow :=
    { row with resourceName := .text resourceName, updatedAt := .ofInstant now }
  match updateRows unbound bind store.tenants with
  | some tenants => .ok { store with tenants }
  | none =>
      if store.hasTenant id then .error (.alreadyBound "tenant" id "resource name")
      else .error (.notFound "tenant" id)

def upToNul (text : String) : String := String.ofList (text.toList.takeWhile (· != '\x00'))

/-- The checkpoints of the tenants that exist among the given ones, in the order of their names. The
given names are cut at a NUL character, the stored ones are not. -/
def checkpoints (ids : List String) (store : Store) : Except Failure (List TenantCheckpoint) :=
  let wanted (row : TenantRow) : Bool := ids.any fun id => row.id.same (.text (upToNul id))
  (sortRows (·.id) (·.id) (store.tenants.filter wanted)).mapM TenantRow.checkpoint

end Store

end MetadataRegistry
