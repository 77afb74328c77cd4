import MetadataRegistry.Proofs.DatabaseLookup

/-!
Pages of the databases of a tenant. Each page is asked for on its own, so pages fit together because active databases
of one tenant have different names: their rows stand in one order only, and every page is cut out of the same list.
-/

namespace MetadataRegistry

section Pages

variable {α : Type} {listing : List α} {pages : List (List α)} {limit : Nat}

theorem flatten_pages
    (cut : ∀ index page, pages[index]? = some page → page = (listing.drop (index * limit)).take limit) :
    pages.flatten = listing.take (pages.length * limit) := by
  induction pages generalizing listing with
  | nil => simp
  | cons page rest ih =>
    have first : page = listing.take limit := by simpa using cut 0 page rfl
    have later : rest.flatten = (listing.drop limit).take (rest.length * limit) := by
      refine ih fun index other present => ?_
      have cut_there := cut (index + 1) other present
      rwa [Nat.succ_mul, Nat.add_comm, ← List.drop_drop] at cut_there
    rw [List.flatten_cons, first, later, List.length_cons, Nat.succ_mul, Nat.add_comm, List.take_add]

theorem length_of_page_before {page later : List α} {index earlier : Nat}
    (cut : page = (listing.drop (earlier * limit)).take limit)
    (cutLater : later = (listing.drop (index * limit)).take limit) (before : earlier < index) (more : later ≠ []) :
    page.length = limit := by
  have reaches : index * limit < listing.length := by
    by_contra beyond
    rw [List.drop_eq_nil_of_le (Nat.le_of_not_lt beyond), List.take_nil] at cutLater
    exact more cutLater
  have next : (earlier + 1) * limit ≤ index * limit := Nat.mul_le_mul_right limit before
  rw [cut, List.length_take, List.length_drop]
  rw [Nat.succ_mul] at next
  omega

def pageOf (limit offset : Option UInt32) (listing : List α) : List α :=
  let remaining := listing.drop ((offset.map UInt32.toNat).getD 0)
  match limit with
  | none => remaining
  | some limit => remaining.take limit.toNat

theorem map_pageOf {β : Type} (change : α → β) (limit offset : Option UInt32) (listing : List α) :
    (pageOf limit offset listing).map change = pageOf limit offset (listing.map change) := by
  cases limit <;> simp [pageOf, List.map_take, List.map_drop]

end Pages

namespace Store

def listedRows (tenant : String) (store : Store) : List DatabaseRow :=
  sortRows (·.createdAt) (·.name)
    (store.databases.filter fun row => row.tenantId.same (.text tenant) && row.isActive)

variable {store : Store} {tenant : String}

theorem mem_listedRows {row : DatabaseRow} :
    row ∈ store.listedRows tenant ↔ row ∈ store.databases ∧ row.IsActiveOf tenant := by
  rw [listedRows, mem_sortRows, List.mem_filter, isActiveOf_iff]

theorem eq_of_tied (integral : store.Integral) (names : store.HasNames tenant) {row other : DatabaseRow}
    (stored : row ∈ store.databases) (alsoStored : other ∈ store.databases) (active : row.IsActiveOf tenant)
    (otherActive : other.IsActiveOf tenant) (tied : compareRows (·.createdAt) (·.name) row other = .eq) :
    row = other := by
  obtain ⟨name, named⟩ := names row stored active
  obtain ⟨otherName, otherNamed⟩ := names other alsoStored otherActive
  have tie := (compareRows_eq_iff.mp tied).2
  rw [named, otherNamed, Cell.compare_text_eq_iff] at tie
  exact integral.same_active stored alsoStored active otherActive (by rw [named, otherNamed, tie])

theorem pairwise_listedRows (integral : store.Integral) (names : store.HasNames tenant) :
    (store.listedRows tenant).Pairwise fun left right =>
      compareRows (·.createdAt) (·.name) left right = .lt := by
  refine pairwise_lt_sortRows (integral.databaseIds.of_map.filter _) ?_
  intro row member other also tied
  obtain ⟨stored, active⟩ := mem_listedRows.mp (mem_sortRows.mpr member)
  obtain ⟨alsoStored, otherActive⟩ := mem_listedRows.mp (mem_sortRows.mpr also)
  exact eq_of_tied integral names stored alsoStored active otherActive tied

theorem listDatabases_eq_page {listing : List Database} (listed : store.listDatabases tenant none none = .ok listing)
    (limit offset : Option UInt32) :
    store.listDatabases tenant limit offset = .ok (pageOf limit offset listing) := by
  have rows : (store.listedRows tenant).map DatabaseRow.database = listing.map .ok := mapM_eq_ok_iff.mp listed
  have page : store.listDatabases tenant limit offset =
      (pageOf limit offset (store.listedRows tenant)).mapM DatabaseRow.database := rfl
  rw [page, mapM_eq_ok_iff, map_pageOf, map_pageOf, rows]

theorem mem_of_listDatabases {listing : List Database} (listed : store.listDatabases tenant none none = .ok listing)
    (database : Database) :
    database ∈ listing ↔
      ∃ row ∈ store.databases, row.IsActiveOf tenant ∧ row.database = .ok database := by
  have listed : (store.listedRows tenant).mapM DatabaseRow.database = .ok listing := listed
  rw [mem_of_mapM listed]
  simp only [mem_listedRows, and_assoc]

theorem nodup_listedNames (integral : store.Integral) {listing : List Database}
    (listed : store.listDatabases tenant none none = .ok listing) : (listing.map (·.name)).Nodup := by
  have listed : (store.listedRows tenant).mapM DatabaseRow.database = .ok listing := listed
  have names : listing.map (fun database => Cell.text database.name) = (store.listedRows tenant).map (·.name) :=
    map_keys_of_mapM (fun _ _ _ read => (cells_of_database read).1.symm) listed
  have rows : (store.listedRows tenant).Nodup :=
    (List.mergeSort_perm _ _).nodup_iff.mpr (integral.databaseIds.of_map.filter _)
  have distinct : ((store.listedRows tenant).map (·.name)).Nodup := by
    refine rows.map_on fun row member other also same => ?_
    obtain ⟨stored, active⟩ := mem_listedRows.mp member
    obtain ⟨alsoStored, otherActive⟩ := mem_listedRows.mp also
    exact integral.same_active stored alsoStored active otherActive same
  rw [← names] at distinct
  exact List.Nodup.of_map Cell.text (by rwa [List.map_map])

end Store

section Calls

variable {session : Session} {raw tenant : String}

theorem outcome_listDatabases (opened : session.isOpen = true) (owned : required "tenant" raw = .ok tenant)
    {known : Tenant} (found : session.store.getTenant tenant = .ok (some known)) {limit offset : Option UInt32}
    {page : List Database} (listed : session.store.listDatabases tenant limit offset = .ok page) (now : Instant) :
    session.outcome now [] (.listDatabases ⟨raw, limit, offset⟩) = .answered (.databases page) := by
  refine outcome_of_run opened ?_
  simp only [ServiceCall.run, listDatabases, bind_run, Service.validated, owned, Service.perform,
    listTenantDatabases_run List.not_mem_nil List.not_mem_nil found listed]
  rfl

theorem state_of_active {row : DatabaseRow} {database : Database} (active : row.state = .text "active")
    (read : row.database = .ok database) : database.state = .active := by
  have stored := (cells_of_database read).2.2
  rw [active] at stored
  cases of_state : database.state with
  | active => rfl
  | softDeleted =>
    rw [of_state] at stored
    exact absurd stored (by decide)

theorem toldOf_eq_answered_iff {name : String} {owner : Option Tenant} {found : Option Database}
    {database : Database} :
    toldOf (lookedUp tenant name owner found) = .answered (.database (some database)) ↔ found = some database := by
  cases found with
  | none => cases owner <;> simp [toldOf, lookedUp]
  | some other => simp [toldOf, lookedUp]

theorem outcome_getDatabase_iff (opened : session.isOpen = true) (integral : session.store.Integral)
    (normal : session.store.IsNormal) (readable : session.store.withoutSegments.IsReadable)
    (owned : required "tenant" raw = .ok tenant) (now : Instant) (database : Database) :
    session.outcome now [] (.getDatabase ⟨database.name, raw⟩) = .answered (.database (some database)) ↔
      ∃ row ∈ session.store.databases, row.IsActiveOf tenant ∧ row.database = .ok database := by
  constructor
  · intro told
    cases named : requiredDatabaseName database.name with
    | error status =>
      have refused : session.outcome now [] (.getDatabase ⟨database.name, raw⟩) = .refused status := by
        refine outcome_of_refusal opened ?_
        simp only [ServiceCall.run, getDatabase, bind_run, Service.validated, named]
      rw [refused] at told
      cases told
    | ok name =>
      obtain ⟨owner, found, knows⟩ := exists_knows integral readable tenant name
      have tells : session.outcome now [] (.getDatabase ⟨database.name, raw⟩) =
          toldOf (lookedUp tenant name owner found) :=
        outcome_getDatabase_of_knows opened named owned knows
      rw [tells, toldOf_eq_answered_iff] at told
      subst told
      obtain ⟨row, member, active, read, -⟩ := row_of_getDatabaseByName integral knows.foundRead
      have wanted := (isActiveNamed_iff tenant name row).mpr active
      exact ⟨row, member, (isActiveNamed_iff_isActiveOf.mp wanted).1, read⟩
  · rintro ⟨row, member, ⟨ofTenant, active⟩, read⟩
    obtain ⟨nameStored, tenantStored, -⟩ := cells_of_database read
    obtain ⟨name, named, short, stored⟩ := (normal.databases row member).name
    obtain rfl := Cell.text.inj (nameStored.symm.trans stored)
    obtain rfl := Cell.text.inj (tenantStored.symm.trans ofTenant)
    obtain ⟨owner, found, knows⟩ := exists_knows integral readable database.tenant database.name
    have tells : session.outcome now [] (.getDatabase ⟨database.name, raw⟩) =
        toldOf (lookedUp database.tenant database.name owner found) :=
      outcome_getDatabase_of_knows opened (named.requiredDatabaseName short) owned knows
    have readByName := getDatabaseByName_of_mem integral member read (state_of_active active read)
    rw [knows.foundRead, Except.ok.injEq] at readByName
    rw [tells, toldOf_eq_answered_iff, readByName]

end Calls

def Session.TellsPages (session : Session) (raw : String) (limit : UInt32) (pages : List (List Database)) : Prop :=
  ∀ index page, pages[index]? = some page → ∃ offset : UInt32, offset.toNat = index * limit.toNat ∧
    ∃ now, session.outcome now [] (.listDatabases ⟨raw, some limit, some offset⟩) = .answered (.databases page)

/-- In every state that calls and sweeps lead to, as long as their times can be stored, the active databases of a
tenant stand in one strict order, and every call for a part of them is answered with this part. So pages of one length
make up the whole list, with full pages first and empty ones after its end; and the list has just the databases that
are answered to their names, each name once and none of them deleted. -/
theorem listDatabases_pages (clock : Instant) (steps : List Step)
    (offered : ∀ step ∈ steps, step.operation.IsOffered) (inYears : ∀ step ∈ steps, step.clock.HasStoredYear)
    (raw tenant : String) (owned : trimText raw = tenant)
    (known : ∃ row ∈ ((Session.start clock).after steps).store.tenants, row.id = .text tenant) :
    let session := (Session.start clock).after steps
    ∃ (rows : List DatabaseRow) (listing : List Database),
      (rows.Pairwise fun left right => compareRows (·.createdAt) (·.name) left right = .lt) ∧
      (∀ row, row ∈ rows ↔ row ∈ session.store.databases ∧ row.IsActiveOf tenant) ∧
      rows.map DatabaseRow.database = listing.map .ok ∧
      (∀ now, session.outcome now [] (.listDatabases ⟨raw, none, none⟩) = .answered (.databases listing)) ∧
      (∀ now offset, session.outcome now [] (.listDatabases ⟨raw, none, some offset⟩) =
        .answered (.databases (listing.drop offset.toNat))) ∧
      (∀ limit : UInt32,
        (∀ now offset, ∃ page,
          session.outcome now [] (.listDatabases ⟨raw, some limit, some offset⟩) = .answered (.databases page) ∧
            (listing.length ≤ offset.toNat → page = [])) ∧
        ∀ pages : List (List Database), session.TellsPages raw limit pages →
          (listing.length ≤ pages.length * limit.toNat → pages.flatten = listing) ∧
          ∀ (index : Nat) (page : List Database), pages[index]? = some page → page ≠ [] →
            ∀ earlier < index, ∀ before, pages[earlier]? = some before → before.length = limit.toNat) ∧
      (∀ now database, database ∈ listing ↔
        session.outcome now [] (.getDatabase ⟨database.name, raw⟩) = .answered (.database (some database))) ∧
      (listing.map (·.name)).Nodup ∧ ∀ database ∈ listing, database.state = .active := by
  intro session
  have live : session.IsLive :=
    Session.isLive_after steps (Session.start clock) (fun step member => (offered step member).isCall)
      (isLive_start clock)
  have integral := live.proper.integral
  have normal := isNormal_after clock steps offered
  have readable : session.store.withoutSegments.IsReadable :=
    isReadable_withoutSegments_after clock steps offered inYears
  obtain ⟨owner, tenantRead⟩ := reads_getTenant readable tenant
  have tenantRead : session.store.getTenant tenant = .ok owner := tenantRead
  obtain ⟨listing, listed⟩ := reads_listDatabases readable tenant none none
  have listed : session.store.listDatabases tenant none none = .ok listing := listed
  obtain ⟨tenantRow, tenantStored, tenantNamed⟩ := known
  obtain ⟨_, named, same⟩ := (normal.tenants tenantRow tenantStored).id
  have owned : required "tenant" raw = .ok tenant :=
    required_eq_ok_iff.mpr ⟨owned, Cell.text.inj (tenantNamed.symm.trans same) ▸ named.notEmpty⟩
  cases owner with
  | none => exact absurd ⟨tenantRow, tenantStored, tenantNamed⟩ (getTenant_eq_none_iff.mp tenantRead)
  | some owner =>
    have told (now : Instant) (limit offset : Option UInt32) :
        session.outcome now [] (.listDatabases ⟨raw, limit, offset⟩) =
          .answered (.databases (pageOf limit offset listing)) :=
      outcome_listDatabases live.isOpen owned tenantRead (Store.listDatabases_eq_page listed limit offset) now
    refine ⟨session.store.listedRows tenant, listing,
      Store.pairwise_listedRows integral (live.proper.records.hasNames tenant), fun row => Store.mem_listedRows,
      mapM_eq_ok_iff.mp listed, (told · none none), (told · none <| some ·),
      fun limit => ⟨fun now offset => ?_, ?_⟩, fun now database => ?_, ?_, ?_⟩
    · refine ⟨_, told now (some limit) (some offset), fun beyond => ?_⟩
      show (listing.drop offset.toNat).take limit.toNat = []
      rw [List.drop_eq_nil_of_le beyond, List.take_nil]
    · intro pages tells
      have cut (index : Nat) (page : List Database) (present : pages[index]? = some page) :
          page = (listing.drop (index * limit.toNat)).take limit.toNat := by
        obtain ⟨offset, starts, now, answered⟩ := tells index page present
        rw [told now (some limit) (some offset)] at answered
        rw [← starts]
        exact (Answer.databases.inj (Outcome.answered.inj answered)).symm
      refine ⟨fun enough => ?_, fun index page present more earlier before full presentBefore => ?_⟩
      · rw [flatten_pages cut, List.take_of_length_le enough]
      · exact length_of_page_before (cut earlier full presentBefore) (cut index page present) before more
    · rw [outcome_getDatabase_iff live.isOpen integral normal readable owned, Store.mem_of_listDatabases listed]
    · exact Store.nodup_listedNames integral listed
    · intro database member
      obtain ⟨row, -, active, read⟩ := (Store.mem_of_listDatabases listed database).mp member
      exact state_of_active active.2 read

def reusedName : List Step :=
  [⟨firstOfJune, .service (.createTenant ⟨"acme"⟩) []⟩,
    ⟨firstOfJune, .service (.createDatabase ⟨"01010101-0101-0101-0101-010101010101", "orders", "acme"⟩) []⟩,
    ⟨firstOfJune, .service (.deleteDatabase ⟨"orders", "acme"⟩) []⟩,
    ⟨firstOfJune, .service (.createDatabase ⟨"02020202-0202-0202-0202-020202020202", "orders", "acme"⟩) []⟩,
    ⟨firstOfJune, .service (.createDatabase ⟨"03030303-0303-0303-0303-030303030303", "events", "acme"⟩) []⟩]

theorem listDatabases_pages_reusedName :
    let session := (Session.start firstOfJune).after reusedName
    ∃ listing : List Database,
      (∀ now, session.outcome now [] (.listDatabases ⟨" acme ", none, none⟩) = .answered (.databases listing)) ∧
        (∀ pages, session.TellsPages " acme " 1 pages → listing.length ≤ pages.length → pages.flatten = listing) ∧
          (listing.map (·.name)).Nodup := by
  intro session
  have offered : ∀ step ∈ reusedName, step.operation.IsOffered := by decide +kernel
  have inYears : ∀ step ∈ reusedName, step.clock.HasStoredYear := by decide +kernel
  obtain ⟨-, listing, -, -, -, whole, -, parts, -, names, -⟩ := listDatabases_pages firstOfJune reusedName offered
    inYears " acme " "acme" (by decide +kernel) (by decide +kernel)
  refine ⟨listing, whole, fun pages tells enough => ?_, names⟩
  exact ((parts 1).2 pages tells).1 (by rwa [UInt32.toNat_one, Nat.mul_one])

end MetadataRegistry
