import Mathlib.Data.List.Perm.Basic
import MetadataRegistry.Proofs.Pages
import MetadataRegistry.Proofs.RecordTimes

/-!
Listings of whole tables. The store sorts rows by the text of their creation times and by their keys; this is the order
of the times and of the keys themselves, and no two rows have one key, so a list that is answered has every record
once and in its one place.
-/

namespace MetadataRegistry

def Tenant.listOrder (left right : Tenant) : Ordering :=
  (left.createdAt.compare right.createdAt).then (compare (bytesOfText left.id) (bytesOfText right.id))

def Database.listOrder (left right : Database) : Ordering :=
  (left.createdAt.compare right.createdAt).then (compare (bytesOfText left.name) (bytesOfText right.name))

def Segment.listOrder (left right : Segment) : Ordering :=
  (left.createdAt.compare right.createdAt).then (left.id.compare right.id)

section Sorted

variable {Row Value : Type} {first second : Row → Cell} {read : Row → Except Failure Value}
  {order : Value → Value → Ordering} {rows : List Row} {listed : List Value}

theorem pairwise_of_mapM (nodup : rows.Nodup)
    (distinct : ∀ left ∈ rows, ∀ right ∈ rows, compareRows first second left right = .eq → left = right)
    (agrees : ∀ left ∈ rows, ∀ right ∈ rows, ∀ leftValue rightValue, read left = .ok leftValue →
      read right = .ok rightValue → compareRows first second left right = order leftValue rightValue)
    (lists : (sortRows first second rows).mapM read = .ok listed) :
    listed.Pairwise fun left right => order left right = .lt := by
  have ascending : ((sortRows first second rows).map read).Pairwise fun left right =>
      ∀ leftValue rightValue, left = .ok leftValue → right = .ok rightValue → order leftValue rightValue = .lt := by
    refine List.pairwise_map.mpr ((pairwise_lt_sortRows nodup distinct).imp_of_mem ?_)
    intro left right before after less leftValue rightValue leftRead rightRead
    rw [← agrees left (Store.mem_sortRows.mp before) right (Store.mem_sortRows.mp after) leftValue rightValue leftRead
      rightRead]
    exact less
  rw [mapM_eq_ok_iff.mp lists, List.pairwise_map] at ascending
  exact ascending.imp fun less => less _ _ rfl rfl

theorem mapM_sortRows_iff (nodup : rows.Nodup)
    (distinct : ∀ left ∈ rows, ∀ right ∈ rows, compareRows first second left right = .eq → left = right)
    (agrees : ∀ left ∈ rows, ∀ right ∈ rows, ∀ leftValue rightValue, read left = .ok leftValue →
      read right = .ok rightValue → compareRows first second left right = order leftValue rightValue) :
    (sortRows first second rows).mapM read = .ok listed ↔
      (rows.map read).Perm (listed.map .ok) ∧ listed.Pairwise fun left right => order left right = .lt := by
  have readAs {values : List Value} (lists : (sortRows first second rows).mapM read = .ok values) :
      (rows.map read).Perm (values.map .ok) := by
    rw [← mapM_eq_ok_iff.mp lists]
    exact ((List.mergeSort_perm rows _).map read).symm
  constructor
  · exact fun lists => ⟨readAs lists, pairwise_of_mapM nodup distinct agrees lists⟩
  · rintro ⟨sameValues, ascending⟩
    have rowOf {values : List Value} (same : (rows.map read).Perm (values.map .ok)) {value : Value}
        (member : value ∈ values) : ∃ row ∈ rows, read row = .ok value :=
      List.mem_map.mp (same.symm.subset (List.mem_map_of_mem member))
    obtain ⟨values, lists⟩ : Reads ((sortRows first second rows).mapM read) := by
      refine reads_mapM fun row member => ?_
      have present := sameValues.subset (List.mem_map_of_mem (Store.mem_sortRows.mp member))
      obtain ⟨value, -, found⟩ := List.mem_map.mp present
      exact ⟨value, found.symm⟩
    have permuted : values.Perm listed :=
      (List.map_perm_map_iff fun _ _ => Except.ok.inj).mp ((readAs lists).symm.trans sameValues)
    have same : values = listed := by
      refine permuted.eq_of_pairwise ?_ (pairwise_of_mapM nodup distinct agrees lists) ascending
      intro value other before after less greater
      obtain ⟨row, member, rowRead⟩ := rowOf (readAs lists) before
      obtain ⟨otherRow, alsoMember, otherRead⟩ := rowOf sameValues after
      rw [← agrees row member otherRow alsoMember value other rowRead otherRead] at less
      rw [← agrees otherRow alsoMember row member other value otherRead rowRead] at greater
      exact absurd greater (Std.OrientedCmp.not_lt_of_lt less)
    rw [← same]
    exact lists

end Sorted

namespace Store

variable {store : Store}

theorem listTenants_iff (proper : store.IsProper) (dated : store.IsDated) (listed : List Tenant) :
    store.listTenants = .ok listed ↔
      (store.tenants.map TenantRow.tenant).Perm (listed.map .ok) ∧
        listed.Pairwise fun left right => left.listOrder right = .lt := by
  refine mapM_sortRows_iff proper.integral.tenantIds.of_map ?_ ?_
  · intro left member right also tied
    obtain ⟨tenant, rfl⟩ := proper.records.tenants left member
    obtain ⟨other, rfl⟩ := proper.records.tenants right also
    have sameId := (Cell.compare_text_eq_iff _ _).mp (compareRows_eq_iff.mp tied).2
    exact List.inj_on_of_nodup_map proper.integral.tenantIds member also (congrArg Cell.text sameId)
  · intro left member right also tenant other read otherRead
    have times := compare_createdAt (dated .tenants left.stamp (List.mem_map_of_mem member))
      (dated .tenants right.stamp (List.mem_map_of_mem also)) (times_of_tenant read).1 (times_of_tenant otherRead).1
    have names : left.id.compare right.id = compare (bytesOfText tenant.id) (bytesOfText other.id) := by
      rw [id_of_tenant read, id_of_tenant otherRead, compare_bytesOfText]
      rfl
    exact congrArg₂ Ordering.then times names

theorem listSegments_iff (distinct : (store.segments.map (·.segmentId)).Nodup) (identified : store.HasSegmentIds)
    (dated : store.IsDated) (listed : List Segment) :
    store.listSegments = .ok listed ↔
      (store.segments.map SegmentRow.segment).Perm (listed.map .ok) ∧
        listed.Pairwise fun left right => left.listOrder right = .lt := by
  refine mapM_sortRows_iff distinct.of_map ?_ ?_
  · intro left member right also tied
    obtain ⟨id, named⟩ := identified left member
    obtain ⟨otherId, otherNamed⟩ := identified right also
    have tie := (compareRows_eq_iff.mp tied).2
    rw [named, otherNamed] at tie
    have sameBytes : id.bytes = otherId.bytes := Std.compare_eq_iff_eq.mp tie
    refine List.inj_on_of_nodup_map distinct member also ?_
    rw [named, otherNamed]
    exact congrArg Cell.bytes sameBytes
  · intro left member right also segment other read otherRead
    have times := compare_createdAt (dated .segments left.stamp (List.mem_map_of_mem member))
      (dated .segments right.stamp (List.mem_map_of_mem also)) (times_of_segment read).1 (times_of_segment otherRead).1
    obtain ⟨id, named⟩ := identified left member
    obtain ⟨otherId, otherNamed⟩ := identified right also
    have ids : left.segmentId.compare right.segmentId = segment.id.compare other.id := by
      rw [named, otherNamed, id_of_segment named read, id_of_segment otherNamed otherRead]
      rfl
    exact congrArg₂ Ordering.then times ids

instance (tenant : String) : DecidablePred (DatabaseRow.IsActiveOf tenant) :=
  fun _ => inferInstanceAs (Decidable (_ ∧ _))

theorem listDatabases_iff (proper : store.IsProper) (dated : store.IsDated) (tenant : String)
    (listed : List Database) :
    store.listDatabases tenant none none = .ok listed ↔
      ((store.databases.filter fun row => row.IsActiveOf tenant).map DatabaseRow.database).Perm (listed.map .ok) ∧
        listed.Pairwise fun left right => left.listOrder right = .lt := by
  have sameFilter : (fun row : DatabaseRow => row.tenantId.same (.text tenant) && row.isActive) =
      fun row => decide (row.IsActiveOf tenant) := by
    funext row
    rw [Bool.eq_iff_iff, isActiveOf_iff, decide_eq_true_iff]
  have lists : store.listDatabases tenant none none = (sortRows (·.createdAt) (·.name)
      (store.databases.filter fun row => row.IsActiveOf tenant)).mapM DatabaseRow.database := by
    rw [← sameFilter]
    rfl
  have activeOf {row : DatabaseRow} (member : row ∈ store.databases.filter fun row => row.IsActiveOf tenant) :
      row ∈ store.databases ∧ row.IsActiveOf tenant :=
    ⟨(List.mem_filter.mp member).1, of_decide_eq_true (List.mem_filter.mp member).2⟩
  rw [lists]
  refine mapM_sortRows_iff (proper.integral.databaseIds.of_map.filter _) ?_ ?_
  · intro left member right also tied
    exact eq_of_tied proper.integral (proper.records.hasNames tenant) (activeOf member).1 (activeOf also).1
      (activeOf member).2 (activeOf also).2 tied
  · intro left member right also database other read otherRead
    have times := compare_createdAt (dated .databases left.stamp (List.mem_map_of_mem (activeOf member).1))
      (dated .databases right.stamp (List.mem_map_of_mem (activeOf also).1)) (times_of_database read).1
      (times_of_database otherRead).1
    have names : left.name.compare right.name = compare (bytesOfText database.name) (bytesOfText other.name) := by
      rw [(cells_of_database read).1, (cells_of_database otherRead).1, compare_bytesOfText]
      rfl
    exact congrArg₂ Ordering.then times names

end Store

theorem answered_iff {Value : Type} {answer : Value → Answer} (call : TableCall)
    {read : Store → Except Failure Value} (asks : call.run = TableCall.querying answer read)
    (injective : ∀ {value other}, answer value = answer other → value = other) (session : Session) (now : Instant)
    (value : Value) :
    (Step.perform ⟨now, .table call⟩ session).1 = .answered (answer value) ↔
      session.isOpen = true ∧ read session.store = .ok value := by
  constructor
  · intro answered
    obtain ⟨opened, found, isRead, same⟩ := Session.read_of_answered asks answered
    exact ⟨opened, injective same ▸ isRead⟩
  · rintro ⟨opened, isRead⟩
    exact Session.answered_of_read asks opened isRead now

/-- In every state that ordinary operations lead to, times of creation being whatever they are, a list of tenants, of
segments or of the active databases of a tenant is answered if and only if the store is open and the list consists of
what is read of the rows, each row once, in strict order of the times of creation to the millisecond and then of the
names or identifiers. A leap second has its place after the second before it and before the next one. -/
theorem listings_are_chronological (clock : Instant) (steps : List Step)
    (ordinary : ∀ step ∈ steps, step.operation.IsOrdinary) (now : Instant) :
    let session := (Session.start clock).after steps
    let told (call : TableCall) := (Step.perform ⟨now, .table call⟩ session).1
    (∀ listed, told .listTenants = .answered (.tenants listed) ↔
      session.isOpen = true ∧ (session.store.tenants.map TenantRow.tenant).Perm (listed.map .ok) ∧
        listed.Pairwise fun left right => left.listOrder right = .lt) ∧
    (∀ listed, told .listSegments = .answered (.segments listed) ↔
      session.isOpen = true ∧ (session.store.segments.map SegmentRow.segment).Perm (listed.map .ok) ∧
        listed.Pairwise fun left right => left.listOrder right = .lt) ∧
    (∀ tenant listed, told (.listDatabases tenant none none) = .answered (.databases listed) ↔
      session.isOpen = true ∧
        ((session.store.databases.filter fun row => row.IsActiveOf tenant).map DatabaseRow.database).Perm
          (listed.map .ok) ∧
        listed.Pairwise fun left right => left.listOrder right = .lt) ∧
    ∀ plain leap : Instant, plain.isLeapSecond = false → leap.isLeapSecond = true →
      (plain.compare leap = .lt ↔ plain.seconds ≤ leap.seconds) := by
  intro session told
  have proper : session.store.IsProper :=
    Session.isProper_after steps (Session.start clock) ordinary isProper_empty
  have dated : session.store.IsDated :=
    Session.isDated_after steps (Session.start clock) ordinary hasIdentifiers_empty isDated_empty
  have identified : session.store.HasSegmentIds :=
    Session.hasSegmentIds_after steps (Session.start clock) ordinary hasIdentifiers_empty hasSegmentIds_empty
  refine ⟨fun listed => ?_, fun listed => ?_, fun tenant listed => ?_, fun _ _ => compare_leapSecond⟩
  · rw [answered_iff .listTenants rfl Answer.tenants.inj, Store.listTenants_iff proper dated]
  · rw [answered_iff .listSegments rfl Answer.segments.inj,
      Store.listSegments_iff proper.integral.segmentIds identified dated]
  · rw [answered_iff (.listDatabases tenant none none) rfl Answer.databases.inj,
      Store.listDatabases_iff proper dated tenant]

def tenantOf (id : String) (createdAt : Instant) : Tenant := ⟨id, none, 0, createdAt, firstOfJune⟩

def leapTenants : List Tenant :=
  [tenantOf "after" ⟨1483228800, 0, by decide, by decide⟩,
    tenantOf "leap" ⟨1483228799, 1500000000, by decide, by decide⟩,
    tenantOf "early" ⟨-62167219200, 0, by decide, by decide⟩,
    tenantOf "before" ⟨1483228799, 999000000, by decide, by decide⟩]

def leapTenantSteps : List Step :=
  leapTenants.map fun tenant => ⟨firstOfJune, .table (.insertTenant tenant)⟩

theorem listings_are_chronological_leapTenants :
    (Step.perform ⟨firstOfJune, .table .listTenants⟩ ((Session.start firstOfJune).after leapTenantSteps)).1 =
      .answered (.tenants [tenantOf "early" ⟨-62167219200, 0, by decide, by decide⟩,
        tenantOf "before" ⟨1483228799, 999000000, by decide, by decide⟩,
        tenantOf "leap" ⟨1483228799, 1500000000, by decide, by decide⟩,
        tenantOf "after" ⟨1483228800, 0, by decide, by decide⟩]) := by
  have ordinary : ∀ step ∈ leapTenantSteps, step.operation.IsOrdinary := by decide
  have stored : ((Session.start firstOfJune).after leapTenantSteps).store.tenants = leapTenants.map .ofTenant := by
    decide +kernel
  have whole : ∀ tenant ∈ leapTenants, tenant.createdAt.HasStoredYear ∧ tenant.updatedAt.HasStoredYear ∧
      tenant.truncated = tenant := by decide +kernel
  have reads : (leapTenants.map TenantRow.ofTenant).map TenantRow.tenant = leapTenants.map .ok := by
    rw [List.map_map]
    refine List.map_congr_left fun tenant member => ?_
    obtain ⟨created, updated, same⟩ := whole tenant member
    rw [Function.comp_apply, tenant_ofTenant created updated, same]
  refine ((listings_are_chronological firstOfJune leapTenantSteps ordinary firstOfJune).1 _).mpr
    ⟨by decide +kernel, ?_, by decide +kernel⟩
  rw [stored, reads]
  exact List.Perm.map Except.ok (by decide +kernel)

end MetadataRegistry
