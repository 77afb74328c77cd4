import Mathlib.Data.List.Nodup
import MetadataRegistry.Proofs.CellOrder
import MetadataRegistry.Proofs.SegmentSearch
import MetadataRegistry.Proofs.TenantNames

/-!
Checkpoints asked for in batches. The names go into the store as one document and come out of it as they went in,
but each is then cut at a NUL character. What is answered has one entry for each tenant that has one of the names
so cut, in the order of the names, with the checkpoint that looking the tenant up tells.
-/

namespace MetadataRegistry

/-- The name is one of those asked for, each read up to a NUL character. -/
def AsksFor (ids : List String) (name : String) : Prop :=
  ∃ id ∈ ids, String.ofList (id.toList.takeWhile (· != '\x00')) = name

instance (ids : List String) (name : String) : Decidable (AsksFor ids name) :=
  inferInstanceAs (Decidable (∃ id ∈ ids, _))

theorem asksFor_iff_mem {ids : List String} (clean : ∀ id ∈ ids, '\x00' ∉ id.toList) (name : String) :
    AsksFor ids name ↔ name ∈ ids := by
  constructor
  · rintro ⟨id, member, same⟩
    rwa [← same.symm.trans (upToNul_of_no_nul (clean id member))] at member
  · exact fun member => ⟨name, member, upToNul_of_no_nul (clean name member)⟩

def TenantRow.IsAsked (ids : List String) (row : TenantRow) : Prop := ∃ name, AsksFor ids name ∧ row.id = .text name

theorem wanted_iff (ids : List String) (row : TenantRow) :
    (ids.any fun id => row.id.same (.text (Store.upToNul id))) = true ↔ row.IsAsked ids := by
  simp only [List.any_eq_true, Cell.same_text_iff]
  constructor
  · rintro ⟨id, member, named⟩
    exact ⟨_, ⟨id, member, rfl⟩, named⟩
  · rintro ⟨_, ⟨id, member, rfl⟩, named⟩
    exact ⟨id, member, named⟩

def Store.askedRows (ids : List String) (store : Store) : List TenantRow :=
  sortRows (·.id) (·.id) (store.tenants.filter fun row => ids.any fun id => row.id.same (.text (Store.upToNul id)))

theorem mem_askedRows {ids : List String} {store : Store} {row : TenantRow} :
    row ∈ store.askedRows ids ↔ row ∈ store.tenants ∧ row.IsAsked ids := by
  rw [Store.askedRows, Store.mem_sortRows, List.mem_filter, wanted_iff]

theorem checkpoint_eq_ok_iff {row : TenantRow} {entry : TenantCheckpoint} :
    row.checkpoint = .ok entry ↔
      row.id = .text entry.tenantId ∧ row.lastCompactionTime = .integer entry.lastCompactionTime := by
  simp only [TenantRow.checkpoint, bind_eq_ok_iff, Cell.readText_iff, Cell.readInteger_iff]
  constructor
  · rintro ⟨id, named, time, reached, same⟩
    cases same
    exact ⟨named, reached⟩
  · rintro ⟨named, reached⟩
    exact ⟨entry.tenantId, named, entry.lastCompactionTime, reached, rfl⟩

theorem reads_checkpoint_iff {ids : List String} {row : TenantRow} (asked : row.IsAsked ids) :
    Reads row.checkpoint ↔ row.lastCompactionTime.IsInteger := by
  obtain ⟨name, _, named⟩ := asked
  constructor
  · rintro ⟨entry, read⟩
    exact ⟨_, (checkpoint_eq_ok_iff.mp read).2⟩
  · rintro ⟨time, reached⟩
    exact ⟨⟨name, time⟩, checkpoint_eq_ok_iff.mpr ⟨named, reached⟩⟩

theorem compare_text_lt_iff (left right : String) : (Cell.text left).compare (.text right) = .lt ↔ left < right :=
  compareOfLessAndEq_eq_lt

theorem ascending_askedRows {ids : List String} {store : Store} (distinct : (store.tenants.map (·.id)).Nodup) :
    ((store.askedRows ids).map (·.id)).Pairwise fun left right => left.compare right = .lt := by
  have apart : ((store.askedRows ids).map (·.id)).Nodup :=
    ((List.mergeSort_perm _ _).map _).nodup_iff.mpr (distinct.sublist (List.filter_sublist.map _))
  have sorted := (pairwise_sortRows _ _ _).and (List.pairwise_map.mp apart)
  refine List.pairwise_map.mpr (sorted.imp_of_mem fun {left right} before after ordered => ?_)
  obtain ⟨_, _, _, named⟩ := mem_askedRows.mp before
  obtain ⟨_, _, _, other⟩ := mem_askedRows.mp after
  obtain ⟨notGreater, different⟩ := ordered
  have compared : compareRows (·.id) (·.id) left right =
      (left.id.compare right.id).then (left.id.compare right.id) := rfl
  rw [compared, Ordering.then_self] at notGreater
  cases order : left.id.compare right.id with
  | lt => rfl
  | eq =>
      rw [named, other, Cell.compare_text_eq_iff] at order
      exact absurd (by rw [named, other, order]) different
  | gt =>
      rw [order] at notGreater
      cases notGreater

theorem checkpoints_eq (ids : List String) (store : Store) :
    store.checkpoints ids = (store.askedRows ids).mapM TenantRow.checkpoint := rfl

section Answers

variable {ids : List String} {store : Store} {entries : List TenantCheckpoint}

theorem reads_checkpoints_iff :
    Reads (store.checkpoints ids) ↔ ∀ row ∈ store.tenants, row.IsAsked ids → row.lastCompactionTime.IsInteger := by
  rw [checkpoints_eq]
  constructor
  · intro all row member asked
    exact (reads_checkpoint_iff asked).mp (reads_of_mapM all row (mem_askedRows.mpr ⟨member, asked⟩))
  · intro integers
    refine reads_mapM fun row chosen => ?_
    obtain ⟨member, asked⟩ := mem_askedRows.mp chosen
    exact (reads_checkpoint_iff asked).mpr (integers row member asked)

theorem mem_checkpoints_iff (read : store.checkpoints ids = .ok entries) (entry : TenantCheckpoint) :
    entry ∈ entries ↔ AsksFor ids entry.tenantId ∧ ∃ row ∈ store.tenants, row.id = .text entry.tenantId ∧
      row.lastCompactionTime = .integer entry.lastCompactionTime := by
  rw [mem_of_mapM read]
  simp only [checkpoint_eq_ok_iff]
  constructor
  · rintro ⟨row, chosen, named, reached⟩
    obtain ⟨member, name, asked, same⟩ := mem_askedRows.mp chosen
    cases Cell.text.inj (named.symm.trans same)
    exact ⟨asked, row, member, named, reached⟩
  · rintro ⟨asked, row, member, named, reached⟩
    exact ⟨row, mem_askedRows.mpr ⟨member, entry.tenantId, asked, named⟩, named, reached⟩

theorem ascending_checkpoints (distinct : (store.tenants.map (·.id)).Nodup)
    (read : store.checkpoints ids = .ok entries) :
    entries.Pairwise fun left right => left.tenantId < right.tenantId := by
  have names : entries.map (fun entry => Cell.text entry.tenantId) = (store.askedRows ids).map (·.id) :=
    map_keys_of_mapM (fun row _ entry found => (checkpoint_eq_ok_iff.mp found).1.symm) read
  have ascending : ((store.askedRows ids).map (·.id)).Pairwise fun left right => left.compare right = .lt :=
    ascending_askedRows distinct
  rw [← names, List.pairwise_map] at ascending
  exact ascending.imp (compare_text_lt_iff _ _).mp

theorem getTenant_of_checkpoint (distinct : (store.tenants.map (·.id)).Nodup)
    (read : store.checkpoints ids = .ok entries) {entry : TenantCheckpoint} (answered : entry ∈ entries)
    {found : Option Tenant} (lookedUp : store.getTenant entry.tenantId = .ok found) :
    ∃ tenant, found = some tenant ∧ tenant.id = entry.tenantId ∧
      tenant.lastCompactionTime = entry.lastCompactionTime := by
  obtain ⟨_, row, member, named, reached⟩ := (mem_checkpoints_iff read entry).mp answered
  -- The row of the entry is the one that is looked up, as no two rows have one name.
  have present : store.tenant? entry.tenantId = some row := by
    cases searched : store.tenant? entry.tenantId with
    | none => exact absurd ⟨row, member, named⟩ (tenant?_eq_none.mp searched)
    | some other =>
        have same := (id_of_tenant? searched).trans named.symm
        rw [List.inj_on_of_nodup_map distinct (mem_of_tenant? searched) member same]
  have told := lookedUp
  rw [getTenant_eq, present] at told
  obtain ⟨tenant, whole, rfl⟩ := (map_some_eq_ok_iff row.tenant found).mp told
  obtain ⟨other, again, _, stored⟩ := row_of_getTenant lookedUp
  cases present.symm.trans again
  exact ⟨tenant, rfl, Cell.text.inj ((id_of_tenant whole).symm.trans named),
    Cell.integer.inj (stored.symm.trans reached)⟩

theorem checkpoints_congr {others : List String} (same : ∀ name, AsksFor others name ↔ AsksFor ids name) :
    store.checkpoints others = store.checkpoints ids := by
  have condition : (fun row : TenantRow => others.any fun id => row.id.same (.text (Store.upToNul id))) =
      fun row => ids.any fun id => row.id.same (.text (Store.upToNul id)) := by
    funext row
    rw [Bool.eq_iff_iff, wanted_iff, wanted_iff, TenantRow.IsAsked, TenantRow.IsAsked]
    simp only [same]
  rw [checkpoints_eq, checkpoints_eq, Store.askedRows, Store.askedRows, condition]

end Answers

theorem perform_checkpoints {session : Session} (opened : session.isOpen = true) (ids : List String) :
    session.perform (.table (.checkpoints ids)) =
      (match session.store.checkpoints ids with
        | .ok entries => .answered (.checkpoints entries)
        | .error failure => .failed failure, session) := by
  cases ids with
  | nil =>
      have nothing : session.store.checkpoints [] = .ok [] := by
        have rows : session.store.askedRows [] = [] := by
          rw [List.eq_nil_iff_forall_not_mem]
          intro row chosen
          obtain ⟨_, _, ⟨_, impossible, _⟩, _⟩ := mem_askedRows.mp chosen
          cases impossible
        rw [checkpoints_eq, rows]
        rfl
      rw [nothing]
      rfl
  | cons id rest =>
      have asks : (TableCall.checkpoints (id :: rest)).run =
          TableCall.querying .checkpoints (Store.checkpoints (id :: rest)) := rfl
      rw [Session.perform_querying asks opened]
      cases session.store.checkpoints (id :: rest) <;> rfl

theorem answered_checkpoints_iff {session : Session} (opened : session.isOpen = true) {ids : List String}
    {entries : List TenantCheckpoint} :
    (session.perform (.table (.checkpoints ids))).1 = .answered (.checkpoints entries) ↔
      session.store.checkpoints ids = .ok entries := by
  rw [perform_checkpoints opened]
  cases session.store.checkpoints ids <;> simp

theorem names_of_document (ids : List String) :
    (Json.parse? (Json.ofList Json.ofText ids).text).bind (Json.listOf? Json.text?) = some ids := by
  rw [parse?_text (isSpelled_ofList ids fun id _ => isSpelled_ofText id), Option.bind_some]
  exact listOf?_ofList ids fun id _ => text?_ofText id

/-- A batch of names is answered if the checkpoints of the tenants that have one of them are integers, as they are
in every store that operations have written. There is one entry for each of these tenants and no other, in ascending
order of their names, and looking the tenant up tells the same checkpoint. Only the names matter, not their order
or number, and of each only what stands before a NUL character; the document that carries them loses none. -/
theorem checkpoints_are_exact (session : Session) (opened : session.isOpen = true)
    (distinct : (session.store.tenants.map (·.id)).Nodup) (ids : List String) :
    let answer (names : List String) : Outcome := (session.perform (.table (.checkpoints names))).1
    ((∃ entries, answer ids = .answered (.checkpoints entries)) ↔
      ∀ row ∈ session.store.tenants, row.IsAsked ids → row.lastCompactionTime.IsInteger) ∧
    (∀ clock steps, (∀ step ∈ steps, step.operation.IsOrdinary) →
      session.store = ((Session.start clock).after steps).store →
        ∃ entries, answer ids = .answered (.checkpoints entries)) ∧
    (∀ entries, answer ids = .answered (.checkpoints entries) →
      (∀ entry, entry ∈ entries ↔ AsksFor ids entry.tenantId ∧ ∃ row ∈ session.store.tenants,
        row.id = .text entry.tenantId ∧ row.lastCompactionTime = .integer entry.lastCompactionTime) ∧
      entries.Pairwise (fun left right => left.tenantId < right.tenantId) ∧
      ∀ entry ∈ entries, ∀ found,
        (session.perform (.table (.getTenant entry.tenantId))).1 = .answered (.tenant found) →
          ∃ tenant, found = some tenant ∧ tenant.id = entry.tenantId ∧
            tenant.lastCompactionTime = entry.lastCompactionTime) ∧
    (∀ others, (∀ name, AsksFor others name ↔ AsksFor ids name) → answer others = answer ids) ∧
    ((∀ id ∈ ids, '\x00' ∉ id.toList) → ∀ name, AsksFor ids name ↔ name ∈ ids) ∧
    (Json.parse? (Json.ofList Json.ofText ids).text).bind (Json.listOf? Json.text?) = some ids := by
  intro answer
  have answers : (∃ entries, answer ids = .answered (.checkpoints entries)) ↔
      ∀ row ∈ session.store.tenants, row.IsAsked ids → row.lastCompactionTime.IsInteger := by
    rw [← reads_checkpoints_iff]
    exact exists_congr fun entries => answered_checkpoints_iff opened
  refine ⟨answers, ?_, ?_, ?_, asksFor_iff_mem, names_of_document ids⟩
  · intro clock steps ordinary written
    refine answers.mpr fun row member _ => ?_
    have proper := Session.isProper_after steps (Session.start clock) ordinary isProper_empty
    obtain ⟨tenant, rfl⟩ := proper.records.tenants row (written ▸ member)
    exact ⟨tenant.lastCompactionTime, rfl⟩
  · intro entries answered
    have read := (answered_checkpoints_iff opened).mp answered
    refine ⟨mem_checkpoints_iff read, ascending_checkpoints distinct read, fun entry member found lookedUp => ?_⟩
    obtain ⟨_, tenant, told, same⟩ := Session.read_of_answered rfl lookedUp
    cases same
    exact getTenant_of_checkpoint distinct read member told
  · intro others same
    show (session.perform (.table (.checkpoints others))).1 = (session.perform (.table (.checkpoints ids))).1
    rw [perform_checkpoints opened, perform_checkpoints opened, checkpoints_congr same]

def threeTenants : List Step :=
  let stored (id : String) (time : Int64) : Step :=
    ⟨firstOfJune, .table (.insertTenant ⟨id, none, time, firstOfJune, firstOfJune⟩)⟩
  [stored "é\\" 7, stored "\"" 5, stored "acme\x00b" 3]

def askedBatch : List String := ["é\\", "unknown", "\"", "é\\"]

theorem checkpoints_are_exact_threeTenants :
    let session := (Session.start firstOfJune).after threeTenants
    ∃ entries, (session.perform (.table (.checkpoints askedBatch))).1 = .answered (.checkpoints entries) ∧
      entries.Pairwise (fun left right => left.tenantId < right.tenantId) ∧ ⟨"\"", 5⟩ ∈ entries ∧ ⟨"é\\", 7⟩ ∈ entries ∧
        ∀ entry ∈ entries, entry.tenantId ∈ askedBatch := by
  intro session
  obtain ⟨_, written, exact, _, clean, _⟩ := checkpoints_are_exact session (by decide +kernel) (by decide +kernel)
    askedBatch
  obtain ⟨entries, answered⟩ := written firstOfJune threeTenants (by decide) rfl
  obtain ⟨members, ascending, _⟩ := exact entries answered
  refine ⟨entries, answered, ascending, (members _).mpr (by decide +kernel), (members _).mpr (by decide +kernel), ?_⟩
  exact fun entry member => (clean (by decide +kernel) _).mp ((members entry).mp member).1

/-- The tenant is there, and the batch of its own name does not find it. -/
theorem nul_hides_checkpoint :
    let session := (Session.start firstOfJune).after threeTenants
    session.store.getTenant "acme\x00b" = .ok (some ⟨"acme\x00b", none, 3, firstOfJune, firstOfJune⟩) ∧
      (session.perform (.table (.checkpoints ["acme\x00b"]))).1 = .answered (.checkpoints []) := by
  intro session
  refine ⟨by decide +kernel, (answered_checkpoints_iff (by decide +kernel)).mpr ?_⟩
  have unfound : session.store.tenants.filter (fun row => ["acme\x00b"].any fun id =>
      row.id.same (.text (Store.upToNul id))) = [] := by decide +kernel
  rw [checkpoints_eq, Store.askedRows, unfound, sortRows, List.mergeSort_nil]
  rfl

end MetadataRegistry
