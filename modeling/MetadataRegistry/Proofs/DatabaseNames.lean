import MetadataRegistry.Proofs.DatabaseCreation
import MetadataRegistry.Proofs.NormalForm
import MetadataRegistry.Proofs.RecordEdits

/-!
The length of database names. The service and the store have the same limit, but the store counts a name only up to
its first NUL character. Whatever operations come in turn, a stored name is longer than the limit only if a NUL
character hides it from the store; the service lets no such name through, and every table call does.
-/

namespace MetadataRegistry

theorem length_takeWhile_le_iff {α : Type} (keep : α → Bool) (list : List α) (bound : Nat) :
    (list.takeWhile keep).length ≤ bound ↔
      list.length ≤ bound ∨ ∃ place ≤ bound, ∃ stop, list[place]? = some stop ∧ keep stop = false := by
  induction list generalizing bound with
  | nil => simp
  | cons first rest ih =>
    cases kept : keep first with
    | false =>
      rw [List.takeWhile_cons_of_neg (by rw [kept]; exact Bool.false_ne_true)]
      exact iff_of_true (Nat.zero_le bound) (Or.inr ⟨0, Nat.zero_le bound, first, rfl, kept⟩)
    | true =>
      rw [List.takeWhile_cons_of_pos kept, List.length_cons, List.length_cons]
      -- The stop is not the first element, so it is one place further on in the whole list than in the rest.
      constructor
      · intro short
        obtain ⟨less, rfl⟩ := Nat.exists_eq_add_of_le' (Nat.le_trans (Nat.succ_pos _) short)
        rcases (ih less).mp (Nat.le_of_succ_le_succ short) with few | ⟨place, early, stop, found, stops⟩
        · exact Or.inl (Nat.succ_le_succ few)
        · exact Or.inr ⟨place + 1, Nat.succ_le_succ early, stop, found, stops⟩
      · rintro (few | ⟨place, early, stop, found, stops⟩)
        · exact Nat.le_trans (Nat.succ_le_succ (List.takeWhile_sublist keep).length_le) few
        · cases place with
          | zero =>
            cases found
            rw [kept] at stops
            cases stops
          | succ place =>
            obtain ⟨less, rfl⟩ := Nat.exists_eq_add_of_le' (Nat.le_trans (Nat.succ_pos place) early)
            exact Nat.succ_le_succ
              ((ih less).mpr (Or.inr ⟨place, Nat.le_of_succ_le_succ early, stop, found, stops⟩))

/-- The name is over the limit, and a NUL character keeps the store from counting that far. -/
structure HidesLength (name : String) : Prop where
  long : 128 < name.length
  early : ∃ place ≤ 128, name.toList[place]? = some '\x00'

theorem checkedLength_le_iff (name : String) :
    Store.checkedLength name ≤ longestDatabaseName ↔ name.length ≤ 128 ∨ HidesLength name := by
  have stop : ∀ character, (character != '\x00') = false ↔ character = '\x00' := fun character => bne_eq_false_iff_eq
  rw [Store.checkedLength, Store.upToNul, String.length_ofList, length_takeWhile_le_iff, String.length_toList]
  simp only [stop, exists_eq_right]
  constructor
  · rintro (short | early)
    · exact Or.inl short
    · by_cases long : 128 < name.length
      · exact Or.inr ⟨long, early⟩
      · exact Or.inl (Nat.le_of_not_lt long)
  · exact Or.imp_right HidesLength.early

def Store.HasCheckedNames (store : Store) : Prop :=
  ∀ row ∈ store.databases, ∃ name, row.name = .text name ∧ Store.checkedLength name ≤ longestDatabaseName

theorem hasCheckedNames_empty : Store.empty.HasCheckedNames := fun _ member => nomatch member

theorem hasCheckedNames_of_did {now : Instant} {write : Write} {before after : Store}
    (did : write.Did now before after) (checked : before.HasCheckedNames) : after.HasCheckedNames := by
  cases write with
  | insertDatabase database =>
      obtain ⟨short, _, _, rfl⟩ := did
      intro row member
      rcases List.mem_append.mp member with stored | new
      · exact checked row stored
      · cases List.mem_singleton.mp new
        exact ⟨database.name, rfl, short⟩
  | softDelete tenant name =>
      obtain ⟨_, rfl⟩ := did
      intro row member
      obtain ⟨old, stored, rfl⟩ := List.mem_map.mp member
      rw [name_deleted]
      exact checked old stored
  | finishDeletion cutoff =>
      obtain ⟨kept, sublist, _, rfl⟩ := did
      exact fun row member => checked row (sublist.subset member)
  | insertTenant | advanceCheckpoint | bindResourceName | insertSegment | flushSegment | flushCollection =>
      obtain ⟨_, rfl⟩ := did
      exact checked
  | updateSegment =>
      obtain ⟨_, _, rfl⟩ := did
      exact checked

theorem hasCheckedNames_after (clock : Instant) (steps : List Step)
    (ordinary : ∀ step ∈ steps, step.operation.IsOrdinary) :
    ((Session.start clock).after steps).store.HasCheckedNames :=
  Session.store_after_keeps Store.HasCheckedNames (fun _ _ _ => hasCheckedNames_of_did) steps (Session.start clock)
    ordinary hasIdentifiers_empty hasCheckedNames_empty

theorem requiredDatabaseName_eq_error_iff {value : String} (named : trimText value ≠ "") :
    requiredDatabaseName value = .error ⟨.invalidArgument, "name must be at most 128 characters"⟩ ↔
      128 < (trimText value).length := by
  rw [requiredDatabaseName_eq, if_neg named]
  split
  · rename_i long
    exact iff_of_true rfl long
  · rename_i short
    exact iff_of_false nofun short

theorem insertDatabase_eq_internal_iff (database : Database) (store : Store) :
    store.insertDatabase database = .error (.internal .store) ↔
      128 < database.name.length ∧ ¬HidesLength database.name := by
  rw [← not_le, ← not_or, ← checkedLength_le_iff, insertDatabase_eq]
  split
  · rename_i long
    exact iff_of_true rfl (Nat.not_le_of_lt long)
  · rename_i short
    refine iff_of_false ?_ (not_not_intro (Nat.le_of_not_lt short))
    split
    · exact nofun
    · split <;> exact nofun

theorem insertDatabase_of_hidesLength {database : Database} {store : Store} (hidden : HidesLength database.name)
    (free : ¬database.IsTaken store) (known : ∃ row ∈ store.tenants, row.id = .text database.tenant) :
    store.insertDatabase database = .ok { store with databases := store.databases ++ [.ofDatabase database] } := by
  have passes := (checkedLength_le_iff database.name).mpr (Or.inr hidden)
  rw [insertDatabase_eq, if_neg (Nat.not_lt_of_le passes), if_neg free, if_pos known]

/-- After any operations on a new store, at any times, a stored name has at most 128 characters unless a NUL character
hides its length; the calls of the service, which count every character, leave no name of more than 128. The store
counts up to the NUL character, so on a name in normal form the two checks agree but where the length is hidden: the
service refuses the name, and the store takes every database that has it, if identifier, name and tenant allow. -/
theorem long_names_are_hidden (clock : Instant) (steps : List Step)
    (ordinary : ∀ step ∈ steps, step.operation.IsOrdinary) :
    let store := ((Session.start clock).after steps).store
    (∀ row ∈ store.databases, ∃ name, row.name = .text name ∧ (name.length ≤ 128 ∨ HidesLength name)) ∧
    ((∀ step ∈ steps, step.operation.IsOffered) →
      ∀ row ∈ store.databases, ∃ name, row.name = .text name ∧ name.length ≤ 128) ∧
    (∀ value, trimText value ≠ "" →
      (requiredDatabaseName value = .error ⟨.invalidArgument, "name must be at most 128 characters"⟩ ↔
        128 < (trimText value).length)) ∧
    (∀ database : Database, store.insertDatabase database = .error (.internal .store) ↔
      128 < database.name.length ∧ ¬HidesLength database.name) ∧
    ∀ database : Database, HidesLength database.name → ¬database.IsTaken store →
      (∃ row ∈ store.tenants, row.id = .text database.tenant) →
        store.insertDatabase database = .ok { store with databases := store.databases ++ [.ofDatabase database] } := by
  intro store
  refine ⟨fun row member => ?_, fun offered row member => ?_, fun value => requiredDatabaseName_eq_error_iff,
    fun database => insertDatabase_eq_internal_iff database store, fun database => insertDatabase_of_hidesLength⟩
  · obtain ⟨name, named, checked⟩ := hasCheckedNames_after clock steps ordinary row member
    exact ⟨name, named, (checkedLength_le_iff name).mp checked⟩
  · obtain ⟨name, _, short, named⟩ := ((isNormal_after clock steps offered).databases row member).name
    exact ⟨name, named, short⟩

def hiddenCharacters : List Char := 'a' :: '\x00' :: List.replicate 128 'b'

def hiddenName : String := String.ofList hiddenCharacters

theorem length_hiddenName : hiddenName.length = 130 := by
  rw [hiddenName, String.length_ofList]
  decide +kernel

theorem hidesLength_hiddenName : HidesLength hiddenName where
  long := by rw [length_hiddenName]; decide
  early := ⟨1, by decide, by rw [hiddenName, String.toList_ofList]; decide +kernel⟩

theorem trimText_hiddenName : trimText hiddenName = hiddenName := by
  rw [trimText, hiddenName, String.toList_ofList]
  exact congrArg String.ofList (by decide +kernel)

def hiddenNames : List Step :=
  [⟨firstOfJune, .service (.createTenant ⟨"acme"⟩) []⟩,
    ⟨firstOfJune, .service (.createDatabase ⟨"67e55044-10b1-426f-9247-bb680e5fe0c8", "main", "acme"⟩) []⟩,
    ⟨firstOfJune, .table (.insertDatabase (.create (.ofByte 1) hiddenName "acme" firstOfJune))⟩]

theorem databaseNames_hiddenNames :
    ((Session.start firstOfJune).after hiddenNames).store.databases.map (·.name) =
      [.text "main", .text hiddenName] := by
  decide +kernel

theorem long_names_are_hidden_byTable :
    let store := ((Session.start firstOfJune).after hiddenNames).store
    let deleted : Database := ⟨.ofByte 2, hiddenName, "acme", 0, .softDeleted, none, firstOfJune, firstOfJune⟩
    (∀ row ∈ store.databases, ∃ name, row.name = .text name ∧ (name.length ≤ 128 ∨ HidesLength name)) ∧
      store.insertDatabase deleted = .ok { store with databases := store.databases ++ [.ofDatabase deleted] } := by
  intro store deleted
  obtain ⟨names, _, _, _, taken⟩ := long_names_are_hidden firstOfJune hiddenNames (by decide)
  exact ⟨names, taken deleted hidesLength_hiddenName (by decide +kernel) (by decide +kernel)⟩

theorem hiddenName_is_stored :
    (∃ row ∈ ((Session.start firstOfJune).after hiddenNames).store.databases, row.name = .text hiddenName) ∧
      hiddenName.length = 130 ∧
      requiredDatabaseName hiddenName = .error ⟨.invalidArgument, "name must be at most 128 characters"⟩ := by
  refine ⟨?_, length_hiddenName, ?_⟩
  · exact List.mem_map.mp (databaseNames_hiddenNames ▸ List.mem_cons_of_mem _ List.mem_cons_self)
  · refine (requiredDatabaseName_eq_error_iff ?_).mpr ?_
    · rw [trimText_hiddenName]
      intro empty
      have none := congrArg String.length empty
      rw [length_hiddenName] at none
      cases none
    · rw [trimText_hiddenName, length_hiddenName]
      decide

end MetadataRegistry
