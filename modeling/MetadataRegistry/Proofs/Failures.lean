import MetadataRegistry.Proofs.Runs

/-!
An operation that fails leaves the store as it was. One thing could make a deletion fail after some rows
are gone: an identifier of a database that cannot be read. No operation brings one about.
-/

namespace MetadataRegistry

def Operation.KeepsIdentifiers : Operation → Prop
  | overwrite (.database _) column _ => column ≠ "database_id"
  | _ => True

theorem Operation.IsOrdinary.keepsIdentifiers {operation : Operation} (ordinary : operation.IsOrdinary) :
    operation.KeepsIdentifiers := by
  cases operation with
  | overwrite => exact ordinary.elim
  | service | sweep | table | transaction | migrate | close => trivial

theorem databaseId_write {column : Column DatabaseRow} (member : column ∈ databaseColumns)
    (other : column.name ≠ "database_id") (row : DatabaseRow) (cell : Cell) :
    (column.write row cell).databaseId = row.databaseId := by
  simp only [databaseColumns, List.mem_cons, List.not_mem_nil, or_false] at member
  rcases member with rfl | rfl | rfl | rfl | rfl | rfl | rfl | rfl
  · exact absurd rfl other
  all_goals rfl

theorem overwriteRows_cases {Row : Type} {columns : List (Column Row)} {column : String} {cell : Cell}
    {addressed : Row → Bool} {rows changed : List Row} {count : Nat}
    (done : overwriteRows columns column cell addressed rows = some (count, changed)) :
    changed = rows ∨ ∃ found ∈ columns, found.name = column ∧
      changed = rows.map fun row => if addressed row then found.write row (found.affinity.apply cell) else row := by
  unfold overwriteRows at done
  cases search : columns.find? fun candidate => candidate.name == column with
  | none =>
      rw [search] at done
      cases done
  | some found =>
      have named : found.name = column := by simpa using List.find?_some search
      simp only [search, Option.bind_eq_bind, Option.bind_some] at done
      split at done
      · cases done
        exact Or.inl rfl
      · split at done
        · cases done
        · cases done
          exact Or.inr ⟨found, List.mem_of_find?_eq_some search, named, rfl⟩

theorem databaseIds_overwrite {address : RowAddress} {column : String} {cell : Cell} {store changed : Store}
    {count : Nat} (keeps : (Operation.overwrite address column cell).KeepsIdentifiers)
    (done : store.overwrite address column cell = some (count, changed)) :
    changed.databases.map (·.databaseId) = store.databases.map (·.databaseId) := by
  have unchecked := (Option.filter_eq_some_iff.mp done).1
  cases address with
  | tenant id =>
      obtain ⟨result, _, same⟩ := Option.map_eq_some_iff.mp unchecked
      cases same
      rfl
  | segment id =>
      obtain ⟨result, _, same⟩ := Option.map_eq_some_iff.mp unchecked
      cases same
      rfl
  | database id =>
      obtain ⟨⟨count, rows⟩, overwritten, same⟩ := Option.map_eq_some_iff.mp unchecked
      cases same
      rcases overwriteRows_cases overwritten with unchanged | ⟨found, member, named, rewritten⟩
      · exact congrArg _ unchanged
      · show rows.map (·.databaseId) = _
        rw [rewritten, List.map_map]
        refine List.map_congr_left fun row _ => ?_
        show (if row.databaseId.same (.ofIdentifier id) then found.write row (found.affinity.apply cell)
          else row).databaseId = row.databaseId
        split
        · exact databaseId_write member (named ▸ keeps) row _
        · rfl

theorem hasIdentifiers_overwrite {address : RowAddress} {column : String} {cell : Cell} {store changed : Store}
    {count : Nat} (keeps : (Operation.overwrite address column cell).KeepsIdentifiers)
    (identified : store.HasIdentifiers) (done : store.overwrite address column cell = some (count, changed)) :
    changed.HasIdentifiers := by
  intro row stored
  have listed : row.databaseId ∈ store.databases.map (·.databaseId) := by
    rw [← databaseIds_overwrite keeps done]
    exact List.mem_map_of_mem stored
  obtain ⟨before, earlier, same⟩ := List.mem_map.mp listed
  exact same ▸ identified before earlier

theorem applyWrites_failed (now : Instant) (writes : List TransactionWrite) (store : Store)
    (failed : ∀ outcome ∈ (applyWrites now writes store).1, outcome.isOk = false) :
    (applyWrites now writes store).2 = store := by
  induction writes with
  | nil => rfl
  | cons write rest ih =>
      rw [applyWrites] at failed ⊢
      cases applied : write.apply now store with
      | ok changed =>
          rw [applied] at failed
          cases failed (.ok ()) List.mem_cons_self
      | error failure =>
          rw [applied] at failed
          exact ih fun outcome member => failed outcome (List.mem_cons_of_mem _ member)

theorem store_perform_of_failure (operation : Operation) (session : Session)
    (identified : session.store.HasIdentifiers) (failure : (session.perform operation).1.IsFailure) :
    (session.perform operation).2.store = session.store := by
  cases operation with
  | service | sweep | table | migrate | close =>
      refine (performed_perform _ session ?_ identified).kept failure
      trivial
  | transaction writes commit =>
      simp only [Session.perform, runTransaction] at failure ⊢
      split at failure
      · rename_i opened
        rw [if_pos opened]
        cases commit with
        | true => exact applyWrites_failed session.clock writes session.store failure
        | false => rfl
      · rename_i closed
        rw [if_neg closed]
  | overwrite address column cell =>
      simp only [Session.perform] at failure ⊢
      split at failure
      · exact failure.elim
      · rfl

theorem hasIdentifiers_perform (step : Step) (session : Session) (keeps : step.operation.KeepsIdentifiers)
    (identified : session.store.HasIdentifiers) : (step.perform session).2.store.HasIdentifiers := by
  rcases step with ⟨clock, operation⟩
  cases operation with
  | overwrite address column cell =>
      simp only [Step.perform, Session.perform]
      split
      · rename_i rows changed _ done
        exact hasIdentifiers_overwrite keeps identified done
      · exact identified
  | service | sweep | table | transaction | migrate | close =>
      refine ((written_perform _ { session with clock } ?_ identified).keeps (fun _ => True)
        (fun _ _ _ _ _ => trivial) identified trivial).1
      trivial

/-- After any operations on a new store, whatever cells but the identifiers of databases were overwritten
in between: an operation that fails, for whatever reason and at whatever point, leaves the store as it
was. -/
theorem failure_keeps_store (clock : Instant) (steps : List Step)
    (admitted : ∀ step ∈ steps, step.operation.KeepsIdentifiers) (step : Step)
    (failure : (step.perform ((Session.start clock).after steps)).1.IsFailure) :
    (step.perform ((Session.start clock).after steps)).2.store = ((Session.start clock).after steps).store := by
  have identified := Session.after_keeps (fun session => session.store.HasIdentifiers) _ hasIdentifiers_perform steps
    (Session.start clock) admitted (fun row member => nomatch member)
  exact store_perform_of_failure step.operation _ identified failure

def brokenFlush : List Step × Step :=
  let collection : CollectionId := .ofByte 3
  let paths : FilePaths := .ofEntries [("index", ["part"])]
  ([⟨firstOfJune, .table (.insertTenant (.create "acme" firstOfJune))⟩,
    ⟨firstOfJune, .table (.insertSegment (.create (.ofByte 1) "urn" .vector collection none firstOfJune))⟩],
    ⟨firstOfJune, .table (.flushCollection ⟨"acme", collection, [⟨.ofByte 1, paths⟩, ⟨.ofByte 2, paths⟩], 100⟩)⟩)

theorem brokenFlush_keeps_store :
    (brokenFlush.2.perform ((Session.start firstOfJune).after brokenFlush.1)).2.store =
      ((Session.start firstOfJune).after brokenFlush.1).store :=
  failure_keeps_store firstOfJune brokenFlush.1 (by simp [brokenFlush, Operation.KeepsIdentifiers]) brokenFlush.2
    (by decide +kernel)

end MetadataRegistry
