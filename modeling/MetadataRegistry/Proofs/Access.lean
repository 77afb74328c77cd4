import MetadataRegistry.Service

/-!
What accesses and services do on an open store, a step at a time, and in what words they refuse.
-/

namespace MetadataRegistry

variable {α β ε : Type}

theorem toOption_eq_some_iff {checked : Except ε α} {value : α} :
    checked.toOption = some value ↔ checked = .ok value := by
  cases checked <;> simp [Except.toOption]

theorem ok_bind (value : α) (next : α → Except Failure β) : Except.ok value >>= next = next value := rfl

theorem bind_run (first : ReaderT Circumstances (ExceptT ε (StateM Store)) α)
    (next : α → ReaderT Circumstances (ExceptT ε (StateM Store)) β) (circumstances : Circumstances) (store : Store) :
    (first >>= next) circumstances store =
      match first circumstances store with
      | (.ok value, after) => next value circumstances after
      | (.error interruption, after) => (.error interruption, after) := by
  show (ExceptT.bindCont (fun value => next value circumstances) (first circumstances store).1 :
    StateM Store (Except ε β)) (first circumstances store).2 = _
  rcases first circumstances store with ⟨outcome, after⟩
  cases outcome <;> rfl

theorem Access.query_run (read : Store → Except Failure α) (now : Instant) (stalled : List Table) (store : Store) :
    Access.query read ⟨now, stalled, true⟩ store =
      match read store with
      | .ok value => (.ok value, store)
      | .error failure => (.error (.failed failure), store) := by
  rw [Access.query, Access.statement, if_pos rfl]
  cases read store <;> rfl

theorem Access.write_run (change : Instant → Store → Except Failure Store) (now : Instant) (stalled : List Table)
    (store : Store) :
    Access.write change ⟨now, stalled, true⟩ store =
      match change now store with
      | .ok changed => (.ok (), changed)
      | .error failure => (.error (.failed failure), store) := by
  rw [Access.write, Access.statement, if_pos rfl]
  cases change now store <;> rfl

theorem TableCall.writing_run (change : Instant → Store → Except Failure Store) (now : Instant)
    (stalled : List Table) (store : Store) :
    TableCall.writing change ⟨now, stalled, true⟩ store =
      match change now store with
      | .ok changed => (.ok .done, changed)
      | .error failure => (.error (.failed failure), store) := by
  rw [TableCall.writing, bind_run, Access.write_run]
  cases change now store <;> rfl

theorem Service.perform_writeTo_run (operation : String) (table : Table)
    (change : Instant → Store → Except Failure Store) (now : Instant) (stalled : List Table) (store : Store) :
    Service.perform operation (writeTo table change) ⟨now, stalled, true⟩ store =
      if stalled.contains table then (.error (.deadlineExceeded operation), store)
      else match change now store with
        | .ok changed => (.ok (), changed)
        | .error failure => (.error (.ofFailure operation failure), store) := by
  rw [Service.perform, writeTo, bind_run, Access.reach]
  by_cases stall : stalled.contains table = true
  · rw [if_pos stall, if_pos stall]
  · rw [if_neg stall, if_neg stall]
    dsimp only
    rw [Access.write_run]
    cases change now store <;> rfl

section Refusals

variable (operation : String)

theorem ofFailure_notFound_tenant (tenant : String) :
    Status.ofFailure operation (.notFound "tenant" tenant) = ⟨.notFound, s!"tenant `{tenant}` was not found"⟩ := by
  have entity : "tenant" ++ " `" = "tenant `" := by decide +kernel
  exact congrArg (fun opening => Status.mk .notFound (opening ++ tenant ++ "` was not found")) entity

theorem ofFailure_notFound_database (tenant name : String) :
    Status.ofFailure operation (.notFound "database" s!"{tenant}/{name}") =
      ⟨.notFound, s!"database `{tenant}/{name}` was not found"⟩ := by
  have entity : "database" ++ " `" = "database `" := by decide +kernel
  refine congrArg (Status.mk .notFound) ?_
  simp only [Failure.message, toString, ← entity, String.append_assoc]

theorem ofFailure_alreadyExists_database (tenant name : String) :
    Status.ofFailure operation (.alreadyExists "database" s!"{tenant}/{name}") =
      ⟨.alreadyExists, s!"database `{tenant}/{name}` already exists"⟩ := by
  have entity : "database" ++ " `" = "database `" := by decide +kernel
  refine congrArg (Status.mk .alreadyExists) ?_
  simp only [Failure.message, toString, ← entity, String.append_assoc]

theorem ofFailure_alreadyBound_tenant (tenant : String) :
    Status.ofFailure operation (.alreadyBound "tenant" tenant "resource name") =
      ⟨.failedPrecondition, s!"tenant `{tenant}` already has a resource name bound"⟩ := by
  have entity : "tenant" ++ " `" = "tenant `" := by decide +kernel
  have field : "` already has a " ++ ("resource name" ++ " bound") = "` already has a resource name bound" := by
    decide +kernel
  refine congrArg (Status.mk .failedPrecondition) ?_
  simp only [Failure.message, toString, ← entity, ← field, String.append_assoc]

end Refusals

end MetadataRegistry
