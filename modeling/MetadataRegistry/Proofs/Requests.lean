import Mathlib.Data.List.DropRight
import MetadataRegistry.Proofs.Writes

/-!
Requests in normal form. What a check lets through passes it again and stays as it is, so a record is named in
requests as it is named in the store. What a call writes is made of what its checks let through.
-/

namespace MetadataRegistry

theorem trimStart_trimEnd {characters : List Char} (visible : trimStart characters = characters) :
    trimStart (trimEnd characters) = trimEnd characters := by
  have front : trimEnd characters <+: characters := List.rdropWhile_prefix isBlank characters
  cases trimmed : trimEnd characters with
  | nil => rfl
  | cons first rest =>
      refine trimStart_eq_self_of_head first rest ?_
      rw [trimmed] at front
      obtain ⟨back, rfl⟩ := front
      have head := List.dropWhile_eq_self_iff.mp visible (Nat.zero_lt_succ _)
      simpa using head

theorem trimCharacters_trimCharacters (characters : List Char) :
    trimCharacters (trimCharacters characters) = trimCharacters characters := by
  have started : trimStart (trimStart characters) = trimStart characters := List.dropWhile_idempotent isBlank characters
  have ended : trimEnd (trimEnd (trimStart characters)) = trimEnd (trimStart characters) :=
    List.rdropWhile_idempotent isBlank (trimStart characters)
  rw [trimCharacters, trimCharacters, trimStart_trimEnd started, ended]

theorem trimText_trimText (text : String) : trimText (trimText text) = trimText text := by
  rw [trimText, trimText_toList, trimCharacters_trimCharacters]
  rfl

structure IsName (text : String) : Prop where
  notEmpty : text ≠ ""
  trimmed : trimText text = text

theorem required_eq_ok_iff {field value name : String} :
    required field value = .ok name ↔ trimText value = name ∧ name ≠ "" := by
  unfold required
  simp only [String.isEmpty_iff]
  by_cases empty : trimText value = ""
  · rw [if_pos empty]
    refine iff_of_false nofun ?_
    rintro ⟨same, notEmpty⟩
    exact notEmpty (same.symm.trans empty)
  · rw [if_neg empty, Except.ok.injEq]
    refine ⟨fun same => ⟨same, same ▸ empty⟩, And.left⟩

theorem isName_of_required {field value name : String} (valid : required field value = .ok name) : IsName name := by
  obtain ⟨same, notEmpty⟩ := required_eq_ok_iff.mp valid
  exact ⟨notEmpty, by rw [← same, trimText_trimText]⟩

theorem IsName.required {name : String} (normal : IsName name) (field : String) : required field name = .ok name :=
  required_eq_ok_iff.mpr ⟨normal.trimmed, normal.notEmpty⟩

theorem requiredDatabaseName_eq_ok_iff {value name : String} :
    requiredDatabaseName value = .ok name ↔
      trimText value = name ∧ name ≠ "" ∧ name.length ≤ longestDatabaseName := by
  unfold requiredDatabaseName
  cases checked : required "name" value with
  | error status =>
      refine iff_of_false nofun fun ⟨same, notEmpty, _⟩ => ?_
      rw [required_eq_ok_iff.mpr ⟨same, notEmpty⟩] at checked
      cases checked
  | ok trimmed =>
      obtain ⟨same, notEmpty⟩ := required_eq_ok_iff.mp checked
      show (if longestDatabaseName < trimmed.length then Except.error _ else Except.ok trimmed) = Except.ok name ↔ _
      rw [same]
      by_cases long : longestDatabaseName < trimmed.length
      · rw [if_pos long]
        exact iff_of_false nofun fun ⟨same, _, short⟩ => absurd (same ▸ long) (Nat.not_lt.mpr short)
      · rw [if_neg long, Except.ok.injEq]
        exact ⟨fun same => ⟨same, same ▸ notEmpty, same ▸ Nat.not_lt.mp long⟩, And.left⟩

theorem isName_of_requiredDatabaseName {value name : String} (valid : requiredDatabaseName value = .ok name) :
    IsName name := by
  obtain ⟨same, notEmpty, _⟩ := requiredDatabaseName_eq_ok_iff.mp valid
  exact ⟨notEmpty, by rw [← same, trimText_trimText]⟩

theorem IsName.requiredDatabaseName {name : String} (normal : IsName name) (short : name.length ≤ longestDatabaseName) :
    requiredDatabaseName name = .ok name :=
  requiredDatabaseName_eq_ok_iff.mpr ⟨normal.trimmed, normal.notEmpty, short⟩

theorem requiredTime_eq_ok_iff {field : String} {time checked : Int64} :
    requiredTime field time = .ok checked ↔ time = checked ∧ 0 ≤ time := by
  unfold requiredTime
  by_cases negative : time < 0
  · rw [if_pos negative]
    exact iff_of_false nofun fun ⟨_, nonnegative⟩ => absurd negative (Int64.not_lt.mpr nonnegative)
  · rw [if_neg negative, Except.ok.injEq]
    exact ⟨fun same => ⟨same, Int64.not_lt.mp negative⟩, And.left⟩

theorem requiredRoles_eq_ok_iff {flush : SegmentFlush} :
    requiredRoles flush = .ok () ↔ ∀ role ∈ flush.filePaths.keys, trimText role ≠ "" := by
  unfold requiredRoles
  split
  · rename_i blank
    refine iff_of_false nofun fun visible => ?_
    obtain ⟨role, member, empty⟩ := List.any_eq_true.mp blank
    exact visible role member (String.isEmpty_iff.mp empty)
  · rename_i visible
    refine iff_of_true rfl fun role member empty => ?_
    exact visible (List.any_eq_true.mpr ⟨role, member, String.isEmpty_iff.mpr empty⟩)

theorem requiredSegmentIds_eq_ok_iff {request : SegmentCreation} :
    requiredSegmentIds request = .ok () ↔ request.id ≠ .nil ∧ request.collectionId ≠ .nil := by
  unfold requiredSegmentIds
  by_cases missing : request.id = .nil ∨ request.collectionId = .nil
  · rw [if_pos (by simpa [Identifier.isNil] using missing)]
    exact iff_of_false nofun fun given => missing.elim given.1 given.2
  · rw [if_neg (by simpa [Identifier.isNil] using missing)]
    exact iff_of_true rfl (not_or.mp missing)

theorem requiredCollectionId_eq_ok_iff {request : SegmentUpdate} :
    requiredCollectionId request = .ok () ↔ ∀ id ∈ request.collectionId, id ≠ .nil := by
  unfold requiredCollectionId
  cases request.collectionId with
  | none => simp
  | some id => by_cases missing : id = .nil <;> simp [Identifier.isNil, missing]

theorem forM_requiredRoles_eq_ok_iff {segments : List SegmentFlush} :
    segments.forM requiredRoles = .ok () ↔ ∀ flush ∈ segments, requiredRoles flush = .ok () := by
  induction segments with
  | nil => exact iff_of_true rfl nofun
  | cons flush rest ih =>
      rw [List.forall_mem_cons, ← ih]
      show requiredRoles flush >>= (fun _ => rest.forM requiredRoles) = .ok () ↔ _
      cases checked : requiredRoles flush with
      | error status => exact iff_of_false nofun fun ⟨impossible, _⟩ => nomatch impossible
      | ok => exact ⟨fun later => ⟨rfl, later⟩, And.right⟩

/-- A call makes a write if the checks of its request let through what it is made of. -/
inductive ServiceCall.Writes (now : Instant) : ServiceCall → Write → Prop where
  | createTenant {request : TenantName} {name : String} (named : required "name" request.name = .ok name) :
      Writes now (.createTenant request) (.insertTenant (.create name now))
  | setTenantResourceName {request : ResourceBinding} {id resourceName : String}
      (named : required "id" request.id = .ok id)
      (bound : required "resource_name" request.resourceName = .ok resourceName) :
      Writes now (.setTenantResourceName request) (.bindResourceName id resourceName)
  | setTenantLastCompactionTime {request : TenantCheckpoint} {id : String} {time : Int64}
      (named : required "tenant_id" request.tenantId = .ok id)
      (reached : requiredTime "last_compaction_time" request.lastCompactionTime = .ok time) :
      Writes now (.setTenantLastCompactionTime request) (.advanceCheckpoint id time)
  | createDatabase {request : DatabaseCreation} {id : DatabaseId} {name tenant : String}
      (identified : requiredDatabaseId request.id = .ok id) (named : requiredDatabaseName request.name = .ok name)
      (owned : required "tenant" request.tenant = .ok tenant) :
      Writes now (.createDatabase request) (.insertDatabase (.create id name tenant now))
  | deleteDatabase {request : DatabaseKey} {name tenant : String}
      (named : requiredDatabaseName request.name = .ok name) (owned : required "tenant" request.tenant = .ok tenant) :
      Writes now (.deleteDatabase request) (.softDelete tenant name)
  | finishDatabaseDeletion (request : DeletionCutoff) :
      Writes now (.finishDatabaseDeletion request) (.finishDeletion request.cutoff)
  | createSegment {request : SegmentCreation} {segmentType : String}
      (typed : required "segment_type" request.segmentType = .ok segmentType)
      (identified : requiredSegmentIds request = .ok ()) :
      Writes now (.createSegment request) (.insertSegment
        (.create request.id segmentType request.scope request.collectionId request.metadata now))
  | updateSegment {request : SegmentUpdate} (moved : requiredCollectionId request = .ok ()) :
      Writes now (.updateSegment request) (.updateSegment request)
  | flushSegmentCompaction {request : SegmentFlush} (visible : requiredRoles request = .ok ()) :
      Writes now (.flushSegmentCompaction request) (.flushSegment none request)
  | flushCollectionCompaction {request : CollectionFlush} {tenantId : String} {compactionTime : Int64}
      (named : required "tenant_id" request.tenantId = .ok tenantId)
      (reached : requiredTime "compaction_time" request.compactionTime = .ok compactionTime)
      (visible : request.segments.forM requiredRoles = .ok ()) :
      Writes now (.flushCollectionCompaction request) (.flushCollection { request with tenantId, compactionTime })

theorem ServiceCall.writes_of_write? {call : ServiceCall} {now : Instant} {write : Write}
    (makes : call.write? now = some write) : call.Writes now write := by
  cases call <;>
    simp only [ServiceCall.write?, Option.bind_eq_some_iff, toOption_eq_some_iff, Option.some.injEq, reduceCtorEq]
      at makes
  case createTenant =>
    obtain ⟨name, named, rfl⟩ := makes
    exact .createTenant named
  case setTenantResourceName =>
    obtain ⟨id, named, resourceName, bound, rfl⟩ := makes
    exact .setTenantResourceName named bound
  case setTenantLastCompactionTime =>
    obtain ⟨id, named, time, reached, rfl⟩ := makes
    exact .setTenantLastCompactionTime named reached
  case createDatabase =>
    obtain ⟨id, identified, name, named, tenant, owned, rfl⟩ := makes
    exact .createDatabase identified named owned
  case deleteDatabase =>
    obtain ⟨name, named, tenant, owned, rfl⟩ := makes
    exact .deleteDatabase named owned
  case finishDatabaseDeletion request =>
    cases makes
    exact .finishDatabaseDeletion request
  case createSegment =>
    obtain ⟨segmentType, typed, _, identified, rfl⟩ := makes
    exact .createSegment typed identified
  case updateSegment =>
    obtain ⟨_, moved, rfl⟩ := makes
    exact .updateSegment moved
  case flushSegmentCompaction =>
    obtain ⟨_, visible, rfl⟩ := makes
    exact .flushSegmentCompaction visible
  case flushCollectionCompaction =>
    obtain ⟨tenantId, named, compactionTime, reached, _, visible, rfl⟩ := makes
    exact .flushCollectionCompaction named reached visible

end MetadataRegistry
