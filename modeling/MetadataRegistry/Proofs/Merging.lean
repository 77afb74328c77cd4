import MetadataRegistry.Proofs.Dictionaries
import MetadataRegistry.Proofs.ExactMetadata
import MetadataRegistry.Proofs.Readability

/-!
Merging metadata. A stored document may list the entries of a map in any order, as merging puts new ones at the
end. If its numbers are exact it is read as the map, and the document merged with another map is read as the
map overridden by that one: keys are spelled in one way only, and no value of the patch is written as null.
-/

namespace MetadataRegistry

theorem escapeBody_inj {left right : List Char} (same : escapeBody left = escapeBody right) : left = right := by
  have unescaped := congrArg unescapeBody same
  rw [unescapeBody_escapeBody, unescapeBody_escapeBody] at unescaped
  exact Option.some.inj unescaped

def memberOfEntry (entry : String × MetadataValue) : List Char × Json := (escapeBody entry.1.toList, entry.2.toJson)

theorem label_eq_iff (entry : String × MetadataValue) (key : String) :
    (memberOfEntry entry).1 = escapeBody key.toList ↔ entry.1 = key := by
  constructor
  · exact fun same => String.toList_inj.mp (escapeBody_inj same)
  · rintro rfl
    rfl

theorem toJson_ne_null {value : MetadataValue} (exact : value.IsExact) : value.toJson ≠ .null := by
  intro absent
  have found := ofJson?_toJson_value exact
  rw [absent] at found
  cases found

def putEntry (key : String) (value : MetadataValue) : List (String × MetadataValue) → List (String × MetadataValue)
  | [] => [(key, value)]
  | entry :: rest => if entry.1 = key then (key, value) :: rest else entry :: putEntry key value rest

theorem putMember_map (key : String) (value : MetadataValue) (entries : List (String × MetadataValue)) :
    putMember (escapeBody key.toList) value.toJson (entries.map memberOfEntry) =
      (putEntry key value entries).map memberOfEntry := by
  induction entries with
  | nil => rfl
  | cons entry rest ih =>
      have labels := label_eq_iff entry key
      rw [List.map_cons, putMember, putEntry]
      by_cases same : entry.1 = key
      · rw [if_pos (labels.mpr same), if_pos same]
        rfl
      · rw [if_neg fun label => same (labels.mp label), if_neg same, ih, List.map_cons]

theorem lookup_putEntry (key : String) (value : MetadataValue) (entries : List (String × MetadataValue))
    (name : String) :
    (putEntry key value entries).lookup name = if name = key then some value else entries.lookup name := by
  induction entries with
  | nil => exact lookup_cons_eq name (key, value) []
  | cons entry rest ih =>
      rw [putEntry]
      split
      · rename_i same
        rw [lookup_cons_eq, lookup_cons_eq, same]
        split <;> rfl
      · rename_i different
        rw [lookup_cons_eq, lookup_cons_eq, ih]
        by_cases found : name = entry.1
        · rw [if_pos found, if_pos found, if_neg fun same => different (found.symm.trans same)]
        · rw [if_neg found, if_neg found]

theorem mem_putEntry {key : String} {value : MetadataValue} {entries : List (String × MetadataValue)}
    {entry : String × MetadataValue} (member : entry ∈ putEntry key value entries) :
    entry = (key, value) ∨ entry ∈ entries := by
  induction entries with
  | nil => exact Or.inl (List.mem_singleton.mp member)
  | cons first rest ih =>
      rw [putEntry] at member
      split at member
      · exact (List.mem_cons.mp member).imp_right (List.mem_cons_of_mem first)
      · rcases List.mem_cons.mp member with same | later
        · exact Or.inr (same ▸ List.mem_cons_self)
        · exact (ih later).imp_right (List.mem_cons_of_mem first)

theorem nodup_putEntry {key : String} {value : MetadataValue} {entries : List (String × MetadataValue)}
    (distinct : (entries.map (·.1)).Nodup) : ((putEntry key value entries).map (·.1)).Nodup := by
  induction entries with
  | nil => exact List.nodup_cons.mpr ⟨List.not_mem_nil, List.nodup_nil⟩
  | cons first rest ih =>
      rw [List.map_cons, List.nodup_cons] at distinct
      rw [putEntry]
      split
      · rename_i same
        rw [List.map_cons, List.nodup_cons, ← same]
        exact distinct
      · rename_i different
        rw [List.map_cons, List.nodup_cons]
        refine ⟨fun again => ?_, ih distinct.2⟩
        obtain ⟨entry, member, same⟩ := List.mem_map.mp again
        rcases mem_putEntry member with rfl | old
        · exact different same.symm
        · exact distinct.1 (same ▸ List.mem_map_of_mem old)

def putEntries (patch entries : List (String × MetadataValue)) : List (String × MetadataValue) :=
  patch.foldl (fun entries entry => putEntry entry.1 entry.2 entries) entries

theorem mergeMembers_map {patch : List (String × MetadataValue)} (exact : ∀ entry ∈ patch, entry.2.IsExact) :
    ∀ entries : List (String × MetadataValue),
      mergeMembers (entries.map memberOfEntry) (patch.map memberOfEntry) =
        (putEntries patch entries).map memberOfEntry := by
  induction patch with
  | nil => exact fun _ => rfl
  | cons entry rest ih =>
      intro entries
      rw [List.forall_mem_cons] at exact
      have put : mergeMember (entries.map memberOfEntry) (memberOfEntry entry).1 (memberOfEntry entry).2 =
          (putEntry entry.1 entry.2 entries).map memberOfEntry := by
        rw [← putMember_map]
        unfold mergeMember
        split
        · rename_i null
          exact absurd null (toJson_ne_null exact.1)
        · rfl
      rw [List.map_cons, mergeMembers, List.foldl_cons, put]
      exact ih exact.2 _

structure Metadata.IsListedBy (metadata : Metadata) (entries : List (String × MetadataValue)) : Prop where
  distinct : (entries.map (·.1)).Nodup
  exact : ∀ entry ∈ entries, entry.2.IsExact
  same : ∀ name, metadata.find? name = entries.lookup name

theorem isListedBy_entries {metadata : Metadata} (exact : metadata.IsExact) : metadata.IsListedBy metadata.entries where
  distinct := nodup_keys_of_ascending metadata.ascending
  exact := exact
  same := fun _ => rfl

theorem isListedBy_empty : Metadata.IsListedBy .empty [] := isListedBy_entries fun _ member => nomatch member

namespace Metadata.IsListedBy

variable {metadata : Metadata} {entries : List (String × MetadataValue)}

theorem ofEntries_eq (listed : metadata.IsListedBy entries) : .ofEntries entries = metadata := by
  refine Dictionary.ext_find? fun name => ?_
  rw [Dictionary.find?_ofEntries listed.distinct, listed.same]

theorem putEntry (listed : metadata.IsListedBy entries) (key : String) {value : MetadataValue}
    (exact : value.IsExact) : Metadata.IsListedBy (metadata.insert key value) (putEntry key value entries) where
  distinct := nodup_putEntry listed.distinct
  exact := by
    intro entry member
    rcases mem_putEntry member with rfl | old
    · exact exact
    · exact listed.exact entry old
  same := by
    intro name
    rw [Dictionary.find?_insert, lookup_putEntry, listed.same]

theorem putEntries {patch : List (String × MetadataValue)} (exact : ∀ entry ∈ patch, entry.2.IsExact) :
    ∀ {metadata : Metadata} {entries : List (String × MetadataValue)}, metadata.IsListedBy entries →
      Metadata.IsListedBy (patch.foldl (fun metadata entry => metadata.insert entry.1 entry.2) metadata)
        (putEntries patch entries) := by
  induction patch with
  | nil => exact fun listed => listed
  | cons entry rest ih =>
      intro metadata entries listed
      rw [List.forall_mem_cons] at exact
      exact ih exact.2 (listed.putEntry entry.1 exact.1)

theorem overriddenBy (listed : metadata.IsListedBy entries) {patch : Metadata} (exact : patch.IsExact) :
    Metadata.IsListedBy (metadata.overriddenBy patch) (MetadataRegistry.putEntries patch.entries entries) :=
  putEntries exact listed

end Metadata.IsListedBy

def documentOfEntries (entries : List (String × MetadataValue)) : Json := .object (entries.map memberOfEntry)

theorem documentOfEntries_eq (entries : List (String × MetadataValue)) :
    documentOfEntries entries = .ofMembers (entries.map fun entry => (entry.1, entry.2.toJson)) := by
  rw [documentOfEntries, Json.ofMembers, List.map_map]
  rfl

theorem toJson_eq_documentOfEntries (metadata : Metadata) :
    Metadata.toJson metadata = documentOfEntries metadata.entries :=
  (documentOfEntries_eq metadata.entries).symm

theorem isSpelled_documentOfEntries (entries : List (String × MetadataValue)) :
    (documentOfEntries entries).IsSpelled := by
  rw [documentOfEntries_eq]
  refine isSpelled_ofMembers _ fun member belongs => ?_
  obtain ⟨entry, _, rfl⟩ := List.mem_map.mp belongs
  exact isSpelled_metadataValue entry.2

theorem ofJson?_documentOfEntries {metadata : Metadata} {entries : List (String × MetadataValue)}
    (listed : metadata.IsListedBy entries) : Metadata.ofJson? (documentOfEntries entries) = some metadata := by
  rw [documentOfEntries_eq, Metadata.ofJson?, dictionaryOf?_ofMembers, listed.ofEntries_eq]
  exact fun entry member => ofJson?_toJson_value (listed.exact entry member)

theorem merge_documentOfEntries (entries : List (String × MetadataValue)) {patch : Metadata} (exact : patch.IsExact) :
    (documentOfEntries entries).merge (Metadata.toJson patch) =
      documentOfEntries (putEntries patch.entries entries) := by
  rw [toJson_eq_documentOfEntries, documentOfEntries, documentOfEntries, Json.merge, Json.objectMembers,
    mergeMembers_map exact, documentOfEntries]

def Cell.HoldsMetadata (cell : Cell) : Option Metadata → Prop
  | none => cell = .null
  | some metadata => ∃ entries, metadata.IsListedBy entries ∧ cell = .ofDocument (documentOfEntries entries)

theorem holdsMetadata_ofOption {metadata : Option Metadata} (exact : ∀ given ∈ metadata, given.IsExact) :
    (Cell.ofOption (fun metadata => .ofDocument (Metadata.toJson metadata)) metadata).HoldsMetadata metadata := by
  cases metadata with
  | none => rfl
  | some given =>
      refine ⟨given.entries, isListedBy_entries (exact given rfl), ?_⟩
      rw [← toJson_eq_documentOfEntries]
      rfl

theorem readMetadata_of_holds {cell : Cell} {metadata : Option Metadata} (holds : cell.HoldsMetadata metadata) :
    cell.readOptional (Cell.readText "metadata") >>= readFound (readDocumentText Metadata.ofJson?) = .ok metadata := by
  cases metadata with
  | none =>
      cases holds
      rfl
  | some given =>
      obtain ⟨entries, listed, rfl⟩ := holds
      have read : readDocumentText Metadata.ofJson? (documentOfEntries entries).text = .ok given := by
        rw [readDocumentText_iff, parse?_text (isSpelled_documentOfEntries entries)]
        exact ofJson?_documentOfEntries listed
      show (readDocumentText Metadata.ofJson? (documentOfEntries entries).text).map some = _
      rw [read]
      rfl

def SegmentUpdate.metadataAfter (update : SegmentUpdate) (metadata : Option Metadata) : Option Metadata :=
  match update.resetMetadata, update.metadata with
  | true, given => given
  | false, none => metadata
  | false, some given => some ((metadata.getD .empty).overriddenBy given)

theorem mergeMetadata_of_holds {cell : Cell} {metadata : Option Metadata} (holds : cell.HoldsMetadata metadata)
    {patch : Metadata} (exact : patch.IsExact) :
    ∃ merged, Store.mergeMetadata cell patch = some merged ∧
      merged.HoldsMetadata (some ((metadata.getD .empty).overriddenBy patch)) := by
  -- A missing document counts as one of no entries.
  have stored : ∃ entries text, Store.mergeableText cell = some text ∧
      Json.parse? text = some (documentOfEntries entries) ∧ (metadata.getD .empty).IsListedBy entries := by
    cases metadata with
    | none =>
        cases holds
        exact ⟨[], "{}", rfl, rfl, isListedBy_empty⟩
    | some given =>
        obtain ⟨entries, listed, rfl⟩ := holds
        exact ⟨entries, _, rfl, parse?_text (isSpelled_documentOfEntries entries), listed⟩
  obtain ⟨entries, text, mergeable, found, listed⟩ := stored
  refine ⟨.ofDocument (documentOfEntries (putEntries patch.entries entries)), ?_, ?_⟩
  · simp only [Store.mergeMetadata, mergeable, found, Option.bind_eq_bind, Option.bind_some,
      merge_documentOfEntries entries exact]
    rfl
  · exact ⟨_, listed.overriddenBy exact, rfl⟩

theorem updatedMetadata_of_holds {update : SegmentUpdate} {cell : Cell} {metadata : Option Metadata}
    (holds : cell.HoldsMetadata metadata) (exact : ∀ given ∈ update.metadata, given.IsExact) :
    ∃ changed, Store.updatedMetadata update cell = some changed ∧
      changed.HoldsMetadata (update.metadataAfter metadata) := by
  have whole := holdsMetadata_ofOption exact
  unfold Store.updatedMetadata SegmentUpdate.metadataAfter
  cases update.resetMetadata with
  | true =>
      cases given : update.metadata with
      | none => exact ⟨.null, rfl, rfl⟩
      | some supplied =>
          rw [given] at whole
          exact ⟨_, rfl, whole⟩
  | false =>
      cases given : update.metadata with
      | none => exact ⟨cell, rfl, holds⟩
      | some patch => exact mergeMetadata_of_holds holds (exact patch given)

end MetadataRegistry
