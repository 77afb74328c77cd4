import MetadataRegistry.Proofs.SegmentHistory

/-!
Keys under merging. However the stored document spells its keys, and be they repeated, a key that is not supplied
keeps its value, and one that is supplied with a value is there afterwards. Only a number that is not finite, which
is written as null, takes its key away.
-/

namespace MetadataRegistry

def Labels (label : List Char) (key : String) : Prop := unescapeBody label = some key.toList

instance (label : List Char) (key : String) : Decidable (Labels label key) := inferInstanceAs (Decidable (_ = _))

theorem labels_escapeBody_iff (key other : String) : Labels (escapeBody other.toList) key ↔ other = key := by
  rw [Labels, unescapeBody_escapeBody, Option.some.injEq]
  exact String.toList_inj

def valueUnder (key : String) : Members → Option MetadataValue
  | [] => none
  | member :: rest => (valueUnder key rest).or (if Labels member.1 key then MetadataValue.ofJson? member.2 else none)

theorem find?_foldl_insert_of_read (key : String) {members : Members} :
    ∀ {fields : List (String × Json)} {entries : List (String × MetadataValue)} (start : Metadata),
      (members.mapM fun (label, value) => (unescapeBody label).map fun text => (String.ofList text, value)) =
          some fields →
      (fields.mapM fun (label, value) => (MetadataValue.ofJson? value).map fun read => (label, read)) =
          some entries →
        (entries.foldl (fun metadata entry => metadata.insert entry.1 entry.2) start).find? key =
          (valueUnder key members).or (start.find? key) := by
  induction members with
  | nil =>
      intro fields entries start named read
      cases named
      cases read
      rfl
  | cons member rest ih =>
      intro fields entries start named read
      rw [List.mapM_cons] at named
      obtain ⟨field, first, named⟩ := Option.bind_eq_some_iff.mp named
      obtain ⟨later, others, named⟩ := Option.bind_eq_some_iff.mp named
      obtain ⟨text, unescaped, rfl⟩ := Option.map_eq_some_iff.mp first
      cases named
      rw [List.mapM_cons] at read
      obtain ⟨entry, found, read⟩ := Option.bind_eq_some_iff.mp read
      obtain ⟨remaining, ends, read⟩ := Option.bind_eq_some_iff.mp read
      obtain ⟨value, valued, rfl⟩ := Option.map_eq_some_iff.mp found
      cases read
      have labelled : key = String.ofList text ↔ Labels member.1 key := by
        rw [Labels, unescaped, Option.some.injEq, ← String.toList_inj, String.toList_ofList, eq_comm]
      rw [List.foldl_cons, ih _ others ends, Dictionary.find?_insert, valueUnder, valued]
      by_cases same : Labels member.1 key
      · rw [if_pos (labelled.mpr same), if_pos same]
        cases valueUnder key rest <;> rfl
      · rw [if_neg (mt labelled.mp same), if_neg same, Option.or_none]

theorem find?_of_ofJson? {members : Members} {metadata : Metadata}
    (read : Metadata.ofJson? (.object members) = some metadata) (key : String) :
    metadata.find? key = valueUnder key members := by
  obtain ⟨fields, named, read⟩ := Option.bind_eq_some_iff.mp read
  obtain ⟨entries, found, read⟩ := Option.bind_eq_some_iff.mp read
  cases read
  rw [Dictionary.ofEntries, find?_foldl_insert_of_read key .empty named found, Dictionary.find?_empty, Option.or_none]

section Members

variable {key : String} {label : List Char} {value : Json} {members : Members}

theorem valueUnder_putMember_of_other (other : ¬Labels label key) :
    valueUnder key (putMember label value members) = valueUnder key members := by
  induction members with
  | nil => simp [putMember, valueUnder, other]
  | cons first rest ih =>
      rw [putMember]
      split
      · rename_i same
        rw [valueUnder, valueUnder, same, if_neg other, if_neg other]
      · rw [valueUnder, valueUnder, ih]

theorem valueUnder_dropMember_of_other (other : ¬Labels label key) :
    valueUnder key (dropMember label members) = valueUnder key members := by
  induction members with
  | nil => rfl
  | cons first rest ih =>
      rw [dropMember]
      split
      · rename_i same
        rw [valueUnder, same, if_neg other, Option.or_none]
      · rw [valueUnder, valueUnder, ih]

theorem valueUnder_mergeMember_of_other (other : ¬Labels label key) :
    valueUnder key (mergeMember members label value) = valueUnder key members := by
  unfold mergeMember
  split
  · exact valueUnder_dropMember_of_other other
  · exact valueUnder_putMember_of_other other

theorem isSome_valueUnder_putMember (same : Labels label key) (read : (MetadataValue.ofJson? value).isSome = true) :
    (valueUnder key (putMember label value members)).isSome = true := by
  induction members with
  | nil => simp [putMember, valueUnder, same, read]
  | cons first rest ih =>
      rw [putMember]
      split
      · rw [valueUnder, if_pos same, Option.isSome_or, read, Bool.or_true]
      · rw [valueUnder, Option.isSome_or, ih, Bool.true_or]

end Members

structure IsPlain (members : Members) : Prop where
  distinct : (members.map (·.1)).Nodup
  spelled : ∀ label ∈ members.map (·.1), ∃ key : String, label = escapeBody key.toList

theorem isPlain_nil : IsPlain [] := ⟨List.nodup_nil, nofun⟩

theorem labels_dropMember (label : List Char) (members : Members) :
    (dropMember label members).map (·.1) = (members.map (·.1)).erase label := by
  induction members with
  | nil => rfl
  | cons first rest ih =>
      rw [dropMember, List.map_cons, List.erase_cons]
      by_cases same : first.1 = label
      · rw [if_pos same, if_pos (beq_iff_eq.mpr same)]
      · rw [if_neg same, if_neg (mt beq_iff_eq.mp same), List.map_cons, ih]

theorem labels_putMember (label : List Char) (value : Json) (members : Members) :
    (putMember label value members).map (·.1) =
      if label ∈ members.map (·.1) then members.map (·.1) else members.map (·.1) ++ [label] := by
  induction members with
  | nil => rfl
  | cons first rest ih =>
      rw [putMember, List.map_cons]
      by_cases same : first.1 = label
      · rw [if_pos same, same, if_pos List.mem_cons_self, List.map_cons]
      · rw [if_neg same, List.map_cons, ih]
        by_cases later : label ∈ rest.map (·.1)
        · rw [if_pos later, if_pos (List.mem_cons_of_mem _ later)]
        · rw [if_neg later, if_neg (by simpa [Ne.symm same] using later), List.cons_append]

theorem isPlain_mergeMember {members : Members} (plain : IsPlain members) (key : String) (value : Json) :
    IsPlain (mergeMember members (escapeBody key.toList) value) := by
  unfold mergeMember
  split
  · constructor
    · rw [labels_dropMember]
      exact plain.distinct.erase _
    · rw [labels_dropMember]
      exact fun label member => plain.spelled label (List.mem_of_mem_erase member)
  · by_cases present : escapeBody key.toList ∈ members.map (·.1)
    · constructor
      · rw [labels_putMember, if_pos present]
        exact plain.distinct
      · rw [labels_putMember, if_pos present]
        exact plain.spelled
    · constructor
      · rw [labels_putMember, if_neg present]
        refine List.nodup_append.mpr ⟨plain.distinct, List.nodup_singleton _, fun label member last only same => ?_⟩
        rw [same, List.mem_singleton.mp only] at member
        exact present member
      · rw [labels_putMember, if_neg present, List.forall_mem_append]
        exact ⟨plain.spelled, fun label member => ⟨key, List.mem_singleton.mp member⟩⟩

theorem valueUnder_eq_none {key : String} {members : Members}
    (absent : ∀ label ∈ members.map (·.1), ¬Labels label key) : valueUnder key members = none := by
  induction members with
  | nil => rfl
  | cons first rest ih =>
      rw [List.map_cons, List.forall_mem_cons] at absent
      rw [valueUnder, ih absent.2, if_neg absent.1]
      rfl

theorem valueUnder_dropMember_of_plain {members : Members} (plain : IsPlain members) (key : String) :
    valueUnder key (dropMember (escapeBody key.toList) members) = none := by
  refine valueUnder_eq_none fun label member labels => ?_
  rw [labels_dropMember] at member
  obtain ⟨other, rfl⟩ := plain.spelled label (List.mem_of_mem_erase member)
  rw [labels_escapeBody_iff] at labels
  rw [labels] at member
  exact plain.distinct.not_mem_erase member

/-! A map merged. -/

theorem valueUnder_mergeMembers_of_others {key : String} {patch : Members}
    (others : ∀ member ∈ patch, ¬Labels member.1 key) :
    ∀ members, valueUnder key (mergeMembers members patch) = valueUnder key members := by
  induction patch with
  | nil => exact fun _ => rfl
  | cons member rest ih =>
      intro members
      rw [List.forall_mem_cons] at others
      exact (ih others.2 _).trans (valueUnder_mergeMember_of_other others.1)

theorem isPlain_mergeMembers {entries : List (String × MetadataValue)} :
    ∀ {members : Members}, IsPlain members → IsPlain (mergeMembers members (entries.map memberOfEntry)) := by
  induction entries with
  | nil => exact fun plain => plain
  | cons entry rest ih => exact fun plain => ih (isPlain_mergeMember plain entry.1 entry.2.toJson)

theorem members_eq_map (metadata : Metadata) : metadata.members = metadata.entries.map memberOfEntry := rfl

theorem valueUnder_merged_of_absent {key : String} {supplied : Metadata} (absent : supplied.find? key = none)
    (members : Members) : valueUnder key (mergeMembers members supplied.members) = valueUnder key members := by
  refine valueUnder_mergeMembers_of_others (fun member belongs labels => ?_) members
  obtain ⟨entry, present, rfl⟩ := List.mem_map.mp belongs
  have other := List.lookup_eq_none_iff.mp absent entry present
  have same : entry.1 = key := (labels_escapeBody_iff key entry.1).mp labels
  simp [same] at other

/-- What is merged before the entry of a key leaves a plain document plain, and what is merged after it leaves the
key alone. -/
theorem valueUnder_merged_of_present {key : String} {value : MetadataValue} {supplied : Metadata}
    (found : supplied.find? key = some value) (members : Members) :
    ∃ between, (IsPlain members → IsPlain between) ∧
      valueUnder key (mergeMembers members supplied.members) =
        valueUnder key (mergeMember between (escapeBody key.toList) value.toJson) := by
  obtain ⟨front, back, parts, _⟩ := List.lookup_eq_some_iff.mp found
  -- The keys of a map are distinct, so nothing behind the entry that was found can undo it.
  have distinct := nodup_keys_of_ascending supplied.ascending
  rw [parts, List.map_append, List.map_cons] at distinct
  have behind : key ∉ back.map (·.1) := (List.nodup_cons.mp (List.nodup_append.mp distinct).2.1).1
  have others : ∀ member ∈ back.map memberOfEntry, ¬Labels member.1 key := by
    rw [List.forall_mem_map]
    intro entry member labels
    have same : entry.1 = key := (labels_escapeBody_iff key entry.1).mp labels
    exact behind (same ▸ List.mem_map_of_mem member)
  refine ⟨mergeMembers members (front.map memberOfEntry), isPlain_mergeMembers, ?_⟩
  rw [members_eq_map, parts, List.map_append, List.map_cons, mergeMembers, List.foldl_append, List.foldl_cons]
  exact valueUnder_mergeMembers_of_others others _

theorem isSome_valueUnder_merged {key : String} {value : MetadataValue} {supplied : Metadata}
    (found : supplied.find? key = some value) (finite : value.isFinite = true) (members : Members) :
    (valueUnder key (mergeMembers members supplied.members)).isSome = true := by
  obtain ⟨between, _, same⟩ := valueUnder_merged_of_present found members
  have read : (MetadataValue.ofJson? value.toJson).isSome = true := by
    rcases metadataValue_cases value with ⟨_, read⟩ | ⟨infinite, _⟩
    · exact read
    · rw [finite] at infinite
      cases infinite
  rw [same]
  unfold mergeMember
  split
  · rename_i null
    rw [null] at read
    cases read
  · exact isSome_valueUnder_putMember ((labels_escapeBody_iff key key).mpr rfl) read

theorem valueUnder_merged_of_infinite {key : String} {value : MetadataValue} {supplied : Metadata}
    (found : supplied.find? key = some value) (infinite : value.isFinite = false) {members : Members}
    (plain : IsPlain members) : valueUnder key (mergeMembers members supplied.members) = none := by
  obtain ⟨between, kept, same⟩ := valueUnder_merged_of_present found members
  have null : value.toJson = .null := by
    rcases metadataValue_cases value with ⟨finite, _⟩ | ⟨_, null⟩
    · rw [infinite] at finite
      cases finite
    · exact null
  rw [same, null]
  exact valueUnder_dropMember_of_plain (kept plain) key

/-! Stored documents. -/

def Cell.readMetadata (cell : Cell) : Except Failure (Option Metadata) :=
  cell.readOptional (Cell.readText "metadata") >>= readFound (readDocumentText Metadata.ofJson?)

def Cell.IsPlain (cell : Cell) : Prop :=
  cell = .null ∨ ∃ text members, cell = .text text ∧ Json.parse? text = some (.object members) ∧
    MetadataRegistry.IsPlain members

theorem isSpelled_merged {members : Members} (spelled : (Json.object members).IsSpelled) (supplied : Metadata) :
    (Json.object (mergeMembers members supplied.members)).IsSpelled := by
  have written : ∀ member ∈ supplied.members, IsBody member.1 ∧ member.2.IsSpelled := by
    rw [members_eq_map, List.forall_mem_map]
    exact fun entry _ => ⟨isBody_escapeBody _, isSpelled_metadataValue entry.2⟩
  cases spelled with
  | object labels values =>
      have kept := mergeMembers_keeps (fun member => IsBody member.1 ∧ member.2.IsSpelled) supplied.members members
        (fun member belongs => ⟨labels member belongs, values member belongs⟩)
        fun member belongs _ => written member belongs
      exact .object (fun member belongs => (kept member belongs).1) fun member belongs => (kept member belongs).2

theorem readMetadata_text {text : String} {found : Option Metadata} :
    (Cell.text text).readMetadata = .ok found ↔
      ∃ metadata, (Json.parse? text).bind Metadata.ofJson? = some metadata ∧ found = some metadata := by
  show (readDocumentText Metadata.ofJson? text).map some = .ok found ↔ _
  rw [readDocumentText]
  cases (Json.parse? text).bind Metadata.ofJson? with
  | none => simp [Except.map]
  | some metadata => simp [Except.map, eq_comm]

structure Cell.HasMembers (cell : Cell) (held : Option Metadata) (members : Members) : Prop where
  merges : ∃ text, Store.mergeableText cell = some text ∧ Json.parse? text = some (.object members)
  gives : ∀ key, (held.getD .empty).find? key = valueUnder key members
  plain : cell.IsPlain → MetadataRegistry.IsPlain members

theorem hasMembers_of_readMetadata {cell : Cell} {held : Option Metadata} (read : cell.readMetadata = .ok held) :
    ∃ members, cell.HasMembers held members := by
  by_cases absent : cell = .null
  · cases absent
    cases read
    exact ⟨[], ⟨"{}", rfl, rfl⟩, fun _ => rfl, fun _ => isPlain_nil⟩
  · obtain ⟨found, optional, _⟩ := (bind_eq_ok_iff _ _ _).mp read
    obtain ⟨_, text, isText, rfl⟩ := ((Cell.readOptional_iff _ _ _).mp optional).resolve_left fun none => absent none.1
    cases (Cell.readText_iff _ _ _).mp isText
    obtain ⟨metadata, given, rfl⟩ := readMetadata_text.mp read
    obtain ⟨document, parsed, given⟩ := Option.bind_eq_some_iff.mp given
    obtain ⟨members, rfl⟩ := object_of_metadata (Option.isSome_iff_exists.mpr ⟨metadata, given⟩)
    refine ⟨members, ⟨text, rfl, parsed⟩, find?_of_ofJson? given, ?_⟩
    rintro (impossible | ⟨other, plainly, same, parsedSame, plain⟩)
    · cases impossible
    · cases same
      cases parsed.symm.trans parsedSame
      exact plain

theorem mergeMetadata_of_hasMembers {cell : Cell} {held : Option Metadata} {members : Members}
    (has : cell.HasMembers held members) (supplied : Metadata) :
    Store.mergeMetadata cell supplied = some (.ofDocument (.object (mergeMembers members supplied.members))) := by
  obtain ⟨text, mergeable, parsed⟩ := has.merges
  simp only [Store.mergeMetadata, mergeable, parsed, toJson_eq_members, Option.bind_eq_bind, Option.bind_some]
  rfl

theorem readMetadata_merged {cell : Cell} {held : Option Metadata} {members : Members}
    (read : cell.readMetadata = .ok held) (has : cell.HasMembers held members) (supplied : Metadata) :
    ∃ metadata, (Cell.ofDocument (.object (mergeMembers members supplied.members))).readMetadata =
        .ok (some metadata) ∧
      ∀ key, metadata.find? key = valueUnder key (mergeMembers members supplied.members) := by
  obtain ⟨_, _, parsed⟩ := has.merges
  have readable : cell = .null ∨ cell.IsDocument Metadata.ofJson? := (reads_metadata_iff cell).mp ⟨held, read⟩
  obtain ⟨text, same, found⟩ := isDocument_mergeMetadata readable (mergeMetadata_of_hasMembers has supplied)
  cases same
  rw [parse?_text (isSpelled_merged (isSpelled_of_parse? parsed) supplied), Option.bind_some] at found
  obtain ⟨metadata, given⟩ := Option.isSome_iff_exists.mp found
  refine ⟨metadata, readMetadata_text.mpr ⟨metadata, ?_, rfl⟩, find?_of_ofJson? given⟩
  rw [parse?_text (isSpelled_merged (isSpelled_of_parse? parsed) supplied), Option.bind_some]
  exact given

theorem isPlain_members (metadata : Metadata) : IsPlain metadata.members := by
  rw [members_eq_map]
  constructor
  · have injective : Function.Injective fun key : String => escapeBody key.toList :=
      fun left right same => String.toList_inj.mp (escapeBody_inj same)
    have labels := (nodup_keys_of_ascending metadata.ascending).map injective
    rwa [List.map_map] at labels ⊢
  · rw [List.map_map, List.forall_mem_map]
    exact fun entry _ => ⟨entry.1, rfl⟩

theorem isPlain_toJson (metadata : Metadata) : (Cell.ofDocument (Metadata.toJson metadata)).IsPlain := by
  refine Or.inr ⟨_, metadata.members, rfl, ?_, isPlain_members metadata⟩
  rw [parse?_text (isSpelled_metadata metadata), toJson_eq_members]

theorem isPlain_mergeMetadata {cell merged : Cell} {supplied : Metadata} (plain : cell.IsPlain)
    (done : Store.mergeMetadata cell supplied = some merged) : merged.IsPlain := by
  have document : ∃ text members, Store.mergeableText cell = some text ∧ Json.parse? text = some (.object members) ∧
      IsPlain members := by
    rcases plain with rfl | ⟨text, members, rfl, parsed, plain⟩
    · exact ⟨"{}", [], rfl, rfl, isPlain_nil⟩
    · exact ⟨text, members, rfl, parsed, plain⟩
  obtain ⟨text, members, mergeable, parsed, plain⟩ := document
  simp only [Store.mergeMetadata, mergeable, parsed, toJson_eq_members, Option.bind_eq_bind, Option.bind_some] at done
  cases done
  exact Or.inr ⟨_, _, rfl, parse?_text (isSpelled_merged (isSpelled_of_parse? parsed) supplied),
    isPlain_mergeMembers plain⟩

theorem isPlain_updatedMetadata {update : SegmentUpdate} {cell changed : Cell} (plain : cell.IsPlain)
    (done : Store.updatedMetadata update cell = some changed) : changed.IsPlain := by
  unfold Store.updatedMetadata at done
  split at done
  · cases done
    exact Or.inl rfl
  · cases done
    exact isPlain_toJson _
  · cases done
    exact plain
  · exact isPlain_mergeMetadata plain done

theorem metadata_updated {now : Instant} {update : SegmentUpdate} {row : SegmentRow} {changed : Cell}
    (named : row.segmentId = .ofIdentifier update.id)
    (done : Store.updatedMetadata update row.metadata = some changed) :
    (row.updated now update).metadata = changed := by
  rw [SegmentRow.updated, if_pos named, updateSegmentRow_eq, done]
  rfl

theorem updatedMetadata_of_merges {update : SegmentUpdate} {supplied : Metadata} (merges : update.Merges supplied)
    (cell : Cell) : Store.updatedMetadata update cell = Store.mergeMetadata cell supplied := by
  rw [Store.updatedMetadata, merges.1, merges.2]

theorem metadata_flushed (now : Instant) (collectionId : Option CollectionId) (flush : SegmentFlush)
    (row : SegmentRow) : (row.flushed now collectionId flush).metadata = row.metadata := by
  unfold SegmentRow.flushed
  split <;> rfl

theorem metadata_flushedRow (now : Instant) (flush : CollectionFlush) (row : SegmentRow) :
    (flush.flushedRow now row).metadata = row.metadata := by
  unfold CollectionFlush.flushedRow
  split
  · split <;> rfl
  · rfl

theorem segment?_of_update {session : Session} {update : SegmentUpdate} {row : SegmentRow}
    (found : session.store.segment? update.id = some row)
    (done : (session.perform (.table (.updateSegment update))).1 = .answered .done) :
    (session.perform (.table (.updateSegment update))).2.store.segment? update.id =
      some (row.updated session.clock update) := by
  obtain ⟨_, changed, made, after⟩ := Session.written_of_done rfl done
  rw [updateSegment_eq] at made
  split at made
  · split at made <;> cases made
    rw [after]
    exact (segment?_map (segmentId_updated session.clock update) session.store).trans (by rw [found]; rfl)
  · cases made

def Store.HasPlainMetadata (store : Store) : Prop := ∀ row ∈ store.segments, row.metadata.IsPlain

theorem hasPlainMetadata_of_did {now : Instant} {write : Write} {before after : Store}
    (did : write.Did now before after) (plain : before.HasPlainMetadata) : after.HasPlainMetadata := by
  cases write with
  | insertSegment segment =>
      obtain ⟨_, rfl⟩ := did
      refine List.forall_mem_append.mpr ⟨plain, fun row member => ?_⟩
      cases List.mem_singleton.mp member
      show (Cell.ofOption _ segment.metadata).IsPlain
      cases segment.metadata with
      | none => exact Or.inl rfl
      | some metadata => exact isPlain_toJson metadata
  | updateSegment update =>
      obtain ⟨_, possible, rfl⟩ := did
      refine List.forall_mem_map.mpr fun row member => ?_
      by_cases named : row.segmentId = .ofIdentifier update.id
      · obtain ⟨changed, done⟩ := Option.isSome_iff_exists.mp (possible row member named)
        rw [metadata_updated named done]
        exact isPlain_updatedMetadata (plain row member) done
      · rw [SegmentRow.updated, if_neg named]
        exact plain row member
  | flushSegment collectionId flush =>
      obtain ⟨_, rfl⟩ := did
      refine List.forall_mem_map.mpr fun row member => ?_
      rw [metadata_flushed]
      exact plain row member
  | flushCollection flush =>
      obtain ⟨_, rfl⟩ := did
      refine List.forall_mem_map.mpr fun row member => ?_
      rw [metadata_flushedRow]
      exact plain row member
  | insertTenant | advanceCheckpoint | bindResourceName | softDelete =>
      obtain ⟨_, rfl⟩ := did
      exact plain
  | insertDatabase | finishDeletion =>
      obtain ⟨_, _, _, rfl⟩ := did
      exact plain

theorem hasPlainMetadata_after (clock : Instant) (steps : List Step)
    (ordinary : ∀ step ∈ steps, step.operation.IsOrdinary) :
    ((Session.start clock).after steps).store.HasPlainMetadata :=
  Session.store_after_keeps Store.HasPlainMetadata (fun _ _ _ did plain => hasPlainMetadata_of_did did plain) steps
    (Session.start clock) ordinary hasIdentifiers_empty fun _ member => nomatch member

/-- An update that merges keeps every key that it does not supply, with its value, and has every key that it supplies
with a value. It loses just the keys that it supplies with a number that is not finite, if the document that was there
spells each key once. -/
theorem merging_loses_nonfinite_only (session : Session) (update : SegmentUpdate) (supplied : Metadata)
    (row : SegmentRow) (held : Option Metadata) (found : session.store.segment? update.id = some row)
    (readable : row.metadata.readMetadata = .ok held) (merges : update.Merges supplied)
    (done : (session.perform (.table (.updateSegment update))).1 = .answered .done) :
    ∃ changed merged,
      (session.perform (.table (.updateSegment update))).2.store.segment? update.id = some changed ∧
      changed.metadata.readMetadata = .ok (some merged) ∧
      (∀ key, supplied.find? key = none → merged.find? key = (held.getD .empty).find? key) ∧
      (∀ key value, supplied.find? key = some value → value.isFinite = true → (merged.find? key).isSome = true) ∧
      (row.metadata.IsPlain → ∀ key value, supplied.find? key = some value → value.isFinite = false →
        merged.find? key = none) := by
  obtain ⟨members, has⟩ := hasMembers_of_readMetadata readable
  obtain ⟨merged, read, gives⟩ := readMetadata_merged readable has supplied
  have written : (row.updated session.clock update).metadata =
      .ofDocument (.object (mergeMembers members supplied.members)) := by
    refine metadata_updated (id_of_segment? found) ?_
    rw [updatedMetadata_of_merges merges, mergeMetadata_of_hasMembers has]
  refine ⟨row.updated session.clock update, merged, segment?_of_update found done, written ▸ read, ?_, ?_, ?_⟩
  · intro key absent
    rw [gives, valueUnder_merged_of_absent absent, has.gives]
  · intro key value present finite
    rw [gives]
    exact isSome_valueUnder_merged present finite members
  · intro plain key value present infinite
    rw [gives]
    exact valueUnder_merged_of_infinite present infinite (has.plain plain)

def measuredSegment : Segment :=
  .create (.ofByte 7) "vector" .vector (.ofByte 1) (some (.ofEntries [("kept", .integer 2), ("measured", .integer 1)]))
    firstOfJune

def infinity : MetadataValue := .real ⟨9218868437227405312⟩

def divergedMetadata : Metadata := .ofEntries [("measured", infinity), ("new", .bool true)]

def divergedUpdate : SegmentUpdate := ⟨.ofByte 7, none, some divergedMetadata, false, none⟩

def measurement : List Step := [⟨firstOfJune, .table (.insertSegment measuredSegment)⟩]

def measuredSession : Session := (Session.start firstOfJune).after measurement

theorem divergedUpdate_done :
    (measuredSession.perform (.table (.updateSegment divergedUpdate))).1 = .answered .done := by
  have opened : measuredSession.isOpen = true := by decide +kernel
  have succeeds : (Store.updateSegment measuredSession.clock divergedUpdate measuredSession.store).isOk = true := by
    decide +kernel
  rw [Session.perform_writing rfl opened]
  cases made : Store.updateSegment measuredSession.clock divergedUpdate measuredSession.store with
  | ok changed => rfl
  | error failure =>
      rw [made] at succeeds
      cases succeeds

theorem merging_loses_nonfinite_only_measured : ∃ changed merged,
    (measuredSession.perform (.table (.updateSegment divergedUpdate))).2.store.segment? (.ofByte 7) = some changed ∧
      changed.metadata.readMetadata = .ok (some merged) ∧ merged.find? "kept" = some (.integer 2) ∧
      (merged.find? "new").isSome = true ∧ merged.find? "measured" = none := by
  obtain ⟨changed, merged, found, read, keeps, has, loses⟩ := merging_loses_nonfinite_only measuredSession
    divergedUpdate divergedMetadata (.ofSegment measuredSegment) measuredSegment.metadata (by decide +kernel)
    (by decide +kernel) ⟨rfl, rfl⟩ divergedUpdate_done
  have plain : (SegmentRow.ofSegment measuredSegment).metadata.IsPlain :=
    hasPlainMetadata_after firstOfJune measurement (by decide) _ (by decide +kernel)
  exact ⟨changed, merged, found, read, (keeps "kept" (by decide +kernel)).trans (by decide +kernel),
    has "new" (.bool true) (by decide +kernel) rfl,
    loses plain "measured" infinity (by decide +kernel) (by decide +kernel)⟩

/-- The update is done, and a key that was stored and was supplied is gone. -/
theorem infinity_removes_key :
    (measuredSession.perform (.table (.updateSegment divergedUpdate))).1 = .answered .done ∧
      (measuredSession.store.segment? (.ofByte 7)).map (·.metadata.readMetadata) = some (.ok measuredSegment.metadata) ∧
      ((measuredSession.perform (.table (.updateSegment divergedUpdate))).2.store.segment? (.ofByte 7)).map
        (·.metadata.readMetadata) = some (.ok (some (.ofEntries [("kept", .integer 2), ("new", .bool true)]))) :=
  ⟨divergedUpdate_done, by decide +kernel, by decide +kernel⟩

end MetadataRegistry
