import MetadataRegistry.Proofs.Json.Reals
import MetadataRegistry.Proofs.Json.Values
import MetadataRegistry.Store.Segments

/-!
Metadata documents. A document is metadata if it is an object whose labels are text and whose values are
all of the four types. What is written for metadata is read back unless it holds a number that is not
finite, and merging into a stored document leaves it readable in any case: such a number only removes
its label.
-/

namespace MetadataRegistry

def MetadataValue.isFinite : MetadataValue → Bool
  | .real value => value.isFinite
  | .bool _ | .integer _ | .text _ => true

def Metadata.IsFinite (metadata : Metadata) : Prop := ∀ entry ∈ metadata.entries, entry.2.isFinite = true

instance : DecidablePred Metadata.IsFinite :=
  fun metadata => inferInstanceAs (Decidable (∀ entry ∈ metadata.entries, _))

theorem isSpelled_ofReal (value : Binary64) : (Json.ofReal value).IsSpelled := by
  unfold Json.ofReal
  split
  · rename_i finite
    exact .number (isNumberLiteral_render finite)
  · exact .null

theorem isSpelled_metadataValue (value : MetadataValue) : value.toJson.IsSpelled := by
  cases value with
  | bool value => exact .bool value
  | integer value => exact isSpelled_ofInteger value.toInt
  | real value => exact isSpelled_ofReal value
  | text value => exact isSpelled_ofText value

theorem metadataValue_cases (value : MetadataValue) :
    (value.isFinite = true ∧ (MetadataValue.ofJson? value.toJson).isSome = true) ∨
      (value.isFinite = false ∧ value.toJson = .null) := by
  cases value with
  | bool value => exact Or.inl ⟨rfl, rfl⟩
  | integer value =>
      refine Or.inl ⟨rfl, ?_⟩
      show ((Json.ofInt64 value).number?.map MetadataValue.ofNumber).isSome = true
      rw [number?_ofInt64]
      rfl
  | text value =>
      refine Or.inl ⟨rfl, ?_⟩
      show ((Json.ofText value).text?.map MetadataValue.text).isSome = true
      rw [text?_ofText]
      rfl
  | real value =>
      cases finite : value.isFinite with
      | true =>
          refine Or.inl ⟨finite, ?_⟩
          rw [MetadataValue.toJson, Json.ofReal, if_pos finite, MetadataValue.ofJson?, Option.isSome_map]
          exact number?_render finite
      | false =>
          refine Or.inr ⟨finite, ?_⟩
          rw [MetadataValue.toJson, Json.ofReal, if_neg (by rw [finite]; decide)]

theorem mapM_isSome_iff {α β : Type} (read : α → Option β) (values : List α) :
    (values.mapM read).isSome = true ↔ ∀ value ∈ values, (read value).isSome = true := by
  induction values with
  | nil => simp
  | cons value rest ih =>
      rw [List.mapM_cons, List.forall_mem_cons, ← ih]
      cases read value with
      | none => simp
      | some result => cases rest.mapM read <;> simp

def IsEntry (member : List Char × Json) : Prop :=
  (unescapeBody member.1).isSome = true ∧ (MetadataValue.ofJson? member.2).isSome = true

theorem map_of_mapM {α β γ : Type} {read : α → Option β} {kept : α → γ} {keep : β → γ}
    (same : ∀ value result, read value = some result → keep result = kept value) :
    ∀ {values : List α} {results : List β}, values.mapM read = some results → results.map keep = values.map kept := by
  intro values
  induction values with
  | nil =>
      intro results found
      cases found
      rfl
  | cons value rest ih =>
      intro results found
      rw [List.mapM_cons] at found
      obtain ⟨result, first, found⟩ := Option.bind_eq_some_iff.mp found
      obtain ⟨others, later, found⟩ := Option.bind_eq_some_iff.mp found
      cases found
      rw [List.map_cons, List.map_cons, same value result first, ih later]

theorem metadata_ofJson?_object (members : Members) :
    (Metadata.ofJson? (.object members)).isSome = true ↔ ∀ member ∈ members, IsEntry member := by
  have labels := mapM_isSome_iff (fun member : List Char × Json =>
    (unescapeBody member.1).map fun text => (String.ofList text, member.2)) members
  simp only [Option.isSome_map] at labels
  simp only [Metadata.ofJson?, Json.dictionaryOf?, Json.members?, Option.bind_eq_bind]
  cases named : members.mapM fun member => (unescapeBody member.1).map fun text => (String.ofList text, member.2) with
  | none =>
      rw [named] at labels
      constructor
      · intro impossible
        cases impossible
      · intro entries
        cases labels.mpr fun member belongs => (entries member belongs).1
  | some fields =>
      rw [named] at labels
      have values : fields.map (·.2) = members.map (·.2) := by
        refine map_of_mapM ?_ named
        intro member field found
        obtain ⟨text, _, rfl⟩ := Option.map_eq_some_iff.mp found
        rfl
      have reads := mapM_isSome_iff (fun field : String × Json =>
        (MetadataValue.ofJson? field.2).map fun value => (field.1, value)) fields
      simp only [Option.isSome_map] at reads
      have sameValues : (∀ field ∈ fields, (MetadataValue.ofJson? field.2).isSome = true) ↔
          ∀ member ∈ members, (MetadataValue.ofJson? member.2).isSome = true := by
        have mapped : (∀ value ∈ fields.map (·.2), (MetadataValue.ofJson? value).isSome = true) ↔
            ∀ value ∈ members.map (·.2), (MetadataValue.ofJson? value).isSome = true := by rw [values]
        simpa only [List.forall_mem_map] using mapped
      rw [sameValues] at reads
      have labelled := labels.mp rfl
      rw [Option.bind_some]
      cases entries : fields.mapM fun field => (MetadataValue.ofJson? field.2).map fun value => (field.1, value) with
      | none =>
          rw [entries] at reads
          constructor
          · intro impossible
            cases impossible
          · intro entry
            cases reads.mpr fun member belongs => (entry member belongs).2
      | some found =>
          rw [entries] at reads
          exact iff_of_true rfl fun member belongs => ⟨labelled member belongs, reads.mp rfl member belongs⟩

theorem object_of_metadata {document : Json} (read : (Metadata.ofJson? document).isSome = true) :
    ∃ members, document = .object members := by
  cases document with
  | object members => exact ⟨members, rfl⟩
  | null | bool | number | string | array => cases read

theorem mem_putMember {label : List Char} {value : Json} {members : Members} {member : List Char × Json}
    (belongs : member ∈ putMember label value members) : member = (label, value) ∨ member ∈ members := by
  induction members with
  | nil => exact Or.inl (List.mem_singleton.mp belongs)
  | cons first rest ih =>
      rw [putMember] at belongs
      split at belongs
      · rcases List.mem_cons.mp belongs with new | later
        · exact Or.inl new
        · exact Or.inr (List.mem_cons_of_mem first later)
      · rcases List.mem_cons.mp belongs with same | later
        · exact Or.inr (same ▸ List.mem_cons_self)
        · rcases ih later with new | old
          · exact Or.inl new
          · exact Or.inr (List.mem_cons_of_mem first old)

theorem mem_dropMember {label : List Char} {members : Members} {member : List Char × Json}
    (belongs : member ∈ dropMember label members) : member ∈ members := by
  induction members with
  | nil => exact belongs
  | cons first rest ih =>
      rw [dropMember] at belongs
      split at belongs
      · exact List.mem_cons_of_mem first belongs
      · rcases List.mem_cons.mp belongs with same | later
        · exact same ▸ List.mem_cons_self
        · exact List.mem_cons_of_mem first (ih later)

theorem mergeMembers_keeps (holds : List Char × Json → Prop) (patch : Members) :
    ∀ target : Members, (∀ member ∈ target, holds member) →
      (∀ member ∈ patch, member.2 ≠ .null → holds member) → ∀ member ∈ mergeMembers target patch, holds member := by
  induction patch with
  | nil => exact fun _ held _ => held
  | cons entry rest ih =>
      intro target held patched
      refine ih (mergeMember target entry.1 entry.2) ?_ fun member belongs =>
        patched member (List.mem_cons_of_mem entry belongs)
      intro member belongs
      unfold mergeMember at belongs
      split at belongs
      · exact held member (mem_dropMember belongs)
      · rename_i present
        rcases mem_putMember belongs with new | old
        · exact new ▸ patched entry List.mem_cons_self present
        · exact held member old

theorem isSpelled_metadata (metadata : Metadata) : (Metadata.toJson metadata).IsSpelled :=
  isSpelled_ofDictionary metadata fun entry _ => isSpelled_metadataValue entry.2

def Metadata.members (metadata : Metadata) : Members :=
  metadata.entries.map fun entry => (escapeBody entry.1.toList, entry.2.toJson)

theorem toJson_eq_members (metadata : Metadata) : Metadata.toJson metadata = .object metadata.members := by
  simp only [Metadata.toJson, Json.ofDictionary, Json.ofMembers, Metadata.members, List.map_map]
  rfl

theorem isEntry_member {entry : String × MetadataValue} (present : entry.2.toJson ≠ .null) :
    IsEntry (escapeBody entry.1.toList, entry.2.toJson) := by
  refine ⟨by rw [unescapeBody_escapeBody]; rfl, ?_⟩
  rcases metadataValue_cases entry.2 with ⟨_, read⟩ | ⟨_, absent⟩
  · exact read
  · exact absurd absent present

theorem ofJson?_toJson_isSome_iff (metadata : Metadata) :
    (Metadata.ofJson? (Metadata.toJson metadata)).isSome = true ↔ metadata.IsFinite := by
  rw [toJson_eq_members, metadata_ofJson?_object]
  constructor
  · intro read entry belongs
    have member := read _ (List.mem_map_of_mem belongs)
    rcases metadataValue_cases entry.2 with ⟨finite, _⟩ | ⟨_, absent⟩
    · exact finite
    · have refused := member.2
      simp only [absent] at refused
      cases refused
  · intro finite member belongs
    obtain ⟨entry, inEntries, rfl⟩ := List.mem_map.mp belongs
    refine isEntry_member fun absent => ?_
    rcases metadataValue_cases entry.2 with ⟨_, read⟩ | ⟨infinite, _⟩
    · rw [absent] at read
      cases read
    · rw [finite entry inEntries] at infinite
      cases infinite

def Cell.IsDocument {α : Type} (read : Json → Option α) (cell : Cell) : Prop :=
  ∃ text, cell = .text text ∧ ((Json.parse? text).bind read).isSome = true

theorem isDocument_ofDocument {α : Type} (read : Json → Option α) {document : Json} (spelled : document.IsSpelled) :
    (Cell.ofDocument document).IsDocument read ↔ (read document).isSome = true := by
  have back := parse?_text spelled
  constructor
  · rintro ⟨text, same, found⟩
    cases same
    rw [back, Option.bind_some] at found
    exact found
  · intro found
    exact ⟨document.text, rfl, by rw [back, Option.bind_some]; exact found⟩

structure IsStoredEntry (member : List Char × Json) : Prop where
  label : IsBody member.1
  value : member.2.IsSpelled
  entry : IsEntry member

theorem isDocument_object {members : Members} (stored : ∀ member ∈ members, IsStoredEntry member) :
    (Cell.ofDocument (.object members)).IsDocument Metadata.ofJson? := by
  have spelled : (Json.object members).IsSpelled :=
    .object (fun member belongs => (stored member belongs).label) fun member belongs => (stored member belongs).value
  rw [isDocument_ofDocument _ spelled, metadata_ofJson?_object]
  exact fun member belongs => (stored member belongs).entry

theorem isStoredEntry_of_isDocument {text : String} {document : Json} (found : Json.parse? text = some document)
    (read : (Metadata.ofJson? document).isSome = true) :
    ∃ members, document = .object members ∧ ∀ member ∈ members, IsStoredEntry member := by
  obtain ⟨members, rfl⟩ := object_of_metadata read
  refine ⟨members, rfl, fun member belongs => ?_⟩
  have entries := (metadata_ofJson?_object members).mp read
  cases isSpelled_of_parse? found with
  | object labels values => exact ⟨labels member belongs, values member belongs, entries member belongs⟩

theorem isDocument_mergeMetadata {stored merged : Cell} {metadata : Metadata}
    (readable : stored = .null ∨ stored.IsDocument Metadata.ofJson?)
    (done : Store.mergeMetadata stored metadata = some merged) : merged.IsDocument Metadata.ofJson? := by
  obtain ⟨text, mergeable, done⟩ := Option.bind_eq_some_iff.mp done
  obtain ⟨document, found, done⟩ := Option.bind_eq_some_iff.mp done
  cases done
  have members : ∃ members, document = .object members ∧ ∀ member ∈ members, IsStoredEntry member := by
    rcases readable with rfl | ⟨same, rfl, read⟩
    · cases mergeable
      have empty : Json.parse? "{}" = some (.object []) := by rfl
      rw [empty] at found
      cases found
      exact ⟨[], rfl, fun _ belongs => nomatch belongs⟩
    · cases mergeable
      rw [found] at read
      exact isStoredEntry_of_isDocument found read
  obtain ⟨members, rfl, stored⟩ := members
  rw [toJson_eq_members]
  refine isDocument_object (mergeMembers_keeps IsStoredEntry metadata.members members stored ?_)
  intro member belongs present
  obtain ⟨entry, _, rfl⟩ := List.mem_map.mp belongs
  exact ⟨isBody_escapeBody _, isSpelled_metadataValue entry.2, isEntry_member present⟩

end MetadataRegistry
