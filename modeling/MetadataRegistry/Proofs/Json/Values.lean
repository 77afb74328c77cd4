import MetadataRegistry.Json.Record
import MetadataRegistry.Proofs.Digits
import MetadataRegistry.Proofs.Json.RoundTrip
import MetadataRegistry.Segment.Metadata

/-!
Values and their documents: text, integers, lists and maps are read back from the documents that are
written for them, and these documents are spelled in a way that the reader takes.
-/

namespace MetadataRegistry

@[simp] theorem text?_ofText (text : String) : (Json.ofText text).text? = some text := by
  simp [Json.ofText, Json.text?, unescapeBody_escapeBody]

@[simp] theorem isSpelled_ofText (text : String) : (Json.ofText text).IsSpelled := .string (isBody_escapeBody _)

theorem integerDigits_eq_signed (value : Int) :
    integerDigits value = signed (decide (value < 0)) (decimalDigits value.natAbs) := by
  unfold integerDigits signed
  split <;> simp_all

theorem read_integerDigits (value : Int) :
    NumberLiteral.read (integerDigits value) =
      some ⟨decide (value < 0), decimalDigits value.natAbs, none, none⟩ := by
  have all := all_isDigit_decimalDigits value.natAbs
  have whole := readUnsigned_whole (decide (value < 0)) (isWholePart_decimalDigits value.natAbs) all
    isExponentText_nil
  rw [List.append_nil] at whole
  rw [integerDigits_eq_signed]
  cases same : decimalDigits value.natAbs with
  | nil => exact absurd same (decimalDigits_ne_nil _)
  | cons first rest =>
      rw [same] at all whole
      simp only [List.all_cons, Bool.and_eq_true] at all
      rw [read_signed _ all.1, whole]

@[simp] theorem isSpelled_ofInteger (value : Int) : (Json.ofInteger value).IsSpelled := by
  refine .number ?_
  simp [isNumberLiteral, read_integerDigits]

theorem isInt64_iff (value : Int) :
    isInt64 value = true ↔ -9223372036854775808 ≤ value ∧ value ≤ 9223372036854775807 := by
  simp only [isInt64, Bool.and_eq_true, decide_eq_true_eq]
  rfl

theorem number?_ofInteger (value : Int) (fits : isInt64 value = true) :
    (Json.ofInteger value).number? = some (.integer value) := by
  have bounds := (isInt64_iff value).mp fits
  simp only [Json.ofInteger, Json.number?, read_integerDigits, Option.bind_some, NumberLiteral.value,
    NumberLiteral.integerValue, ofDecimalDigits_decimalDigits, Option.isSome_none, Bool.or_self,
    Bool.false_eq_true, if_false, decide_eq_true_eq]
  by_cases negative : value < 0
  · have magnitude : -(value.natAbs : Int) = value := by omega
    have nonzero : 0 < value.natAbs := by omega
    rw [if_pos negative, magnitude, if_pos ⟨nonzero, fits⟩]
  · have magnitude : (value.natAbs : Int) = value := by omega
    have fitsWord : value.natAbs ≤ greatestUInt64 := by simp only [greatestUInt64]; omega
    rw [if_neg negative, if_pos fitsWord, magnitude]

theorem isInt64_toInt (value : Int64) : isInt64 value.toInt = true := by
  have low := Int64.le_toInt value
  have high := Int64.toInt_lt value
  rw [isInt64_iff]
  omega

theorem number?_ofInt64 (value : Int64) : (Json.ofInt64 value).number? = some (.integer value.toInt) :=
  number?_ofInteger _ (isInt64_toInt value)

theorem mapM_map_of_inverse {α β : Type} {write : α → β} {read : β → Option α} (values : List α)
    (inverse : ∀ value ∈ values, read (write value) = some value) :
    (values.map write).mapM read = some values := by
  induction values with
  | nil => rfl
  | cons value values ih =>
      have first := inverse value (by simp)
      have later := ih (fun other member => inverse other (by simp [member]))
      simp [first, later]

theorem listOf?_ofList {α : Type} {write : α → Json} {read : Json → Option α} (values : List α)
    (inverse : ∀ value ∈ values, read (write value) = some value) :
    (Json.ofList write values).listOf? read = some values := by
  simp only [Json.ofList, Json.listOf?, Json.items?, Option.bind_some]
  exact mapM_map_of_inverse values inverse

theorem isSpelled_ofList {α : Type} {write : α → Json} (values : List α)
    (spelled : ∀ value ∈ values, (write value).IsSpelled) : (Json.ofList write values).IsSpelled := by
  refine .array ?_
  intro item member
  obtain ⟨value, belongs, same⟩ := List.mem_map.mp member
  rw [← same]
  exact spelled value belongs

theorem members?_ofMembers (members : List (String × Json)) :
    (Json.ofMembers members).members? = some members := by
  simp only [Json.ofMembers, Json.members?]
  refine mapM_map_of_inverse members ?_
  intro member _
  simp [unescapeBody_escapeBody]

theorem isSpelled_ofMembers (members : List (String × Json)) (spelled : ∀ member ∈ members, member.2.IsSpelled) :
    (Json.ofMembers members).IsSpelled := by
  refine .object ?_ ?_
  · intro member belongs
    obtain ⟨value, _, same⟩ := List.mem_map.mp belongs
    rw [← same]
    exact isBody_escapeBody _
  · intro member belongs
    obtain ⟨value, inMembers, same⟩ := List.mem_map.mp belongs
    rw [← same]
    exact spelled value inMembers

theorem insertEntry_last {α : Type} (key : String) (value : α) (entries : List (String × α))
    (last : ∀ entry ∈ entries, entry.1 < key) : insertEntry key value entries = entries ++ [(key, value)] := by
  induction entries with
  | nil => rfl
  | cons first rest ih =>
      have before := last first (by simp)
      have notAfter : ¬ key < first.1 := fun after => String.lt_irrefl _ (String.lt_trans before after)
      have different : key ≠ first.1 := by
        intro same
        rw [same] at before
        exact String.lt_irrefl _ before
      rw [insertEntry, if_neg notAfter, if_neg different, List.cons_append,
        ih (fun entry member => last entry (by simp [member]))]

theorem foldl_insert_entries {α : Type} (entries : List (String × α)) : ∀ start : Dictionary α,
    Ascending (start.entries ++ entries) →
      (entries.foldl (fun dictionary entry => dictionary.insert entry.1 entry.2) start).entries =
        start.entries ++ entries := by
  induction entries with
  | nil =>
      intro start _
      simp
  | cons entry rest ih =>
      intro start ascending
      have last : ∀ earlier ∈ start.entries, earlier.1 < entry.1 := by
        intro earlier member
        exact (List.pairwise_append.mp ascending).2.2 earlier member entry (by simp)
      have inserted : (start.insert entry.1 entry.2).entries = start.entries ++ [entry] :=
        insertEntry_last entry.1 entry.2 start.entries last
      rw [List.foldl_cons, ih, inserted, List.append_assoc, List.singleton_append]
      rw [inserted, List.append_assoc, List.singleton_append]
      exact ascending

theorem ofEntries_entries {α : Type} (dictionary : Dictionary α) :
    Dictionary.ofEntries dictionary.entries = dictionary := by
  have same := foldl_insert_entries dictionary.entries .empty dictionary.ascending
  cases dictionary with
  | mk entries ascending =>
      unfold Dictionary.ofEntries
      generalize List.foldl _ _ _ = rebuilt at same ⊢
      cases rebuilt
      cases same
      rfl

theorem dictionaryOf?_ofMembers {α : Type} {write : α → Json} {read : Json → Option α} (entries : List (String × α))
    (inverse : ∀ entry ∈ entries, read (write entry.2) = some entry.2) :
    (Json.ofMembers (entries.map fun entry => (entry.1, write entry.2))).dictionaryOf? read =
      some (.ofEntries entries) := by
  simp only [Json.dictionaryOf?, members?_ofMembers, Option.bind_eq_bind, Option.bind_some]
  rw [mapM_map_of_inverse entries]
  · rfl
  · intro entry member
    simp [inverse entry member]

theorem dictionaryOf?_ofDictionary {α : Type} {write : α → Json} {read : Json → Option α} (dictionary : Dictionary α)
    (inverse : ∀ entry ∈ dictionary.entries, read (write entry.2) = some entry.2) :
    (Json.ofDictionary write dictionary).dictionaryOf? read = some dictionary := by
  rw [Json.ofDictionary, dictionaryOf?_ofMembers dictionary.entries inverse, ofEntries_entries]

theorem isSpelled_ofDictionary {α : Type} {write : α → Json} (dictionary : Dictionary α)
    (spelled : ∀ entry ∈ dictionary.entries, (write entry.2).IsSpelled) :
    (Json.ofDictionary write dictionary).IsSpelled := by
  refine isSpelled_ofMembers _ ?_
  intro member belongs
  obtain ⟨entry, inEntries, same⟩ := List.mem_map.mp belongs
  rw [← same]
  exact spelled entry inEntries

@[simp] theorem ofJson?_toJson_filePaths (paths : FilePaths) :
    FilePaths.ofJson? (FilePaths.toJson paths) = some paths := by
  refine dictionaryOf?_ofDictionary paths ?_
  intro entry _
  exact listOf?_ofList entry.2 (fun text _ => text?_ofText text)

@[simp] theorem isSpelled_filePaths (paths : FilePaths) : (FilePaths.toJson paths).IsSpelled := by
  refine isSpelled_ofDictionary paths ?_
  intro entry _
  exact isSpelled_ofList entry.2 (fun text _ => isSpelled_ofText text)

end MetadataRegistry
