import MetadataRegistry.Dictionary

/-!
Maps by what is found in them. Two maps in which the same is found under every key are equal, whatever was put
into them in whatever order.
-/

namespace MetadataRegistry

variable {α : Type}

theorem lookup_cons_eq (name : String) (entry : String × α) (rest : List (String × α)) :
    (entry :: rest).lookup name = if name = entry.1 then some entry.2 else rest.lookup name := by
  rw [List.lookup_cons]
  by_cases same : name = entry.1
  · simp [same]
  · simp [same, beq_eq_false_iff_ne.mpr same]

theorem lookup_eq_none_of_notMem {name : String} {entries : List (String × α)} (absent : name ∉ entries.map (·.1)) :
    entries.lookup name = none := by
  refine List.lookup_eq_none_iff.mpr fun entry member => ?_
  have different : name ≠ entry.1 := fun same => absent (same ▸ List.mem_map_of_mem member)
  simpa using different

theorem nodup_keys_of_ascending {entries : List (String × α)} (ascending : Ascending entries) :
    (entries.map (·.1)).Nodup := by
  refine List.pairwise_map.mpr (ascending.imp fun before same => ?_)
  rw [same] at before
  exact String.lt_irrefl _ before

theorem head_le_of_lookup_eq {first second : String × α} {left right : List (String × α)}
    (ascending : Ascending (second :: right))
    (same : (first :: left).lookup first.1 = (second :: right).lookup first.1) : second.1 ≤ first.1 := by
  rw [lookup_cons_eq, if_pos rfl, lookup_cons_eq] at same
  split at same
  · rename_i equal
    exact equal ▸ String.le_refl _
  · refine String.not_lt.mp fun before => ?_
    have absent : first.1 ∉ right.map (·.1) := by
      intro member
      obtain ⟨entry, belongs, equal⟩ := List.mem_map.mp member
      have behind := (List.pairwise_cons.mp ascending).1 entry belongs
      rw [equal] at behind
      exact String.lt_irrefl _ (String.lt_trans before behind)
    rw [lookup_eq_none_of_notMem absent] at same
    cases same

theorem entries_ext {left : List (String × α)} : ∀ {right : List (String × α)}, Ascending left → Ascending right →
    (∀ name, left.lookup name = right.lookup name) → left = right := by
  induction left with
  | nil =>
      intro right _ _ same
      cases right with
      | nil => rfl
      | cons second right =>
          have found := same second.1
          rw [lookup_cons_eq, if_pos rfl] at found
          cases found
  | cons first left ih =>
      intro right ascendingLeft ascendingRight same
      cases right with
      | nil =>
          have found := same first.1
          rw [lookup_cons_eq, if_pos rfl] at found
          cases found
      | cons second right =>
          have keys : first.1 = second.1 :=
            String.le_antisymm (head_le_of_lookup_eq ascendingLeft (same second.1).symm)
              (head_le_of_lookup_eq ascendingRight (same first.1))
          have values : first.2 = second.2 := by
            have found := same first.1
            rw [lookup_cons_eq, lookup_cons_eq, if_pos rfl, if_pos keys] at found
            exact Option.some.inj found
          have rests : left = right := by
            refine ih (List.pairwise_cons.mp ascendingLeft).2 (List.pairwise_cons.mp ascendingRight).2 fun name => ?_
            by_cases head : name = first.1
            · have absentLeft := (List.nodup_cons.mp (nodup_keys_of_ascending ascendingLeft)).1
              have absentRight := (List.nodup_cons.mp (nodup_keys_of_ascending ascendingRight)).1
              rw [head, lookup_eq_none_of_notMem absentLeft, keys, lookup_eq_none_of_notMem absentRight]
            · have found := same name
              rwa [lookup_cons_eq, lookup_cons_eq, if_neg head, if_neg (keys ▸ head)] at found
          rw [rests, show first = second from Prod.ext keys values]

namespace Dictionary

theorem ext_find? {left right : Dictionary α} (same : ∀ name, left.find? name = right.find? name) : left = right := by
  have entries := entries_ext left.ascending right.ascending same
  cases left
  cases right
  cases entries
  rfl

theorem find?_empty (name : String) : (empty : Dictionary α).find? name = none := rfl

theorem find?_insert (dictionary : Dictionary α) (key : String) (value : α) (name : String) :
    (dictionary.insert key value).find? name = if name = key then some value else dictionary.find? name := by
  show (insertEntry key value dictionary.entries).lookup name = _
  rw [find?]
  induction dictionary.entries with
  | nil => exact lookup_cons_eq name (key, value) []
  | cons entry rest ih =>
      rw [insertEntry]
      split
      · exact lookup_cons_eq name (key, value) _
      · split
        · rename_i same
          rw [lookup_cons_eq, lookup_cons_eq, same]
          split <;> rfl
        · rename_i different
          rw [lookup_cons_eq, lookup_cons_eq, ih]
          by_cases found : name = entry.1
          · rw [if_pos found, if_pos found, if_neg fun same => different (same.symm.trans found)]
          · rw [if_neg found, if_neg found]

def overriddenBy (dictionary patch : Dictionary α) : Dictionary α :=
  patch.entries.foldl (fun dictionary entry => dictionary.insert entry.1 entry.2) dictionary

theorem find?_foldl_insert {entries : List (String × α)} (distinct : (entries.map (·.1)).Nodup) (name : String) :
    ∀ start : Dictionary α,
      (entries.foldl (fun dictionary entry => dictionary.insert entry.1 entry.2) start).find? name =
        (entries.lookup name).or (start.find? name) := by
  induction entries with
  | nil => exact fun _ => rfl
  | cons entry rest ih =>
      intro start
      rw [List.map_cons, List.nodup_cons] at distinct
      rw [List.foldl_cons, ih distinct.2, find?_insert, lookup_cons_eq]
      by_cases found : name = entry.1
      · rw [if_pos found, if_pos found, found, lookup_eq_none_of_notMem distinct.1]
        rfl
      · rw [if_neg found, if_neg found]

theorem find?_overriddenBy (dictionary patch : Dictionary α) (name : String) :
    (dictionary.overriddenBy patch).find? name = (patch.find? name).or (dictionary.find? name) :=
  find?_foldl_insert (nodup_keys_of_ascending patch.ascending) name dictionary

theorem find?_ofEntries {entries : List (String × α)} (distinct : (entries.map (·.1)).Nodup) (name : String) :
    (ofEntries entries).find? name = entries.lookup name :=
  (find?_foldl_insert distinct name empty).trans (by rw [find?_empty, Option.or_none])

theorem overriddenBy_assoc (dictionary first second : Dictionary α) :
    (dictionary.overriddenBy first).overriddenBy second = dictionary.overriddenBy (first.overriddenBy second) := by
  refine ext_find? fun name => ?_
  simp only [find?_overriddenBy, Option.or_assoc]

end Dictionary

end MetadataRegistry
