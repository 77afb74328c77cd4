/-!
Finite maps from text to values. Entries are kept in ascending order of their keys, so two maps with
the same entries are equal and iteration has one order.
-/

namespace MetadataRegistry

def Ascending {α : Type} (entries : List (String × α)) : Prop :=
  entries.Pairwise fun first second => first.1 < second.1

def insertEntry {α : Type} (key : String) (value : α) : List (String × α) → List (String × α)
  | [] => [(key, value)]
  | entry :: rest =>
      if key < entry.1 then (key, value) :: entry :: rest
      else if key = entry.1 then (key, value) :: rest
      else entry :: insertEntry key value rest

theorem insertEntry_keys {α : Type} (key : String) (value : α) (entries : List (String × α)) :
    ∀ entry ∈ insertEntry key value entries, entry.1 = key ∨ entry ∈ entries := by
  induction entries with
  | nil => simp [insertEntry]
  | cons first rest ih =>
      intro entry member
      simp only [insertEntry] at member
      split at member
      · simp only [List.mem_cons] at member
        rcases member with rfl | member
        · exact Or.inl rfl
        · exact Or.inr (by simpa using member)
      · split at member
        · simp only [List.mem_cons] at member
          rcases member with rfl | member
          · exact Or.inl rfl
          · exact Or.inr (by simp [member])
        · simp only [List.mem_cons] at member
          rcases member with rfl | member
          · exact Or.inr (by simp)
          · rcases ih entry member with same | earlier
            · exact Or.inl same
            · exact Or.inr (by simp [earlier])

theorem insertEntry_ascending {α : Type} (key : String) (value : α) (entries : List (String × α))
    (ascending : Ascending entries) : Ascending (insertEntry key value entries) := by
  induction entries with
  | nil => simp [insertEntry, Ascending]
  | cons first rest ih =>
      have parts := List.pairwise_cons.mp ascending
      simp only [insertEntry]
      split
      · rename_i before
        refine List.pairwise_cons.mpr ⟨?_, ascending⟩
        intro entry member
        rcases List.mem_cons.mp member with rfl | later
        · exact before
        · exact String.lt_trans before (parts.1 entry later)
      · rename_i notBefore
        split
        · rename_i same
          refine List.pairwise_cons.mpr ⟨?_, parts.2⟩
          intro entry member
          simpa [same] using parts.1 entry member
        · rename_i different
          refine List.pairwise_cons.mpr ⟨?_, ih parts.2⟩
          intro entry member
          rcases insertEntry_keys key value rest entry member with same | earlier
          · rw [same]
            have least : first.1 ≤ key := String.not_lt.mp notBefore
            exact Decidable.byContradiction fun refused =>
              different (String.le_antisymm (String.not_lt.mp refused) least)
          · exact parts.1 entry earlier

structure Dictionary (α : Type) where
  entries : List (String × α)
  ascending : Ascending entries

namespace Dictionary

variable {α : Type}

instance [DecidableEq α] : DecidableEq (Dictionary α) := fun left right =>
  if same : left.entries = right.entries then
    isTrue (by cases left; cases right; simp_all)
  else isFalse (fun equal => same (congrArg entries equal))

def empty : Dictionary α := ⟨[], List.Pairwise.nil⟩

def insert (dictionary : Dictionary α) (key : String) (value : α) : Dictionary α :=
  ⟨insertEntry key value dictionary.entries, insertEntry_ascending key value _ dictionary.ascending⟩

/-- The map of a list of entries; of equal keys the last one counts. -/
def ofEntries (entries : List (String × α)) : Dictionary α :=
  entries.foldl (fun dictionary entry => dictionary.insert entry.1 entry.2) empty

def keys (dictionary : Dictionary α) : List String := dictionary.entries.map (·.1)

def find? (dictionary : Dictionary α) (key : String) : Option α := dictionary.entries.lookup key

end Dictionary

end MetadataRegistry
