import MetadataRegistry.Store.Transaction

/-!
Conditions on rows. A cell that is the same as a text or as bytes holds that text or those bytes, so
the conditions of the statements are equations on cells.
-/

namespace MetadataRegistry

def Cell.text? : Cell → Option String
  | .text value => some value
  | _ => none

namespace Cell

@[simp] theorem same_text_iff (cell : Cell) (text : String) : cell.same (.text text) = true ↔ cell = .text text := by
  cases cell <;> simp [same, isNull, compare, rank]

@[simp] theorem same_bytes_iff (cell : Cell) (bytes : List UInt8) :
    cell.same (.bytes bytes) = true ↔ cell = .bytes bytes := by
  cases cell <;> simp [same, isNull, compare, rank]

@[simp] theorem same_ofIdentifier_iff {kind : IdentifierKind} (cell : Cell) (id : Identifier kind) :
    cell.same (.ofIdentifier id) = true ↔ cell = .ofIdentifier id :=
  same_bytes_iff cell id.bytes

@[simp] theorem isNull_iff (cell : Cell) : cell.isNull = true ↔ cell = .null := by
  cases cell <;> simp [isNull]

theorem below_integer (left right : Int64) :
    (integer left).below (integer right) = true ↔ left.toInt < right.toInt := by
  simp only [below, isNull, compare, beq_iff_eq, Int.compare_eq_lt, Bool.not_false, Bool.true_and]

theorem greater_integer (old new : Int64) : (integer old).greater (integer new) = integer (max old new) := by
  have order : old ≤ new ↔ old.toInt ≤ new.toInt := Int64.le_iff_toInt_le
  have maximum : max old new = if old ≤ new then new else old := rfl
  rw [maximum]
  simp only [greater, compare, beq_iff_eq, Int.compare_eq_lt]
  by_cases less : old.toInt < new.toInt
  · rw [if_pos less, if_pos (order.mpr (by omega))]
  · rw [if_neg less]
    by_cases same : old.toInt = new.toInt
    · rw [if_pos (order.mpr (by omega)), Int64.toInt_inj.mp same]
    · rw [if_neg (fun least => by have := order.mp least; omega)]

end Cell

theorem ofIdentifier_inj {kind : IdentifierKind} {left right : Identifier kind} :
    Cell.ofIdentifier left = .ofIdentifier right ↔ left = right := by
  cases left
  cases right
  simp [Cell.ofIdentifier]

theorem hasTenant_iff (store : Store) (id : String) :
    store.hasTenant id = true ↔ ∃ row ∈ store.tenants, row.id = .text id := by
  simp [Store.hasTenant, List.any_eq_true]

theorem isSegment_iff (id : SegmentId) (row : SegmentRow) :
    Store.isSegment id row = true ↔ row.segmentId = .ofIdentifier id :=
  Cell.same_ofIdentifier_iff row.segmentId id

theorem mapM_eq {α : Type} (change : α → Option α) (changed : α → α) (rows : List α)
    (same : ∀ row ∈ rows, ∀ result, change row = some result → changed row = result) :
    rows.mapM change = if ∀ row ∈ rows, (change row).isSome then some (rows.map changed) else none := by
  induction rows with
  | nil => simp
  | cons row rest ih =>
      have others := ih fun other member => same other (List.mem_cons_of_mem row member)
      rw [List.mapM_cons, others]
      cases first : change row with
      | none => simp [first]
      | some result =>
          have agrees := same row List.mem_cons_self result first
          by_cases possible : ∀ other ∈ rest, (change other).isSome
          · have all : ∀ other ∈ row :: rest, (change other).isSome := by simpa [first] using possible
            rw [if_pos possible, if_pos all, List.map_cons, agrees]
            rfl
          · have refused : ¬∀ other ∈ row :: rest, (change other).isSome := by simpa [first] using possible
            rw [if_neg possible, if_neg refused]
            rfl

theorem updateRows_eq {α : Type} (condition : α → Bool) (change : α → α) (holds : α → Prop) [DecidablePred holds]
    (changed : α → α) (rows : List α) (same : ∀ row ∈ rows, condition row = true ↔ holds row)
    (change_eq : ∀ row ∈ rows, changed row = if holds row then change row else row) :
    updateRows condition change rows = if ∃ row ∈ rows, holds row then some (rows.map changed) else none := by
  have found : rows.any condition = true ↔ ∃ row ∈ rows, holds row := by
    rw [List.any_eq_true]
    constructor
    · rintro ⟨row, member, matched⟩
      exact ⟨row, member, (same row member).mp matched⟩
    · rintro ⟨row, member, matched⟩
      exact ⟨row, member, (same row member).mpr matched⟩
  have mapped : (rows.map fun row => if condition row then change row else row) = rows.map changed := by
    refine List.map_congr_left ?_
    intro row member
    rw [change_eq row member]
    by_cases matched : holds row
    · rw [if_pos ((same row member).mpr matched), if_pos matched]
    · rw [if_neg (fun condition => matched ((same row member).mp condition)), if_neg matched]
  simp only [updateRows, found, mapped]

end MetadataRegistry
