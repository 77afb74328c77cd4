import MetadataRegistry.Proofs.Binary64.Rounding
import MetadataRegistry.Proofs.Rows

/-!
The order of cells. Cells are ordered by their kind and then by their number, their text or their bytes, so any
three of them are ordered alike. Rows that two cells tell apart are sorted in one way only.
-/

namespace MetadataRegistry

namespace Cell

def number? : Cell → Option Int
  | integer value => some (value.toInt * twoTo 1074)
  | real value => some value.inLeastUnits
  | null | text _ | bytes _ => none

def octets? : Cell → Option (List UInt8)
  | bytes value => some value
  | null | integer _ | real _ | text _ => none

theorem compare_scaled (left right : Int) :
    Ord.compare (left * twoTo 1074) (right * twoTo 1074) = Ord.compare left right := by
  have positive : (0 : Int) < twoTo 1074 := by exact_mod_cast twoTo_pos 1074
  rcases Int.lt_trichotomy left right with less | same | greater
  · rw [Int.compare_eq_lt.mpr less, Int.compare_eq_lt.mpr (Int.mul_lt_mul_of_pos_right less positive)]
  · rw [same, Std.compare_self, Std.compare_self]
  · rw [Int.compare_eq_gt.mpr greater, Int.compare_eq_gt.mpr (Int.mul_lt_mul_of_pos_right greater positive)]

theorem scaled_lt_iff (left right : Int) : left * twoTo 1074 < right * twoTo 1074 ↔ left < right := by
  rw [← Int.compare_eq_lt, compare_scaled, Int.compare_eq_lt]

theorem compare_eq_compareLex :
    Cell.compare = compareLex (compareOn octets?) (compareLex (compareOn text?) (compareOn number?)) := by
  funext left right
  cases left with
  | null => cases right <;> rfl
  | integer value =>
      cases right with
      | integer other => exact (compare_scaled value.toInt other.toInt).symm
      | real other => rfl
      | null | text | bytes => rfl
  | real value =>
      cases right with
      | integer other => exact Std.OrientedOrd.eq_swap.symm
      | real other => rfl
      | null | text | bytes => rfl
  | text value =>
      cases right with
      | text other => exact Ordering.then_eq.symm
      | null | integer | real | bytes => rfl
  | bytes value =>
      cases right with
      | bytes other => exact Ordering.then_eq.symm
      | null | integer | real | text => rfl

instance : Std.TransCmp Cell.compare := by
  rw [compare_eq_compareLex]
  infer_instance

instance : Ord Cell := ⟨Cell.compare⟩

instance : Std.TransOrd Cell := inferInstanceAs (Std.TransCmp Cell.compare)

theorem compare_text_eq_iff (left right : String) : (text left).compare (text right) = .eq ↔ left = right :=
  Std.compare_eq_iff_eq

theorem below_integer_iff (cell : Cell) (limit : Int64) :
    cell.below (.integer limit) = true ↔ ∃ number ∈ cell.number?, number < limit.toInt * twoTo 1074 := by
  have below (number : Int) (order : cell.below (.integer limit) =
      (Ord.compare number (limit.toInt * twoTo 1074) == .lt)) (same : cell.number? = some number) :
      cell.below (.integer limit) = true ↔ ∃ number ∈ cell.number?, number < limit.toInt * twoTo 1074 := by
    rw [order, same, beq_iff_eq, Int.compare_eq_lt]
    simp only [Option.mem_some_iff, exists_eq_left']
  cases cell with
  | integer value =>
      refine below _ ?_ rfl
      rw [compare_scaled]
      rfl
  | real value =>
      refine below value.inLeastUnits ?_ rfl
      rw [Std.OrientedOrd.eq_swap]
      rfl
  | null | text | bytes => exact iff_of_false nofun nofun

end Cell

section Sorting

variable {Row : Type} (first second : Row → Cell)

def compareRows : Row → Row → Ordering := compareLex (compareOn first) (compareOn second)

instance : Std.TransCmp (compareRows first second) :=
  inferInstanceAs (Std.TransCmp (compareLex (compareOn first) (compareOn second)))

variable {first second} in
theorem compareRows_eq_iff {left right : Row} :
    compareRows first second left right = .eq ↔
      (first left).compare (first right) = .eq ∧ (second left).compare (second right) = .eq :=
  Ordering.then_eq_eq

theorem pairwise_sortRows (rows : List Row) :
    (sortRows first second rows).Pairwise fun left right => (compareRows first second left right).isLE := by
  refine List.pairwise_mergeSort (fun _ _ _ => Std.TransCmp.isLE_trans) ?_ rows
  intro left right
  have swapped : compareRows first second left right = (compareRows first second right left).swap :=
    Std.OrientedCmp.eq_swap
  show (compareRows first second left right).isLE || (compareRows first second right left).isLE
  rw [swapped]
  cases compareRows first second right left <;> rfl

variable {first second} in
theorem pairwise_lt_sortRows {rows : List Row} (nodup : rows.Nodup)
    (distinct : ∀ left ∈ rows, ∀ right ∈ rows, compareRows first second left right = .eq → left = right) :
    (sortRows first second rows).Pairwise fun left right => compareRows first second left right = .lt := by
  have apart : (sortRows first second rows).Pairwise (· ≠ ·) := (List.mergeSort_perm rows _).nodup_iff.mpr nodup
  refine ((pairwise_sortRows first second rows).and apart).imp_of_mem ?_
  rintro left right before after ⟨ordered, different⟩
  cases order : compareRows first second left right with
  | lt => rfl
  | eq =>
      exact absurd (distinct left (List.mem_mergeSort.mp before) right (List.mem_mergeSort.mp after) order) different
  | gt =>
      rw [order] at ordered
      cases ordered

theorem sortRows_eq_of_perm {rows other : List Row} (same : rows.Perm other)
    (distinct : ∀ left ∈ rows, ∀ right ∈ rows, compareRows first second left right = .eq → left = right) :
    sortRows first second rows = sortRows first second other := by
  have sorted : (sortRows first second rows).Perm (sortRows first second other) :=
    ((List.mergeSort_perm rows _).trans same).trans (List.mergeSort_perm other _).symm
  refine sorted.eq_of_pairwise ?_ (pairwise_sortRows first second rows) (pairwise_sortRows first second other)
  intro left right before after less greater
  have stored : right ∈ rows := same.symm.subset (List.mem_mergeSort.mp after)
  exact distinct left (List.mem_mergeSort.mp before) right stored (Std.OrientedCmp.isLE_antisymm less greater)

end Sorting

end MetadataRegistry
