import Mathlib.Data.List.Destutter
import Mathlib.Data.List.Sort
import MetadataRegistry.Proofs.IdentifierSpellings
import MetadataRegistry.Proofs.Rows
import MetadataRegistry.Proofs.TextOrder

/-!
The order of identifiers. Two digits a byte and hyphens at fixed places keep the order of the bytes, so identifiers,
their bytes, the cells that they are stored in and their texts are all ordered alike, and a list of identifiers that is
sorted by any of these, each of them kept once, has its texts in strict order.
-/

namespace MetadataRegistry

theorem compare_hexDigit {left right : Nat} (leftDigit : left < 16) (rightDigit : right < 16) :
    compare (hexDigit left) (hexDigit right) = compare left right := by
  rw [compare_char, toNat_hexDigit left leftDigit, toNat_hexDigit right rightDigit]
  refine compare_eq_of_lt_iff ?_ ?_
  · split <;> split <;> omega
  · split <;> split <;> omega

theorem compare_hexOfByte_of_lt {left right : UInt8} (less : compare left right = .lt) (rest others : List Char) :
    compare (hexOfByte left ++ rest) (hexOfByte right ++ others) = .lt := by
  have bound := left.toNat_lt
  have rightBound := right.toNat_lt
  rw [Std.compare_eq_lt, UInt8.lt_iff_toNat_lt] at less
  simp only [hexOfByte, List.cons_append, List.nil_append, List.compare_cons_cons, Ordering.then_eq_lt]
  rw [compare_hexDigit (by omega) (by omega), compare_hexDigit (by omega) (by omega), Nat.compare_eq_lt,
    Nat.compare_eq_eq, Nat.compare_eq_lt]
  -- Bytes that share the higher digit are ordered by the lower one.
  omega

theorem compare_hexOfBytes (left right : List UInt8) :
    compare (hexOfBytes left) (hexOfBytes right) = compare left right :=
  compare_flatMap (fun _ => List.cons_ne_nil _ _) (fun _ _ => compare_hexOfByte_of_lt) left right

def inGroups : List Nat → List Char → List Char
  | [], digits => digits
  | width :: widths, digits => digits.take width ++ '-' :: inGroups widths (digits.drop width)

theorem hyphenate_eq_inGroups (digits : List Char) : hyphenate digits = inGroups [8, 4, 4, 4] digits := by
  simp only [hyphenate, inGroups, List.drop_drop, List.append_assoc, List.cons_append]

theorem compare_inGroups (widths : List Nat) {left right : List Char} (aligned : left.length = right.length) :
    compare (inGroups widths left) (inGroups widths right) = compare left right := by
  induction widths generalizing left right with
  | nil => rfl
  | cons width widths ih =>
    have front : (left.take width).length = (right.take width).length := by
      rw [List.length_take, List.length_take, aligned]
    have rest : (left.drop width).length = (right.drop width).length := by
      rw [List.length_drop, List.length_drop, aligned]
    -- The hyphen after a group stands at the same place in both texts, so it never decides.
    calc compare (inGroups (width :: widths) left) (inGroups (width :: widths) right)
        = (compare (left.take width) (right.take width)).then (compare (left.drop width) (right.drop width)) := by
          rw [inGroups, inGroups, compare_append front, compare_cons_self, ih rest]
      _ = compare left right := by
          rw [← compare_append front, List.take_append_drop, List.take_append_drop]

theorem compare_hyphenate {left right : List Char} (aligned : left.length = right.length) :
    compare (hyphenate left) (hyphenate right) = compare left right := by
  rw [hyphenate_eq_inGroups, hyphenate_eq_inGroups, compare_inGroups _ aligned]

section Repetitions

variable {α : Type} [DecidableEq α]

theorem eraseReps_loop_eq (first : α) (rest kept : List α) :
    List.eraseRepsBy.loop (· == ·) first rest kept = kept.reverse ++ rest.destutter' (· ≠ ·) first := by
  -- What is kept so far stands in reverse, the value that may still be repeated apart from it.
  induction rest generalizing first kept with
  | nil => rw [List.eraseRepsBy.loop, List.reverse_cons, List.destutter'_nil]
  | cons next rest ih =>
    rw [List.eraseRepsBy.loop, List.destutter'_cons]
    by_cases same : first = next
    · subst same
      rw [beq_self_eq_true, if_neg (not_not.mpr rfl)]
      exact ih first kept
    · rw [beq_false_of_ne same, if_pos same, List.append_cons, ← List.reverse_cons]
      exact ih next (first :: kept)

theorem eraseReps_eq_destutter (list : List α) : list.eraseReps = list.destutter (· ≠ ·) := by
  cases list with
  | nil => rfl
  | cons first rest => exact eraseReps_loop_eq first rest []

theorem eraseReps_eq_dedup {le : α → α → Prop} [Std.Antisymm le] {list : List α} (sorted : list.Pairwise le) :
    list.eraseReps = list.dedup :=
  (eraseReps_eq_destutter list).trans sorted.destutter_eq_dedup

end Repetitions

/-- What identifiers are ordered by: themselves, their bytes, the cells that they are stored in, the characters of
their texts, or the bytes of their texts. -/
inductive IdentifierOrder where
  | value
  | bytes
  | cell
  | text
  | textBytes
  deriving DecidableEq, Repr

namespace Identifier

variable {kind : IdentifierKind}

theorem compare_text_text (left right : Identifier kind) : Ord.compare left.text right.text = left.compare right := by
  have aligned : (hexOfBytes left.bytes).length = (hexOfBytes right.bytes).length := by
    rw [length_hexOfBytes, length_hexOfBytes, left.sixteen, right.sixteen]
  simp only [text]
  rw [compare_text, String.toList_ofList, String.toList_ofList, compare_hyphenate aligned, compare_hexOfBytes]
  rfl

theorem le_iff_bytes_le (left right : Identifier kind) : left.le right = true ↔ left.bytes ≤ right.bytes :=
  isLE_compare_bytes_iff left.bytes right.bytes

theorem le_iff_text_le (left right : Identifier kind) : left.le right = true ↔ left.text ≤ right.text := by
  rw [← isLE_compare_string_iff, compare_text_text]
  rfl

theorem le_iff_textBytes_le (left right : Identifier kind) :
    left.le right = true ↔ bytesOfText left.text ≤ bytesOfText right.text := by
  rw [← isLE_compare_bytes_iff, compare_bytesOfText, compare_text_text]
  rfl

theorem bytes_inj {left right : Identifier kind} : left.bytes = right.bytes ↔ left = right := by
  rw [Identifier.mk.injEq]

theorem compare_eq_iff (left right : Identifier kind) : left.compare right = .eq ↔ left = right := by
  rw [← bytes_inj]
  exact Std.compare_eq_iff_eq

theorem text_inj {left right : Identifier kind} : left.text = right.text ↔ left = right := by
  refine ⟨fun same => ?_, congrArg text⟩
  have read := parse?_text left
  rw [same, parse?_text right] at read
  exact (Option.some.inj read).symm

theorem le_refl (id : Identifier kind) : id.le id = true := (le_iff_text_le id id).mpr (String.le_refl id.text)

theorem le_antisymm {left right : Identifier kind} (before : left.le right = true) (after : right.le left = true) :
    left = right :=
  text_inj.mp (String.le_antisymm ((le_iff_text_le left right).mp before) ((le_iff_text_le right left).mp after))

instance : Std.Antisymm fun left right : Identifier kind => left.le right = true := ⟨fun _ _ => le_antisymm⟩

theorem pairwise_mergeSort_le (ids : List (Identifier kind)) :
    (ids.mergeSort le).Pairwise fun left right => left.le right = true := by
  refine List.pairwise_mergeSort (fun first second third => ?_) (fun left right => ?_) ids
  · simp only [le_iff_text_le]
    exact String.le_trans
  · simp only [Bool.or_eq_true, le_iff_text_le]
    exact String.le_total left.text right.text

theorem sortedDistinct_eq_dedup (ids : List (Identifier kind)) : sortedDistinct ids = (ids.mergeSort le).dedup :=
  eraseReps_eq_dedup (pairwise_mergeSort_le ids)

theorem mem_sortedDistinct {ids : List (Identifier kind)} {id : Identifier kind} :
    id ∈ sortedDistinct ids ↔ id ∈ ids := by
  rw [sortedDistinct_eq_dedup, List.mem_dedup, List.mem_mergeSort]

theorem pairwise_sortedDistinct (ids : List (Identifier kind)) :
    (sortedDistinct ids).Pairwise fun left right => left.text < right.text := by
  rw [sortedDistinct_eq_dedup]
  refine (((pairwise_mergeSort_le ids).sublist (List.dedup_sublist _)).and (List.nodup_dedup _)).imp ?_
  rintro left right ⟨ordered, different⟩
  rw [← String.not_le, ← le_iff_text_le]
  exact fun back => different (le_antisymm ordered back)

theorem eq_texts_sortedDistinct_iff (ids : List (Identifier kind)) (listed : List String) :
    listed = (sortedDistinct ids).map text ↔
      listed.Pairwise (· < ·) ∧ ∀ spelling, spelling ∈ listed ↔ ∃ id ∈ ids, id.text = spelling := by
  have ascending : ((sortedDistinct ids).map text).Pairwise (· < ·) :=
    List.pairwise_map.mpr (pairwise_sortedDistinct ids)
  have members (spelling : String) :
      spelling ∈ (sortedDistinct ids).map text ↔ ∃ id ∈ ids, id.text = spelling := by
    simp only [List.mem_map, mem_sortedDistinct]
  constructor
  · rintro rfl
    exact ⟨ascending, members⟩
  · rintro ⟨sorted, same⟩
    exact sorted.eq_of_mem_iff ascending fun spelling => (same spelling).trans (members spelling).symm

end Identifier

namespace IdentifierOrder

variable {kind : IdentifierKind}

def le : IdentifierOrder → Identifier kind → Identifier kind → Bool
  | value, left, right => left.le right
  | bytes, left, right => decide (left.bytes ≤ right.bytes)
  | cell, left, right => (Cell.ofIdentifier left).le (.ofIdentifier right)
  | text, left, right => decide (left.text ≤ right.text)
  | textBytes, left, right => decide (bytesOfText left.text ≤ bytesOfText right.text)

def sortedDistinct (order : IdentifierOrder) (ids : List (Identifier kind)) : List (Identifier kind) :=
  (ids.mergeSort order.le).eraseRepsBy fun left right => order.le left right && order.le right left

theorem le_iff (order : IdentifierOrder) (left right : Identifier kind) :
    order.le left right = true ↔ left.le right = true := by
  cases order with
  | value => exact Iff.rfl
  | bytes => rw [le, decide_eq_true_iff, Identifier.le_iff_bytes_le]
  | cell => exact Iff.rfl
  | text => rw [le, decide_eq_true_iff, Identifier.le_iff_text_le]
  | textBytes => rw [le, decide_eq_true_iff, Identifier.le_iff_textBytes_le]

theorem alike_iff (order : IdentifierOrder) (left right : Identifier kind) :
    order.le left right = true ∧ order.le right left = true ↔ left = right := by
  rw [le_iff, le_iff]
  constructor
  · rintro ⟨before, after⟩
    exact Identifier.le_antisymm before after
  · rintro rfl
    exact ⟨left.le_refl, left.le_refl⟩

theorem sortedDistinct_eq (order : IdentifierOrder) (ids : List (Identifier kind)) :
    order.sortedDistinct ids = Identifier.sortedDistinct ids := by
  have sorting : (order.le : Identifier kind → Identifier kind → Bool) = Identifier.le := by
    funext left right
    rw [Bool.eq_iff_iff, order.le_iff]
  have repetition : (fun left right : Identifier kind => order.le left right && order.le right left) = (· == ·) := by
    funext left right
    rw [Bool.eq_iff_iff, Bool.and_eq_true, order.alike_iff, beq_iff_eq]
  rw [sortedDistinct, repetition, sorting]
  rfl

end IdentifierOrder

/-- Identifiers of one kind are in the same order whether they themselves are compared, their bytes, the cells that
they are stored in, or the characters or bytes of their texts, and only one and the same identifier is equal in any of
these. So a list of identifiers that is sorted by any of them, each of those alike kept once, gives one list of texts:
the texts of the identifiers in strict order. -/
theorem identifier_orders_coincide (kind : IdentifierKind) :
    (∀ (order : IdentifierOrder) (left right : Identifier kind),
      order.le left right = true ↔ left.le right = true) ∧
    (∀ (order : IdentifierOrder) (left right : Identifier kind),
      order.le left right = true ∧ order.le right left = true ↔ left = right) ∧
    (∀ left right : Identifier kind,
      (left.compare right = .eq ↔ left = right) ∧ (left.bytes = right.bytes ↔ left = right) ∧
        ((Cell.ofIdentifier left).same (.ofIdentifier right) = true ↔ left = right) ∧
        (left.text = right.text ↔ left = right)) ∧
    (∀ (order : IdentifierOrder) (ids : List (Identifier kind)),
      (order.sortedDistinct ids).map Identifier.text = (Identifier.sortedDistinct ids).map Identifier.text) ∧
    ∀ (ids : List (Identifier kind)) (listed : List String),
      listed = (Identifier.sortedDistinct ids).map Identifier.text ↔
        listed.Pairwise (· < ·) ∧ ∀ spelling, spelling ∈ listed ↔ ∃ id ∈ ids, id.text = spelling := by
  refine ⟨IdentifierOrder.le_iff, IdentifierOrder.alike_iff, fun left right => ⟨?_, ?_, ?_, ?_⟩, fun order ids => ?_,
    Identifier.eq_texts_sortedDistinct_iff⟩
  · exact Identifier.compare_eq_iff left right
  · exact Identifier.bytes_inj
  · rw [Cell.same_ofIdentifier_iff, ofIdentifier_inj]
  · exact Identifier.text_inj
  · rw [order.sortedDistinct_eq]

end MetadataRegistry
