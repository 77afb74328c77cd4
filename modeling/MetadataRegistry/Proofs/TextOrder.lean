import MetadataRegistry.Proofs.Digits
import MetadataRegistry.Text

/-!
The order of texts. Texts are ordered by their characters, which is the order of their bytes in UTF-8; runs of digits
of one length are ordered as the numbers they are.
-/

namespace MetadataRegistry

theorem then_eq_of_decides {first rest whole : Ordering} (less : first = .lt → whole = .lt)
    (same : first = .eq → rest = whole) (greater : first = .gt → whole = .gt) : first.then rest = whole := by
  cases first with
  | lt => exact (less rfl).symm
  | eq => exact same rfl
  | gt => exact (greater rfl).symm

theorem compare_eq_of_less_iff {α β : Type} [Ord α] [Std.OrientedOrd α] [Ord β] [Std.OrientedOrd β] {a b : α} {x y : β}
    (less : compare a b = .lt ↔ compare x y = .lt) (greater : compare b a = .lt ↔ compare y x = .lt) :
    compare a b = compare x y := by
  rw [← Std.OrientedCmp.gt_iff_lt, ← Std.OrientedCmp.gt_iff_lt] at greater
  cases first : compare a b <;> cases second : compare x y <;> simp_all

theorem compare_eq_of_lt_iff {α β : Type} [Ord α] [LE α] [LT α] [Std.LawfulOrderOrd α] [Std.LawfulOrderLT α]
    [Std.OrientedOrd α] [Ord β] [LE β] [LT β] [Std.LawfulOrderOrd β] [Std.LawfulOrderLT β] [Std.OrientedOrd β]
    {a b : α} {x y : β} (less : a < b ↔ x < y) (greater : b < a ↔ y < x) : compare a b = compare x y := by
  refine compare_eq_of_less_iff ?_ ?_
  · rw [Std.compare_eq_lt, Std.compare_eq_lt, less]
  · rw [Std.compare_eq_lt, Std.compare_eq_lt, greater]

theorem isLE_compare_iff {α : Type} [Ord α] [Std.OrientedOrd α] (left right : α) :
    (compare left right).isLE = true ↔ ¬compare right left = .lt := by
  rw [Ordering.isLE_iff_ne_gt, Std.OrientedCmp.gt_iff_lt]

theorem compare_append {α : Type} [Ord α] {left right : List α} (aligned : left.length = right.length)
    (leftRest rightRest : List α) :
    compare (left ++ leftRest) (right ++ rightRest) = (compare left right).then (compare leftRest rightRest) := by
  induction left generalizing right with
  | nil =>
    obtain rfl := List.length_eq_zero_iff.mp aligned.symm
    rfl
  | cons first rest ih =>
    cases right with
    | nil => cases aligned
    | cons other others =>
      simp only [List.cons_append, List.compare_cons_cons]
      rw [ih (Nat.succ.inj aligned), Ordering.then_assoc]

theorem compare_cons_self {α : Type} [Ord α] [Std.ReflOrd α] (first : α) (left right : List α) :
    compare (first :: left) (first :: right) = compare left right := by
  rw [List.compare_cons_cons, Std.ReflOrd.compare_self, Ordering.eq_then]

theorem compare_flatMap {α β : Type} [Ord α] [Std.LawfulEqOrd α] [Std.OrientedOrd α] [Ord β] [Std.OrientedOrd β]
    {written : α → List β} (visible : ∀ value, written value ≠ [])
    (less : ∀ first second, compare first second = .lt →
      ∀ rest others, compare (written first ++ rest) (written second ++ others) = .lt) (left right : List α) :
    compare (left.flatMap written) (right.flatMap written) = compare left right := by
  induction left generalizing right with
  | nil =>
    cases right with
    | nil => rfl
    | cons other others =>
      obtain ⟨sign, signs, spelled⟩ := List.exists_cons_of_ne_nil (visible other)
      rw [List.flatMap_cons, List.compare_nil_cons, spelled]
      rfl
  | cons first rest ih =>
    cases right with
    | nil =>
      obtain ⟨sign, signs, spelled⟩ := List.exists_cons_of_ne_nil (visible first)
      rw [List.flatMap_cons, List.compare_cons_nil, spelled]
      rfl
    | cons other others =>
      rw [List.flatMap_cons, List.flatMap_cons, List.compare_cons_cons]
      refine (then_eq_of_decides (fun before => ?_) (fun same => ?_) (fun after => ?_)).symm
      · exact less first other before _ _
      · obtain rfl := Std.compare_eq_iff_eq.mp same
        rw [compare_append rfl, Std.compare_self, Ordering.eq_then, ih]
      · exact Std.OrientedCmp.gt_iff_lt.mpr (less other first (Std.OrientedCmp.gt_iff_lt.mp after) _ _)

theorem compare_char (left right : Char) : compare left right = compare left.toNat right.toNat := by
  have less (first second : Char) : compare first second = .lt ↔ compare first.toNat second.toNat = .lt := by
    rw [Nat.compare_eq_lt]
    exact compareOfLessAndEq_eq_lt
  exact compare_eq_of_less_iff (less left right) (less right left)

theorem compare_ofDigitChars {left right : List Char} (aligned : left.length = right.length)
    (leftDigits : left.all Char.isDigit = true) (rightDigits : right.all Char.isDigit = true)
    (leftStart rightStart : Nat) :
    compare (Nat.ofDigitChars 10 left leftStart) (Nat.ofDigitChars 10 right rightStart) =
      (compare leftStart rightStart).then (compare left right) := by
  induction left generalizing right leftStart rightStart with
  | nil =>
    obtain rfl := List.length_eq_zero_iff.mp aligned.symm
    rw [Nat.ofDigitChars_nil, Nat.ofDigitChars_nil, Std.compare_self, Ordering.then_eq]
  | cons first rest ih =>
    cases right with
    | nil => cases aligned
    | cons other others =>
      rw [List.all_cons, Bool.and_eq_true] at leftDigits rightDigits
      have digit := Char.isDigit_iff_toNat.mp leftDigits.1
      have otherDigit := Char.isDigit_iff_toNat.mp rightDigits.1
      have zero : '0'.toNat = 48 := rfl
      have nine : '9'.toNat = 57 := rfl
      rw [Nat.ofDigitChars_cons, Nat.ofDigitChars_cons, ih (Nat.succ.inj aligned) leftDigits.2 rightDigits.2,
        List.compare_cons_cons, ← Ordering.then_assoc, compare_char]
      refine congrArg (Ordering.then · _) (Eq.symm ?_)
      refine then_eq_of_decides (fun less => ?_) (fun same => ?_) (fun greater => ?_)
      · rw [Nat.compare_eq_lt] at less ⊢
        omega
      · rw [Nat.compare_eq_eq] at same
        subst same
        exact compare_eq_of_lt_iff (by omega) (by omega)
      · rw [Nat.compare_eq_gt] at greater ⊢
        omega

theorem compare_paddedDigits {width left right : Nat} (wide : 0 < width) (leftFits : left < tenTo width)
    (rightFits : right < tenTo width) :
    compare (paddedDigits width left) (paddedDigits width right) = compare left right := by
  have aligned : (paddedDigits width left).length = (paddedDigits width right).length :=
    (paddedDigits_length width left wide leftFits).trans (paddedDigits_length width right wide rightFits).symm
  have numbers := compare_ofDigitChars aligned (all_isDigit_paddedDigits width left)
    (all_isDigit_paddedDigits width right) 0 0
  rw [Std.compare_self, Ordering.eq_then] at numbers
  have leftNumber := ofDecimalDigits_paddedDigits width left
  have rightNumber := ofDecimalDigits_paddedDigits width right
  unfold ofDecimalDigits at leftNumber rightNumber
  rw [← numbers, leftNumber, rightNumber]

theorem compare_list_eq_lt_iff {α : Type} [Ord α] [Std.LawfulEqOrd α] [LT α]
    (less : ∀ first second : α, compare first second = .lt ↔ first < second) (left right : List α) :
    compare left right = .lt ↔ left < right := by
  induction left generalizing right with
  | nil => cases right <;> simp
  | cons first rest ih =>
    cases right with
    | nil => simp
    | cons other others =>
      rw [List.compare_cons_cons, Ordering.then_eq_lt, List.cons_lt_cons_iff, ih, Std.compare_eq_iff_eq, less]

theorem isLE_compare_bytes_iff (left right : List UInt8) : (compare left right).isLE = true ↔ left ≤ right := by
  rw [isLE_compare_iff, compare_list_eq_lt_iff fun _ _ => Std.compare_eq_lt, List.not_lt]

theorem compare_string_eq_lt_iff (left right : String) : compare left right = .lt ↔ left < right :=
  compareOfLessAndEq_eq_lt

theorem isLE_compare_string_iff (left right : String) : (compare left right).isLE = true ↔ left ≤ right := by
  rw [isLE_compare_iff, compare_string_eq_lt_iff, String.not_lt]

theorem compare_text (left right : String) : compare left right = compare left.toList right.toList := by
  have less (first second : String) : compare first second = .lt ↔ compare first.toList second.toList = .lt := by
    rw [compare_list_eq_lt_iff (fun _ _ => compareOfLessAndEq_eq_lt), compare_string_eq_lt_iff]
    exact Iff.rfl
  exact compare_eq_of_less_iff (less left right) (less right left)

theorem bytesOfText_eq (text : String) : bytesOfText text = text.toList.flatMap String.utf8EncodeChar := by
  have spelled := String.ofList_toList (s := text)
  rw [← spelled, String.toList_ofList]
  show (List.utf8Encode text.toList).data.toList = _
  rw [List.utf8Encode, List.data_toByteArray]

theorem compare_byte_eq_lt_iff (left right : Nat) :
    compare (UInt8.ofNat left) (UInt8.ofNat right) = .lt ↔ left % 256 < right % 256 := by
  rw [Std.compare_eq_lt, UInt8.lt_iff_toNat_lt, UInt8.toNat_ofNat', UInt8.toNat_ofNat']

theorem compare_byte_eq_eq_iff (left right : Nat) :
    compare (UInt8.ofNat left) (UInt8.ofNat right) = .eq ↔ left % 256 = right % 256 := by
  rw [Std.compare_eq_iff_eq, ← UInt8.toNat_inj, UInt8.toNat_ofNat', UInt8.toNat_ofNat']

/-- The bytes of a lesser character are less whatever follows: a longer encoding starts with a greater byte, and one
of the same length has the bits of the character from the front. -/
theorem compare_utf8EncodeChar_of_lt {first second : Char} (less : first.toNat < second.toNat)
    (rest others : List UInt8) :
    compare (String.utf8EncodeChar first ++ rest) (String.utf8EncodeChar second ++ others) = .lt := by
  have bound : second.toNat < 1114112 := by
    have valid : second.toNat < 0xd800 ∨ (0xdfff < second.toNat ∧ second.toNat < 0x110000) := second.valid
    omega
  have first_eq : first.val.toNat = first.toNat := rfl
  have second_eq : second.val.toNat = second.toNat := rfl
  unfold String.utf8EncodeChar
  rw [first_eq, second_eq]
  generalize first.toNat = a at less
  generalize second.toNat = b at less bound
  have sixBits (n : Nat) : (n % 64 + 128) % 256 = n % 64 + 128 := by omega
  have twelve (n : Nat) : n / 4096 = n / 64 / 64 := by omega
  have eighteen (n : Nat) : n / 262144 = n / 64 / 64 / 64 := by omega
  simp only []
  repeat' split
  all_goals
    simp only [List.cons_append, List.nil_append, List.compare_cons_cons, Ordering.then_eq_lt, compare_byte_eq_lt_iff,
      compare_byte_eq_eq_iff, sixBits, twelve, eighteen]
    omega

theorem utf8EncodeChar_ne_nil (character : Char) : String.utf8EncodeChar character ≠ [] := by
  rw [← List.length_pos_iff, String.length_utf8EncodeChar]
  exact character.utf8Size_pos

theorem compare_flatMap_utf8EncodeChar (left right : List Char) :
    compare (left.flatMap String.utf8EncodeChar) (right.flatMap String.utf8EncodeChar) = compare left right := by
  refine compare_flatMap utf8EncodeChar_ne_nil (fun first second less => ?_) left right
  rw [compare_char, Nat.compare_eq_lt] at less
  exact compare_utf8EncodeChar_of_lt less

theorem compare_bytesOfText (left right : String) :
    compare (bytesOfText left) (bytesOfText right) = compare left right := by
  rw [bytesOfText_eq, bytesOfText_eq, compare_flatMap_utf8EncodeChar, compare_text]

end MetadataRegistry
