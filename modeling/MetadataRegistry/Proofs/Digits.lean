import MetadataRegistry.Instant.Reader
import MetadataRegistry.Instant.Printer
import MetadataRegistry.Json.Number

/-!
Written numbers. The digits of a number start with zero only for zero itself; digits padded to a width
are as many as the width, and a run of digits is read back as the number it was written for.
-/

namespace MetadataRegistry

theorem all_isDigit_decimalDigits (value : Nat) : (decimalDigits value).all Char.isDigit = true :=
  List.all_eq_true.mpr (isDigit_of_mem_decimalDigits value)

theorem decimalDigits_ne_nil (value : Nat) : decimalDigits value ≠ [] := Nat.toDigits_ne_nil

theorem decimalDigits_head (value : Nat) (positive : 0 < value) :
    ∃ first rest, decimalDigits value = first :: rest ∧ first ≠ '0' := by
  induction value using Nat.strongRecOn with
  | ind value ih =>
      by_cases small : value < 10
      · refine ⟨value.digitChar, [], Nat.toDigits_of_lt_base small, ?_⟩
        have nonzero : ∀ digit, digit < 10 → 0 < digit → digit.digitChar ≠ '0' := by decide
        exact nonzero value small positive
      · obtain ⟨first, rest, same, nonzero⟩ := ih (value / 10) (by omega) (by omega)
        refine ⟨first, rest ++ [(value % 10).digitChar], ?_, nonzero⟩
        have split : decimalDigits value = decimalDigits (value / 10) ++ [(value % 10).digitChar] :=
          Nat.toDigits_of_base_le (by decide) (by omega)
        rw [split, same, List.cons_append]

theorem isWholePart_decimalDigits (value : Nat) : isWholePart (decimalDigits value) = true := by
  by_cases zero : value = 0
  · subst zero
    decide
  · obtain ⟨first, rest, same, nonzero⟩ := decimalDigits_head value (by omega)
    rw [same]
    unfold isWholePart
    split <;> simp_all

theorem decimalDigits_length_le (value width : Nat) (wide : 0 < width) (fits : value < tenTo width) :
    (decimalDigits value).length ≤ width :=
  (Nat.length_toDigits_le_iff (by decide) wide).mpr fits

theorem paddedDigits_length (width value : Nat) (wide : 0 < width) (fits : value < tenTo width) :
    (paddedDigits width value).length = width := by
  have bound := decimalDigits_length_le value width wide fits
  simp only [paddedDigits, List.length_append, List.length_replicate]
  omega

theorem all_isDigit_paddedDigits (width value : Nat) : (paddedDigits width value).all Char.isDigit = true := by
  have zero : Char.isDigit '0' = true := rfl
  rw [paddedDigits, List.all_append, all_isDigit_decimalDigits, Bool.and_true, List.all_replicate, zero]
  simp

theorem ofDecimalDigits_paddedDigits (width value : Nat) : ofDecimalDigits (paddedDigits width value) = value := by
  rw [ofDecimalDigits, paddedDigits, Nat.ofDigitChars_append, Nat.ofDigitChars_replicate_zero, Nat.mul_zero]
  exact ofDecimalDigits_decimalDigits value

theorem digitRun_append (least : Nat) {digits : List Char} (all : digits.all Char.isDigit = true)
    (enough : least ≤ digits.length) (rest : List Char) :
    digitRun least digits.length (digits ++ rest) = some (digits, rest) := by
  have whole : digits.takeWhile Char.isDigit = digits := by
    have taken : (digits ++ []).takeWhile Char.isDigit = digits ++ [].takeWhile Char.isDigit :=
      List.takeWhile_append_of_pos (List.all_eq_true.mp all)
    simpa using taken
  simp only [digitRun, List.take_left', whole]
  rw [if_neg (by omega), List.drop_left']
  rfl

theorem readNumber_paddedDigits (width value : Nat) (wide : 0 < width) (fits : value < tenTo width)
    (rest : List Char) :
    readNumber width width (paddedDigits width value ++ rest) = some (value, rest) := by
  have length := paddedDigits_length width value wide fits
  have run := digitRun_append width (all_isDigit_paddedDigits width value) (by omega) rest
  rw [length] at run
  simp only [readNumber, run, Option.map_some, ofDecimalDigits_paddedDigits]

end MetadataRegistry
