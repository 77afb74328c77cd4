import MetadataRegistry.Proofs.Binary64.Shortest
import MetadataRegistry.Proofs.Json.Spelling

/-!
Floating-point numbers in documents. The text of every finite number is a literal, and reading it gives a
number: its digits fit a word, and scaling them does not overflow.
-/

namespace MetadataRegistry

theorem le_ofDigitChars (digits : List Char) (start : Nat) : start ≤ Nat.ofDigitChars 10 digits start := by
  rw [Nat.ofDigitChars_eq_ofDigitChars_zero]
  exact Nat.le_trans (Nat.le_mul_of_pos_left start (Nat.pow_pos (by decide))) (Nat.le_add_right _ _)

theorem ofDecimalDigits_lt {digits : List Char} (all : digits.all Char.isDigit = true) :
    ofDecimalDigits digits < tenTo digits.length := by
  induction digits with
  | nil => exact Nat.one_pos
  | cons digit rest ih =>
      rw [List.all_cons, Bool.and_eq_true] at all
      have later := ih all.2
      have small : digit.toNat - '0'.toNat ≤ 9 := by
        have bounds := Char.isDigit_iff_toNat.mp all.1
        have zero : '0'.toNat = 48 := rfl
        have nine : '9'.toNat = 57 := rfl
        omega
      have power : tenTo (rest.length + 1) = 10 * tenTo rest.length := Nat.pow_succ'
      rw [ofDecimalDigits, Nat.ofDigitChars_cons, Nat.ofDigitChars_eq_ofDigitChars_zero, List.length_cons, power]
      have head : tenTo rest.length * (10 * 0 + (digit.toNat - '0'.toNat)) ≤ tenTo rest.length * 9 :=
        Nat.mul_le_mul_left _ (by omega)
      have later : Nat.ofDigitChars 10 rest 0 < tenTo rest.length := later
      show tenTo rest.length * (10 * 0 + (digit.toNat - '0'.toNat)) + _ < _
      omega

theorem takeDigits_eq (digits : List Char) : ∀ start : Nat, Nat.ofDigitChars 10 digits start ≤ greatestUInt64 →
    takeDigits start digits = (Nat.ofDigitChars 10 digits start, []) := by
  induction digits with
  | nil => exact fun start _ => rfl
  | cons digit rest ih =>
      intro start fits
      rw [Nat.ofDigitChars_cons, Nat.mul_comm] at fits ⊢
      have next : start * 10 + (digit.toNat - 48) ≤ greatestUInt64 := Nat.le_trans (le_ofDigitChars rest _) fits
      simp only [takeDigits, if_pos next]
      exact ih _ fits

theorem realValue_eq (literal : NumberLiteral)
    (fits : ofDecimalDigits (literal.whole ++ literal.fraction.getD []) ≤ greatestUInt64) :
    literal.realValue = (scaleByPower (ofDecimalDigits (literal.whole ++ literal.fraction.getD []))
      (literal.exponent.getD 0 - (literal.fraction.getD []).length)).map
        fun value => if literal.negative then value.negate else value := by
  rw [ofDecimalDigits, Nat.ofDigitChars_append] at fits
  have whole := takeDigits_eq literal.whole 0 (Nat.le_trans (le_ofDigitChars _ _) fits)
  have fraction := takeDigits_eq (literal.fraction.getD []) _ fits
  simp only [NumberLiteral.realValue, whole, fraction, ofDecimalDigits, Nat.ofDigitChars_append, List.length_nil,
    Int.natCast_zero, Int.add_zero, Nat.sub_zero]

structure IsRealText (text : List Char) : Prop where
  first : ∃ first rest, text = first :: rest ∧ first.isDigit = true
  read : ∀ negative, ∃ literal, NumberLiteral.readUnsigned negative text = some literal ∧ literal.value.isSome = true

theorem value_isSome {literal : NumberLiteral} (inexact : (literal.fraction.isSome || literal.exponent.isSome) = true)
    (real : literal.realValue.isSome = true) : literal.value.isSome = true := by
  have none : literal.integerValue = none := by
    rw [NumberLiteral.integerValue, if_pos inexact]
  rw [NumberLiteral.value, none]
  simpa using real

section Texts

variable {whole fraction text : List Char} (isWhole : isWholePart whole = true)
  (digits : whole.all Char.isDigit = true)

include isWhole digits

theorem first_of_whole (rest : List Char) : ∃ first tail, whole ++ rest = first :: tail ∧ first.isDigit = true := by
  cases whole with
  | nil => cases isWhole
  | cons first tail =>
      rw [List.all_cons, Bool.and_eq_true] at digits
      exact ⟨first, tail ++ rest, rfl, digits.1⟩

theorem isRealText_fraction {exponent : Option Int} (nonempty : fraction ≠ [])
    (fractionDigits : fraction.all Char.isDigit = true) (last : IsExponentText text exponent)
    (fits : ofDecimalDigits (whole ++ fraction) ≤ greatestUInt64)
    (scales :
      (scaleByPower (ofDecimalDigits (whole ++ fraction)) (exponent.getD 0 - fraction.length)).isSome = true) :
    IsRealText (whole ++ '.' :: (fraction ++ text)) where
  first := first_of_whole isWhole digits _
  read := by
    intro negative
    refine ⟨_, readUnsigned_fraction negative isWhole digits nonempty fractionDigits last, value_isSome rfl ?_⟩
    rw [realValue_eq _ fits, Option.isSome_map]
    exact scales

theorem isRealText_whole {exponent : Int} (last : IsExponentText text (some exponent))
    (fits : ofDecimalDigits whole ≤ greatestUInt64)
    (scales : (scaleByPower (ofDecimalDigits whole) exponent).isSome = true) : IsRealText (whole ++ text) where
  first := first_of_whole isWhole digits text
  read := by
    intro negative
    refine ⟨_, readUnsigned_whole negative isWhole digits last, value_isSome rfl ?_⟩
    have appended : whole ++ (none : Option (List Char)).getD [] = whole := List.append_nil whole
    rw [realValue_eq _ (by rw [appended]; exact fits), Option.isSome_map, appended, Option.getD_some,
      Option.getD_none, List.length_nil, Int.natCast_zero, Int.sub_zero]
    exact scales

end Texts

theorem readNatural_decimalDigits (value : Nat) : readNatural (decimalDigits value) = some value := by
  have nonempty : (decimalDigits value).isEmpty = false := List.isEmpty_eq_false_iff.mpr (decimalDigits_ne_nil value)
  simp [readNatural, nonempty, all_isDigit_decimalDigits, ofDecimalDigits_decimalDigits]

theorem decimalDigits_ne_cons (value : Nat) {stop : Char} (other : stop.isDigit = false) (rest : List Char) :
    decimalDigits value ≠ stop :: rest := by
  intro same
  have digit := isDigit_of_mem_decimalDigits value stop (same ▸ List.mem_cons_self)
  rw [other] at digit
  exact Bool.noConfusion digit

theorem isExponentText_integerDigits (exponent : Int) :
    IsExponentText ('e' :: integerDigits exponent) (some exponent) := by
  refine ⟨?_, by simp [EndsDigits], by simp⟩
  have read : readExponentPart (integerDigits exponent) = some exponent := by
    unfold integerDigits
    split
    · rw [readExponentPart, readNatural_decimalDigits]
      show some (-(exponent.natAbs : Int)) = some exponent
      exact congrArg some (by omega)
    · rw [readExponentPart.eq_3, readNatural_decimalDigits]
      · show some (exponent.natAbs : Int) = some exponent
        exact congrArg some (by omega)
      · exact decimalDigits_ne_cons _ (by decide)
      · exact decimalDigits_ne_cons _ (by decide)
  simp [readExponent, read]

theorem isWholePart_cons {first : Char} (nonzero : first ≠ '0') (rest : List Char) :
    isWholePart (first :: rest) = true := by
  unfold isWholePart
  split <;> simp_all

theorem ofDecimalDigits_zeros (zeros : Nat) (digits : List Char) :
    ofDecimalDigits (List.replicate zeros '0' ++ digits) = ofDecimalDigits digits := by
  rw [ofDecimalDigits, Nat.ofDigitChars_append, Nat.ofDigitChars_replicate_zero, Nat.mul_zero, ofDecimalDigits]

theorem all_isDigit_zeros (zeros : Nat) : (List.replicate zeros '0').all Char.isDigit = true := by
  simp [List.all_replicate]

theorem scaleByPower_negative {exponent : Int} (negative : exponent < 0) (significand : Nat) :
    (scaleByPower significand exponent).isSome = true := by
  rw [scaleByPower, if_pos negative]
  rfl

namespace Binary64

section Places

variable {digits : List Char} {exponent : Int} (significant : IsSignificant digits)
  (writable : (⟨ofDecimalDigits digits, exponent⟩ : Decimal).IsWritable)

include significant in
theorem isRealText_integer (whole : 0 ≤ exponent) (short : digits.length + exponent ≤ 16) :
    IsRealText (digits ++ List.replicate exponent.toNat '0' ++ ['.', '0']) := by
  obtain ⟨all, first, rest, rfl, nonzero⟩ := significant
  have digit : ['0'].all Char.isDigit = true := by decide
  have allWhole : (first :: rest ++ List.replicate exponent.toNat '0').all Char.isDigit = true := by
    rw [List.all_append, all, all_isDigit_zeros]
    rfl
  have value : ofDecimalDigits (first :: rest ++ List.replicate exponent.toNat '0' ++ ['0']) < tenTo 17 := by
    refine Nat.lt_of_lt_of_le (ofDecimalDigits_lt (by rw [List.all_append, allWhole, digit]; rfl)) (tenTo_le ?_)
    simp only [List.length_append, List.length_replicate, List.length_singleton]
    omega
  have bound : tenTo 17 ≤ greatestUInt64 := by decide
  have isWhole : isWholePart (first :: rest ++ List.replicate exponent.toNat '0') = true := isWholePart_cons nonzero _
  exact isRealText_fraction isWhole allWhole (by simp) digit isExponentText_nil
    (Nat.le_of_lt (Nat.lt_of_lt_of_le value bound)) (scaleByPower_negative (by decide) _)

include writable in
theorem value_fits : ofDecimalDigits digits ≤ greatestUInt64 :=
  Nat.le_trans writable.few (show greatestDigits ≤ greatestUInt64 by decide)

include writable in
theorem scaleByPower_writable : (scaleByPower (ofDecimalDigits digits) exponent).isSome = true := by
  refine scaleByPower_isSome writable.positive writable.few (fun whole => ?_) writable.other
  have less := writable.less
  rwa [show (-exponent).toNat = 0 by omega, show tenTo 0 = 1 by rfl, Nat.mul_one] at less

theorem isRealText_single {first : Char} (all : [first].all Char.isDigit = true) (nonzero : first ≠ '0')
    (writable : (⟨ofDecimalDigits [first], exponent⟩ : Decimal).IsWritable) :
    IsRealText ([first] ++ 'e' :: integerDigits ([first].length + exponent - 1)) := by
  have sameExponent : ([first].length : Int) + exponent - 1 = exponent := by
    rw [List.length_singleton]
    omega
  rw [sameExponent]
  exact isRealText_whole (isWholePart_cons nonzero []) all (isExponentText_integerDigits exponent)
    (value_fits writable)
    (scaleByPower_writable writable)

theorem isRealText_scientific {first second : Char} {rest : List Char}
    (all : (first :: second :: rest).all Char.isDigit = true) (nonzero : first ≠ '0')
    (writable : (⟨ofDecimalDigits (first :: second :: rest), exponent⟩ : Decimal).IsWritable) :
    IsRealText (first :: '.' :: second :: rest ++
      'e' :: integerDigits ((first :: second :: rest).length + exponent - 1)) := by
  rw [List.all_cons, Bool.and_eq_true] at all
  have digit : [first].all Char.isDigit = true := by simp [all.1]
  have sameExponent : (some (((first :: second :: rest).length : Int) + exponent - 1)).getD 0 -
      ((second :: rest).length : Int) = exponent := by
    rw [List.length_cons, Option.getD_some]
    omega
  exact isRealText_fraction (isWholePart_cons nonzero []) digit (List.cons_ne_nil second rest) all.2
    (isExponentText_integerDigits _) (value_fits writable)
    (by rw [sameExponent]; exact scaleByPower_writable writable)

include significant writable

theorem isRealText_point {point : Nat} (positive : 0 < point) (inside : point < digits.length) :
    IsRealText (digits.take point ++ '.' :: digits.drop point) := by
  have fits := value_fits writable
  obtain ⟨all, first, rest, rfl, nonzero⟩ := significant
  rw [← List.take_append_drop point (first :: rest)] at all fits
  rw [List.all_append, Bool.and_eq_true] at all
  have isWhole : isWholePart ((first :: rest).take point) = true := by
    rw [List.take_cons positive]
    exact isWholePart_cons nonzero _
  have nonempty : (first :: rest).drop point ≠ [] := List.ne_nil_of_length_pos (by rw [List.length_drop]; omega)
  have negative : Option.getD none 0 - (((first :: rest).drop point).length : Int) < 0 := by
    rw [List.length_drop, Option.getD_none]
    omega
  have text := isRealText_fraction isWhole all.1 nonempty all.2 isExponentText_nil fits
    (scaleByPower_negative negative _)
  rwa [List.append_nil] at text

theorem isRealText_small (zeros : Nat) : IsRealText ('0' :: '.' :: List.replicate zeros '0' ++ digits) := by
  have fits := value_fits writable
  have zero : ['0'].all Char.isDigit = true := by decide
  have allFraction : (List.replicate zeros '0' ++ digits).all Char.isDigit = true := by
    rw [List.all_append, all_isDigit_zeros, significant.all]
    rfl
  have value : ofDecimalDigits (['0'] ++ (List.replicate zeros '0' ++ digits)) = ofDecimalDigits digits :=
    (ofDecimalDigits_zeros 1 _).trans (ofDecimalDigits_zeros zeros digits)
  obtain ⟨_, first, rest, rfl, _⟩ := significant
  have negative : Option.getD none 0 - ((List.replicate zeros '0' ++ first :: rest).length : Int) < 0 := by
    rw [List.length_append, List.length_cons, Option.getD_none]
    omega
  have text := isRealText_fraction (by decide) zero (by simp) allFraction isExponentText_nil
    (by rw [value]; exact fits)
    (scaleByPower_negative negative _)
  rwa [List.append_nil] at text

theorem isRealText_placeDigits : IsRealText (placeDigits digits exponent) := by
  unfold placeDigits
  simp only
  split
  · rename_i shape
    exact isRealText_integer significant shape.1 shape.2
  · split
    · exact isRealText_point significant writable (by omega) (by omega)
    · split
      · exact isRealText_small significant writable _
      · obtain ⟨all, first, rest, rfl, nonzero⟩ := significant
        cases rest with
        | nil => exact isRealText_single all nonzero writable
        | cons second rest => exact isRealText_scientific all nonzero writable

end Places

theorem isRealText_zero : IsRealText ['0', '.', '0'] := by
  have isWhole : isWholePart ['0'] = true := by decide
  have digit : ['0'].all Char.isDigit = true := by decide
  exact isRealText_fraction isWhole digit (List.cons_ne_nil '0' []) digit isExponentText_nil (by decide)
    (scaleByPower_negative (by decide) _)

theorem render_eq (value : Binary64) : value.render = signed value.isNegative
    (if value.isZero then ['0', '.', '0']
      else placeDigits value.shortest.significant.1 value.shortest.significant.2) := rfl

theorem read_render {value : Binary64} (finite : value.isFinite = true) :
    ∃ literal, NumberLiteral.read value.render = some literal ∧ literal.value.isSome = true := by
  rw [render_eq]
  have text : IsRealText (if value.isZero then ['0', '.', '0']
      else placeDigits value.shortest.significant.1 value.shortest.significant.2) := by
    by_cases zero : value.isZero = true
    · rw [if_pos zero]
      exact isRealText_zero
    · rw [if_neg zero]
      have writable := isWritable_shortest finite (Bool.eq_false_iff.mpr zero)
      exact isRealText_placeDigits (isSignificant_significant writable.positive) (isWritable_significant writable)
  obtain ⟨first, rest, same, digit⟩ := text.first
  obtain ⟨literal, read, isSome⟩ := text.read value.isNegative
  rw [same] at read ⊢
  exact ⟨literal, (read_signed value.isNegative digit).trans read, isSome⟩

end Binary64

theorem isNumberLiteral_render {value : Binary64} (finite : value.isFinite = true) :
    isNumberLiteral value.render = true := by
  obtain ⟨literal, read, _⟩ := Binary64.read_render finite
  rw [isNumberLiteral, read]
  rfl

theorem number?_render {value : Binary64} (finite : value.isFinite = true) :
    (Json.number value.render).number?.isSome = true := by
  obtain ⟨literal, read, isSome⟩ := Binary64.read_render finite
  rw [Json.number?, read]
  exact isSome

end MetadataRegistry
