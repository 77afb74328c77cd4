import MetadataRegistry.Binary64.Shortest
import MetadataRegistry.Proofs.Binary64.Scaling
import MetadataRegistry.Proofs.Digits

/-!
The shortest decimal of a finite number. It has seventeen digits at most, its value rounds to a finite
number, and it is not the one decimal that could not be scaled.
-/

namespace MetadataRegistry

namespace Binary64

structure Decimal.IsWritable (decimal : Decimal) : Prop where
  positive : 0 < decimal.digits
  few : decimal.digits ≤ greatestDigits
  less : decimal.digits * tenTo decimal.exponent.toNat < overflowBound * tenTo (-decimal.exponent).toNat
  other : ¬(decimal.exponent = criticalExponent ∧ decimal.digits = criticalDigits)

theorem lt_tenTo_length (value : Nat) : value < tenTo (decimalDigits value).length :=
  (Nat.length_toDigits_le_iff (by decide) (List.length_pos_iff.mpr Nat.toDigits_ne_nil)).mp (Nat.le_refl _)

theorem scaled_lt (numerator count : Nat) {denominator : Nat} (divides : 0 < denominator) :
    numerator * tenTo (-(decimalExponent numerator denominator - count)).toNat /
        (denominator * tenTo (decimalExponent numerator denominator - count).toNat) < tenTo count := by
  have length := lt_tenTo_length (numerator * tenTo 350 / denominator)
  rw [Nat.div_lt_iff_lt_mul divides] at length
  rw [Nat.div_lt_iff_lt_mul (Nat.mul_pos divides (tenTo_pos _))]
  have exponent : decimalExponent numerator denominator =
      ((decimalDigits (numerator * tenTo 350 / denominator)).length : Int) - 350 := rfl
  rw [exponent]
  generalize (decimalDigits (numerator * tenTo 350 / denominator)).length = digits at length
  have shifted : tenTo digits * tenTo (-((digits : Int) - 350 - count)).toNat =
      tenTo count * tenTo ((digits : Int) - 350 - count).toNat * tenTo 350 := by
    rw [← tenTo_add, ← tenTo_add, ← tenTo_add]
    exact congrArg tenTo (by omega)
  have positive := tenTo_pos (-((digits : Int) - 350 - count)).toNat
  generalize tenTo (-((digits : Int) - 350 - count)).toNat = up at shifted positive ⊢
  generalize tenTo ((digits : Int) - 350 - count).toNat = down at shifted ⊢
  generalize tenTo 350 = power at length shifted
  refine Nat.lt_of_mul_lt_mul_right (a := power) ?_
  calc numerator * up * power = numerator * power * up := Nat.mul_right_comm ..
    _ < tenTo digits * denominator * up := Nat.mul_lt_mul_of_pos_right length positive
    _ = tenTo digits * up * denominator := Nat.mul_right_comm ..
    _ = tenTo count * down * power * denominator := by rw [shifted]
    _ = tenTo count * (denominator * down) * power := by ac_rfl

theorem mem_gridNeighbours {numerator denominator : Nat} {exponent : Int} {decimal : Decimal}
    (member : decimal ∈ gridNeighbours numerator denominator exponent) :
    decimal.exponent = exponent ∧
      decimal.digits ≤ numerator * tenTo (-exponent).toNat / (denominator * tenTo exponent.toNat) + 1 := by
  have one : tenTo 0 = 1 := rfl
  have scaled : (if 0 ≤ exponent then (numerator, denominator * tenTo exponent.toNat)
      else (numerator * tenTo (-exponent).toNat, denominator)) =
      (numerator * tenTo (-exponent).toNat, denominator * tenTo exponent.toNat) := by
    split
    · rw [show (-exponent).toNat = 0 by omega, one, Nat.mul_one]
    · rw [show exponent.toNat = 0 by omega, one, Nat.mul_one]
  simp only [gridNeighbours, scaled] at member
  split at member <;> simp only [List.mem_cons, List.not_mem_nil, or_false] at member <;>
    rcases member with rfl | rfl <;> simp

theorem Decimal.nearestBits_eq (decimal : Decimal) : decimal.nearestBits =
    Binary64.nearestBits (decimal.digits * tenTo decimal.exponent.toNat) (tenTo (-decimal.exponent).toNat) := by
  have one : tenTo 0 = 1 := rfl
  unfold Decimal.nearestBits
  split
  · rw [show (-decimal.exponent).toNat = 0 by omega, one]
  · rw [show decimal.exponent.toNat = 0 by omega, one, Nat.mul_one]

theorem roundTrip?_spec {value : Binary64} {count : Nat} {decimal : Decimal}
    (found : value.roundTrip? count = some decimal) :
    decimal.digits ≤ tenTo count ∧ decimal.nearestBits = value.bits.toNat % signBit := by
  have member : decimal ∈ gridNeighbours value.ratio.1 value.ratio.2
      (decimalExponent value.ratio.1 value.ratio.2 - count) := List.mem_of_find?_eq_some found
  obtain ⟨sameExponent, digits⟩ := mem_gridNeighbours member
  have below := scaled_lt value.ratio.1 count (ratio_pos value)
  have same := List.find?_some found
  refine ⟨?_, beq_iff_eq.mp same⟩
  exact Nat.le_trans digits below

theorem magnitude_lt {value : Binary64} (finite : value.isFinite = true) :
    value.bits.toNat % signBit < infinityBits := by
  have field : value.exponentField < 2047 := of_decide_eq_true finite
  simp only [exponentField, signBit, infinityBits, fractionCount] at field ⊢
  omega

theorem magnitude_pos {value : Binary64} (nonzero : value.isZero = false) : 0 < value.bits.toNat % signBit := by
  refine Nat.pos_of_ne_zero fun zero => ?_
  have fields : value.exponentField = 0 ∧ value.fractionField = 0 := by
    simp only [exponentField, fractionField, fractionCount, signBit] at zero ⊢
    omega
  rw [isZero, fields.1, fields.2] at nonzero
  exact Bool.noConfusion nonzero

/-- The critical decimal rounds to the greatest finite number, which of either sign is not written with its
digits. -/
theorem not_written_critical :
    nearestBits (criticalDigits * tenTo (criticalExponent : Int).toNat) (tenTo (-(criticalExponent : Int)).toNat) =
        infinityBits - 1 ∧
      (⟨0x7fefffffffffffff⟩ : Binary64).shortest.digits ≠ criticalDigits ∧
      (⟨0xffefffffffffffff⟩ : Binary64).shortest.digits ≠ criticalDigits := by
  decide +kernel

theorem eq_greatest {value : Binary64} (magnitude : value.bits.toNat % signBit = infinityBits - 1) :
    value = ⟨0x7fefffffffffffff⟩ ∨ value = ⟨0xffefffffffffffff⟩ := by
  have word : value.bits.toNat < 18446744073709551616 := value.bits.toNat_lt
  have either : value.bits.toNat = (0x7fefffffffffffff : UInt64).toNat ∨
      value.bits.toNat = (0xffefffffffffffff : UInt64).toNat := by
    simp only [signBit, infinityBits, fractionCount] at magnitude
    simp only [UInt64.reduceToNat]
    omega
  cases value
  rcases either with same | same
  · exact Or.inl (congrArg mk (UInt64.toNat_inj.mp same))
  · exact Or.inr (congrArg mk (UInt64.toNat_inj.mp same))

theorem significand_lt (value : Binary64) : value.significand < 2 * fractionCount := by
  have fraction : value.fractionField < fractionCount := Nat.mod_lt _ (by decide)
  unfold significand
  split <;> omega

theorem significand_pos {value : Binary64} (nonzero : value.isZero = false) : 0 < value.significand := by
  have count : fractionCount = 4503599627370496 := rfl
  unfold significand
  split
  · rename_i subnormal
    refine Nat.pos_of_ne_zero fun zero => ?_
    rw [isZero, subnormal, zero] at nonzero
    exact Bool.noConfusion nonzero
  · omega

theorem isWritable_significand {value : Binary64} (nonzero : value.isZero = false) :
    (⟨value.significand, 0⟩ : Decimal).IsWritable := by
  have most := significand_lt value
  have few : 2 * fractionCount ≤ greatestDigits := by decide
  have less : value.significand < overflowBound := lt_overflowBound_of_small (by omega)
  refine ⟨significand_pos nonzero, Nat.le_trans (Nat.le_of_lt most) few, ?_, ?_⟩
  · show value.significand * 1 < overflowBound * 1
    omega
  · rintro ⟨impossible, _⟩
    cases impossible

theorem isWritable_roundTrip {value : Binary64} {count : Nat} {decimal : Decimal} (finite : value.isFinite = true)
    (nonzero : value.isZero = false) (found : value.roundTrip? count = some decimal) (few : count ≤ 17)
    (shortest : value.shortest = decimal) : decimal.IsWritable := by
  obtain ⟨digits, same⟩ := roundTrip?_spec found
  rw [Decimal.nearestBits_eq] at same
  have positive : 0 < decimal.digits := by
    refine Nat.pos_of_ne_zero fun zero => ?_
    have magnitude := magnitude_pos nonzero
    rw [← same, zero, Nat.zero_mul, nearestBits, if_pos rfl] at magnitude
    exact absurd magnitude (by decide)
  refine ⟨positive, Nat.le_trans digits (tenTo_le few), ?_, ?_⟩
  · have magnitude := magnitude_lt finite
    rw [← same] at magnitude
    exact (nearestBits_lt_iff (Nat.mul_pos positive (tenTo_pos _)) (tenTo_pos _)).mp magnitude
  · rintro ⟨sameExponent, sameDigits⟩
    rw [sameExponent, sameDigits] at same
    obtain ⟨critical, positiveWritten, negativeWritten⟩ := not_written_critical
    rcases eq_greatest (same.symm.trans critical) with rfl | rfl
    · exact positiveWritten (by rw [shortest, sameDigits])
    · exact negativeWritten (by rw [shortest, sameDigits])

theorem isWritable_shortest {value : Binary64} (finite : value.isFinite = true) (nonzero : value.isZero = false) :
    value.shortest.IsWritable := by
  cases found : (List.range 17).findSome? fun fewer => value.roundTrip? (fewer + 1) with
  | none =>
      rw [shortest, found, Option.getD_none]
      exact isWritable_significand nonzero
  | some decimal =>
      have same : value.shortest = decimal := by rw [shortest, found, Option.getD_some]
      obtain ⟨fewer, inRange, found⟩ := List.exists_of_findSome?_eq_some found
      rw [same]
      exact isWritable_roundTrip finite nonzero found (List.mem_range.mp inRange) same

theorem significant_spec (decimal : Decimal) : ∃ zeros : Nat,
    decimalDigits decimal.digits = decimal.significant.1 ++ List.replicate zeros '0' ∧
      decimal.significant.2 = decimal.exponent + zeros := by
  have parts := List.takeWhile_append_dropWhile (p := (· == '0')) (l := (decimalDigits decimal.digits).reverse)
  have zeros : ((decimalDigits decimal.digits).reverse.takeWhile (· == '0')).reverse =
      List.replicate ((decimalDigits decimal.digits).reverse.takeWhile (· == '0')).length '0' := by
    refine List.eq_replicate_iff.mpr ⟨List.length_reverse, fun digit member => ?_⟩
    exact beq_iff_eq.mp (List.all_eq_true.mp List.all_takeWhile digit (List.mem_reverse.mp member))
  have whole := congrArg List.reverse parts
  rw [List.reverse_append, List.reverse_reverse, zeros] at whole
  refine ⟨_, whole.symm, ?_⟩
  have lengths := congrArg List.length whole
  rw [List.length_append, List.length_replicate] at lengths
  simp only [Decimal.significant]
  omega

structure IsSignificant (digits : List Char) : Prop where
  all : digits.all Char.isDigit = true
  first : ∃ first rest, digits = first :: rest ∧ first ≠ '0'

theorem isSignificant_significant {decimal : Decimal} (positive : 0 < decimal.digits) :
    IsSignificant decimal.significant.1 := by
  obtain ⟨zeros, written, _⟩ := significant_spec decimal
  constructor
  · have all := all_isDigit_decimalDigits decimal.digits
    rw [written, List.all_append, Bool.and_eq_true] at all
    exact all.1
  · obtain ⟨first, rest, same, nonzero⟩ := decimalDigits_head decimal.digits positive
    rw [written] at same
    cases kept : decimal.significant.1 with
    | nil =>
        rw [kept, List.nil_append] at same
        have zero : first = '0' :=
          List.eq_of_mem_replicate (same ▸ List.mem_cons_self : first ∈ List.replicate zeros '0')
        exact absurd zero nonzero
    | cons digit others =>
        rw [kept, List.cons_append] at same
        exact ⟨digit, others, rfl, (List.cons.inj same).1 ▸ nonzero⟩

theorem lt_of_shifted {kept zeros : Nat} {exponent : Int}
    (less : tenTo zeros * kept * tenTo exponent.toNat < overflowBound * tenTo (-exponent).toNat) :
    kept * tenTo (exponent + zeros).toNat < overflowBound * tenTo (-(exponent + zeros)).toNat := by
  have shift : tenTo (exponent + zeros).toNat * tenTo (-exponent).toNat =
      tenTo zeros * tenTo exponent.toNat * tenTo (-(exponent + zeros)).toNat := by
    rw [← tenTo_add, ← tenTo_add, ← tenTo_add]
    exact congrArg tenTo (by omega)
  have positive := tenTo_pos (-(exponent + zeros)).toNat
  generalize tenTo (-(exponent + zeros)).toNat = down at shift positive ⊢
  generalize tenTo (exponent + zeros).toNat = up at shift ⊢
  generalize overflowBound = bound at less ⊢
  refine Nat.lt_of_mul_lt_mul_right (a := tenTo (-exponent).toNat) ?_
  calc kept * up * tenTo (-exponent).toNat
      = tenTo zeros * kept * tenTo exponent.toNat * down := by
        rw [Nat.mul_assoc kept, shift]
        ac_rfl
    _ < bound * tenTo (-exponent).toNat * down := Nat.mul_lt_mul_of_pos_right less positive
    _ = bound * down * tenTo (-exponent).toNat := Nat.mul_right_comm ..

theorem isWritable_significant {decimal : Decimal} (writable : decimal.IsWritable) :
    (⟨ofDecimalDigits decimal.significant.1, decimal.significant.2⟩ : Decimal).IsWritable := by
  obtain ⟨zeros, written, exponent⟩ := significant_spec decimal
  obtain ⟨positive, few, less, other⟩ := writable
  have value : tenTo zeros * ofDecimalDigits decimal.significant.1 = decimal.digits := by
    rw [← ofDecimalDigits_decimalDigits decimal.digits, written]
    simp only [ofDecimalDigits, Nat.ofDigitChars_append, Nat.ofDigitChars_replicate_zero]
    rfl
  rw [exponent]
  generalize ofDecimalDigits decimal.significant.1 = kept at value ⊢
  rw [← value] at positive few less other
  refine ⟨Nat.pos_of_mul_pos_left positive, ?_, lt_of_shifted less, ?_⟩
  · exact Nat.le_trans (Nat.le_mul_of_pos_left kept (tenTo_pos zeros)) few
  · rintro ⟨sameExponent, sameDigits⟩
    simp only at sameExponent sameDigits
    cases zeros with
    | zero => exact other ⟨by omega, by rw [sameDigits]; exact Nat.one_mul criticalDigits⟩
    | succ more =>
        have many : tenTo 1 * criticalDigits ≤ tenTo (more + 1) * kept :=
          Nat.mul_le_mul (tenTo_le (by omega)) (Nat.le_of_eq sameDigits.symm)
        have bound : greatestDigits < tenTo 1 * criticalDigits := by decide
        omega

end Binary64

end MetadataRegistry
