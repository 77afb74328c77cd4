import MetadataRegistry.Binary64

/-!
Rounding of ratios. The scale of a ratio gives it a significand of fifty-three bits, unless it is the least
one. From this it follows which ratios round to a finite number, and that the number is the rounded
significand at that scale.
-/

namespace MetadataRegistry

theorem twoTo_pos (exponent : Nat) : 0 < twoTo exponent := Nat.two_pow_pos exponent

theorem twoTo_add (left right : Nat) : twoTo (left + right) = twoTo left * twoTo right := Nat.pow_add 2 left right

theorem twoTo_le {left right : Nat} (order : left ≤ right) : twoTo left ≤ twoTo right :=
  Nat.pow_le_pow_right (by decide) order

theorem tenTo_pos (exponent : Nat) : 0 < tenTo exponent := Nat.pow_pos (by decide)

theorem tenTo_add (left right : Nat) : tenTo (left + right) = tenTo left * tenTo right := Nat.pow_add 10 left right

theorem tenTo_le {left right : Nat} (order : left ≤ right) : tenTo left ≤ tenTo right :=
  Nat.pow_le_pow_right (by decide) order

theorem fractionCount_eq : Binary64.fractionCount = twoTo 52 := by decide

namespace Binary64

def IsBelow (numerator denominator : Nat) (power : Int) : Prop :=
  numerator * twoTo (-power).toNat < denominator * twoTo power.toNat

theorem isBelow_iff {numerator denominator : Nat} {power : Int} (left right : Nat)
    (shift : (right : Int) = left + power) :
    IsBelow numerator denominator power ↔ numerator * twoTo left < denominator * twoTo right := by
  obtain ⟨common, sameLeft⟩ : ∃ common, left = (-power).toNat + common := ⟨left - (-power).toNat, by omega⟩
  have sameRight : right = power.toNat + common := by omega
  rw [sameLeft, sameRight, twoTo_add, twoTo_add, ← Nat.mul_assoc, ← Nat.mul_assoc]
  exact (Nat.mul_lt_mul_right (twoTo_pos common)).symm

theorem IsBelow.mono {numerator denominator : Nat} {power greater : Int}
    (below : IsBelow numerator denominator power) (order : power ≤ greater) :
    IsBelow numerator denominator greater := by
  rw [isBelow_iff (-power).toNat (power.toNat + (greater - power).toNat) (by omega)]
  refine Nat.lt_of_lt_of_le below (Nat.mul_le_mul_left _ (twoTo_le (by omega)))

theorem scaleRatio_eq (numerator denominator : Nat) (scale : Int) :
    scaleRatio numerator denominator scale =
      (numerator * twoTo (-scale).toNat, denominator * twoTo scale.toNat) := by
  have one : twoTo 0 = 1 := rfl
  unfold scaleRatio
  split
  · rw [show (-scale).toNat = 0 by omega, one, Nat.mul_one]
  · rw [show scale.toNat = 0 by omega, one, Nat.mul_one]

theorem isBelow_scaled {numerator denominator : Nat} {scale : Int} (bits : Nat) :
    numerator * twoTo (-scale).toNat < twoTo bits * (denominator * twoTo scale.toNat) ↔
      IsBelow numerator denominator (scale + bits) := by
  rw [isBelow_iff (-scale).toNat (scale.toNat + bits) (by omega), twoTo_add,
    Nat.mul_comm (twoTo bits), Nat.mul_assoc]

variable {numerator denominator : Nat}

theorem isBelow_estimate (positive : 0 < numerator) (divides : 0 < denominator) :
    IsBelow numerator denominator ((numerator.log2 : Int) - denominator.log2 + 1) ∧
      ¬IsBelow numerator denominator ((numerator.log2 : Int) - denominator.log2 - 1) := by
  have low : twoTo numerator.log2 ≤ numerator := Nat.log2_self_le (by omega)
  have high : numerator < twoTo (numerator.log2 + 1) := Nat.lt_log2_self
  have lowDenominator : twoTo denominator.log2 ≤ denominator := Nat.log2_self_le (by omega)
  have highDenominator : denominator < twoTo (denominator.log2 + 1) := Nat.lt_log2_self
  constructor
  · rw [isBelow_iff denominator.log2 (numerator.log2 + 1) (by omega), Nat.mul_comm denominator]
    exact Nat.mul_lt_mul_of_lt_of_le high lowDenominator divides
  · rw [isBelow_iff (denominator.log2 + 1) numerator.log2 (by omega), Nat.not_lt,
      Nat.mul_comm denominator]
    exact Nat.mul_le_mul low (Nat.le_of_lt highDenominator)

/-- Under its scale a ratio has a significand of fifty-three bits, or fewer under the least one. -/
structure HasScale (numerator denominator : Nat) (scale : Int) : Prop where
  below : IsBelow numerator denominator (scale + 53)
  least : -1074 ≤ scale
  normal : -1074 < scale → ¬IsBelow numerator denominator (scale + 52)

theorem scaleOfRatio_spec (positive : 0 < numerator) (divides : 0 < denominator) :
    HasScale numerator denominator (scaleOfRatio numerator denominator) := by
  obtain ⟨high, low⟩ := isBelow_estimate positive divides
  generalize estimate : (numerator.log2 : Int) - denominator.log2 = difference at high low
  have small : numerator * twoTo (-(difference - 52)).toNat / (denominator * twoTo (difference - 52).toNat) <
      fractionCount ↔ IsBelow numerator denominator difference := by
    rw [Nat.div_lt_iff_lt_mul (Nat.mul_pos divides (twoTo_pos _)), fractionCount_eq, isBelow_scaled]
    rw [show difference - 52 + (52 : Nat) = difference by omega]
  unfold scaleOfRatio
  simp only
  rw [estimate, scaleRatio_eq]
  by_cases below : IsBelow numerator denominator difference
  · simp only [if_pos (small.mpr below)]
    refine ⟨below.mono (by omega), by omega, fun above inside => low (inside.mono (by omega))⟩
  · simp only [if_neg (mt small.mp below)]
    refine ⟨high.mono (by omega), by omega, fun above inside => below (inside.mono (by omega))⟩

theorem roundQuotient_error (dividend divisor : Nat) (divides : 0 < divisor) :
    2 * (roundQuotient dividend divisor * divisor) ≤ 2 * dividend + divisor ∧
      2 * dividend ≤ 2 * (roundQuotient dividend divisor * divisor) + divisor := by
  have division := Nat.div_add_mod dividend divisor
  have remainder := Nat.mod_lt dividend divides
  rw [Nat.mul_comm] at division
  unfold roundQuotient
  simp only
  split
  · rw [Nat.add_mul, Nat.one_mul]
    omega
  · omega

theorem roundQuotient_le {dividend divisor bound : Nat} (divides : 0 < divisor)
    (within : dividend ≤ bound * divisor) :
    roundQuotient dividend divisor ≤ bound := by
  have error := (roundQuotient_error dividend divisor divides).1
  have twice : 2 * roundQuotient dividend divisor * divisor ≤ (2 * bound + 1) * divisor := by
    rw [Nat.mul_assoc, Nat.add_mul, Nat.one_mul, Nat.mul_assoc]
    omega
  have := Nat.le_of_mul_le_mul_right twice divides
  omega

theorem le_roundQuotient {dividend divisor bound : Nat} (divides : 0 < divisor)
    (within : bound * divisor ≤ dividend) :
    bound ≤ roundQuotient dividend divisor := by
  have error := (roundQuotient_error dividend divisor divides).2
  have twice : 2 * bound * divisor ≤ (2 * roundQuotient dividend divisor + 1) * divisor := by
    rw [Nat.mul_assoc, Nat.add_mul, Nat.one_mul, Nat.mul_assoc]
    omega
  have := Nat.le_of_mul_le_mul_right twice divides
  omega

theorem roundQuotient_le_odd_iff {dividend divisor bound : Nat} (divides : 0 < divisor) (odd : bound % 2 = 1) :
    roundQuotient dividend divisor ≤ bound ↔ 2 * dividend < (2 * bound + 1) * divisor := by
  have division := Nat.div_add_mod dividend divisor
  have remainder := Nat.mod_lt dividend divides
  rw [Nat.mul_comm] at division
  have spread : (2 * bound + 1) * divisor = 2 * (bound * divisor) + divisor := by
    rw [Nat.add_mul, Nat.one_mul, Nat.mul_assoc]
  rw [spread]
  unfold roundQuotient
  simp only
  rcases Nat.lt_trichotomy (dividend / divisor) bound with less | same | greater
  · have order : (dividend / divisor + 1) * divisor ≤ bound * divisor := Nat.mul_le_mul_right divisor less
    rw [Nat.add_mul, Nat.one_mul] at order
    refine iff_of_true ?_ (by omega)
    split <;> omega
  · rw [same] at division ⊢
    split <;> omega
  · have order : (bound + 1) * divisor ≤ dividend / divisor * divisor := Nat.mul_le_mul_right divisor greater
    rw [Nat.add_mul, Nat.one_mul] at order
    refine iff_of_false ?_ (by omega)
    split <;> omega

def roundedSignificand (numerator denominator : Nat) : Nat :=
  let scale := scaleOfRatio numerator denominator
  roundQuotient (numerator * twoTo (-scale).toNat) (denominator * twoTo scale.toNat)

theorem nearestBits_eq (positive : 0 < numerator) :
    nearestBits numerator denominator =
      min (if roundedSignificand numerator denominator < fractionCount then roundedSignificand numerator denominator
        else (scaleOfRatio numerator denominator + 1074).toNat * fractionCount +
          roundedSignificand numerator denominator)
        infinityBits := by
  simp only [nearestBits, if_neg (Nat.ne_of_gt positive), scaleRatio_eq]
  rfl

theorem roundedSignificand_le (positive : 0 < numerator) (divides : 0 < denominator) :
    roundedSignificand numerator denominator ≤ 2 * fractionCount := by
  have scaled := (scaleOfRatio_spec positive divides).below
  refine roundQuotient_le (Nat.mul_pos divides (twoTo_pos _)) (Nat.le_of_lt ?_)
  rw [show 2 * fractionCount = twoTo 53 by decide]
  exact (isBelow_scaled 53).mpr scaled

theorem le_roundedSignificand (positive : 0 < numerator) (divides : 0 < denominator)
    (normal : -1074 < scaleOfRatio numerator denominator) :
    fractionCount ≤ roundedSignificand numerator denominator := by
  have scaled := (scaleOfRatio_spec positive divides).normal normal
  refine le_roundQuotient (Nat.mul_pos divides (twoTo_pos _)) (Nat.le_of_not_lt fun less => scaled ?_)
  rw [fractionCount_eq] at less
  exact (isBelow_scaled 52).mp less

/-- What rounds to a finite number is less than this: the middle between the greatest finite number and the
next power of two. -/
def overflowBound : Nat := (4 * fractionCount - 1) * twoTo 970

theorem overflowBound_eq : 2 * overflowBound = (2 * (2 * fractionCount - 1) + 1) * twoTo 971 := by
  have carried : 2 * (2 * fractionCount - 1) + 1 = 4 * fractionCount - 1 := by decide
  have double : twoTo 971 = twoTo 970 * twoTo 1 := twoTo_add 970 1
  have two : twoTo 1 = 2 := rfl
  rw [overflowBound, carried, double, two, Nat.mul_comm 2, Nat.mul_assoc]

theorem encoded_lt_iff {scale : Int} {significand : Nat} (most : significand ≤ 2 * fractionCount)
    (normal : -1074 < scale → fractionCount ≤ significand) :
    min (if significand < fractionCount then significand else (scale + 1074).toNat * fractionCount + significand)
        infinityBits < infinityBits ↔ scale < 971 ∨ (scale = 971 ∧ significand ≤ 2 * fractionCount - 1) := by
  have count : fractionCount = 4503599627370496 := rfl
  by_cases subnormal : significand < fractionCount
  · rw [if_pos subnormal, infinityBits]
    omega
  · rw [if_neg subnormal, infinityBits, count]
    omega

theorem lt_overflowBound (below : IsBelow numerator denominator 1023) : numerator < overflowBound * denominator := by
  rw [isBelow_iff 0 1023 (by rfl), Nat.mul_comm denominator] at below
  have order : twoTo 1023 * denominator ≤ overflowBound * denominator := by
    have split : twoTo 1023 = twoTo 53 * twoTo 970 := twoTo_add 53 970
    rw [split]
    exact Nat.mul_le_mul_right denominator (Nat.mul_le_mul_right (twoTo 970) (by decide))
  have one : numerator * twoTo 0 = numerator := Nat.mul_one numerator
  omega

theorem overflowBound_le (above : ¬IsBelow numerator denominator 1024) : overflowBound * denominator ≤ numerator := by
  rw [isBelow_iff 0 1024 (by rfl), Nat.mul_comm denominator] at above
  have order : overflowBound * denominator ≤ twoTo 1024 * denominator := by
    have split : twoTo 1024 = twoTo 54 * twoTo 970 := twoTo_add 54 970
    rw [split]
    exact Nat.mul_le_mul_right denominator (Nat.mul_le_mul_right (twoTo 970) (by decide))
  have one : numerator * twoTo 0 = numerator := Nat.mul_one numerator
  omega

theorem roundedSignificand_le_iff (divides : 0 < denominator) (greatest : scaleOfRatio numerator denominator = 971) :
    roundedSignificand numerator denominator ≤ 2 * fractionCount - 1 ↔ numerator < overflowBound * denominator := by
  have shifted : roundedSignificand numerator denominator = roundQuotient numerator (denominator * twoTo 971) := by
    have one : twoTo (-971 : Int).toNat = 1 := rfl
    have exponent : (971 : Int).toNat = 971 := rfl
    simp only [roundedSignificand, greatest, one, exponent, Nat.mul_one]
  have bound : (2 * (2 * fractionCount - 1) + 1) * (denominator * twoTo 971) = 2 * (overflowBound * denominator) := by
    rw [← Nat.mul_assoc 2, overflowBound_eq, Nat.mul_comm denominator, ← Nat.mul_assoc]
  rw [shifted, roundQuotient_le_odd_iff (Nat.mul_pos divides (twoTo_pos 971)) (by decide), bound]
  omega

theorem nearestBits_lt_iff (positive : 0 < numerator) (divides : 0 < denominator) :
    nearestBits numerator denominator < infinityBits ↔ numerator < overflowBound * denominator := by
  have scaled := scaleOfRatio_spec positive divides
  rw [nearestBits_eq positive, encoded_lt_iff (roundedSignificand_le positive divides)
    (le_roundedSignificand positive divides)]
  rcases Int.lt_trichotomy (scaleOfRatio numerator denominator) 971 with less | same | greater
  · exact iff_of_true (Or.inl less) (lt_overflowBound (scaled.below.mono (by omega)))
  · rw [← roundedSignificand_le_iff divides same]
    omega
  · have above : ¬IsBelow numerator denominator 1024 := fun below => scaled.normal (by omega) (below.mono (by omega))
    exact iff_of_false (by omega) (Nat.not_lt.mpr (overflowBound_le above))

theorem ratio_eq (value : Binary64) :
    value.ratio = (value.significand * twoTo value.scale.toNat, twoTo (-value.scale).toNat) := by
  have one : twoTo 0 = 1 := rfl
  unfold ratio
  split
  · rw [show (-value.scale).toNat = 0 by omega, one]
  · rw [show value.scale.toNat = 0 by omega, one, Nat.mul_one]

theorem fields_eq {value : Binary64} (field fraction : Nat)
    (bits : value.bits.toNat = field * fractionCount + fraction)
    (within : field < 2048) (fits : fraction < fractionCount) :
    value.exponentField = field ∧ value.fractionField = fraction := by
  simp only [exponentField, fractionField, bits, fractionCount] at fits ⊢
  omega

theorem decode_subnormal {value : Binary64} {fraction : Nat} (bits : value.bits.toNat = fraction)
    (fits : fraction < fractionCount) : value.significand = fraction ∧ value.scale = -1074 := by
  have fields := fields_eq 0 fraction (by rw [bits, Nat.zero_mul, Nat.zero_add]) (by decide) fits
  rw [significand, scale, if_pos fields.1, if_pos fields.1]
  exact ⟨fields.2, rfl⟩

theorem decode_normal {value : Binary64} (field fraction : Nat)
    (bits : value.bits.toNat = field * fractionCount + fraction) (normal : 0 < field) (within : field < 2048)
    (fits : fraction < fractionCount) :
    value.significand = fractionCount + fraction ∧ value.scale = (field : Int) - 1075 := by
  obtain ⟨sameField, sameFraction⟩ := fields_eq field fraction bits within fits
  have nonzero : value.exponentField ≠ 0 := by omega
  rw [significand, scale, if_neg nonzero, if_neg nonzero, sameField, sameFraction]
  exact ⟨rfl, rfl⟩

theorem decode_encoded {value : Binary64} {scale : Int} {significand : Nat} (least : -1074 ≤ scale)
    (most : significand ≤ 2 * fractionCount) (normal : -1074 < scale → fractionCount ≤ significand)
    (finite : scale < 971 ∨ (scale = 971 ∧ significand ≤ 2 * fractionCount - 1))
    (bits : value.bits.toNat =
      if significand < fractionCount then significand else (scale + 1074).toNat * fractionCount + significand) :
    (value.significand = significand ∧ value.scale = scale) ∨
      (significand = 2 * fractionCount ∧ value.significand = fractionCount ∧ value.scale = scale + 1) := by
  have count : fractionCount = 4503599627370496 := rfl
  by_cases subnormal : significand < fractionCount
  · rw [if_pos subnormal] at bits
    obtain ⟨sameSignificand, sameScale⟩ := decode_subnormal bits subnormal
    omega
  · rw [if_neg subnormal] at bits
    by_cases carry : significand = 2 * fractionCount
    · obtain ⟨sameSignificand, sameScale⟩ := decode_normal (scale + 1076).toNat 0
        (by rw [bits, count]; omega) (by omega) (by omega) (by omega)
      omega
    · obtain ⟨sameSignificand, sameScale⟩ := decode_normal (scale + 1075).toNat
        (significand - fractionCount) (by rw [bits, count]; omega) (by omega) (by omega) (by omega)
      omega

theorem twoTo_next (scale : Int) : twoTo (scale + 1).toNat * twoTo (-scale).toNat =
    2 * (twoTo scale.toNat * twoTo (-(scale + 1)).toNat) := by
  have two : twoTo 1 = 2 := rfl
  rw [← two, ← twoTo_add, ← twoTo_add, ← twoTo_add]
  exact congrArg twoTo (by omega)

theorem ratio_ofRatio (positive : 0 < numerator) (divides : 0 < denominator)
    (finite : nearestBits numerator denominator < infinityBits) :
    (ofRatio false numerator denominator).ratio.1 * twoTo (-scaleOfRatio numerator denominator).toNat =
      roundedSignificand numerator denominator * twoTo (scaleOfRatio numerator denominator).toNat *
        (ofRatio false numerator denominator).ratio.2 := by
  have scaled := scaleOfRatio_spec positive divides
  have most := roundedSignificand_le positive divides
  have normal := le_roundedSignificand positive divides
  have bits : (ofRatio false numerator denominator).bits.toNat = nearestBits numerator denominator := by
    have fits : infinityBits < UInt64.size := by decide
    rw [ofRatio, if_neg (by decide), Nat.zero_add]
    exact UInt64.toNat_ofNat_of_lt (Nat.lt_trans finite fits)
  rw [nearestBits_eq positive] at finite bits
  rw [Nat.min_eq_left (by omega)] at bits
  rw [encoded_lt_iff most normal] at finite
  rcases decode_encoded scaled.least most normal finite bits with ⟨sameSignificand, sameScale⟩ |
    ⟨carry, sameSignificand, sameScale⟩
  · rw [ratio_eq, sameSignificand, sameScale]
  · have next := twoTo_next (scaleOfRatio numerator denominator)
    rw [ratio_eq, sameSignificand, sameScale, carry]
    simp only
    rw [Nat.mul_assoc, next]
    ac_rfl

end Binary64

end MetadataRegistry
