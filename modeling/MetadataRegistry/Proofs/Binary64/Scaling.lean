import MetadataRegistry.Proofs.Binary64.Rounding
import MetadataRegistry.Json.Number

/-!
Scaling of a significand by a power of ten, as literals are read. The rounded factors may be greater than
the exact ones, yet their product stays finite for every significand of seventeen digits whose exact value
rounds to a finite number. There is a single exception, and it is never written.
-/

namespace MetadataRegistry

namespace Binary64

theorem isFinite_ofRatio {numerator denominator : Nat} (divides : 0 < denominator)
    (less : numerator < overflowBound * denominator) : (ofRatio false numerator denominator).isFinite = true := by
  have finite : nearestBits numerator denominator < infinityBits := by
    by_cases zero : numerator = 0
    · rw [nearestBits, if_pos zero]
      decide
    · exact (nearestBits_lt_iff (Nat.pos_of_ne_zero zero) divides).mpr less
  have fits : infinityBits < UInt64.size := by decide
  have bits : (ofRatio false numerator denominator).bits.toNat = nearestBits numerator denominator := by
    rw [ofRatio, if_neg (by decide), Nat.zero_add]
    exact UInt64.toNat_ofNat_of_lt (Nat.lt_trans finite fits)
  have field : nearestBits numerator denominator / fractionCount < 2047 :=
    Nat.div_lt_of_lt_mul (by rw [Nat.mul_comm]; exact finite)
  rw [isFinite, exponentField, bits, decide_eq_true_iff]
  exact Nat.lt_of_le_of_lt (Nat.mod_le _ _) field

theorem ratio_pos (value : Binary64) : 0 < value.ratio.2 := by
  rw [ratio_eq]
  exact twoTo_pos _

theorem lt_overflowBound_of_small {value : Nat} (small : value < 64 * fractionCount) : value < overflowBound := by
  have least : 64 * fractionCount ≤ (4 * fractionCount - 1) * twoTo 5 := by decide
  have most : (4 * fractionCount - 1) * twoTo 5 ≤ overflowBound := Nat.mul_le_mul_left _ (twoTo_le (by decide))
  omega

section OfNat

variable {value : Nat}

theorem roundedSignificand_error (value : Nat) :
    2 * (roundedSignificand value 1 * twoTo (scaleOfRatio value 1).toNat) ≤
      2 * (value * twoTo (-scaleOfRatio value 1).toNat) + twoTo (scaleOfRatio value 1).toNat := by
  have error := (roundQuotient_error (value * twoTo (-scaleOfRatio value 1).toNat)
    (1 * twoTo (scaleOfRatio value 1).toNat) (Nat.mul_pos (by decide) (twoTo_pos _))).1
  rw [Nat.one_mul] at error
  rw [roundedSignificand, Nat.one_mul]
  exact error

theorem unit_le (positive : 0 < value) :
    fractionCount * twoTo (scaleOfRatio value 1).toNat ≤ value * twoTo (-scaleOfRatio value 1).toNat := by
  have scaled := scaleOfRatio_spec positive (show 0 < 1 by decide)
  have normal : -1074 < scaleOfRatio value 1 := by
    refine Int.not_le.mp fun least => ?_
    have less : IsBelow value 1 0 := scaled.below.mono (by omega)
    rw [isBelow_iff 0 0 (by rfl), show twoTo 0 = 1 by rfl] at less
    omega
  have above := mt (isBelow_scaled 52).mp (scaled.normal normal)
  rw [Nat.one_mul, ← fractionCount_eq] at above
  exact Nat.le_of_not_lt above

theorem ratio_ofNat_le_of (positive : 0 < value) (finite : value < overflowBound) (factor bound : Nat)
    (within : factor * (roundedSignificand value 1 * twoTo (scaleOfRatio value 1).toNat) ≤
      bound * twoTo (-scaleOfRatio value 1).toNat) :
    factor * (ofNat value).ratio.1 ≤ bound * (ofNat value).ratio.2 := by
  have same : (ofNat value).ratio.1 * twoTo (-scaleOfRatio value 1).toNat =
      roundedSignificand value 1 * twoTo (scaleOfRatio value 1).toNat * (ofNat value).ratio.2 :=
    ratio_ofRatio positive (by decide) ((nearestBits_lt_iff positive (by decide)).mpr (by omega))
  refine Nat.le_of_mul_le_mul_right ?_ (twoTo_pos (-scaleOfRatio value 1).toNat)
  calc factor * (ofNat value).ratio.1 * twoTo (-scaleOfRatio value 1).toNat
      = factor * (roundedSignificand value 1 * twoTo (scaleOfRatio value 1).toNat) * (ofNat value).ratio.2 := by
        rw [Nat.mul_assoc factor, same, Nat.mul_assoc factor]
    _ ≤ bound * twoTo (-scaleOfRatio value 1).toNat * (ofNat value).ratio.2 := Nat.mul_le_mul_right _ within
    _ = bound * (ofNat value).ratio.2 * twoTo (-scaleOfRatio value 1).toNat := Nat.mul_right_comm ..

theorem ratio_ofNat_le (positive : 0 < value) (finite : value < overflowBound) :
    2 * fractionCount * (ofNat value).ratio.1 ≤ (2 * fractionCount + 1) * value * (ofNat value).ratio.2 := by
  have error := roundedSignificand_error value
  have unit := unit_le positive
  refine ratio_ofNat_le_of positive finite _ _ ?_
  rw [Nat.mul_assoc (2 * fractionCount + 1)]
  simp only [fractionCount] at unit ⊢
  omega

theorem ratio_ofNat_le_succ (positive : 0 < value) (small : value < 4 * fractionCount) :
    (ofNat value).ratio.1 ≤ (value + 1) * (ofNat value).ratio.2 := by
  have error := roundedSignificand_error value
  have finite : value < overflowBound := lt_overflowBound_of_small (by omega)
  have scale : scaleOfRatio value 1 ≤ 1 := by
    refine Int.not_lt.mp fun greater => ?_
    refine (scaleOfRatio_spec positive (show 0 < 1 by decide)).normal (by omega) ?_
    have below : IsBelow value 1 54 := by
      rw [isBelow_iff 0 54 (by rfl), show twoTo 0 = 1 by rfl, Nat.mul_one, Nat.one_mul]
      exact small
    exact below.mono (by omega)
  have within : roundedSignificand value 1 * twoTo (scaleOfRatio value 1).toNat ≤
      (value + 1) * twoTo (-scaleOfRatio value 1).toNat := by
    rw [Nat.add_mul, Nat.one_mul]
    rcases Int.lt_or_eq_of_le scale with less | one
    · rw [show (scaleOfRatio value 1).toNat = 0 by omega, show twoTo 0 = 1 by rfl] at error ⊢
      omega
    · rw [one] at error ⊢
      rw [show twoTo (1 : Int).toNat = 2 by rfl, show twoTo (-1 : Int).toNat = 1 by rfl] at error ⊢
      omega
  have result := ratio_ofNat_le_of positive finite 1 _ (by rw [Nat.one_mul]; exact within)
  rwa [Nat.one_mul] at result

end OfNat

theorem isFinite_times {left right : Binary64}
    (less : left.ratio.1 * right.ratio.1 < overflowBound * (left.ratio.2 * right.ratio.2)) :
    (left.times right).isFinite = true :=
  isFinite_ofRatio (Nat.mul_pos (ratio_pos left) (ratio_pos right)) less

def greatestDigits : Nat := tenTo 17

/-- The only exponent at which the rounding of the factors could carry a product over the bound. -/
def criticalExponent : Nat := 292

def criticalDigits : Nat := 17976931348623158

theorem room_of_exponent : ∀ exponent < 309, exponent ≠ criticalExponent →
    (2 * fractionCount + 1) * min greatestDigits ((overflowBound - 1) / tenTo exponent) *
        (powerOfTen exponent).ratio.1 <
      2 * fractionCount * overflowBound * (powerOfTen exponent).ratio.2 := by
  -- How much room is left follows no rule, so it is looked up for each exponent.
  decide +kernel

theorem room_of_critical :
    (criticalDigits - 1) * (powerOfTen criticalExponent).ratio.1 <
        overflowBound * (powerOfTen criticalExponent).ratio.2 ∧
      ((ofNat (criticalDigits - 1)).times (powerOfTen criticalExponent)).isFinite = true ∧
      overflowBound ≤ (criticalDigits + 1) * tenTo criticalExponent ∧
      overflowBound ≤ tenTo 309 := by
  decide +kernel

section Scaled

variable {digits exponent : Nat} (positive : 0 < digits) (few : digits ≤ greatestDigits)
  (less : digits * tenTo exponent < overflowBound)

include positive few less

omit few in
theorem lt_exponents : exponent < 309 := by
  refine Nat.lt_of_not_le fun large => ?_
  have least : tenTo exponent ≤ digits * tenTo exponent := Nat.le_mul_of_pos_left _ positive
  have power : tenTo 309 ≤ tenTo exponent := tenTo_le large
  have bound := room_of_critical.2.2.2
  omega

theorem isFinite_uncritical (other : exponent ≠ criticalExponent) :
    ((ofNat digits).times (powerOfTen exponent)).isFinite = true := by
  refine isFinite_times ?_
  have rounded := ratio_ofNat_le positive (lt_overflowBound_of_small (Nat.lt_of_le_of_lt few (by decide)))
  have within : digits ≤ min greatestDigits ((overflowBound - 1) / tenTo exponent) :=
    Nat.le_min.mpr ⟨few, (Nat.le_div_iff_mul_le (tenTo_pos exponent)).mpr (by omega)⟩
  have room := room_of_exponent exponent (lt_exponents positive less) other
  generalize min greatestDigits ((overflowBound - 1) / tenTo exponent) = most at within room
  generalize (powerOfTen exponent).ratio = power at room
  have divides := ratio_pos (ofNat digits)
  generalize (ofNat digits).ratio = scaled at rounded divides
  refine Nat.lt_of_mul_lt_mul_left (a := 2 * fractionCount) ?_
  calc 2 * fractionCount * (scaled.1 * power.1)
      = 2 * fractionCount * scaled.1 * power.1 := (Nat.mul_assoc ..).symm
    _ ≤ (2 * fractionCount + 1) * digits * scaled.2 * power.1 := Nat.mul_le_mul_right _ rounded
    _ ≤ (2 * fractionCount + 1) * most * scaled.2 * power.1 :=
        Nat.mul_le_mul_right _ (Nat.mul_le_mul_right _ (Nat.mul_le_mul_left _ within))
    _ = (2 * fractionCount + 1) * most * power.1 * scaled.2 := Nat.mul_right_comm ..
    _ < 2 * fractionCount * overflowBound * power.2 * scaled.2 := Nat.mul_lt_mul_of_pos_right room divides
    _ = 2 * fractionCount * (overflowBound * (scaled.2 * power.2)) := by
        rw [Nat.mul_comm scaled.2, ← Nat.mul_assoc overflowBound, ← Nat.mul_assoc, ← Nat.mul_assoc]

theorem isFinite_scaled (other : ¬(exponent = criticalExponent ∧ digits = criticalDigits)) :
    ((ofNat digits).times (powerOfTen exponent)).isFinite = true := by
  by_cases critical : exponent = criticalExponent
  · subst critical
    obtain ⟨room, greatest, bound, _⟩ := room_of_critical
    have most : digits < criticalDigits + 1 := Nat.lt_of_mul_lt_mul_right (Nat.lt_of_lt_of_le less bound)
    by_cases last : digits = criticalDigits - 1
    · rw [last]
      exact greatest
    · refine isFinite_times ?_
      have rounded := ratio_ofNat_le_succ positive (Nat.lt_of_lt_of_le most (by decide))
      have notCritical : digits ≠ criticalDigits := fun same => other ⟨rfl, same⟩
      have succ : digits + 1 ≤ criticalDigits - 1 := by omega
      have divides := ratio_pos (ofNat digits)
      calc (ofNat digits).ratio.1 * (powerOfTen criticalExponent).ratio.1
          ≤ (digits + 1) * (ofNat digits).ratio.2 * (powerOfTen criticalExponent).ratio.1 :=
            Nat.mul_le_mul_right _ rounded
        _ ≤ (criticalDigits - 1) * (ofNat digits).ratio.2 * (powerOfTen criticalExponent).ratio.1 :=
            Nat.mul_le_mul_right _ (Nat.mul_le_mul_right _ succ)
        _ = (criticalDigits - 1) * (powerOfTen criticalExponent).ratio.1 * (ofNat digits).ratio.2 :=
            Nat.mul_right_comm ..
        _ < overflowBound * (powerOfTen criticalExponent).ratio.2 * (ofNat digits).ratio.2 :=
            Nat.mul_lt_mul_of_pos_right room divides
        _ = overflowBound * ((ofNat digits).ratio.2 * (powerOfTen criticalExponent).ratio.2) := by
            rw [Nat.mul_comm (ofNat digits).ratio.2, Nat.mul_assoc]
  · exact isFinite_uncritical positive few less critical

end Scaled

end Binary64

theorem scaleByPower_isSome {significand : Nat} {exponent : Int} (positive : 0 < significand)
    (few : significand ≤ Binary64.greatestDigits)
    (less : 0 ≤ exponent → significand * tenTo exponent.toNat < Binary64.overflowBound)
    (other : ¬(exponent = Binary64.criticalExponent ∧ significand = Binary64.criticalDigits)) :
    (scaleByPower significand exponent).isSome = true := by
  unfold scaleByPower
  simp only
  split
  · rfl
  · rename_i whole
    have less := less (by omega)
    have small := Binary64.lt_exponents positive less
    have finite := Binary64.isFinite_scaled positive few less (fun critical => other (by omega))
    rw [if_pos (show exponent ≤ 308 by omega), if_pos finite]
    split <;> rfl

end MetadataRegistry
