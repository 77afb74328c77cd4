import MetadataRegistry.Binary64
import MetadataRegistry.Text

/-!
Decimal text of finite numbers: the fewest digits that read back, of several such the nearest, of
two equally near the even one. Positional between 0.00001 and 10 ^ 16, with a point in every case,
and with an exponent beyond.
-/

namespace MetadataRegistry

namespace Binary64

def decimalExponent (numerator denominator : Nat) : Int :=
  ((decimalDigits (numerator * tenTo 350 / denominator)).length : Int) - 350

structure Decimal where
  digits : Nat
  exponent : Int

def Decimal.nearestBits (decimal : Decimal) : Nat :=
  if 0 ≤ decimal.exponent then Binary64.nearestBits (decimal.digits * tenTo decimal.exponent.toNat) 1
  else Binary64.nearestBits decimal.digits (tenTo (-decimal.exponent).toNat)

def gridNeighbours (numerator denominator : Nat) (exponent : Int) : List Decimal :=
  let (scaledNumerator, scaledDenominator) :=
    if 0 ≤ exponent then (numerator, denominator * tenTo exponent.toNat)
    else (numerator * tenTo (-exponent).toNat, denominator)
  let below : Decimal := ⟨scaledNumerator / scaledDenominator, exponent⟩
  let above : Decimal := ⟨scaledNumerator / scaledDenominator + 1, exponent⟩
  let twice := 2 * (scaledNumerator % scaledDenominator)
  if twice < scaledDenominator ∨ (twice = scaledDenominator ∧ below.digits % 2 = 0) then [below, above]
  else [above, below]

def roundTrip? (value : Binary64) (count : Nat) : Option Decimal :=
  let (numerator, denominator) := value.ratio
  let exponent := decimalExponent numerator denominator - count
  (gridNeighbours numerator denominator exponent).find? fun decimal =>
    decimal.nearestBits == value.bits.toNat % signBit

/-- Seventeen digits always read back, so the last resort is never met. -/
def shortest (value : Binary64) : Decimal :=
  ((List.range 17).findSome? fun fewer => value.roundTrip? (fewer + 1)).getD ⟨value.significand, 0⟩

def Decimal.significant (decimal : Decimal) : List Char × Int :=
  let digits := decimalDigits decimal.digits
  let kept := (digits.reverse.dropWhile (· == '0')).reverse
  (kept, decimal.exponent + (digits.length - kept.length : Nat))

def placeDigits (digits : List Char) (exponent : Int) : List Char :=
  let point := digits.length + exponent
  if 0 ≤ exponent ∧ point ≤ 16 then digits ++ List.replicate exponent.toNat '0' ++ ['.', '0']
  else if 0 < point ∧ point ≤ 16 then digits.take point.toNat ++ '.' :: digits.drop point.toNat
  else if -5 < point ∧ point ≤ 0 then '0' :: '.' :: List.replicate (-point).toNat '0' ++ digits
  else
    let mantissa := match digits with
      | first :: second :: rest => first :: '.' :: second :: rest
      | short => short
    mantissa ++ 'e' :: integerDigits (point - 1)

def render (value : Binary64) : List Char :=
  let magnitude :=
    if value.isZero then ['0', '.', '0']
    else
      let (digits, exponent) := value.shortest.significant
      placeDigits digits exponent
  if value.isNegative then '-' :: magnitude else magnitude

end Binary64

end MetadataRegistry
