import MetadataRegistry.Text

/-!
Numbers of machine words: the ranges of integers, and floating-point numbers of sixty-four bits, kept as their bit
pattern. A finite one is a significand times a power of two; a ratio of natural numbers is rounded to the nearest one,
ties to the even significand.
-/

namespace MetadataRegistry

def leastInt64 : Int := -9223372036854775808

def greatestInt64 : Int := 9223372036854775807

def isInt64 (value : Int) : Bool := leastInt64 ≤ value && value ≤ greatestInt64

def greatestUInt64 : Nat := 18446744073709551615

def greatestUInt32 : Nat := 4294967295

def twoTo (exponent : Nat) : Nat := Nat.pow 2 exponent

structure Binary64 where
  bits : UInt64
  deriving DecidableEq

namespace Binary64

def fractionCount : Nat := 4503599627370496

def signBit : Nat := 9223372036854775808

def exponentField (value : Binary64) : Nat := value.bits.toNat / fractionCount % 2048

def fractionField (value : Binary64) : Nat := value.bits.toNat % fractionCount

def isNegative (value : Binary64) : Bool := decide (signBit ≤ value.bits.toNat)

def isFinite (value : Binary64) : Bool := value.exponentField < 2047

def isZero (value : Binary64) : Bool := value.exponentField == 0 && value.fractionField == 0

def significand (value : Binary64) : Nat :=
  if value.exponentField = 0 then value.fractionField else fractionCount + value.fractionField

def scale (value : Binary64) : Int :=
  if value.exponentField = 0 then -1074 else value.exponentField - 1075

def ratio (value : Binary64) : Nat × Nat :=
  if 0 ≤ value.scale then (value.significand * twoTo value.scale.toNat, 1)
  else (value.significand, twoTo (-value.scale).toNat)

def infinityBits : Nat := 2047 * fractionCount

/-- The quotient rounded to the nearest integer, a tie to the even one. -/
def roundQuotient (numerator denominator : Nat) : Nat :=
  let quotient := numerator / denominator
  let twice := 2 * (numerator % denominator)
  if denominator < twice ∨ (twice = denominator ∧ quotient % 2 = 1) then quotient + 1 else quotient

def scaleRatio (numerator denominator : Nat) (scale : Int) : Nat × Nat :=
  if 0 ≤ scale then (numerator, denominator * twoTo scale.toNat)
  else (numerator * twoTo (-scale).toNat, denominator)

def scaleOfRatio (numerator denominator : Nat) : Int :=
  let estimate : Int := (numerator.log2 : Int) - denominator.log2 - 52
  let (scaledNumerator, scaledDenominator) := scaleRatio numerator denominator estimate
  let scale := if scaledNumerator / scaledDenominator < fractionCount then estimate - 1 else estimate
  max scale (-1074)

/-- Bits of the nearest number to a ratio, without a sign. A significand that rounds up to the next
power of two carries into the exponent. -/
def nearestBits (numerator denominator : Nat) : Nat :=
  if numerator = 0 then 0
  else
    let scale := scaleOfRatio numerator denominator
    let (scaledNumerator, scaledDenominator) := scaleRatio numerator denominator scale
    let significand := roundQuotient scaledNumerator scaledDenominator
    let bits := if significand < fractionCount then significand else (scale + 1074).toNat * fractionCount + significand
    min bits infinityBits

def ofRatio (negative : Bool) (numerator denominator : Nat) : Binary64 :=
  ⟨UInt64.ofNat ((if negative then signBit else 0) + nearestBits numerator denominator)⟩

def ofNat (value : Nat) : Binary64 := ofRatio false value 1

/-- The nearest number to a decimal. Powers of ten far beyond the range count as its ends. -/
def ofDecimal (negative : Bool) (digits : Nat) (exponent : Int) : Binary64 :=
  let exponent := max (-100000) (min 400 exponent)
  if 0 ≤ exponent then ofRatio negative (digits * tenTo exponent.toNat) 1
  else ofRatio negative digits (tenTo (-exponent).toNat)

def powerOfTen (exponent : Nat) : Binary64 := ofNat (tenTo exponent)

def times (left right : Binary64) : Binary64 :=
  ofRatio false (left.ratio.1 * right.ratio.1) (left.ratio.2 * right.ratio.2)

def dividedBy (left right : Binary64) : Binary64 :=
  ofRatio false (left.ratio.1 * right.ratio.2) (left.ratio.2 * right.ratio.1)

def negate (value : Binary64) : Binary64 := ⟨value.bits ||| 0x8000000000000000⟩

end Binary64

end MetadataRegistry
