import MetadataRegistry.Binary64.Shortest
import MetadataRegistry.Json.Basic

/-!
Number literals of JSON and their values. An integer that fits a signed or unsigned word of
sixty-four bits is exact; every other literal is a floating-point number, read by scaling a
significand of at most sixty-four bits with a power of ten, each step rounded.
-/

namespace MetadataRegistry

structure NumberLiteral where
  negative : Bool
  whole : List Char
  fraction : Option (List Char)
  exponent : Option Int

def readExponentPart : List Char → Option Int
  | '+' :: digits => (readNatural digits).map fun value => (value : Int)
  | '-' :: digits => (readNatural digits).map fun value => -(value : Int)
  | digits => (readNatural digits).map fun value => (value : Int)

def readExponent : List Char → Option (Option Int)
  | [] => some none
  | mark :: rest => if mark = 'e' ∨ mark = 'E' then (readExponentPart rest).map some else none

def NumberLiteral.readUnsigned (negative : Bool) (text : List Char) : Option NumberLiteral :=
  let whole := text.takeWhile Char.isDigit
  if !isWholePart whole then none
  else match text.dropWhile Char.isDigit with
    | '.' :: rest =>
        let fraction := rest.takeWhile Char.isDigit
        if fraction.isEmpty then none
        else do
          let exponent ← readExponent (rest.dropWhile Char.isDigit)
          return ⟨negative, whole, some fraction, exponent⟩
    | rest => do
        let exponent ← readExponent rest
        return ⟨negative, whole, none, exponent⟩

def NumberLiteral.read : List Char → Option NumberLiteral
  | '-' :: rest => readUnsigned true rest
  | text => readUnsigned false text

def isNumberLiteral (literal : List Char) : Bool := (NumberLiteral.read literal).isSome

inductive JsonNumber where
  | integer (value : Int)
  | real (value : Binary64)
  deriving DecidableEq

/-- Takes digits into a significand while it fits a word; the digits left over come back. -/
def takeDigits : Nat → List Char → Nat × List Char
  | significand, [] => (significand, [])
  | significand, digit :: rest =>
      let next := significand * 10 + (digit.toNat - 48)
      if next ≤ greatestUInt64 then takeDigits next rest else (significand, digit :: rest)

/-- Divides by a power of ten in steps of at most 10 ^ 308, each rounded; zero stays zero. -/
def divideByPower (value : Binary64) (exponent : Nat) : Binary64 :=
  if exponent ≤ 308 then value.dividedBy (.powerOfTen exponent)
  else if value.isZero then value
  else divideByPower (value.dividedBy (.powerOfTen 308)) (exponent - 308)
termination_by exponent

def scaleByPower (significand : Nat) (exponent : Int) : Option Binary64 :=
  let value := Binary64.ofNat significand
  if exponent < 0 then some (divideByPower value exponent.natAbs)
  else if value.isZero then some value
  else if exponent ≤ 308 then
    let scaled := value.times (.powerOfTen exponent.toNat)
    if scaled.isFinite then some scaled else none
  else none

namespace NumberLiteral

def realValue (literal : NumberLiteral) : Option Binary64 :=
  let (significand, wholeLeft) := takeDigits 0 literal.whole
  let fraction := literal.fraction.getD []
  let (significand, fractionLeft) := takeDigits significand fraction
  let exponent := literal.exponent.getD 0 + (wholeLeft.length : Int) - (fraction.length - fractionLeft.length : Nat)
  (scaleByPower significand exponent).map fun value => if literal.negative then value.negate else value

/-- Digits alone are an integer if it fits a word and is not minus zero. -/
def integerValue (literal : NumberLiteral) : Option Int :=
  let magnitude := ofDecimalDigits literal.whole
  if literal.fraction.isSome || literal.exponent.isSome then none
  else if literal.negative then
    if 0 < magnitude ∧ isInt64 (-(magnitude : Int)) then some (-(magnitude : Int)) else none
  else if magnitude ≤ greatestUInt64 then some magnitude
  else none

def value (literal : NumberLiteral) : Option JsonNumber :=
  match literal.integerValue with
  | some value => some (.integer value)
  | none => literal.realValue.map .real

end NumberLiteral

namespace Json

def number? : Json → Option JsonNumber
  | .number literal => (NumberLiteral.read literal).bind (·.value)
  | _ => none

def integer? (document : Json) : Option Int :=
  match document.number? with
  | some (.integer value) => some value
  | _ => none

def integerWithin? (least greatest : Int) (document : Json) : Option Int :=
  match document.integer? with
  | some value => if least ≤ value ∧ value ≤ greatest then some value else none
  | none => none

def int64? (document : Json) : Option Int64 :=
  (document.integerWithin? leastInt64 greatestInt64).map Int64.ofInt

def uint32? (document : Json) : Option UInt32 :=
  (document.integerWithin? 0 greatestUInt32).map fun value => UInt32.ofNat value.toNat

def ofInteger (value : Int) : Json := .number (integerDigits value)

def ofUInt32 (value : UInt32) : Json := ofInteger value.toNat

def ofInt64 (value : Int64) : Json := ofInteger value.toInt

/-- A number that is not finite has no literal and is written as null. -/
def ofReal (value : Binary64) : Json := if value.isFinite then .number value.render else .null

end Json

end MetadataRegistry
