import MetadataRegistry.Instant
import MetadataRegistry.Text

/-!
Written instants, in UTC and closed by `Z`. Years outside 0 to 9999 carry a sign and at least four
digits, and a leap second is written as second 60. The stored form has exactly three fraction
digits; the exchanged form has the fewest of 0, 3, 6 or 9 that lose nothing.
-/

namespace MetadataRegistry

def yearText (year : Int) : List Char :=
  if 0 ≤ year ∧ year ≤ 9999 then paddedDigits 4 year.toNat
  else (if year < 0 then '-' else '+') :: paddedDigits 4 year.natAbs

def dateText (date : Date) : List Char :=
  yearText date.year ++ '-' :: paddedDigits 2 date.month ++ '-' :: paddedDigits 2 date.day

def clockText (secondOfDay : Nat) (leap : Bool) : List Char :=
  paddedDigits 2 (secondOfDay / 3600) ++ ':' :: paddedDigits 2 (secondOfDay / 60 % 60) ++
    ':' :: paddedDigits 2 (secondOfDay % 60 + if leap then 1 else 0)

/-- The shortest of 0, 3, 6 or 9 digits that hold the nanoseconds. -/
def exactFraction (nanos : Nat) : List Char :=
  if nanos = 0 then []
  else if nanos % 1000000 = 0 then '.' :: paddedDigits 3 (nanos / 1000000)
  else if nanos % 1000 = 0 then '.' :: paddedDigits 6 (nanos / 1000)
  else '.' :: paddedDigits 9 nanos

def milliFraction (nanos : Nat) : List Char := '.' :: paddedDigits 3 (nanos / nanosPerMilli)

def Instant.render (fraction : Nat → List Char) (instant : Instant) : List Char :=
  dateText instant.date ++ 'T' :: clockText instant.secondOfDay instant.isLeapSecond ++
    fraction instant.subsecond ++ ['Z']

def Instant.text (instant : Instant) : String := String.ofList (instant.render exactFraction)

def Instant.storedText (instant : Instant) : String := String.ofList (instant.render milliFraction)

end MetadataRegistry
