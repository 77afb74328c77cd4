/-!
The proleptic Gregorian calendar: days are counted from 1970-01-01, and every count is one date.
Year 0 is a leap year and years before it are negative.
-/

namespace MetadataRegistry

structure Date where
  year : Int
  month : Nat
  day : Nat
  deriving DecidableEq, Repr

def isLeapYear (year : Int) : Bool :=
  year % 4 == 0 && (year % 100 != 0 || year % 400 == 0)

def monthLengths (year : Int) : List Nat :=
  [31, if isLeapYear year then 29 else 28, 31, 30, 31, 30, 31, 31, 30, 31, 30, 31]

def daysInMonth (year : Int) (month : Nat) : Nat :=
  ((monthLengths year)[month - 1]?).getD 0

def daysBeforeYear (year : Int) : Int :=
  365 * year + (year + 3) / 4 - (year + 99) / 100 + (year + 399) / 400

def epochDay : Int := 719528

/-- The year that holds the given day, counted from 0000-01-01: four hundred years have 146097
days, so the estimate is off by one year at most. -/
def yearOfDay (day : Int) : Int :=
  let estimate := day * 400 / 146097
  if day < daysBeforeYear estimate then estimate - 1
  else if daysBeforeYear (estimate + 1) ≤ day then estimate + 1
  else estimate

/-- The month, counted on from `month`, and the day within it, both found by passing whole months. -/
def monthOfDay : List Nat → Nat → Nat → Nat × Nat
  | [], month, day => (month, day)
  | length :: rest, month, day =>
      if day < length then (month, day) else monthOfDay rest (month + 1) (day - length)

namespace Date

def IsValid (date : Date) : Prop :=
  1 ≤ date.month ∧ date.month ≤ 12 ∧ 1 ≤ date.day ∧ date.day ≤ daysInMonth date.year date.month

instance (date : Date) : Decidable date.IsValid :=
  inferInstanceAs (Decidable (_ ∧ _ ∧ _ ∧ _))

def daysBeforeMonth (date : Date) : Nat := ((monthLengths date.year).take (date.month - 1)).foldl (· + ·) 0

def dayNumber (date : Date) : Int :=
  daysBeforeYear date.year + date.daysBeforeMonth + date.day - 1 - epochDay

def ofDayNumber (number : Int) : Date :=
  let day := number + epochDay
  let year := yearOfDay day
  let (month, offset) := monthOfDay (monthLengths year) 1 (day - daysBeforeYear year).toNat
  ⟨year, month, offset + 1⟩

end Date

end MetadataRegistry
