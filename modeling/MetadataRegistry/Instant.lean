import MetadataRegistry.Calendar

/-!
Instants of UTC with nanoseconds. A leap second is the last second of its minute with a fraction of
one second or more, so instants are ordered by seconds and then by the fraction. The range is that
of the years -262143 to 262142.
-/

namespace MetadataRegistry

def firstYear : Int := -262143

def lastYear : Int := 262142

def firstSecond : Int := -8334601228800

def lastSecond : Int := 8210266876799

def nanosPerSecond : Nat := 1000000000

def nanosPerMilli : Nat := 1000000

structure Period where
  nanos : Int
  deriving DecidableEq, Repr

namespace Period

def seconds (count : Int) : Period := ⟨count * nanosPerSecond⟩

instance : Coe Int Period := ⟨seconds⟩

instance : Neg Period := ⟨fun period => ⟨-period.nanos⟩⟩

/-- The nanoseconds of the longest periods, forward and backward. Their milliseconds fit a signed word. -/
def longest : Nat := 9223372036854775807000000

end Period

/-- Epoch seconds and a fraction. A fraction of a second or more says that the instant lies in the
leap second after the second named. -/
structure Instant where
  seconds : Int
  nanos : Nat
  inRange : firstSecond ≤ seconds ∧ seconds ≤ lastSecond
  fraction : nanos < nanosPerSecond ∨ (nanos < 2 * nanosPerSecond ∧ seconds % 60 = 59)
  deriving DecidableEq

namespace Instant

def of? (seconds : Int) (nanos : Nat) : Option Instant :=
  if valid : (firstSecond ≤ seconds ∧ seconds ≤ lastSecond) ∧
      (nanos < nanosPerSecond ∨ (nanos < 2 * nanosPerSecond ∧ seconds % 60 = 59)) then
    some ⟨seconds, nanos, valid.1, valid.2⟩
  else none

def isLeapSecond (instant : Instant) : Bool := decide (nanosPerSecond ≤ instant.nanos)

def subsecond (instant : Instant) : Nat := instant.nanos % nanosPerSecond

def date (instant : Instant) : Date := .ofDayNumber (instant.seconds / 86400)

def secondOfDay (instant : Instant) : Nat := (instant.seconds % 86400).toNat

def compare (left right : Instant) : Ordering :=
  (Ord.compare left.seconds right.seconds).then (Ord.compare left.nanos right.nanos)

def le (left right : Instant) : Bool := (compare left right).isLE

def truncate (instant : Instant) : Instant where
  seconds := instant.seconds
  nanos := instant.nanos / nanosPerMilli * nanosPerMilli
  inRange := instant.inRange
  fraction := by
    have valid := instant.fraction
    simp only [nanosPerSecond, nanosPerMilli] at valid ⊢
    omega

def epochNanos (instant : Instant) : Int := instant.seconds * nanosPerSecond + instant.nanos

def ofEpochNanos? (nanos : Int) : Option Instant := of? (nanos / nanosPerSecond) (nanos % nanosPerSecond).toNat

/-- The instant a period later, or `none` outside the range. Leaving a leap second forward counts it as the second
before, leaving it backward as the second after. -/
def add? (instant : Instant) (period : Period) : Option Instant :=
  let nanos := instant.nanos + period.nanos
  if instant.isLeapSecond ∧ 2 * nanosPerSecond ≤ nanos then
    ofEpochNanos? (instant.epochNanos + period.nanos - nanosPerSecond)
  else if instant.isLeapSecond ∧ nanosPerSecond ≤ nanos then of? instant.seconds nanos.toNat
  else ofEpochNanos? (instant.epochNanos + period.nanos)

/-- Milliseconds since 1970, rounded toward minus infinity. A leap second counts as the second
after it. -/
def epochMillis (instant : Instant) : Int :=
  instant.seconds * 1000 + (instant.nanos / nanosPerMilli : Nat)

def ofEpochMillis? (millis : Int) : Option Instant :=
  of? (millis / 1000) ((millis % 1000).toNat * nanosPerMilli)

end Instant

end MetadataRegistry
