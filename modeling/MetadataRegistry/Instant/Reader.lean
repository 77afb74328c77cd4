import MetadataRegistry.Instant
import MetadataRegistry.Text

/-!
Readers of written instants. The strict reader takes the fixed-width form with a four-digit year
that the store keeps. The lenient one takes signed years, blanks between the parts and a zone
without its colon. Both demand a zone and convert to UTC; second 60 is a leap second.
-/

namespace MetadataRegistry

structure Reading where
  date : Date
  hour : Nat
  minute : Nat
  second : Nat
  nanos : Nat
  offset : Int

namespace Reading

def IsValid (reading : Reading) : Prop :=
  reading.date.IsValid ∧ firstYear ≤ reading.date.year ∧ reading.date.year ≤ lastYear ∧
    reading.hour ≤ 23 ∧ reading.minute ≤ 59 ∧ reading.second ≤ 60

instance (reading : Reading) : Decidable reading.IsValid :=
  inferInstanceAs (Decidable (_ ∧ _ ∧ _ ∧ _ ∧ _ ∧ _))

def instant? (reading : Reading) : Option Instant :=
  if reading.IsValid then
    let (second, leap) := if reading.second = 60 then (59, nanosPerSecond) else (reading.second, 0)
    let localSecond := reading.date.dayNumber * 86400 + (reading.hour * 3600 + reading.minute * 60 + second : Nat)
    Instant.of? (localSecond - reading.offset) (reading.nanos + leap)
  else none

end Reading

def skipChar (expected : Char) : List Char → Option (List Char)
  | found :: rest => if found = expected then some rest else none
  | [] => none

def readNumber (least most : Nat) (text : List Char) : Option (Nat × List Char) :=
  (digitRun least most text).map fun (digits, rest) => (ofDecimalDigits digits, rest)

/-- A fraction after its point: nine digits count and further ones are dropped. -/
def readFraction : List Char → Option (Nat × List Char)
  | '.' :: rest => do
    let (digits, rest) ← digitRun 1 9 rest
    return (ofDecimalDigits digits * tenTo (9 - digits.length), rest.dropWhile Char.isDigit)
  | rest => some (0, rest)

def isMinusSign (character : Char) : Bool := character == '-' || character == '\u2212'

/-- A zone as seconds east of UTC: `Z`, or a sign, hours, a separator and minutes below 60. The
whole must be less than a day. -/
def readZone (separator : List Char → Option (List Char)) : List Char → Option (Int × List Char)
  | [] => none
  | sign :: rest =>
      if sign = 'Z' ∨ sign = 'z' then some (0, rest)
      else if sign = '+' ∨ isMinusSign sign then do
        let (hours, rest) ← readNumber 2 2 rest
        let rest ← separator rest
        let (minutes, rest) ← readNumber 2 2 rest
        if minutes ≤ 59 ∧ hours ≤ 23 then
          let seconds : Int := (hours * 3600 + minutes * 60 : Nat)
          some (if sign = '+' then seconds else -seconds, rest)
        else none
      else none

def isDateTimeSeparator (character : Char) : Bool :=
  character == 'T' || character == 't' || character == ' '

def skipDateTimeSeparator : List Char → Option (List Char)
  | found :: rest => if isDateTimeSeparator found then some rest else none
  | [] => none

def readStored (text : List Char) : Option Instant := do
  let (year, rest) ← readNumber 4 4 text
  let rest ← skipChar '-' rest
  let (month, rest) ← readNumber 2 2 rest
  let rest ← skipChar '-' rest
  let (day, rest) ← readNumber 2 2 rest
  let rest ← skipDateTimeSeparator rest
  let (hour, rest) ← readNumber 2 2 rest
  let rest ← skipChar ':' rest
  let (minute, rest) ← readNumber 2 2 rest
  let rest ← skipChar ':' rest
  let (second, rest) ← readNumber 2 2 rest
  let (nanos, rest) ← readFraction rest
  let (offset, rest) ← readZone (skipChar ':') rest
  if rest.isEmpty then Reading.instant? ⟨⟨year, month, day⟩, hour, minute, second, nanos, offset⟩ else none

def readYear (text : List Char) : Option (Int × List Char) :=
  match trimStart text with
  | '-' :: rest => (readNumber 1 rest.length rest).map fun (year, rest) => (-(year : Int), rest)
  | '+' :: rest => (readNumber 1 rest.length rest).map fun (year, rest) => ((year : Int), rest)
  | rest => (readNumber 1 4 rest).map fun (year, rest) => ((year : Int), rest)

def readPart (text : List Char) : Option (Nat × List Char) := readNumber 1 2 (trimStart text)

def skipMark (expected : Char) (text : List Char) : Option (List Char) := skipChar expected (trimStart text)

def isZoneSeparator (character : Char) : Bool := character == ':' || isBlank character

/-- `UTC` in letters of either case stands for the zone too. -/
def readZoneName (text : List Char) : Option (Int × List Char) :=
  if (text.take 3).map Char.toLower = ['u', 't', 'c'] then some (0, text.drop 3)
  else readZone (fun rest => some (rest.dropWhile isZoneSeparator)) text

def readExchanged (text : List Char) : Option Instant := do
  let (year, rest) ← readYear text
  let rest ← skipMark '-' rest
  let (month, rest) ← readPart rest
  let rest ← skipMark '-' rest
  let (day, rest) ← readPart rest
  let rest ← skipDateTimeSeparator rest
  let (hour, rest) ← readPart rest
  let rest ← skipMark ':' rest
  let (minute, rest) ← readPart rest
  let rest ← skipMark ':' rest
  let (second, rest) ← readPart rest
  let (nanos, rest) ← readFraction rest
  let (offset, rest) ← readZoneName (trimStart rest)
  if (trimStart rest).isEmpty then
    Reading.instant? ⟨⟨year, month, day⟩, hour, minute, second, nanos, offset⟩
  else none

def Instant.parse? (text : String) : Option Instant := readExchanged text.toList

def Instant.parseStored? (text : String) : Option Instant := readStored text.toList

end MetadataRegistry
