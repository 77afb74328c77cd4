import MetadataRegistry.Binary64
import MetadataRegistry.Instant.Reader
import MetadataRegistry.Text.Hexadecimal

/-!
Values of TOML, and those of them that are written without quotes and brackets: numbers, truth values, dates and times.
Digits may be grouped by single underscores. A table has each key once; its order has no meaning.
-/

namespace MetadataRegistry

inductive Toml where
  | string (value : String)
  | integer (value : Int64)
  | real (value : Binary64)
  | bool (value : Bool)
  | moment (literal : String)
  | array (items : List Toml)
  | table (entries : List (String × Toml))

namespace Toml

def text? : Toml → Option String
  | .string value => some value
  | _ => none

def integer? : Toml → Option Int
  | .integer value => some value.toInt
  | _ => none

def ungrouped (isDigit : Char → Bool) : List Char → Option (List Char)
  | [] => none
  | digit :: rest =>
      if isDigit digit then
        match rest with
        | [] => some [digit]
        | '_' :: rest => (ungrouped isDigit rest).map (digit :: ·)
        | next :: rest => (ungrouped isDigit (next :: rest)).map (digit :: ·)
      else none

def ofInt? (value : Int) : Option Toml :=
  if isInt64 value then some (.integer (.ofInt value)) else none

def digitBelow (radix : Nat) (character : Char) : Bool :=
  (hexValue character).any fun value => decide (value < radix)

def ofRadix (radix : Nat) (digits : List Char) : Option Toml := do
  let digits ← ungrouped (digitBelow radix) digits
  let values ← digits.mapM hexValue
  ofInt? (values.foldl (fun total value => radix * total + value) 0 : Nat)

def splitSign : List Char → Bool × List Char
  | '-' :: rest => (true, rest)
  | '+' :: rest => (false, rest)
  | rest => (false, rest)

def isGroupedDigit (character : Char) : Bool := character.isDigit || character == '_'

def readWhole (digits : List Char) : Option (List Char) := (ungrouped Char.isDigit digits).filter isWholePart

def readPower : List Char → Option Int
  | [] => some 0
  | mark :: rest => do
      let (negative, digits) := splitSign rest
      let digits ← ungrouped Char.isDigit digits
      let power : Int := ofDecimalDigits digits
      if mark = 'e' ∨ mark = 'E' then some (if negative then -power else power) else none

/-- A number with a fraction or an exponent. One above the largest finite number is refused. -/
def readReal (literal : List Char) : Option Toml := do
  let (negative, rest) := splitSign literal
  let whole ← readWhole (rest.takeWhile isGroupedDigit)
  let rest := rest.dropWhile isGroupedDigit
  let (fraction, rest) ← match rest with
    | '.' :: rest => (ungrouped Char.isDigit (rest.takeWhile isGroupedDigit)).map fun fraction =>
        (fraction, rest.dropWhile isGroupedDigit)
    | rest => some ([], rest)
  let power ← readPower rest
  let value := Binary64.ofDecimal negative (ofDecimalDigits (whole ++ fraction)) (power - fraction.length)
  if value.bits.toNat = Binary64.infinityBits then none else some (.real value)

def readSpecial (literal : List Char) : Option Toml :=
  let (negative, rest) := splitSign literal
  let sign := if negative then Binary64.signBit else 0
  match rest with
  | ['i', 'n', 'f'] => some (.real ⟨UInt64.ofNat (sign + Binary64.infinityBits)⟩)
  | ['n', 'a', 'n'] => some (.real ⟨UInt64.ofNat (sign + Binary64.infinityBits + twoTo 51)⟩)
  | _ => none

def readInteger (literal : List Char) : Option Toml := do
  let (negative, digits) := splitSign literal
  let digits ← readWhole digits
  let magnitude : Int := ofDecimalDigits digits
  ofInt? (if negative then -magnitude else magnitude)

def skipDate (text : List Char) : Option (List Char) := do
  let (year, rest) ← readNumber 4 4 text
  let rest ← skipChar '-' rest
  let (month, rest) ← readNumber 2 2 rest
  let rest ← skipChar '-' rest
  let (day, rest) ← readNumber 2 2 rest
  if Date.IsValid ⟨year, month, day⟩ then some rest else none

def skipTime (text : List Char) : Option (List Char) := do
  let (hour, rest) ← readNumber 2 2 text
  let rest ← skipChar ':' rest
  let (minute, rest) ← readNumber 2 2 rest
  let rest ← skipChar ':' rest
  let (second, rest) ← readNumber 2 2 rest
  let (_, rest) ← readFraction rest
  if hour ≤ 23 ∧ minute ≤ 59 ∧ second ≤ 60 then some rest else none

def isZone : List Char → Bool
  | ['Z'] => true
  | ['z'] => true
  | [sign, hour1, hour2, ':', minute1, minute2] =>
      (sign == '+' || sign == '-') && [hour1, hour2, minute1, minute2].all Char.isDigit &&
        decide (ofDecimalDigits [hour1, hour2] ≤ 23) && decide (ofDecimalDigits [minute1, minute2] ≤ 59)
  | _ => false

def isMoment (literal : List Char) : Bool :=
  match skipDate literal with
  | some [] => true
  | some (separator :: rest) =>
      isDateTimeSeparator separator && (skipTime rest).any fun rest => rest.isEmpty || isZone rest
  | none => (skipTime literal).any List.isEmpty

def ofLiteral (literal : List Char) : Option Toml :=
  match literal with
  | ['t', 'r', 'u', 'e'] => some (.bool true)
  | ['f', 'a', 'l', 's', 'e'] => some (.bool false)
  | '0' :: 'x' :: digits => ofRadix 16 digits
  | '0' :: 'o' :: digits => ofRadix 8 digits
  | '0' :: 'b' :: digits => ofRadix 2 digits
  | _ =>
      if isMoment literal then some (.moment (String.ofList literal))
      else (readInteger literal).or ((readReal literal).or (readSpecial literal))

def isLiteralCharacter (character : Char) : Bool :=
  character.isAlphanum || character == '_' || character == '+' || character == '-' || character == '.' ||
    character == ':'

/-- A literal at the front of a text. A blank after a date may join it to a time. -/
def takeLiteral (text : List Char) : List Char × List Char :=
  let literal := text.takeWhile isLiteralCharacter
  let rest := text.dropWhile isLiteralCharacter
  match skipDate literal, rest with
  | some [], ' ' :: next :: rest =>
      if next.isDigit then
        (literal ++ ' ' :: next :: rest.takeWhile isLiteralCharacter, rest.dropWhile isLiteralCharacter)
      else (literal, ' ' :: next :: rest)
  | _, _ => (literal, rest)

end Toml

end MetadataRegistry
