import MetadataRegistry.Binary64
import MetadataRegistry.Failure
import MetadataRegistry.Text

/-!
Cells of the store. A cell holds a value of any type; a column only leans toward one and converts
what it can. Cells of all types are ordered: null, numbers by value, text by its code points (which
is the order of its bytes), bytes. Null equals nothing and lies below nothing.
-/

namespace MetadataRegistry

inductive Cell where
  | null
  | integer (value : Int64)
  | real (value : Binary64)
  | text (value : String)
  | bytes (value : List UInt8)
  deriving DecidableEq

inductive Affinity where
  | text
  | integer
  | bytes
  deriving DecidableEq, Repr

/-- A floating-point number in units of the least positive one; infinities lie beyond the rest. -/
def Binary64.inLeastUnits (value : Binary64) : Int :=
  let magnitude := value.significand * twoTo (value.scale + 1074).toNat
  if value.isNegative then -(magnitude : Int) else magnitude

namespace Cell

def rank : Cell → Nat
  | null => 0
  | integer _ => 1
  | real _ => 1
  | text _ => 2
  | bytes _ => 3

def compareNumbers (left : Int64) (right : Binary64) : Ordering :=
  Ord.compare (left.toInt * twoTo 1074) right.inLeastUnits

def compare : Cell → Cell → Ordering
  | integer left, integer right => Ord.compare left.toInt right.toInt
  | integer left, real right => compareNumbers left right
  | real left, integer right => (compareNumbers right left).swap
  | real left, real right => Ord.compare left.inLeastUnits right.inLeastUnits
  | text left, text right => Ord.compare left right
  | bytes left, bytes right => Ord.compare left right
  | left, right => Ord.compare left.rank right.rank

def le (left right : Cell) : Bool := (compare left right).isLE

def isNull : Cell → Bool
  | null => true
  | _ => false

/-- Equality as a condition on rows: it never holds of null. -/
def same (left right : Cell) : Bool := !left.isNull && !right.isNull && compare left right == .eq

def below (left right : Cell) : Bool := !left.isNull && !right.isNull && compare left right == .lt

def greater (left right : Cell) : Cell := if compare left right == .lt then right else left

def ofOption {α : Type} (cell : α → Cell) : Option α → Cell
  | none => null
  | some value => cell value

end Cell

def isNumeralBlank (character : Char) : Bool :=
  character == ' ' || (9 ≤ character.toNat && character.toNat ≤ 13)

structure Numeral where
  negative : Bool
  digits : Nat
  exponent : Int
  whole : Bool

def readNumeralExponent : List Char → Option Int
  | [] => some 0
  | mark :: rest =>
      if mark = 'e' ∨ mark = 'E' then
        match rest with
        | '-' :: digits => (readNatural digits).map fun value => -(value : Int)
        | '+' :: digits => (readNatural digits).map fun value => (value : Int)
        | digits => (readNatural digits).map fun value => (value : Int)
      else none

def readNumeral (text : List Char) : Option Numeral :=
  let body := ((text.dropWhile isNumeralBlank).reverse.dropWhile isNumeralBlank).reverse
  let (negative, body) := match body with
    | '-' :: rest => (true, rest)
    | '+' :: rest => (false, rest)
    | rest => (false, rest)
  let whole := body.takeWhile Char.isDigit
  let (fraction, rest, pointed) := match body.dropWhile Char.isDigit with
    | '.' :: rest => (rest.takeWhile Char.isDigit, rest.dropWhile Char.isDigit, true)
    | rest => ([], rest, false)
  if whole.isEmpty && fraction.isEmpty then none
  else (readNumeralExponent rest).map fun exponent =>
    ⟨negative, ofDecimalDigits (whole ++ fraction), exponent - fraction.length, !pointed && rest.isEmpty⟩

namespace Numeral

def integerValue (numeral : Numeral) : Int :=
  if numeral.negative then -(numeral.digits : Int) else numeral.digits

def realValue (numeral : Numeral) : Binary64 :=
  .ofDecimal numeral.negative numeral.digits numeral.exponent

/-- A numeral that is an integer of sixty-four bits becomes one, any other a floating-point number. -/
def cell (numeral : Numeral) : Cell :=
  if numeral.whole && isInt64 numeral.integerValue then .integer (.ofInt numeral.integerValue)
  else
    let real := numeral.realValue
    let units := real.inLeastUnits
    let value := units / twoTo 1074
    if units % twoTo 1074 = 0 ∧ leastInt64 < value ∧ value < greatestInt64 then .integer (.ofInt value) else .real real

end Numeral

def Affinity.apply : Affinity → Cell → Cell
  | .text, .integer value => .text (String.ofList (integerDigits value.toInt))
  | .integer, .text value => ((readNumeral value.toList).map Numeral.cell).getD (.text value)
  | _, cell => cell

def unreadable {α : Type} (column : String) : Except Failure α :=
  .error (.internal (.unreadableColumn column))

def Cell.readText (column : String) : Cell → Except Failure String
  | .text value => .ok value
  | _ => unreadable column

def Cell.readInteger (column : String) : Cell → Except Failure Int64
  | .integer value => .ok value
  | _ => unreadable column

def Cell.readBytes (column : String) : Cell → Except Failure (List UInt8)
  | .bytes value => .ok value
  | .text value => .ok (bytesOfText value)
  | _ => unreadable column

def Cell.readOptional {α : Type} (read : Cell → Except Failure α) : Cell → Except Failure (Option α)
  | .null => .ok none
  | cell => (read cell).map some

end MetadataRegistry
