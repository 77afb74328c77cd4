/-!
Text: its bytes in UTF-8, the blank characters around it, and the decimal digits in it. Bytes that are no well-formed
UTF-8 have no text. Blank is what has the Unicode property White_Space. Numbers are written without leading zeros or
padded to a width, and read back from a run of digits.
-/

namespace MetadataRegistry

def textOfBytes (bytes : List UInt8) : Option String := String.fromUTF8? ⟨bytes.toArray⟩

def bytesOfText (text : String) : List UInt8 := text.toUTF8.data.toList

def utf8Length (characters : List Char) : Nat :=
  characters.foldl (fun total character => total + character.utf8Size) 0

/-- The code points of the property White_Space: twenty-five characters in eleven ranges. -/
def blankRanges : List (Nat × Nat) :=
  [(0x9, 0xD), (0x20, 0x20), (0x85, 0x85), (0xA0, 0xA0), (0x1680, 0x1680), (0x2000, 0x200A),
    (0x2028, 0x2028), (0x2029, 0x2029), (0x202F, 0x202F), (0x205F, 0x205F), (0x3000, 0x3000)]

def isBlank (character : Char) : Bool :=
  blankRanges.any fun range => decide (range.1 ≤ character.toNat) && decide (character.toNat ≤ range.2)

def trimStart (characters : List Char) : List Char := characters.dropWhile isBlank

def trimEnd (characters : List Char) : List Char := (characters.reverse.dropWhile isBlank).reverse

def trimCharacters (characters : List Char) : List Char := trimEnd (trimStart characters)

def trimText (text : String) : String := String.ofList (trimCharacters text.toList)

theorem trimStart_eq_self_of_head (first : Char) (rest : List Char) (visible : isBlank first = false) :
    trimStart (first :: rest) = first :: rest := by
  simp [trimStart, visible]

theorem trimText_toList (text : String) : (trimText text).toList = trimCharacters text.toList := by
  simp [trimText]

def tenTo (exponent : Nat) : Nat := Nat.pow 10 exponent

def decimalDigits (value : Nat) : List Char := Nat.toDigits 10 value

def ofDecimalDigits (digits : List Char) : Nat := Nat.ofDigitChars 10 digits 0

def paddedDigits (width value : Nat) : List Char :=
  List.replicate (width - (decimalDigits value).length) '0' ++ decimalDigits value

def integerDigits (value : Int) : List Char :=
  if value < 0 then '-' :: decimalDigits value.natAbs else decimalDigits value.natAbs

def digitRun (least most : Nat) (text : List Char) : Option (List Char × List Char) :=
  let run := (text.take most).takeWhile Char.isDigit
  if run.length < least then none else some (run, text.drop run.length)

def readNatural (digits : List Char) : Option Nat :=
  if !digits.isEmpty && digits.all Char.isDigit then some (ofDecimalDigits digits) else none

def isWholePart (digits : List Char) : Bool :=
  match digits with
  | [] => false
  | ['0'] => true
  | first :: _ => first != '0'

theorem ofDecimalDigits_decimalDigits (value : Nat) : ofDecimalDigits (decimalDigits value) = value :=
  Nat.ofDigitChars_toDigits (by decide) (by decide)

theorem isDigit_of_mem_decimalDigits (value : Nat) :
    ∀ digit ∈ decimalDigits value, digit.isDigit = true :=
  fun _ member => Nat.isDigit_of_mem_toDigits (by decide) (by decide) member

end MetadataRegistry
