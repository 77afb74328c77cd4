/-!
Hexadecimal text of bytes: two lower-case digits a byte when written, digits of either case when
read. Reading gives back what was written.
-/

namespace MetadataRegistry

def hexDigit (value : Nat) : Char := Nat.digitChar value

def hexValue (character : Char) : Option Nat :=
  let code := character.toNat
  if 48 ≤ code ∧ code ≤ 57 then some (code - 48)
  else if 97 ≤ code ∧ code ≤ 102 then some (code - 87)
  else if 65 ≤ code ∧ code ≤ 70 then some (code - 55)
  else none

def isHexDigit (character : Char) : Bool := (hexValue character).isSome

def hexOfByte (byte : UInt8) : List Char := [hexDigit (byte.toNat / 16), hexDigit (byte.toNat % 16)]

def hexOfBytes (bytes : List UInt8) : List Char := bytes.flatMap hexOfByte

def bytesOfHex : List Char → Option (List UInt8)
  | [] => some []
  | [_] => none
  | high :: low :: rest => do
    let highValue ← hexValue high
    let lowValue ← hexValue low
    let bytes ← bytesOfHex rest
    return UInt8.ofNat (16 * highValue + lowValue) :: bytes

def numberOfHex (digits : List Char) : Option Nat :=
  digits.foldlM (fun total digit => (hexValue digit).map (16 * total + ·)) 0

def hexOfNumber (width value : Nat) : List Char :=
  let digits := Nat.toDigits 16 value
  List.replicate (width - digits.length) '0' ++ digits

theorem hexValue_hexDigit : ∀ value, value < 16 → hexValue (hexDigit value) = some value := by
  decide

theorem bytesOfHex_hexOfBytes (bytes : List UInt8) : bytesOfHex (hexOfBytes bytes) = some bytes := by
  induction bytes with
  | nil => rfl
  | cons byte rest ih =>
      have bound := byte.toNat_lt
      have joined : 16 * (byte.toNat / 16) + byte.toNat % 16 = byte.toNat := by omega
      simp only [hexOfBytes, List.flatMap_cons] at ih ⊢
      simp only [hexOfByte, List.cons_append, List.nil_append, bytesOfHex,
        hexValue_hexDigit (byte.toNat / 16) (by omega), hexValue_hexDigit (byte.toNat % 16) (by omega),
        Option.bind_eq_bind, Option.bind_some, ih, joined, UInt8.ofNat_toNat, Option.pure_def]

end MetadataRegistry
