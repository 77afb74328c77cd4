import MetadataRegistry.Text.Hexadecimal

/-!
JSON documents that keep the spelling of their numbers and strings, so that a text written again
says the same in the same words. Escaping and unescaping of string bodies: what escaping writes,
unescaping reads back.
-/

namespace MetadataRegistry

/-- A document. Strings and labels hold the body between their quotes, escapes and all; numbers
hold their literal. Labels may repeat. -/
inductive Json where
  | null
  | bool (value : Bool)
  | number (literal : List Char)
  | string (body : List Char)
  | array (items : List Json)
  | object (members : List (List Char × Json))

def shortEscape (character : Char) : Option Char :=
  match character with
  | '"' => some '"'
  | '\\' => some '\\'
  | '\n' => some 'n'
  | '\r' => some 'r'
  | '\t' => some 't'
  | '\x08' => some 'b'
  | '\x0c' => some 'f'
  | _ => none

def escapeCharacter (character : Char) : List Char :=
  match shortEscape character with
  | some letter => ['\\', letter]
  | none =>
      if character.toNat < 32 then '\\' :: 'u' :: hexOfNumber 4 character.toNat else [character]

def escapeBody (text : List Char) : List Char := text.flatMap escapeCharacter

def escapedCharacter : Char → Option Char
  | '"' => some '"'
  | '\\' => some '\\'
  | '/' => some '/'
  | 'n' => some '\n'
  | 'r' => some '\r'
  | 't' => some '\t'
  | 'b' => some '\x08'
  | 'f' => some '\x0c'
  | _ => none

def isHighSurrogate (unit : Nat) : Bool := 0xD800 ≤ unit && unit < 0xDC00

def isLowSurrogate (unit : Nat) : Bool := 0xDC00 ≤ unit && unit < 0xE000

/-- The text of a string body. A surrogate escape that stands alone makes it no text. -/
def unescapeBody : List Char → Option (List Char)
  | [] => some []
  | '\\' :: 'u' :: a :: b :: c :: d :: '\\' :: 'u' :: e :: f :: g :: h :: rest => do
    let first ← numberOfHex [a, b, c, d]
    if isHighSurrogate first then do
      let second ← numberOfHex [e, f, g, h]
      if isLowSurrogate second then do
        let tail ← unescapeBody rest
        return Char.ofNat (0x10000 + (first - 0xD800) * 0x400 + (second - 0xDC00)) :: tail
      else none
    else if isLowSurrogate first then none
    else do
      let tail ← unescapeBody ('\\' :: 'u' :: e :: f :: g :: h :: rest)
      return Char.ofNat first :: tail
  | '\\' :: 'u' :: a :: b :: c :: d :: rest => do
    let unit ← numberOfHex [a, b, c, d]
    if isHighSurrogate unit || isLowSurrogate unit then none
    else do
      let tail ← unescapeBody rest
      return Char.ofNat unit :: tail
  | '\\' :: letter :: rest => do
    let character ← escapedCharacter letter
    let tail ← unescapeBody rest
    return character :: tail
  | '\\' :: [] => none
  | character :: rest => do
    let tail ← unescapeBody rest
    return character :: tail

namespace Json

def ofText (text : String) : Json := .string (escapeBody text.toList)

def text? : Json → Option String
  | .string body => (unescapeBody body).map String.ofList
  | _ => none

def bool? : Json → Option Bool
  | .bool value => some value
  | _ => none

def items? : Json → Option (List Json)
  | .array items => some items
  | _ => none

def members? : Json → Option (List (String × Json))
  | .object members =>
      members.mapM fun (label, value) => (unescapeBody label).map fun text => (String.ofList text, value)
  | _ => none

def ofMembers (members : List (String × Json)) : Json :=
  .object (members.map fun (label, value) => (escapeBody label.toList, value))

end Json

end MetadataRegistry
