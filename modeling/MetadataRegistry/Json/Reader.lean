import MetadataRegistry.Json.Number

/-!
The strict reader of documents: four kinds of blank, no comments, no trailing commas, no control
characters in strings and nothing after the document. String bodies and number literals are checked
for their form and kept as they are spelled.
-/

namespace MetadataRegistry

def isJsonBlank (character : Char) : Bool :=
  character == ' ' || character == '\n' || character == '\r' || character == '\t'

def skipJsonBlanks (text : List Char) : List Char := text.dropWhile isJsonBlank

def isShortEscape (letter : Char) : Bool := (escapedCharacter letter).isSome

def readBody : List Char → Option (List Char × List Char)
  | [] => none
  | '"' :: rest => some ([], rest)
  | '\\' :: 'u' :: a :: b :: c :: d :: rest =>
      if [a, b, c, d].all isHexDigit then
        (readBody rest).map fun (body, rest) => ('\\' :: 'u' :: a :: b :: c :: d :: body, rest)
      else none
  | '\\' :: letter :: rest =>
      if isShortEscape letter then (readBody rest).map fun (body, rest) => ('\\' :: letter :: body, rest)
      else none
  | character :: rest =>
      if character.toNat < 32 ∨ character = '\\' then none
      else (readBody rest).map fun (body, rest) => (character :: body, rest)

def isNumberCharacter (character : Char) : Bool :=
  character.isDigit || character == '-' || character == '+' || character == '.' || character == 'e' ||
    character == 'E'

def readNumberLiteral (text : List Char) : Option (Json × List Char) :=
  let literal := text.takeWhile isNumberCharacter
  if isNumberLiteral literal then some (.number literal, text.dropWhile isNumberCharacter) else none

mutual

/-- A document at the front of a text that starts with no blank. The fuel bounds nesting and
length; as many steps as the text has characters are enough. -/
def readDocument : Nat → List Char → Option (Json × List Char)
  | 0, _ => none
  | fuel + 1, text =>
      match text with
      | 'n' :: 'u' :: 'l' :: 'l' :: rest => some (.null, rest)
      | 't' :: 'r' :: 'u' :: 'e' :: rest => some (.bool true, rest)
      | 'f' :: 'a' :: 'l' :: 's' :: 'e' :: rest => some (.bool false, rest)
      | '"' :: rest => (readBody rest).map fun (body, rest) => (.string body, rest)
      | '[' :: rest =>
          match skipJsonBlanks rest with
          | ']' :: rest => some (.array [], rest)
          | inside => do
            let (item, rest) ← readDocument fuel inside
            let (items, rest) ← readItems fuel (skipJsonBlanks rest)
            return (.array (item :: items), rest)
      | '{' :: rest =>
          match skipJsonBlanks rest with
          | '}' :: rest => some (.object [], rest)
          | inside => do
            let (member, rest) ← readMember fuel inside
            let (members, rest) ← readMembers fuel (skipJsonBlanks rest)
            return (.object (member :: members), rest)
      | _ => readNumberLiteral text

def readItems : Nat → List Char → Option (List Json × List Char)
  | 0, _ => none
  | fuel + 1, text =>
      match text with
      | ']' :: rest => some ([], rest)
      | ',' :: rest => do
        let (item, rest) ← readDocument fuel (skipJsonBlanks rest)
        let (items, rest) ← readItems fuel (skipJsonBlanks rest)
        return (item :: items, rest)
      | _ => none

def readMember : Nat → List Char → Option ((List Char × Json) × List Char)
  | 0, _ => none
  | fuel + 1, text =>
      match text with
      | '"' :: rest => do
        let (label, rest) ← readBody rest
        match skipJsonBlanks rest with
        | ':' :: rest => do
          let (value, rest) ← readDocument fuel (skipJsonBlanks rest)
          return ((label, value), rest)
        | _ => none
      | _ => none

def readMembers : Nat → List Char → Option (List (List Char × Json) × List Char)
  | 0, _ => none
  | fuel + 1, text =>
      match text with
      | '}' :: rest => some ([], rest)
      | ',' :: rest => do
        let (member, rest) ← readMember fuel (skipJsonBlanks rest)
        let (members, rest) ← readMembers fuel (skipJsonBlanks rest)
        return (member :: members, rest)
      | _ => none

end

def readJson (text : List Char) : Option Json :=
  match readDocument (text.length + 1) (skipJsonBlanks text) with
  | some (document, rest) => if (skipJsonBlanks rest).isEmpty then some document else none
  | none => none

def Json.parse? (text : String) : Option Json := readJson text.toList

end MetadataRegistry
