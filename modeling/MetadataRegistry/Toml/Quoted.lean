import MetadataRegistry.Text.Hexadecimal

/-!
Strings of TOML. Those in double quotes have escapes, those in single quotes have none; in three
quotes of either kind they span lines. A line break counts as one line feed however it is spelled.
-/

namespace MetadataRegistry

namespace Toml

def isGap (character : Char) : Bool := character == ' ' || character == '\t'

def isPlain (character : Char) : Bool :=
  character == '\t' || (32 ≤ character.toNat && character.toNat != 127)

def skipBreak : List Char → Option (List Char)
  | '\n' :: rest => some rest
  | '\r' :: '\n' :: rest => some rest
  | _ => none

def readScalar (count : Nat) (text : List Char) : Option (Char × List Char) := do
  let digits := text.take count
  let value ← numberOfHex digits
  if digits.length = count ∧ value.isValidChar then some (Char.ofNat value, text.drop count) else none

def readEscape : List Char → Option (Char × List Char)
  | 'b' :: rest => some ('\x08', rest)
  | 't' :: rest => some ('\t', rest)
  | 'n' :: rest => some ('\n', rest)
  | 'f' :: rest => some ('\x0c', rest)
  | 'r' :: rest => some ('\r', rest)
  | '"' :: rest => some ('"', rest)
  | '\\' :: rest => some ('\\', rest)
  | 'u' :: rest => readScalar 4 rest
  | 'U' :: rest => readScalar 8 rest
  | _ => none

def readEscaped : Nat → List Char → Option (List Char × List Char)
  | 0, _ => none
  | fuel + 1, text =>
      match text with
      | [] => none
      | '"' :: rest => some ([], rest)
      | '\\' :: rest => do
        let (character, rest) ← readEscape rest
        let (tail, rest) ← readEscaped fuel rest
        return (character :: tail, rest)
      | character :: rest =>
          if isPlain character then (readEscaped fuel rest).map fun (tail, rest) => (character :: tail, rest)
          else none

def readLiteral : List Char → Option (List Char × List Char)
  | [] => none
  | '\'' :: rest => some ([], rest)
  | character :: rest =>
      if isPlain character then (readLiteral rest).map fun (tail, rest) => (character :: tail, rest) else none

/-- The closing of a string in three quotes: up to two more quotes before it belong to the string. -/
def readClosing (quote : Char) (text : List Char) : Option (List Char × List Char) :=
  let run := (text.take 5).takeWhile (· == quote)
  if 3 ≤ run.length then some (run.drop 3, text.drop run.length) else none

def skipLines (text : List Char) : List Char :=
  text.dropWhile fun character => isGap character || character == '\n' || character == '\r'

def skipContinuation (text : List Char) : Option (List Char) :=
  (skipBreak (text.dropWhile isGap)).map skipLines

def readLines (quote : Char) : Nat → List Char → Option (List Char × List Char)
  | 0, _ => none
  | fuel + 1, text =>
      match readClosing quote text, skipBreak text, text with
      | some closed, _, _ => some closed
      | none, some rest, _ => (readLines quote fuel rest).map fun (tail, rest) => ('\n' :: tail, rest)
      | none, none, [] => none
      | none, none, character :: rest =>
          if character = '\\' ∧ quote = '"' then
            match skipContinuation rest with
            | some rest => readLines quote fuel rest
            | none => do
              let (character, rest) ← readEscape rest
              let (tail, rest) ← readLines quote fuel rest
              return (character :: tail, rest)
          else if isPlain character then
            (readLines quote fuel rest).map fun (tail, rest) => (character :: tail, rest)
          else none

def readQuoted (text : List Char) : Option (String × List Char) :=
  let read := match text with
    | '"' :: rest => readEscaped (rest.length + 1) rest
    | '\'' :: rest => readLiteral rest
    | _ => none
  read.map fun (characters, rest) => (String.ofList characters, rest)

def readString (text : List Char) : Option (String × List Char) :=
  let spanning (quote : Char) (rest : List Char) : Option (String × List Char) :=
    (readLines quote (rest.length + 1) ((skipBreak rest).getD rest)).map fun (characters, rest) =>
      (String.ofList characters, rest)
  match text with
  | '"' :: '"' :: '"' :: rest => spanning '"' rest
  | '\'' :: '\'' :: '\'' :: rest => spanning '\'' rest
  | _ => readQuoted text

end Toml

end MetadataRegistry
