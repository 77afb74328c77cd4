import MetadataRegistry.Toml.Quoted
import MetadataRegistry.Toml.Table

/-!
The reader of TOML files: comments, keys, values and headers, one statement a line. Arrays may span
lines and end in a comma; inline tables may not.
-/

namespace MetadataRegistry

namespace Toml

/-- Keys have fewer parts and values are nested less deeply than this. -/
def nestingLimit : Nat := 80

def skipGaps (text : List Char) : List Char := text.dropWhile isGap

def skipComment (text : List Char) : List Char := text.dropWhile isPlain

def skipLineEnd (text : List Char) : Option (List Char) :=
  let rest := match skipGaps text with
    | '#' :: rest => skipComment rest
    | rest => rest
  if rest.isEmpty then some [] else skipBreak rest

def skipFiller : Nat → List Char → List Char
  | 0, text => text
  | fuel + 1, text =>
      match text with
      | '#' :: rest => skipFiller fuel (skipComment rest)
      | ' ' :: rest => skipFiller fuel rest
      | '\t' :: rest => skipFiller fuel rest
      | _ =>
          match skipBreak text with
          | some rest => skipFiller fuel rest
          | none => text

def isBareKeyCharacter (character : Char) : Bool :=
  character.isAlphanum || character == '-' || character == '_'

def readKeyPart (text : List Char) : Option (String × List Char) :=
  let text := skipGaps text
  let read := match text with
    | '"' :: _ => readQuoted text
    | '\'' :: _ => readQuoted text
    | _ =>
        let key := text.takeWhile isBareKeyCharacter
        if key.isEmpty then none else some (String.ofList key, text.dropWhile isBareKeyCharacter)
  read.map fun (key, rest) => (key, skipGaps rest)

def readKeyParts : Nat → List Char → Option (List String × List Char)
  | 0, _ => none
  | fuel + 1, text => do
      let (part, rest) ← readKeyPart text
      match rest with
      | '.' :: rest =>
          let (parts, rest) ← readKeyParts fuel rest
          return (part :: parts, rest)
      | rest => return ([part], rest)

def readKey (text : List Char) : Option ((List String × String) × List Char) := do
  let (parts, rest) ← readKeyParts (nestingLimit - 1) text
  let last ← parts.getLast?
  return ((parts.dropLast, last), rest)

mutual

def readValue : Nat → Nat → List Char → Option (Toml × List Char)
  | 0, _, _ => none
  | fuel + 1, depth, text =>
      match text with
      | '"' :: _ => (readString text).map fun (value, rest) => (.string value, rest)
      | '\'' :: _ => (readString text).map fun (value, rest) => (.string value, rest)
      | '[' :: rest =>
          if depth = 0 then none
          else (readItems fuel (depth - 1) rest).map fun (items, rest) => (.array items, rest)
      | '{' :: rest =>
          if depth = 0 then none
          else match skipGaps rest with
            | '}' :: rest => some (.table [], rest)
            | inside => (readMembers fuel (depth - 1) inside []).map fun (entries, rest) => (ofEntries entries, rest)
      | _ => do
          let (literal, rest) := takeLiteral text
          let value ← ofLiteral literal
          return (value, rest)

def readItems : Nat → Nat → List Char → Option (List Toml × List Char)
  | 0, _, _ => none
  | fuel + 1, depth, text =>
      match skipFiller text.length text with
      | ']' :: rest => some ([], rest)
      | inside => do
          let (item, rest) ← readValue fuel depth inside
          match skipFiller rest.length rest with
          | ',' :: rest =>
              let (items, rest) ← readItems fuel depth rest
              return (item :: items, rest)
          | ']' :: rest => return ([item], rest)
          | _ => none

def readMembers : Nat → Nat → List Char → Entries → Option (Entries × List Char)
  | 0, _, _, _ => none
  | fuel + 1, depth, text, entries => do
      let ((path, key), rest) ← readKey text
      match rest with
      | '=' :: rest =>
          let (value, rest) ← readValue fuel depth (skipGaps rest)
          let entries ← assign path key value entries
          match skipGaps rest with
          | ',' :: rest => readMembers fuel depth rest entries
          | '}' :: rest => return (entries, rest)
          | _ => none
      | _ => none

end

def readAssignment (text : List Char) : Option (Statement × List Char) := do
  let ((path, key), rest) ← readKey text
  match rest with
  | '=' :: rest =>
      let (value, rest) ← readValue (rest.length + 1) (nestingLimit - 1) (skipGaps rest)
      return (.assignment path key value, rest)
  | _ => none

def readHeader (text : List Char) : Option (Statement × List Char) :=
  match text with
  | '[' :: '[' :: rest => do
      let ((path, key), rest) ← readKey rest
      match rest with
      | ']' :: ']' :: rest => return (.arrayHeader path key, rest)
      | _ => none
  | '[' :: rest => do
      let ((path, key), rest) ← readKey rest
      match rest with
      | ']' :: rest => return (.tableHeader path key, rest)
      | _ => none
  | _ => none

def readStatement (text : List Char) : Option (Statement × List Char) :=
  match text with
  | '[' :: _ => readHeader text
  | _ => readAssignment text

def readStatements : Nat → List Char → Option (List Statement)
  | 0, _ => none
  | fuel + 1, text =>
      match skipGaps text with
      | [] => some []
      | '#' :: rest => (skipLineEnd ('#' :: rest)).bind (readStatements fuel)
      | visible =>
          match skipBreak visible with
          | some rest => readStatements fuel rest
          | none => do
              let (statement, rest) ← readStatement visible
              let rest ← skipLineEnd rest
              let statements ← readStatements fuel rest
              return statement :: statements

def parse? (text : String) : Option Toml :=
  let characters := match text.toList with
    | '\uFEFF' :: rest => rest
    | characters => characters
  (readStatements (characters.length + 1) characters).bind ofStatements?

end Toml

end MetadataRegistry
