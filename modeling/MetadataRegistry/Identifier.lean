import MetadataRegistry.Text.Hexadecimal
import MetadataRegistry.Text

/-!
Sixteen-byte identifiers. Their text is thirty-two hexadecimal digits in hyphenated groups of
8-4-4-4-12; readers also take the digits alone, braces around the groups, or the `urn:uuid:` form.
A text that is no identifier has one cause, found by `identifierFault`.
-/

namespace MetadataRegistry

inductive IdentifierKind where
  | database
  | collection
  | segment
  deriving DecidableEq, Repr

structure Identifier (kind : IdentifierKind) where
  bytes : List UInt8
  sixteen : bytes.length = 16
  deriving DecidableEq

abbrev DatabaseId := Identifier .database
abbrev CollectionId := Identifier .collection
abbrev SegmentId := Identifier .segment

inductive IdentifierError where
  | length (found : Nat)
  | character (found : Char) (index : Nat)
  | groupCount (found : Nat)
  | groupLength (group expected found : Nat)
  | byteCount (found : Nat)
  deriving DecidableEq, Repr

def IdentifierError.message : IdentifierError → String
  | .length found => s!"invalid length: found {found}"
  | .character found index => s!"invalid character: found `{found}` at {index}"
  | .groupCount found => s!"invalid group count: expected 5, found {found}"
  | .groupLength group expected found =>
      s!"invalid group length in group {group}: expected {expected}, found {found}"
  | .byteCount found => s!"invalid length: expected 16 bytes, found {found}"

namespace Identifier

variable {kind : IdentifierKind}

def nil : Identifier kind := ⟨List.replicate 16 0, rfl⟩

def isNil (id : Identifier kind) : Bool := decide (id = nil)

def ofBytes (bytes : List UInt8) : Except IdentifierError (Identifier kind) :=
  if sixteen : bytes.length = 16 then .ok ⟨bytes, sixteen⟩ else .error (.byteCount bytes.length)

end Identifier

def hyphenate (digits : List Char) : List Char :=
  digits.take 8 ++ '-' :: (digits.drop 8).take 4 ++ '-' :: (digits.drop 12).take 4 ++
    '-' :: (digits.drop 16).take 4 ++ '-' :: digits.drop 20

def hyphenPlaces : List Nat := [8, 13, 18, 23]

def unhyphenate (text : List Char) : Option (List Char) :=
  let digits := text.filter (· != '-')
  if text.length = 36 ∧ digits.length = 32 ∧ ∀ place ∈ hyphenPlaces, text[place]? = some '-' then
    some digits
  else none

def insideBraces : List Char → Option (List Char)
  | '{' :: rest => if rest.getLast? = some '}' then some rest.dropLast else none
  | _ => none

/-- The text after `urn:uuid:`, whose letters may be of either case. -/
def afterUrn (text : List Char) : Option (List Char) :=
  if (text.take 9).map Char.toLower = "urn:uuid:".toList then some (text.drop 9) else none

inductive IdentifierLayout where
  | plain
  | hyphenated
  | braced
  | urn
  deriving DecidableEq, Repr

namespace IdentifierLayout

def all : List IdentifierLayout := [plain, hyphenated, braced, urn]

def digits : IdentifierLayout → List Char → Option (List Char)
  | plain, text => if text.length = 32 then some text else none
  | hyphenated, text => unhyphenate text
  | braced, text => (insideBraces text).bind unhyphenate
  | urn, text => (afterUrn text).bind unhyphenate

def read (layout : IdentifierLayout) (text : List Char) : Option (List UInt8) :=
  (layout.digits text).bind bytesOfHex

end IdentifierLayout

def firstForeign (index : Nat) : List Char → Option (Char × Nat)
  | [] => none
  | character :: rest =>
      if isHexDigit character || character == '-' then firstForeign (index + character.utf8Size) rest
      else some (character, index)

def hyphenPositions (index : Nat) : List Char → List Nat
  | [] => []
  | character :: rest =>
      if character == '-' then index :: hyphenPositions (index + 1) rest else hyphenPositions (index + 1) rest

/-- Of four hyphens, the first that stands at the wrong place gives the group; if there is none,
the last group has the wrong length. -/
def groupFault (total : Nat) (positions : List Nat) : IdentifierError :=
  let starts := [0, 9, 14, 19]
  let groups := (List.range 4).zip (starts.zip (hyphenPlaces.zip positions))
  match groups.find? (fun (_, _, place, position) => place != position) with
  | some (group, start, place, position) => .groupLength group (place - start) (position - start)
  | none => .groupLength 4 12 (total - 24)

/-- Why a text is no identifier. A text of the length of a hyphenated, braced or urn form is taken
for that form; lengths and indexes count bytes. -/
def identifierFault (text : List Char) : IdentifierError :=
  let wrapped :=
    if utf8Length text = 38 then insideBraces text
    else if utf8Length text = 45 then afterUrn text
    else none
  let subject := wrapped.getD text
  let total := utf8Length subject
  let hyphenated := wrapped.isSome || total == 36
  if total = 0 ∨ 45 < total then .length total
  else
    let (scanned, offset, formKnown) :=
      if hyphenated then (subject, 0, true)
      else match insideBraces subject, afterUrn subject with
        | some inner, _ => (inner, 1, true)
        | none, some inner => (inner, 9, true)
        | none, none => (subject, 0, false)
    match firstForeign offset scanned with
    | some (character, index) => .character character index
    | none =>
        let positions := hyphenPositions 0 scanned
        if !formKnown && positions.isEmpty then .length total
        else if positions.length ≠ 4 then .groupCount (positions.length + 1)
        else groupFault total positions

def readIdentifierBytes (text : List Char) : Option (List UInt8) :=
  IdentifierLayout.all.findSome? (·.read text)

namespace Identifier

variable {kind : IdentifierKind}

def text (id : Identifier kind) : String := String.ofList (hyphenate (hexOfBytes id.bytes))

def parse (text : String) : Except IdentifierError (Identifier kind) :=
  match readIdentifierBytes text.toList with
  | some bytes => if sixteen : bytes.length = 16 then .ok ⟨bytes, sixteen⟩ else .error (identifierFault text.toList)
  | none => .error (identifierFault text.toList)

def parse? (text : String) : Option (Identifier kind) := (parse text).toOption

def compare (left right : Identifier kind) : Ordering := Ord.compare left.bytes right.bytes

def le (left right : Identifier kind) : Bool := (compare left right).isLE

def sortedDistinct (ids : List (Identifier kind)) : List (Identifier kind) :=
  (ids.mergeSort le).eraseReps

end Identifier

end MetadataRegistry
