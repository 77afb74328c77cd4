import MetadataRegistry.Store
import MetadataRegistry.Text.Hexadecimal

/-!
Where a store is kept: in memory, or in a file that a URL names. A file that does not exist is made,
with empty tables, if its directory exists.
-/

namespace MetadataRegistry

inductive StoreLocation where
  | memory
  | file (path : String)
  deriving DecidableEq, Repr

def dropRepeated (start : List Char) : Nat → List Char → List Char
  | 0, text => text
  | fuel + 1, text => if start.isPrefixOf text then dropRepeated start fuel (text.drop start.length) else text

def percentDecoded : List Char → List UInt8
  | [] => []
  | '%' :: high :: low :: rest =>
      match bytesOfHex [high, low] with
      | some bytes => bytes ++ percentDecoded rest
      | none => bytesOfText "%" ++ percentDecoded (high :: low :: rest)
  | character :: rest => bytesOfText (String.singleton character) ++ percentDecoded rest

namespace StoreLocation

def plainOptions : List String :=
  ["mode=rw", "mode=rwc", "cache=private", "cache=shared", "immutable=false", "immutable=0"]

def ofPath? (path : List Char) (options : List String) : Option StoreLocation := do
  let decoded ← textOfBytes (percentDecoded path)
  if !options.all fun option => option.isEmpty || option == "mode=memory" || plainOptions.contains option then none
  else if path = ":memory:".toList ∨ options.contains "mode=memory" then some .memory
  else some (.file decoded)

def ofUrl? (url : String) : Option StoreLocation :=
  let characters := url.toList
  let located := dropRepeated "sqlite:".toList characters.length
    (dropRepeated "sqlite://".toList characters.length characters)
  let path := located.takeWhile (· != '?')
  ofPath? path ((String.ofList (located.drop (path.length + 1))).splitOn "&")

end StoreLocation

/-- Store files by their paths, and the directories that there are. The empty directory is the one
that relative paths start from. -/
structure StoreFiles where
  stores : List (String × Store)
  directories : List String

def splitPath (path : String) : String × String :=
  let characters := path.toList
  let name := (characters.reverse.takeWhile (· != '/')).reverse
  let directory := characters.take (characters.length - name.length)
  (String.ofList (if directory = ['/'] then directory else directory.dropLast), String.ofList name)

namespace StoreFiles

def open? (files : StoreFiles) : StoreLocation → Option Store
  | .memory => some .empty
  | .file path =>
      match files.stores.lookup path with
      | some store => some store
      | none =>
          let (directory, name) := splitPath path
          if path.isEmpty || (files.directories.contains directory && !(["", ".", ".."].contains name)) then some .empty
          else none

def save (files : StoreFiles) (location : StoreLocation) (store : Store) : StoreFiles :=
  match location with
  | .memory => files
  | .file path =>
      if path.isEmpty then files
      else { files with stores := (path, store) :: files.stores.filter fun file => file.1 != path }

end StoreFiles

end MetadataRegistry
