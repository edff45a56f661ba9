import Endpoints.Declaration.Compilation
import Endpoints.Json.Reader
import Endpoints.Source

/-!
# The cache of compiled declarations

The cache maps each compiled declaration, by its exact text, to the request fields that it was
compiled against, sorted by declaration.  It is saved to a file and loaded from one, either as
bytes in the MessagePack format or as JSON text.
-/

namespace Endpoints

/-! ### Compiled declarations -/

/-- Compiled declarations with their request fields. -/
abbrev Cache := SortedMap (List Text)

namespace Cache

/-- Records an accepted declaration, in place of an earlier record; a rejected one is ignored. -/
def record (cache : Cache) (result : Compilation) : Cache :=
  if result.isOk then cache.insert result.declaration result.fields else cache

/-- Records results one after another. -/
def recordAll (cache : Cache) (results : List Compilation) : Cache := results.foldl record cache

/-- The fields of a declaration, which must have been compiled. -/
def require (cache : Cache) (declaration : Text) : Except Failure (List Text) :=
  match cache.get? declaration with
  | some fields => .ok fields
  | none => .error (Cause.notCompiled declaration)

end Cache

/-! ### MessagePack headers and texts

In MessagePack a map, an array, a string and a binary value each begin with a header that tells
how many entries, items or bytes follow.  A small count is part of the first byte; a larger one
follows a tag byte as a big-endian number.  Writing uses the shortest header, reading accepts every
one, and takes the bytes of a binary value as a text as well.
-/

namespace MessagePack

/-- Takes an `α` off the front of a byte sequence. -/
abbrev Reader (α : Type) := Bytes → Option (α × Bytes)

/-- The `width` lowest bytes of a number, the highest first. -/
def bigEndian (width n : Nat) : Bytes :=
  (List.range width).reverse.map fun i => UInt8.ofNat (n / Nat.pow 256 i)

/-- The number of a big-endian byte sequence. -/
def ofBigEndian (bytes : Bytes) : Nat := bytes.foldl (fun n b => n * 256 + b.toNat) 0

/-- The headers of one kind of value: counts below `limit` are added to the byte `base`, larger
ones stand in a number of the given width behind a tag byte. -/
structure Header where
  base : Nat
  limit : Nat
  tags : List (UInt8 × Nat)

/-- The headers of maps. -/
def mapHeader : Header := ⟨0x80, 16, [(0xde, 2), (0xdf, 4)]⟩

/-- The headers of arrays. -/
def arrayHeader : Header := ⟨0x90, 16, [(0xdc, 2), (0xdd, 4)]⟩

/-- The headers of strings. -/
def textHeader : Header := ⟨0xa0, 32, [(0xd9, 1), (0xda, 2), (0xdb, 4)]⟩

/-- The headers of binary values, which have no short form. -/
def binaryHeader : Header := ⟨0, 0, [(0xc4, 1), (0xc5, 2), (0xc6, 4)]⟩

namespace Header

/-- The shortest header of a count; counts that no header can hold do not arise. -/
def write (header : Header) (count : Nat) : Bytes :=
  if count < header.limit then [UInt8.ofNat (header.base + count)]
  else
    match header.tags.find? fun (_, width) => count < Nat.pow 256 width with
    | some (tag, width) => tag :: bigEndian width count
    | none => []

/-- The count of a header of any width. -/
def read (header : Header) : Reader Nat
  | [] => none
  | first :: rest =>
    if header.base ≤ first.toNat ∧ first.toNat < header.base + header.limit then
      some (first.toNat - header.base, rest)
    else
      match header.tags.lookup first with
      | none => none
      | some width =>
        if width ≤ rest.length then some (ofBigEndian (rest.take width), rest.drop width) else none

end Header

/-- A text as a string value. -/
def writeText (t : Text) : Bytes :=
  let bytes := Utf8.encode t
  textHeader.write bytes.length ++ bytes

/-- A string or a binary value that is valid UTF-8. -/
def readText : Reader Text := fun bytes => do
  let (count, rest) ← (textHeader.read bytes).or (binaryHeader.read bytes)
  if count ≤ rest.length then
    let t ← Utf8.decode? (rest.take count)
    some (t, rest.drop count)
  else none

/-- As many items as asked for, one after another. -/
def readMany {α : Type} (item : Reader α) : Nat → Reader (List α)
  | 0, bytes => some ([], bytes)
  | count + 1, bytes => do
    let (x, rest) ← item bytes
    let (xs, rest) ← readMany item count rest
    some (x :: xs, rest)

end MessagePack

/-! ### The cache as bytes

In binary form a cache is a MessagePack map from declarations to arrays of field names.  The last
of repeated declarations stays, an empty binary value stands for an empty array, and bytes behind
the map are ignored.
-/

namespace Cache

open MessagePack

/-- A list of field names as an array value. -/
def writeFields (fields : List Text) : Bytes :=
  arrayHeader.write fields.length ++ fields.flatMap writeText

/-- A declaration and its fields. -/
def writeEntry (entry : Text × List Text) : Bytes := writeText entry.1 ++ writeFields entry.2

/-- The bytes of a cache. -/
def toBytes (cache : Cache) : Bytes :=
  mapHeader.write cache.entries.length ++ cache.entries.flatMap writeEntry

/-- An array of field names, or an empty binary value. -/
def readFieldArray : MessagePack.Reader (List Text) := fun bytes =>
  match arrayHeader.read bytes, binaryHeader.read bytes with
  | some (count, rest), _ => readMany readText count rest
  | none, some (0, rest) => some ([], rest)
  | none, _ => none

/-- A declaration and its fields. -/
def readEntry : MessagePack.Reader (Text × List Text) := fun bytes => do
  let (declaration, rest) ← readText bytes
  let (fields, rest) ← readFieldArray rest
  some ((declaration, fields), rest)

/-- A map from declarations to their fields. -/
def readMap : MessagePack.Reader (List (Text × List Text)) := fun bytes => do
  let (count, rest) ← mapHeader.read bytes
  readMany readEntry count rest

/-- The cache at the front of a byte sequence. -/
def ofBytes? (bytes : Bytes) : Option Cache :=
  (readMap bytes).map fun (entries, _) => SortedMap.ofList entries

end Cache

/-! ### The cache as JSON text

As JSON a cache is an object whose names are the declarations and whose values are the arrays of
their fields, written indented.  Reading is strict about that shape; the last of repeated names
stays.
-/

namespace Cache

/-- The cache as a JSON value. -/
def toJson (cache : Cache) : Json :=
  .object (cache.entries.map fun (declaration, fields) => (declaration, Json.ofTexts fields))

/-- The indented JSON text of a cache. -/
def toText (cache : Cache) : Text := cache.toJson.pretty

/-- An array of strings behind blanks. -/
def readFields : Json.Reader (List Text) := fun t =>
  match Json.skipBlanks t with
  | '[' :: rest => Json.readSequence (fun t => Json.readString (Json.skipBlanks t)) ']' rest
  | _ => none

/-- An object of arrays of strings behind blanks. -/
def readEntries : Json.Reader (List (Text × List Text)) := fun t =>
  match Json.skipBlanks t with
  | '\x7b' :: rest => Json.readSequence (Json.readMember readFields) '\x7d' rest
  | _ => none

/-- The cache of a JSON text. -/
def ofText? (t : Text) : Option Cache := (Json.readWhole readEntries t).map SortedMap.ofList

end Cache

/-! ### Cache files

A cache is saved to a file and loaded from one.  The path decides the form: JSON text if its
extension is `json` in any letter case, bytes otherwise.
-/

namespace Cache

/-- Whether the file of a path holds its cache as JSON text. -/
def isJsonPath (path : Text) : Bool :=
  match (Path.fileName? path).bind Path.extension? with
  | none => false
  | some extension => extension.map Char.toLower = "json".toList

/-- The failure for a file that does not hold a cache. -/
def noCache : Failure := Cause.serialization "not a cache of compiled declarations"

/-- The content of the file of a path that holds the cache. -/
def fileContent (cache : Cache) (path : Text) : Bytes :=
  if isJsonPath path then Utf8.encode cache.toText else cache.toBytes

/-- The cache that the content of the file of a path holds. -/
def ofFileContent (path : Text) (content : Bytes) : Except Failure Cache :=
  let cache? := if isJsonPath path then (Utf8.decode? content).bind ofText? else ofBytes? content
  match cache? with
  | some cache => .ok cache
  | none => .error noCache

/-- Saves a cache to a file, in place of one that is there. -/
def save (cache : Cache) (path : Text) (tree : FileTree) : Except Failure FileTree :=
  match tree.create path (cache.fileContent path) with
  | .ok tree => .ok tree
  | .error fault => .error (ioFailure "create file" path fault)

/-- Loads a cache from a file. -/
def load (path : Text) (tree : FileTree) : Except Failure Cache :=
  match tree.open? path with
  | .error fault => .error (ioFailure "open file" path fault)
  | .ok node =>
    match FileTree.contentOf node with
    | .error fault => .error (ioFailure "read file" path fault)
    | .ok content => ofFileContent path content

end Cache

end Endpoints
