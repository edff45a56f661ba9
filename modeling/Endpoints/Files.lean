import Endpoints.Text

/-!
# Files

The files that the library reads and writes, as a value: a tree of folders and files and a working
directory in it.  Folders list their entries in whatever order they were made.  Paths are followed
step by step, and every step must start from a folder; what can go wrong on the way is a
`FileFault`.
-/

namespace Endpoints

/-! ### Paths

A path is a text with slashes between its segments.  Read as directions it is a list of steps
from one directory to the next: an empty segment and a single dot stay where they are, two dots go
up, and any other segment goes down into the entry of that name.
-/

/-- One step along a path. -/
inductive Step where
  | stay
  | up
  | down (name : Text)
deriving DecidableEq

/-- The step of one segment of a path. -/
def Step.ofSegment (segment : Text) : Step :=
  if segment = [] || segment = ("." : Text) then .stay
  else if segment = (".." : Text) then .up
  else .down segment

namespace Path

/-- The segments between the slashes of a path. -/
def segments (path : Text) : List Text := path.splitOn '/'

/-- Whether a path starts at the root. -/
def isAbsolute (path : Text) : Bool := path.head? = some '/'

/-- The path of an entry of a directory: a slash stands between the two unless the directory is
empty or ends with one. -/
def join (directory name : Text) : Text :=
  if directory.isEmpty || directory.getLast? = some '/' then directory ++ name
  else directory ++ '/' :: name

/-- The name of the entry to which a path leads, if its last step goes down. -/
def fileName? (path : Text) : Option Text :=
  match (((segments path).map Step.ofSegment).filter (· != .stay)).getLast? with
  | some (.down name) => some name
  | _ => none

/-- The extension of a file name: what follows its last dot, unless that dot comes first. -/
def extension? (name : Text) : Option Text :=
  let extension := (name.reverse.takeWhile (· != '.')).reverse
  if extension.length + 1 < name.length then some extension else none

end Path

/-! ### File trees -/

/-- Why a file could not be accessed. -/
inductive FileFault where
  | notFound
  | notADirectory
  | isADirectory
  /-- A name in a path, or the whole path, is longer than the operating system admits. -/
  | nameTooLong
  | notUtf8
  /-- The path contains the character with code zero. -/
  | nulInPath
deriving DecidableEq

/-- The wording of a fault, as the operating system gives it. -/
def FileFault.message : FileFault → Text
  | .notFound => "No such file or directory (os error 2)"
  | .notADirectory => "Not a directory (os error 20)"
  | .isADirectory => "Is a directory (os error 21)"
  | .nameTooLong => "File name too long (os error 36)"
  | .notUtf8 => "stream did not contain valid UTF-8"
  | .nulInPath => "file name contained an unexpected NUL byte"

/-- The number of bytes that the name of an entry may have. -/
def maxNameBytes : Nat := 255

/-- The number of bytes that a path may have. -/
def maxPathBytes : Nat := 4095

/-- Whether a name is longer than an entry may have. -/
def isLongName (name : Text) : Bool := maxNameBytes < (Utf8.encode name).length

/-- Whether a path is longer than a path may be. -/
def isLongPath (path : Text) : Bool := maxPathBytes < (Utf8.encode path).length

/-- A file with its content, or a folder with its entries by name. -/
inductive Node where
  | file (content : Bytes)
  | folder (entries : List (Text × Node))

/-- Changes the value of one key of a list, which is appended if the key is not there. -/
def alterEntry {α : Type} (key : Text) (change : Option α → α) :
    List (Text × α) → List (Text × α)
  | [] => [(key, change none)]
  | (k, v) :: rest =>
    if k = key then (k, change (some v)) :: rest else (k, v) :: alterEntry key change rest

namespace Node

/-- The entry of a folder under a name. -/
def child? (node : Node) (name : Text) : Option Node :=
  match node with
  | .file _ => none
  | .folder entries => entries.lookup name

/-- Whether a node is a folder. -/
def isFolder : Node → Bool
  | .file _ => false
  | .folder _ => true

/-- The node reached from a node by a list of names. -/
def at? (node : Node) : List Text → Option Node
  | [] => some node
  | name :: rest => (node.child? name).bind (·.at? rest)

/-- The node with `new` at a list of names, after making the folders on the way. -/
def put (node : Node) (names : List Text) (new : Node) : Node :=
  match names with
  | [] => new
  | name :: rest =>
    match node with
    | .folder entries =>
      .folder (alterEntry name (fun old => (old.getD (.folder [])).put rest new) entries)
    | .file _ => .folder [(name, (folder []).put rest new)]

/-- The node without the one at a list of names. -/
def remove (node : Node) (names : List Text) : Node :=
  match names, node with
  | _, .file content => .file content
  | [], .folder entries => .folder entries
  | [name], .folder entries => .folder (entries.filter (·.1 != name))
  | name :: rest, .folder entries =>
    .folder (entries.map fun (k, child) => (k, if k = name then child.remove rest else child))

mutual

/-- The files below the node at a path, each with the names that lead to it.  A folder whose path
is too long cannot be entered and is taken for a file without content. -/
def files (path : Text) : Node → List (List Text × Bytes)
  | .file content => [([], content)]
  | .folder entries => if isLongPath path then [([], [])] else filesOfEntries path entries
termination_by structural node => node

/-- The files below the entries of the folder at a path. -/
def filesOfEntries (path : Text) : List (Text × Node) → List (List Text × Bytes)
  | [] => []
  | entry :: rest => filesOfEntry path entry ++ filesOfEntries path rest
termination_by structural entries => entries

/-- The files below one entry of the folder at a path. -/
def filesOfEntry (path : Text) : Text × Node → List (List Text × Bytes)
  | (name, node) =>
    (node.files (Path.join path name)).map fun (names, content) => (name :: names, content)
termination_by structural entry => entry

end

end Node

/-- A tree of files and the names of the working directory in it. -/
structure FileTree where
  root : Node
  workingDirectory : List Text

namespace FileTree

/-- The node at a list of names from the root. -/
def at? (tree : FileTree) (names : List Text) : Option Node := tree.root.at? names

/-- Follows steps from a place in the tree; every step starts from a folder. -/
def follow (tree : FileTree) (place : List Text) : List Step → Except FileFault (List Text)
  | [] => .ok place
  | step :: rest =>
    match tree.at? place with
    | none => .error .notFound
    | some (.file _) => .error .notADirectory
    | some (.folder _) =>
      match step with
      | .stay => tree.follow place rest
      | .up => tree.follow place.dropLast rest
      | .down name =>
        if isLongName name then .error .nameTooLong
        else if (tree.at? (place ++ [name])).isSome then tree.follow (place ++ [name]) rest
        else .error .notFound

/-- Where a path starts: at the root or in the working directory. -/
def startOf (tree : FileTree) (path : Text) : List Text :=
  if Path.isAbsolute path then [] else tree.workingDirectory

/-- The fault of a path that cannot name anything, whatever the tree. -/
def pathFault? (path : Text) : Option FileFault :=
  if path.isEmpty then some .notFound
  else if path.contains '\x00' then some .nulInPath
  else if isLongPath path then some .nameTooLong
  else none

/-- The node to which a path leads. -/
def open? (tree : FileTree) (path : Text) : Except FileFault Node :=
  match pathFault? path with
  | some fault => .error fault
  | none => do
    let place ← tree.follow (tree.startOf path) ((Path.segments path).map Step.ofSegment)
    match tree.at? place with
    | some node => .ok node
    | none => .error .notFound

/-- The content of a node that must be a file. -/
def contentOf : Node → Except FileFault Bytes
  | .file content => .ok content
  | .folder _ => .error .isADirectory

/-- The content of the file to which a path leads. -/
def read (tree : FileTree) (path : Text) : Except FileFault Bytes := do
  contentOf (← tree.open? path)

/-- Writes a file, in place of one that is there.  The folder of the file must exist; a path that
ends with a slash names a folder. -/
def create (tree : FileTree) (path : Text) (content : Bytes) : Except FileFault FileTree :=
  match pathFault? path with
  | some fault => .error fault
  | none =>
    let segments := Path.segments path
    let named := (segments.reverse.dropWhile (·.isEmpty)).reverse
    match (named.getLast?).map Step.ofSegment with
    | some (.down name) => do
      let place ← tree.follow (tree.startOf path) (named.dropLast.map Step.ofSegment)
      match tree.at? place with
      | some (.folder _) =>
        let target := place ++ [name]
        if segments.length ≠ named.length then .error .isADirectory
        else if isLongName name then .error .nameTooLong
        else if ((tree.at? target).map Node.isFolder).getD false then .error .isADirectory
        else .ok { tree with root := tree.root.put target (.file content) }
      | some (.file _) => .error .notADirectory
      | none => .error .notFound
    | _ => do
      let _ ← tree.follow (tree.startOf path) (named.map Step.ofSegment)
      .error .isADirectory

end FileTree

end Endpoints
