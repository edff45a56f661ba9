import Endpoints.Command.Run

/-!
# The program

Takes the arguments, the environment and the files that they name from the operating system, runs
the command on them, and hands back what it printed, wrote and returned.
-/

namespace Endpoints.Program

/-- The real path of a place. -/
def realPath (place : List Text) : String :=
  if place.isEmpty then "/" else String.ofList (place.flatMap ('/' :: ·))

/-- The names in the directory at a real path, or nothing if there is no such directory. -/
def listing (path : String) : IO (Option (List String)) := do
  try
    let entries ← ((← IO.currentDir) / path).readDir
    return some (entries.toList.map fun entry => entry.fileName)
  catch _ => return none

/-- The node at a real path with all that is below it, if it can be read. -/
partial def readNode (path : String) : IO (Option Node) := do
  match ← listing path with
  | some names =>
    let nodes ← names.filterMapM fun name => do
      return (← readNode (path ++ "/" ++ name)).map (name.toList, ·)
    return some (.folder nodes)
  | none =>
    try return some (.file (← IO.FS.readBinFile path).toList)
    catch _ => return none

/-- The node at a real path, a directory without its entries. -/
def readShallow (path : String) : IO (Option Node) := do
  match ← listing path with
  | some _ => return some (.folder [])
  | none => readNode path

/-- The tree with the node that is really at a place, unless one is there already. -/
def addPlace (tree : FileTree) (place : List Text) (readWith : String → IO (Option Node)) :
    IO FileTree := do
  if (tree.at? place).isSome then return tree
  match ← readWith (realPath place) with
  | none => return tree
  | some node => return { tree with root := tree.root.put place node }

/-- The places visited by steps, in order. -/
def visited (place : List Text) : List Step → List (List Text)
  | [] => [place]
  | .stay :: rest => place :: visited place rest
  | .up :: rest => place :: visited place.dropLast rest
  | .down name :: rest => place :: visited (place ++ [name]) rest

/-- The tree with the nodes along a path. -/
def addPath (tree : FileTree) (path : Text) : IO FileTree := do
  let steps := (Path.segments path).map Step.ofSegment
  let mut tree := tree
  for place in visited (tree.startOf path) steps do
    tree ← addPlace tree place readShallow
  return tree

/-- The tree with the nodes along a path and all that is below its end. -/
def addBelow (tree : FileTree) (path : Text) : IO FileTree := do
  let tree ← addPath tree path
  match tree.follow (tree.startOf path) ((Path.segments path).map Step.ofSegment) with
  | .error _ => return tree
  | .ok place =>
    match ← readNode (realPath place) with
    | none => return tree
    | some node => return { tree with root := tree.root.put place node }

/-- The files that a command line names. -/
def gather (tree : FileTree) (o : Options) (environment : Environment) : IO FileTree := do
  let mut tree := tree
  if o.command = .check || o.command = .compile then
    tree ← addBelow tree (o.config environment).sourceRoot
  for path in o.cache.toList ++ o.out.toList do
    tree ← addPath tree path
  return tree

/-- Writes the file at a path if the command changed it. -/
def writeBack (before after : FileTree) (path : Text) : IO Unit := do
  match before.read path, after.read path with
  | old, .ok new =>
    let unchanged := match old with
      | .ok old => old == new
      | .error _ => false
    unless unchanged do
      IO.FS.writeBinFile (String.ofList path) new.toByteArray
  | _, .error _ => return ()

end Endpoints.Program

open Endpoints Endpoints.Program in
/-- Runs the command line. -/
def main (args : List String) : IO UInt32 := do
  let setting := fun (name : String) => return (← IO.getEnv name).map String.toList
  let environment : Environment :=
    { sourceRoot := ← setting "DECLAPI_SOURCE_ROOT"
      extensions := ← setting "DECLAPI_EXTENSIONS" }
  let here := (Path.segments (← IO.currentDir).toString.toList).filter (!·.isEmpty)
  let bare : FileTree :=
    { root := (Node.folder []).put here (.folder []), workingDirectory := here }
  let words := args.map String.toList
  let options := (Options.parse words).toOption
  let tree ← match options with
    | none => pure bare
    | some o => gather bare o environment
  let outcome := run words environment tree
  IO.print (String.ofList outcome.output)
  IO.eprint (String.ofList (outcome.error.getD []))
  if let some out := options.bind Options.out then writeBack tree outcome.tree out
  return outcome.code.toUInt32
