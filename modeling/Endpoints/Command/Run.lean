import Endpoints.Cache
import Endpoints.Command.Options
import Endpoints.Engine
import Endpoints.Json.Reader

/-!
# Running commands

A command reads its arguments, two environment variables and files, and answers with what it
prints, whether it succeeded and the files as it leaves them.  `check` reports on every
declaration below the source root, `compile` writes the cache of all of them to a file, and
`resolve` shows the request of one declaration of such a file.
-/

namespace Endpoints

/-- Why a command ends early. -/
inductive CommandFault where
  | usage (fault : UsageFault)
  /-- The payload argument is not a JSON object. -/
  | badPayload
  | failed (failure : Failure)

/-- The wording of a command fault. -/
def CommandFault.message : CommandFault → Text
  | .usage fault => fault.message
  | .badPayload => "the payload is not a JSON object"
  | .failed failure => failure.message

/-- What a command that ran to its end printed, whether it succeeded, and the files behind it. -/
structure Report where
  output : Text
  success : Bool
  tree : FileTree

/-- What a command leaves: its standard output, the error on its error output if it ended early,
its exit code and the files. -/
structure Outcome where
  output : Text
  error : Option Text
  code : Nat
  tree : FileTree

/-- A text in a colour of the terminal. -/
def coloured (code : Nat) (t : Text) : Text :=
  "\x1b[" ++ Text.ofNat code ++ "m" ++ t ++ "\x1b[0m"

/-- The name and version line. -/
def versionLine : Text := "declapi 0.1.0"

/-- The lines of the help text. -/
def helpLines : List Text :=
  [versionLine,
    "Validate and resolve REST and local-storage declarations",
    "",
    "USAGE:",
    "    declapi check [OPTIONS]",
    "    declapi compile --out FILE [OPTIONS]",
    "    declapi resolve --cache FILE <DECLARATION> [PAYLOAD_JSON]",
    "",
    "OPTIONS:",
    "    --root DIR       Declaration source root (default: data/api)",
    "    --ext EXT        Scanned file extension, repeatable (default: ts)",
    "    --out FILE       Where compile writes the fact cache (.json or MessagePack)",
    "    --cache FILE     Fact cache read by resolve",
    "    -v, --verbose    Log progress to stderr",
    "    -h, --help       Print help information",
    "    -V, --version    Print version information",
    "",
    "ENVIRONMENT:",
    "    DECLAPI_SOURCE_ROOT    Overrides the default source root",
    "    DECLAPI_EXTENSIONS     Comma-separated scanned extensions",
    "    RUST_LOG               Log filter, e.g. declapi_runtime=debug",
    "",
    "EXAMPLES:",
    "    declapi check --root data/api",
    "    declapi compile --out facts.json",
    "    declapi resolve --cache facts.json '(Rest/get /users/:id selfMappings)' " ++
      "'\x7b\"id\": 1\x7d'"]

/-- Lines, each with its line end. -/
def unlines (lines : List Text) : Text := lines.flatMap (· ++ ['\n'])

/-- The configuration of a command: that of the environment, overridden by the options. -/
def Options.config (o : Options) (environment : Environment) : Config :=
  let config := Config.fromEnvironment environment
  { sourceRoot := o.root.getD config.sourceRoot
    extensions := if o.extensions.isEmpty then config.extensions else o.extensions }

/-! ### Checking -/

/-- The line of `check` for one declaration, and a second one with the message if it is
rejected. -/
def checkLine (path : Text) (found : Extracted) : Text :=
  match (compile found.declaration found.fields).fault with
  | none => coloured 32 "✓" ++ " " ++ found.declaration
  | some fault =>
    coloured 31 "✗" ++ " " ++ path ++ ":" ++ Text.ofNat found.line ++ " " ++ found.declaration ++
      "\n    " ++ fault.message

/-- All declarations of source files, each with the path of its file. -/
def declarationsOf (units : List SourceUnit) : List (Text × Extracted) :=
  units.flatMap fun unit => unit.declarations.map (unit.path, ·)

/-- The number of rejected declarations. -/
def rejectedCount (found : List (Text × Extracted)) : Nat :=
  found.countP fun (_, d) => !(compile d.declaration d.fields).isOk

/-- The last line of `check`. -/
def summaryLine (total rejected : Nat) : Text :=
  Text.ofNat total ++ " declarations, " ++ Text.ofNat rejected ++ " failed"

/-- Compiles every declaration of the sources and reports on each. -/
def runCheck (config : Config) (tree : FileTree) : Except CommandFault Report :=
  match readUnits tree config.sourceRoot config.extensions with
  | .error failure => .error (.failed failure)
  | .ok units =>
    let found := declarationsOf units
    let rejected := rejectedCount found
    .ok {
      output := unlines ((found.map fun (path, d) => checkLine path d) ++
        [[], summaryLine found.length rejected])
      success := rejected = 0
      tree }

/-! ### Compiling and resolving -/

/-- Compiles all sources and saves the cache. -/
def runCompile (o : Options) (config : Config) (tree : FileTree) : Except CommandFault Report :=
  match o.out with
  | none => .error (.usage .outRequired)
  | some out =>
    match Engine.setup (Transport.echo Slots) Storage.memory config SortedMap.empty tree with
    | .error failure => .error (.failed failure)
    | .ok engine =>
      match engine.cache.save out tree with
      | .error failure => .error (.failed failure)
      | .ok tree =>
        .ok {
          output := unlines ["compiled " ++ Text.ofNat engine.cache.size ++
            " declarations into " ++ out]
          success := true
          tree }

/-- The payload argument; without one the payload is empty. -/
def payloadArgument (argument : Option Text) : Except CommandFault Payload :=
  match argument with
  | none => .ok SortedMap.empty
  | some json =>
    match Json.parsePayload? json with
    | some payload => .ok payload
    | none => .error .badPayload

/-- The engine of a saved cache, with collaborators that are never called. -/
def engineOf (cache : Cache) : Engine Slots :=
  { config := Config.default, cache, transport := Transport.echo Slots
    storage := Storage.memory, state := SortedMap.empty }

/-- Shows the request of one declaration of a saved cache. -/
def runResolve (o : Options) (tree : FileTree) : Except CommandFault Report :=
  match o.cache with
  | none => .error (.usage .cacheRequired)
  | some path =>
    match o.positional with
    | [] => .error (.usage .declarationRequired)
    | declaration :: rest =>
      match payloadArgument rest.head? with
      | .error fault => .error fault
      | .ok payload =>
        match Cache.load path tree with
        | .error failure => .error (.failed failure)
        | .ok cache =>
          match (engineOf cache).describe declaration payload with
          | .error failure => .error (.failed failure)
          | .ok request => .ok { output := unlines [request.toJson.pretty], success := true, tree }

/-! ### The whole command line -/

/-- Runs options that were read; asking for the version comes before any command. -/
def runOptions (o : Options) (environment : Environment) (tree : FileTree) :
    Except CommandFault Report :=
  if o.showVersion then .ok { output := unlines [versionLine], success := true, tree }
  else
    match o.command with
    | .help => .ok { output := unlines helpLines, success := true, tree }
    | .check => runCheck (o.config environment) tree
    | .compile => runCompile o (o.config environment) tree
    | .resolve => runResolve o tree

/-- Runs the arguments of the command line. -/
def run (args : List Text) (environment : Environment) (tree : FileTree) : Outcome :=
  let result : Except CommandFault Report := match Options.parse args with
    | .error fault => .error (.usage fault)
    | .ok o => runOptions o environment tree
  match result with
  | .ok report =>
    { output := report.output, error := none, code := if report.success then 0 else 1
      tree := report.tree }
  | .error fault =>
    { output := [], error := some (coloured 31 ("Error: " ++ fault.message) ++ ['\n']), code := 1
      tree }

end Endpoints
