import Endpoints.Cache
import Endpoints.Request
import Endpoints.Text.Quoted

/-!
# Engines

An engine holds the cache of compiled declarations, the collaborators to which evaluated
declarations are sent together with their state, and the configuration of its sources.  Its
operations answer with a result and the engine as they leave it.
-/

namespace Endpoints

/-! ### Configuration

Where the declaration sources of a project live, and which files hold them.  The two environment
variables `DECLAPI_SOURCE_ROOT` and `DECLAPI_EXTENSIONS` override the defaults.
-/

/-- The environment variables that matter, where they are set. -/
structure Environment where
  sourceRoot : Option Text := none
  extensions : Option Text := none

/-- The directory that is scanned, and the extensions of the files that are read. -/
structure Config where
  sourceRoot : Text
  extensions : List Text
deriving DecidableEq

namespace Config

/-- The sources of a project: the directory `data/api` in it. -/
def sourcesOf (project : Text) : Text := Path.join (Path.join project "data") "api"

/-- Files with the extension `ts` below `data/api`. -/
def default : Config := ⟨sourcesOf [], ["ts"]⟩

instance : Inhabited Config := ⟨default⟩

/-- The default extensions below `data/api` of a project. -/
def forProject (project : Text) : Config := { default with sourceRoot := sourcesOf project }

/-- The extensions of a comma-separated list: blanks around them and dots before them do not
count, and empty ones are left out. -/
def parseExtensions (list : Text) : List Text :=
  ((list.splitOn ',').map fun e => (Text.trim e).dropWhile (· == '.')).filter (!·.isEmpty)

/-- The defaults, overridden by the environment; a list without any extension is ignored. -/
def fromEnvironment (environment : Environment) : Config :=
  let listed := parseExtensions (environment.extensions.getD [])
  { sourceRoot := environment.sourceRoot.getD default.sourceRoot
    extensions := if listed.isEmpty then default.extensions else listed }

end Config

/-! ### Collaborators

REST requests go to a transport and local data to a storage; both are given to an engine when it
is made.  A collaborator is a function on a state of its own choosing, which an engine carries
along, so a storage can remember and a transport can count.  Either may fail.
-/

/-- Sends REST requests. -/
structure Transport (σ : Type) where
  send : RestCall → σ → Except Failure Json × σ

/-- Keeps data under keys.  A key without data is retrieved as null. -/
structure Storage (σ : Type) where
  store : Text → Payload → σ → Except Failure Unit × σ
  retrieve : Text → σ → Except Failure Json × σ

/-- The answer of the echo transport: a description of the request. -/
def RestCall.echo (call : RestCall) : Json :=
  .object [("body", Json.ofPayload? call.body), ("method", .string call.method.name),
    ("url", .string call.url)]

/-- The transport that answers every request with a description of it. -/
def Transport.echo (σ : Type) : Transport σ := ⟨fun call state => (.ok call.echo, state)⟩

/-- The slots of a storage in memory. -/
abbrev Slots := SortedMap Json

/-- The storage that keeps its data in memory. -/
def Storage.memory : Storage Slots where
  store key data slots := (.ok (), slots.insert key (Json.ofPayload data))
  retrieve key slots := (.ok ((slots.get? key).getD .null), slots)

/-! ### The engine -/

/-- A cache of compiled declarations with its configuration and collaborators. -/
structure Engine (σ : Type) where
  config : Config
  cache : Cache
  transport : Transport σ
  storage : Storage σ
  state : σ

namespace Engine

variable {σ : Type}

/-- Makes an engine; both collaborators are required, and the transport is missed first. -/
def assemble (transport : Option (Transport σ)) (storage : Option (Storage σ)) (config : Config)
    (cache : Cache) (state : σ) : Except Failure (Engine σ) :=
  match transport, storage with
  | none, _ => .error (Cause.missingCollaborator "transport")
  | some _, none => .error (Cause.missingCollaborator "storage")
  | some transport, some storage => .ok { config, cache, transport, storage, state }

/-- Whether a declaration is in the cache. -/
def isCompiled (engine : Engine σ) (declaration : Text) : Bool :=
  engine.cache.contains declaration

/-- An engine as it is shown to a developer: its configuration and the size of its cache. -/
def display (engine : Engine σ) : Text :=
  "Runtime \x7b config: LoaderConfig \x7b source_root: " ++
    Text.quote engine.config.sourceRoot ++ ", extensions: [" ++
    Text.join ", " (engine.config.extensions.map Text.quote) ++ "] \x7d, compiled: Some(" ++
    Text.ofNat engine.cache.size ++ "), .. \x7d"

end Engine

/-! ### Loading declarations

Declarations come into the cache of an engine from a list of entries, from a source text or from
all source files of its configuration.  A list and a text are loaded whole or not at all.  Source
files are loaded one by one in path order, each whole or not at all: a rejected declaration ends
the load, and the files before it stay loaded.
-/

/-- Compiles every declaration of a source text; rejected ones are results like the others. -/
def validateSource (source : Text) : Except Failure (List Compilation) := do
  let found ← extract source
  .ok (found.map fun d => compile d.declaration d.fields)

/-- What a load of all source files did. -/
structure LoadReport where
  files : Nat
  declarations : Nat
  emptyFiles : List Text
deriving DecidableEq

namespace SourceUnit

/-- The failure of a declaration of a file, if it is rejected. -/
def failureOf? (unit : SourceUnit) (found : Extracted) : Option Failure :=
  ((compile found.declaration found.fields).failure?).map fun failure =>
    { failure with place := some ⟨some unit.path, some found.line⟩ }

/-- Compiles the declarations of a file; the first rejected one is an error with its place. -/
def compileAll (unit : SourceUnit) : Except Failure (List Compilation) :=
  match unit.declarations.findSome? unit.failureOf? with
  | some failure => .error failure
  | none => .ok (unit.declarations.map fun d => compile d.declaration d.fields)

end SourceUnit

/-- Loads files one after another into a cache, until a declaration is rejected. -/
def Cache.loadUnits (cache : Cache) (report : LoadReport) :
    List SourceUnit → Except Failure LoadReport × Cache
  | [] => (.ok report, cache)
  | unit :: rest =>
    if unit.declarations.isEmpty then
      loadUnits cache { report with emptyFiles := report.emptyFiles ++ [unit.path] } rest
    else
      match unit.compileAll with
      | .error failure => (.error failure, cache)
      | .ok results =>
        loadUnits (cache.recordAll results)
          { report with declarations := report.declarations + results.length } rest

namespace Engine

variable {σ : Type}

/-- Compiles entries into the cache, all or none; answers with their number. -/
def loadEntries (engine : Engine σ) (entries : List (Text × List Text)) :
    Except Failure Nat × Engine σ :=
  let results := compileBatch entries
  match results.findSome? Compilation.failure? with
  | some failure => (.error failure, engine)
  | none => (.ok results.length, { engine with cache := engine.cache.recordAll results })

/-- Compiles the declarations of a source text into the cache, all or none. -/
def compileSource (engine : Engine σ) (source : Text) : Except Failure Nat × Engine σ :=
  match validateSource source with
  | .error failure => (.error failure, engine)
  | .ok results => engine.loadEntries (results.map fun r => (r.declaration, r.fields))

/-- Compiles the declarations of all source files into the cache. -/
def compileAll (engine : Engine σ) (tree : FileTree) : Except Failure LoadReport × Engine σ :=
  match readUnits tree engine.config.sourceRoot engine.config.extensions with
  | .error failure => (.error failure, engine)
  | .ok units =>
    match engine.cache.loadUnits ⟨units.length, 0, []⟩ units with
    | (answer, cache) => (answer, { engine with cache })

/-- Makes an engine and loads all source files into it. -/
def setup (transport : Transport σ) (storage : Storage σ) (config : Config) (state : σ)
    (tree : FileTree) : Except Failure (Engine σ) := do
  let engine ← assemble (some transport) (some storage) config SortedMap.empty state
  match engine.compileAll tree with
  | (.ok _, engine) => .ok engine
  | (.error failure, _) => .error failure

end Engine

/-! ### Evaluating declarations

A declaration is evaluated against a payload by deriving its facts again from the fields in the
cache, describing the request, and handing that to a collaborator.  A REST declaration gives the
response of the transport, a read the stored value, and a write nothing.
-/

namespace Engine

variable {σ : Type}

/-- The keyword and the facts of a compiled declaration. -/
def facts (engine : Engine σ) (declaration : Text) : Except Failure (Keyword × Facts) := do
  let fields ← engine.cache.require declaration
  match deriveFacts declaration fields with
  | .ok derived => .ok derived
  | .error fault => .error (Cause.rejected declaration fault.message)

/-- The request of a compiled declaration for a payload; nothing is sent. -/
def describe (engine : Engine σ) (declaration : Text) (payload : Payload) :
    Except Failure Request := do
  let (keyword, facts) ← engine.facts declaration
  resolve keyword (Form.split declaration) facts payload

/-- Hands a request to the collaborator that it is for. -/
def perform (engine : Engine σ) : Request → Except Failure (Option Json) × Engine σ
  | .rest call =>
    match engine.transport.send call engine.state with
    | (answer, state) => (answer.map some, { engine with state })
  | .storage access =>
    if access.write then
      match access.data with
      | none => (.error Cause.emptyStoreData, engine)
      | some data =>
        match engine.storage.store access.key data engine.state with
        | (answer, state) => (answer.map fun _ => none, { engine with state })
    else
      match engine.storage.retrieve access.key engine.state with
      | (answer, state) => (answer.map some, { engine with state })

/-- Evaluates a compiled declaration for a payload. -/
def evaluate (engine : Engine σ) (declaration : Text) (payload : Payload) :
    Except Failure (Option Json) × Engine σ :=
  match engine.describe declaration payload with
  | .error failure => (.error failure, engine)
  | .ok request => engine.perform request

end Engine

end Endpoints
