import Endpoints.Proofs.BinaryCache
import Endpoints.Proofs.CheckPrediction
import Endpoints.Proofs.CommandLines
import Endpoints.Proofs.JsonCache
import Endpoints.Proofs.WrittenFiles

/-!
# Resolving from a saved cache

Resolving a declaration from a file that was compiled shows what an engine describes that was set
up from the same sources.  What lies between the two is taken step by step: both set up the same
cache, whatever their collaborators are (`exists_setup_of_setup`); the file is read back as the
cache that was written (`Cache.load_of_save`); the words of the command line reach the engine as
they are (`Options.parse_resolve`); and a request depends on nothing but the cache
(`Engine.describe_congr`).

No rejection is shown, because everything in the cache was accepted (`exists_records_of_setup`).
-/

namespace Endpoints

/-! ### The file of a cache -/

namespace Cache

/-- Whether the file of a path can hold a cache.  JSON text can hold every one; the binary form can
unless a count in it has no header, as those from `2 ^ 32` on have none. -/
def FitsFile (cache : Cache) (path : Text) : Prop := isJsonPath path = true ∨ cache.Encodable

/-- The content of the file of a path is read back as the cache that it holds. -/
lemma ofFileContent_fileContent {cache : Cache} {path : Text} (h : cache.FitsFile path) :
    ofFileContent path (cache.fileContent path) = .ok cache := by
  rw [ofFileContent, fileContent]
  by_cases hjson : isJsonPath path = true
  · have hread : Json.readWhole readEntries cache.toText = some cache.entries := by
      have hreads := reads_toText cache []
      rw [List.append_nil] at hreads
      rw [Json.readWhole, hreads]
      rfl
    rw [if_pos hjson, if_pos hjson, Utf8.decode?_encode, Option.bind_some, ofText?, hread,
      Option.map_some, SortedMap.ofList_entries]
  · have hread := reads_toBytes (h.resolve_left hjson) []
    rw [List.append_nil] at hread
    rw [if_neg hjson, if_neg hjson, ofBytes?, hread, Option.map_some]
    dsimp only
    rw [SortedMap.ofList_entries]

/-- A cache that was saved is loaded again. -/
theorem load_of_save {cache : Cache} {path : Text} {tree after : FileTree}
    (hfits : cache.FitsFile path) (h : cache.save path tree = .ok after) :
    load path after = .ok cache := by
  unfold save at h
  split at h
  · next written hwritten =>
    cases h
    rw [load, FileTree.open?_of_create hwritten]
    exact ofFileContent_fileContent hfits
  · cases h

end Cache

/-! ### The engines of a setup -/

section Setup

variable {σ τ : Type}

/-- A request depends on nothing but the cache. -/
lemma Engine.describe_congr {engine : Engine σ} {other : Engine τ}
    (h : engine.cache = other.cache) (declaration : Text) (payload : Payload) :
    engine.describe declaration payload = other.describe declaration payload := by
  rw [Engine.describe, Engine.describe, Engine.facts, Engine.facts, h]

/-- A setup succeeds exactly if the load of all files does, with the cache of what that records. -/
lemma setup_eq_ok_iff {transport : Transport σ} {storage : Storage σ} {state : σ}
    {config : Config} {tree : FileTree} {engine : Engine σ} :
    Engine.setup transport storage config state tree = .ok engine ↔
      ∃ report recorded, Loads config tree (.ok report) recorded ∧
        engine = ⟨config, Cache.insertAll SortedMap.empty recorded, transport, storage, state⟩ := by
  let start : Engine σ := ⟨config, SortedMap.empty, transport, storage, state⟩
  rw [setup_eq]
  constructor
  · intro h
    obtain ⟨answer, recorded, hloads⟩ := exists_loads config tree
    have hload : start.compileAll tree = _ := hloads.compileAll_eq
    dsimp only at h
    rw [hload] at h
    cases answer with
    | error failure => cases h
    | ok report =>
      cases h
      exact ⟨report, recorded, hloads, rfl⟩
  · rintro ⟨report, recorded, hloads, rfl⟩
    have hload : start.compileAll tree = _ := hloads.compileAll_eq
    dsimp only
    rw [hload]
    rfl

/-- A setup with other collaborators succeeds as well, and with the same cache. -/
lemma exists_setup_of_setup {transport : Transport σ} {storage : Storage σ} {state : σ}
    {config : Config} {tree : FileTree} {engine : Engine σ}
    (h : Engine.setup transport storage config state tree = .ok engine)
    (otherTransport : Transport τ) (otherStorage : Storage τ) (otherState : τ) :
    ∃ other, Engine.setup otherTransport otherStorage config otherState tree = .ok other ∧
      other.cache = engine.cache := by
  obtain ⟨report, recorded, hloads, rfl⟩ := setup_eq_ok_iff.mp h
  exact ⟨_, setup_eq_ok_iff.mpr ⟨report, recorded, hloads, rfl⟩, rfl⟩

/-- The engine of a setup has recorded its cache. -/
lemma exists_records_of_setup {transport : Transport σ} {storage : Storage σ} {state : σ}
    {config : Config} {tree : FileTree} {engine : Engine σ}
    (h : Engine.setup transport storage config state tree = .ok engine) :
    ∃ entries, engine.Records entries := by
  let start : Engine σ := ⟨config, SortedMap.empty, transport, storage, state⟩
  have hstart : start.Records [] := ⟨rfl, nofun⟩
  obtain ⟨report, recorded, hloads, rfl⟩ := setup_eq_ok_iff.mp h
  have hload : start.compileAll tree = _ := hloads.compileAll_eq
  have hafter := hstart.after (.compileAll tree)
  rw [Engine.after, hload] at hafter
  exact ⟨_, hafter⟩

end Setup

/-! ### The words of the command line -/

namespace Json

/-- A number is no object. -/
lemma numberValue_ne_object {negative : Bool} {whole : Text} {fraction : Option Text}
    {exponent : Option Int} {members : List (Text × Json)} :
    numberValue negative whole fraction exponent ≠ some (.object members) := by
  unfold numberValue
  dsimp only
  split
  · nofun
  · intro h
    obtain ⟨number, -, hnumber⟩ := Option.map_eq_some_iff.mp h
    cases hnumber

/-- What is read as a number is no object. -/
lemma readNumber_ne_object {t rest : Text} {members : List (Text × Json)} :
    readNumber t ≠ some (.object members, rest) := by
  intro h
  simp only [readNumber, Option.bind_eq_bind, Option.bind_eq_some_iff] at h
  obtain ⟨whole, -, h⟩ := h
  split at h
  · cases h
  · simp only [Option.bind_eq_some_iff] at h
    obtain ⟨fraction, -, exponent, -, value, hvalue, hread⟩ := h
    cases hread
    exact numberValue_ne_object hvalue

/-- A text that starts with a minus sign is read as a number, so a payload never does. -/
lemma head?_ne_minus_of_parsePayload? {json : Text} {payload : Payload}
    (h : parsePayload? json = some payload) : json.head? ≠ some '-' := by
  intro hminus
  obtain ⟨digits, rfl⟩ := List.head?_eq_some_iff.mp hminus
  have hnumber : readValue maxDepth ('-' :: digits) = readNumber ('-' :: digits) := by
    rw [readValue.eq_def]
    rfl
  unfold parsePayload? at h
  split at h
  · next members hparse =>
    rw [parse?, readWhole, hnumber] at hparse
    simp only [Option.bind_eq_bind, Option.bind_eq_some_iff] at hparse
    obtain ⟨⟨value, rest⟩, hread, hvalue⟩ := hparse
    split at hvalue
    · cases hvalue
      exact readNumber_ne_object hread
    · cases hvalue
  · cases h

end Json

namespace Options

/-- Behind the command every word is positional, also one that names a command. -/
lemma parseFrom_words {words : List Text} (hwords : ∀ word ∈ words, word.head? ≠ some '-')
    {o : Options} (hcommand : o.command ≠ .help) :
    parseFrom o words = .ok { o with positional := o.positional ++ words } := by
  induction words generalizing o with
  | nil => simp [parseFrom]
  | cons word words ih =>
    obtain ⟨hword, hrest⟩ := List.forall_mem_cons.mp hwords
    have hadd : o.addWord word = { o with positional := o.positional ++ [word] } := by
      unfold addWord
      split
      · next hhelp _ => exact absurd hhelp hcommand
      · rfl
    let next : Options := { o with positional := o.positional ++ [word] }
    have hnext : next.command ≠ .help := hcommand
    rw [parseFrom_word hword, hadd]
    exact (ih hrest hnext).trans (by simp [next])

/-- A command line that resolves a declaration for a payload. -/
lemma parse_resolve {declaration json : Text} (hdeclaration : declaration.head? ≠ some '-')
    (hjson : json.head? ≠ some '-') (path : Text) :
    parse ["resolve", "--cache", path, declaration, json] =
      .ok { command := .resolve, cache := some path, positional := [declaration, json] } := by
  have hwords : ∀ word ∈ [declaration, json], word.head? ≠ some '-' := by
    simp [hdeclaration, hjson]
  let o : Options := { command := .resolve, cache := some path }
  have hcommand : o.command ≠ .help := Command.noConfusion
  exact parseFrom_words hwords hcommand

end Options

/-! ### Resolving -/

/-- The line on the error output of a command that ended early. -/
def errorLine (message : Text) : Text := coloured 31 ("Error: " ++ message) ++ ['\n']

lemma errorLine_injective : Function.Injective errorLine := by
  intro a b h
  simpa [errorLine, coloured] using h

/-- How a command ends that shows a request, or the failure to describe one. -/
def Outcome.ofAnswer (tree : FileTree) : Except Failure Request → Outcome
  | .ok request => ⟨unlines [request.toJson.pretty], none, 0, tree⟩
  | .error failure => ⟨[], some (errorLine failure.message), 1, tree⟩

/-- Resolving from a file that holds a cache shows what is described from the cache. -/
lemma run_resolve {path declaration json : Text} {payload : Payload} {tree : FileTree}
    {cache : Cache} (hload : Cache.load path tree = .ok cache)
    (hdeclaration : declaration.head? ≠ some '-')
    (hpayload : Json.parsePayload? json = some payload) (environment : Environment) :
    run ["resolve", "--cache", path, declaration, json] environment tree =
      .ofAnswer tree ((engineOf cache).describe declaration payload) := by
  have hjson := Json.head?_ne_minus_of_parsePayload? hpayload
  rw [run, Options.parse_resolve hdeclaration hjson]
  dsimp only [runOptions, runResolve]
  rw [if_neg Bool.false_ne_true]
  dsimp only [List.head?, payloadArgument]
  rw [hpayload]
  dsimp only
  rw [hload]
  dsimp only
  cases (engineOf cache).describe declaration payload with
  | ok request => rfl
  | error failure => rfl

/-- The command lines that resolve from the file of a path show what an engine describes. -/
structure ResolvesLike {σ : Type} (engine : Engine σ) (path : Text) (tree : FileTree) : Prop where
  /-- Resolving shows the request of the engine, or its failure. -/
  shows : ∀ declaration json payload environment, declaration.head? ≠ some '-' →
    Json.parsePayload? json = some payload →
      run ["resolve", "--cache", path, declaration, json] environment tree =
        .ofAnswer tree (engine.describe declaration payload)
  /-- No failure is the rejection of a declaration, and none is shown like one. -/
  no_rejection : ∀ declaration json payload environment, declaration.head? ≠ some '-' →
    Json.parsePayload? json = some payload →
      ∀ failure, engine.describe declaration payload = .error failure →
        ∀ rejected message, failure.cause ≠ .rejected rejected message ∧
          (run ["resolve", "--cache", path, declaration, json] environment tree).error ≠
            some (errorLine (Cause.rejected rejected message).message)

/-- No request of an engine that has recorded its cache fails like a rejection. -/
lemma Engine.Records.message_ne_rejected {σ : Type} {engine : Engine σ} {entries : List Entry}
    (h : engine.Records entries) {declaration : Text} {payload : Payload} {failure : Failure}
    (hdescribe : engine.describe declaration payload = .error failure)
    (rejected message : Text) :
    failure.cause.message ≠ (Cause.rejected rejected message).message := by
  intro hmessage
  have hfirst := congrArg List.head? hmessage
  rcases h.describe_error hdescribe with ⟨-, rfl⟩ | ⟨method, facts, name, -, -, rfl⟩
  · cases hfirst
  · cases hfirst

/-- A file that holds the cache of an engine, whose entries were recorded, resolves like it. -/
lemma resolvesLike_of_load {σ : Type} {engine : Engine σ} {entries : List Entry} {path : Text}
    {tree : FileTree} (hrecords : engine.Records entries)
    (hload : Cache.load path tree = .ok engine.cache) : ResolvesLike engine path tree := by
  have hshows : ∀ declaration json payload environment, declaration.head? ≠ some '-' →
      Json.parsePayload? json = some payload →
        run ["resolve", "--cache", path, declaration, json] environment tree =
          .ofAnswer tree (engine.describe declaration payload) := by
    intro declaration json payload environment hdeclaration hpayload
    have hcache : (engineOf engine.cache).cache = engine.cache := rfl
    rw [run_resolve hload hdeclaration hpayload, Engine.describe_congr hcache]
  refine ⟨hshows, ?_⟩
  intro declaration json payload environment hdeclaration hpayload failure hfailure rejected message
  have hne := hrecords.message_ne_rejected hfailure rejected message
  refine ⟨fun hcause => hne (congrArg Cause.message hcause), ?_⟩
  rw [hshows declaration json payload environment hdeclaration hpayload, hfailure]
  intro hline
  exact hne (errorLine_injective (Option.some.inj hline))

/-- A command line with the exit code zero leaves the files of its report. -/
lemma exists_report_of_code {args : List Text} {options : Options} {environment : Environment}
    {tree : FileTree} (hparse : Options.parse args = .ok options)
    (hcode : (run args environment tree).code = 0) :
    ∃ report, runOptions options environment tree = .ok report ∧
      (run args environment tree).tree = report.tree := by
  unfold run at hcode ⊢
  rw [hparse] at hcode ⊢
  dsimp only at hcode ⊢
  cases hreport : runOptions options environment tree with
  | error fault =>
    rw [hreport] at hcode
    cases hcode
  | ok report => exact ⟨report, rfl, rfl⟩

/-- A report of a compilation comes with an engine that was set up and whose cache was saved. -/
lemma exists_save_of_runCompile {options : Options} {out : Text} {config : Config}
    {tree : FileTree} {report : Report} (hout : options.out = some out)
    (h : runCompile options config tree = .ok report) :
    ∃ engine, Engine.setup (Transport.echo Slots) Storage.memory config SortedMap.empty tree =
        .ok engine ∧ engine.cache.save out tree = .ok report.tree := by
  rw [runCompile, hout] at h
  dsimp only at h
  split at h
  · cases h
  · next engine hsetup =>
    split at h
    · cases h
    · next after hsave =>
      cases h
      exact ⟨engine, hsetup, hsave⟩

/-- Compiling to a file and resolving from it shows what an engine describes that is set up from
the same sources, whatever its collaborators are. -/
theorem resolvesLike_of_compile {σ : Type} {args : List Text} {options : Options} {out : Text}
    {environment : Environment} {tree : FileTree} (hparse : Options.parse args = .ok options)
    (hversion : options.showVersion = false) (hcommand : options.command = .compile)
    (hout : options.out = some out) (hcode : (run args environment tree).code = 0)
    (transport : Transport σ) (storage : Storage σ) (state : σ) :
    ∃ engine, Engine.setup transport storage (options.config environment) state tree = .ok engine ∧
      (engine.cache.FitsFile out →
        ResolvesLike engine out (run args environment tree).tree) := by
  obtain ⟨report, hreport, htree⟩ := exists_report_of_code hparse hcode
  rw [runOptions, hversion, hcommand] at hreport
  obtain ⟨compiled, hsetup, hsave⟩ := exists_save_of_runCompile hout hreport
  obtain ⟨engine, hengine, hcache⟩ := exists_setup_of_setup hsetup transport storage state
  obtain ⟨entries, hrecords⟩ := exists_records_of_setup hengine
  refine ⟨engine, hengine, ?_⟩
  intro hfits
  rw [← hcache, ← htree] at hsave
  exact resolvesLike_of_load hrecords (Cache.load_of_save hfits hsave)

/-- One source file is compiled into JSON text at a path that goes down and up again, and its
declaration is resolved from there. -/
theorem resolvesLike_of_compile_users :
    let source : Text := "\"(Rest/get /users/:id selfMappings)\": \x7breq: \x7bid: number\x7d\x7d"
    let entries : List (Text × Node) := [("users.ts", .file (Utf8.encode source))]
    let tree : FileTree := ⟨.folder [("data", .folder [("api", .folder entries)])], []⟩
    let out : Text := "data/../facts.JSON"
    let args : List Text := ["--out", out, "compile"]
    let after := (run args {} tree).tree
    let payload : Payload := SortedMap.ofList [("id", .int 7)]
    (run args {} tree).code = 0 ∧
      ∃ engine, Engine.setup (Transport.echo Slots) Storage.memory Config.default SortedMap.empty
          tree = .ok engine ∧
        ResolvesLike engine out after ∧
        (Outcome.ofAnswer after
            (engine.describe "(Rest/get /users/:id selfMappings)" payload)).output =
          unlines ["\x7b", "  \"kind\": \"rest\",", "  \"method\": \"get\",",
            "  \"url\": \"/users/7\",", "  \"body\": null", "\x7d"] := by
  intro source entries tree out args after payload
  let options : Options := { command := .compile, out := some out }
  have hparse : Options.parse args = .ok options := by decide +kernel
  have hcode : (run args {} tree).code = 0 := by decide +kernel
  have hjson : Cache.isJsonPath out = true := by decide +kernel
  have hpayload : Json.parsePayload? "\x7b\"id\": 7\x7d" = some payload := by
    with_unfolding_all rfl
  obtain ⟨engine, hengine, hfits⟩ := resolvesLike_of_compile hparse rfl rfl rfl hcode
    (Transport.echo Slots) Storage.memory SortedMap.empty
  have hresolves : ResolvesLike engine out after := hfits (.inl hjson)
  refine ⟨hcode, engine, hengine, hresolves, ?_⟩
  rw [← hresolves.shows "(Rest/get /users/:id selfMappings)" _ payload {} (by decide) hpayload]
  decide +kernel

end Endpoints
