import Endpoints.Engine
import Endpoints.Proofs.Acceptance
import Endpoints.Proofs.Filling

/-!
# Runs of an engine

An engine that starts with an empty cache answers any sequence of calls, some of which load
declarations, fully, in part or not at all.  The log of such a run (`log`) lists the entries that
its calls record, and is read off the calls alone: a list or a source text counts whole if all of
it is accepted, source files count up to the first one with a rejected declaration, and no other
call counts.

The invariant is `Engine.Records`: the cache is the log inserted entry by entry, and every entry of
the log is accepted.  One call keeps it (`Engine.Records.after`), hence so does a run.  It follows
that a cached declaration can always be evaluated (`Engine.Evaluable`): its facts can be derived
from the entry recorded last, and its request can only fail for want of a value in the payload.
-/

namespace Endpoints

/-! ### What a call records -/

/-- A declaration with its request fields. -/
abbrev Entry := Text × List Text

/-- Whether the compiler accepts an entry. -/
def Entry.accepted (entry : Entry) : Bool := (compile entry.1 entry.2).isOk

/-- Whether the compiler accepts all entries of a list. -/
def allAccepted (entries : List Entry) : Bool := entries.all Entry.accepted

/-- A list is recorded whole if all of it is accepted, and else not at all. -/
def allOrNone (entries : List Entry) : List Entry :=
  if allAccepted entries then entries else []

/-- A declaration found in a source text as an entry. -/
def Extracted.entry (found : Extracted) : Entry := (found.declaration, found.fields)

/-- The entries of a source file. -/
def SourceUnit.entries (unit : SourceUnit) : List Entry := unit.declarations.map Extracted.entry

/-- The calls that an engine answers. -/
inductive Operation where
  | loadEntries (entries : List Entry)
  | compileSource (source : Text)
  | compileAll (tree : FileTree)
  | validateSource (source : Text)
  | facts (declaration : Text)
  | describe (declaration : Text) (payload : Payload)
  | evaluate (declaration : Text) (payload : Payload)

/-- The entries that a call records, in their order.  Source files are recorded up to the first
one that is not accepted whole. -/
def Operation.recorded (config : Config) : Operation → List Entry
  | .loadEntries entries => allOrNone entries
  | .compileSource source =>
    match extract source with
    | .error _ => []
    | .ok found => allOrNone (found.map Extracted.entry)
  | .compileAll tree =>
    match readUnits tree config.sourceRoot config.extensions with
    | .error _ => []
    | .ok units => ((units.map SourceUnit.entries).takeWhile allAccepted).flatten
  | .validateSource _ | .facts _ | .describe _ _ | .evaluate _ _ => []

/-- The entries that calls record one after another. -/
def log (config : Config) (operations : List Operation) : List Entry :=
  operations.flatMap (Operation.recorded config)

/-- The fields of the entry of a declaration that was recorded last. -/
def latest? (entries : List Entry) (declaration : Text) : Option (List Text) :=
  entries.reverse.lookup declaration

/-- The engine as a call leaves it, whether the call succeeds or fails. -/
def Engine.after {σ : Type} (engine : Engine σ) : Operation → Engine σ
  | .loadEntries entries => (engine.loadEntries entries).2
  | .compileSource source => (engine.compileSource source).2
  | .compileAll tree => (engine.compileAll tree).2
  | .evaluate declaration payload => (engine.evaluate declaration payload).2
  | .validateSource _ | .facts _ | .describe _ _ => engine

/-- The engine as a sequence of calls leaves it. -/
def Engine.afterAll {σ : Type} (engine : Engine σ) (operations : List Operation) : Engine σ :=
  operations.foldl Engine.after engine

/-! ### Accepted entries -/

/-- An entry is accepted if its facts can be derived. -/
lemma Entry.accepted_iff {declaration : Text} {fields : List Text} :
    Entry.accepted (declaration, fields) = true ↔
      ∃ derived, deriveFacts declaration fields = .ok derived := by
  unfold Entry.accepted Compilation.isOk compile
  dsimp only
  cases deriveFacts declaration fields with
  | ok derived => exact ⟨fun _ => ⟨derived, rfl⟩, fun _ => rfl⟩
  | error fault => exact ⟨nofun, nofun⟩

/-- An entry has a failure if it is not accepted. -/
lemma Entry.failure?_eq_none_iff (entry : Entry) :
    (compile entry.1 entry.2).failure? = none ↔ entry.accepted = true := by
  unfold Entry.accepted Compilation.isOk Compilation.failure?
  rw [Option.map_eq_none_iff, Option.isNone_iff_eq_none]

/-- What is recorded whole is accepted. -/
lemma accepted_of_mem_allOrNone {entries : List Entry} {entry : Entry}
    (h : entry ∈ allOrNone entries) : entry.accepted = true := by
  unfold allOrNone at h
  split at h
  · next hall => exact List.all_eq_true.mp hall entry h
  · exact absurd h List.not_mem_nil

/-- What a call records is accepted. -/
lemma Operation.accepted_of_mem_recorded {config : Config} {operation : Operation} {entry : Entry}
    (h : entry ∈ operation.recorded config) : entry.accepted = true := by
  cases operation with
  | loadEntries entries => exact accepted_of_mem_allOrNone h
  | compileSource source =>
    rw [Operation.recorded] at h
    split at h
    · exact absurd h List.not_mem_nil
    · exact accepted_of_mem_allOrNone h
  | compileAll tree =>
    rw [Operation.recorded] at h
    split at h
    · exact absurd h List.not_mem_nil
    · obtain ⟨entries, hentries, hmem⟩ := List.mem_flatten.mp h
      have hall := List.all_eq_true.mp List.all_takeWhile entries hentries
      exact List.all_eq_true.mp hall entry hmem
  | validateSource _ | facts _ | describe _ _ | evaluate _ _ => exact absurd h List.not_mem_nil

/-! ### Inserting entries into a cache -/

namespace Cache

/-- Inserts entries one after another. -/
def insertAll (cache : Cache) (entries : List Entry) : Cache :=
  entries.foldl (fun cache entry => cache.insert entry.1 entry.2) cache

/-- Entries of two lists are inserted one list after the other. -/
lemma insertAll_append (cache : Cache) (before after : List Entry) :
    cache.insertAll (before ++ after) = (cache.insertAll before).insertAll after :=
  List.foldl_append

/-- Recording the results of accepted entries inserts the entries. -/
lemma recordAll_compile (cache : Cache) {entries : List Entry}
    (h : ∀ entry ∈ entries, entry.accepted = true) :
    cache.recordAll (entries.map fun entry => compile entry.1 entry.2) =
      cache.insertAll entries := by
  induction entries generalizing cache with
  | nil => rfl
  | cons entry rest ih =>
    have hfirst : cache.record (compile entry.1 entry.2) = cache.insert entry.1 entry.2 :=
      if_pos (h entry List.mem_cons_self)
    have hrest := ih (cache.insert entry.1 entry.2) fun other hother =>
      h other (List.mem_cons_of_mem _ hother)
    rw [List.map_cons, recordAll, List.foldl_cons, hfirst]
    exact hrest

/-- After entries were inserted a look-up finds the last one, or else what was there before. -/
lemma get?_insertAll (cache : Cache) (entries : List Entry) (declaration : Text) :
    (cache.insertAll entries).get? declaration =
      (latest? entries declaration).or (cache.get? declaration) := by
  induction entries generalizing cache with
  | nil => rfl
  | cons entry rest ih =>
    have hstep : (cache.insertAll (entry :: rest)).get? declaration =
        (latest? rest declaration).or ((cache.insert entry.1 entry.2).get? declaration) :=
      ih (cache.insert entry.1 entry.2)
    rw [hstep, SortedMap.get?_insert, latest?, latest?, List.reverse_cons, List.lookup_append,
      Option.or_assoc, lookup_cons]
    split <;> rfl

/-- What is in a cache after entries were inserted is one of them, or was there before. -/
lemma mem_insertAll {cache : Cache} {entries : List Entry} {entry : Entry}
    (h : entry ∈ (cache.insertAll entries).entries) : entry ∈ entries ∨ entry ∈ cache.entries := by
  induction entries generalizing cache with
  | nil => exact .inr h
  | cons first rest ih =>
    rcases ih h with hrest | hcache
    · exact .inl (List.mem_cons_of_mem _ hrest)
    · rcases mem_insertSorted hcache with rfl | hold
      · exact .inl List.mem_cons_self
      · exact .inr hold

end Cache

/-- The last entry of a declaration is one of the entries. -/
lemma mem_of_latest? {entries : List Entry} {declaration : Text} {fields : List Text}
    (h : latest? entries declaration = some fields) : (declaration, fields) ∈ entries := by
  obtain ⟨before, after, hsplit, -⟩ := List.lookup_eq_some_iff.mp h
  have hmem : (declaration, fields) ∈ entries.reverse := by
    rw [hsplit]
    exact List.mem_append_right _ List.mem_cons_self
  exact List.mem_reverse.mp hmem

/-- A declaration without a last entry has no entry at all. -/
lemma latest?_eq_none_iff {entries : List Entry} {declaration : Text} :
    latest? entries declaration = none ↔ ∀ fields, (declaration, fields) ∉ entries := by
  rw [latest?, List.lookup_eq_none_iff]
  constructor
  · intro h fields hmem
    exact bne_iff_ne.mp (h _ (List.mem_reverse.mpr hmem)) rfl
  · intro h entry hentry
    rw [bne_iff_ne]
    rintro rfl
    exact h entry.2 (List.mem_reverse.mp hentry)

/-! ### What a call does to the engine -/

/-- A batch has no failure if all its entries are accepted. -/
lemma findSome?_compileBatch_eq_none_iff {entries : List Entry} :
    (compileBatch entries).findSome? Compilation.failure? = none ↔
      allAccepted entries = true := by
  rw [List.findSome?_eq_none_iff, compileBatch, List.forall_mem_map, allAccepted, List.all_eq_true]
  exact forall₂_congr fun entry _ => Entry.failure?_eq_none_iff entry

/-- A file has no failure if all its entries are accepted. -/
lemma SourceUnit.findSome?_failureOf?_eq_none_iff {unit : SourceUnit} :
    unit.declarations.findSome? unit.failureOf? = none ↔
      allAccepted unit.entries = true := by
  rw [List.findSome?_eq_none_iff, SourceUnit.entries, allAccepted, List.all_map, List.all_eq_true]
  refine forall₂_congr fun found _ => ?_
  rw [SourceUnit.failureOf?, Option.map_eq_none_iff]
  exact found.entry.failure?_eq_none_iff

/-- Recording the results of a file whose entries are accepted inserts the entries. -/
lemma Cache.recordAll_unit (cache : Cache) {unit : SourceUnit}
    (hall : allAccepted unit.entries = true) :
    cache.recordAll (unit.declarations.map fun d => compile d.declaration d.fields) =
      cache.insertAll unit.entries := by
  rw [← Cache.recordAll_compile cache (List.all_eq_true.mp hall), SourceUnit.entries, List.map_map]
  rfl

/-- Loading files inserts the entries of those in front of the first with a rejected one. -/
lemma Cache.loadUnits_snd (cache : Cache) (report : LoadReport) (units : List SourceUnit) :
    (cache.loadUnits report units).2 =
      cache.insertAll ((units.map SourceUnit.entries).takeWhile allAccepted).flatten := by
  induction units generalizing cache report with
  | nil => rfl
  | cons unit rest ih =>
    rw [Cache.loadUnits, List.map_cons]
    by_cases hempty : unit.declarations.isEmpty = true
    · have hentries : unit.entries = [] := by
        rw [SourceUnit.entries, List.isEmpty_iff.mp hempty]
        rfl
      rw [if_pos hempty, ih, hentries, List.takeWhile_cons_of_pos rfl, List.flatten_cons]
      rfl
    · rw [if_neg hempty, SourceUnit.compileAll]
      cases hfailure : unit.declarations.findSome? unit.failureOf? with
      | some failure =>
        have hrejected : ¬ allAccepted unit.entries = true := by
          rw [← SourceUnit.findSome?_failureOf?_eq_none_iff, hfailure]
          nofun
        rw [List.takeWhile_cons_of_neg hrejected]
        rfl
      | none =>
        have hall := SourceUnit.findSome?_failureOf?_eq_none_iff.mp hfailure
        rw [List.takeWhile_cons_of_pos hall, List.flatten_cons, Cache.insertAll_append,
          ← Cache.recordAll_unit cache hall]
        exact ih _ _

namespace Engine

variable {σ : Type} {engine : Engine σ}

/-- Loading a list inserts all its entries or none. -/
lemma loadEntries_snd (engine : Engine σ) (entries : List Entry) :
    (engine.loadEntries entries).2 =
      { engine with cache := engine.cache.insertAll (allOrNone entries) } := by
  rw [Engine.loadEntries]
  cases hfailure : (compileBatch entries).findSome? Compilation.failure? with
  | some failure =>
    have hrejected : ¬ allAccepted entries = true := by
      rw [← findSome?_compileBatch_eq_none_iff, hfailure]
      nofun
    rw [allOrNone, if_neg hrejected]
    rfl
  | none =>
    have hall := findSome?_compileBatch_eq_none_iff.mp hfailure
    rw [allOrNone, if_pos hall, ← Cache.recordAll_compile _ (List.all_eq_true.mp hall)]
    rfl

/-- A source text is loaded as the list of its entries. -/
lemma compileSource_of_extract (engine : Engine σ) {source : Text} {found : List Extracted}
    (h : extract source = .ok found) :
    engine.compileSource source = engine.loadEntries (found.map Extracted.entry) := by
  have hentries : (found.map fun d => compile d.declaration d.fields).map
      (fun r => (r.declaration, r.fields)) = found.map Extracted.entry := by
    rw [List.map_map]
    rfl
  rw [Engine.compileSource, validateSource, h, ← hentries]
  rfl

/-- A source text with a malformed site is not loaded. -/
lemma compileSource_of_malformed (engine : Engine σ) {source : Text} {failure : Failure}
    (h : extract source = .error failure) :
    engine.compileSource source = (.error failure, engine) := by
  rw [Engine.compileSource, validateSource, h]
  rfl

/-- Loading a source text inserts all its entries or none. -/
lemma compileSource_snd (engine : Engine σ) (source : Text) :
    (engine.compileSource source).2 =
      { engine with
        cache :=
          engine.cache.insertAll ((Operation.compileSource source).recorded engine.config) } := by
  rw [Operation.recorded]
  cases hextract : extract source with
  | error failure =>
    rw [engine.compileSource_of_malformed hextract]
    rfl
  | ok found =>
    rw [engine.compileSource_of_extract hextract]
    exact engine.loadEntries_snd _

/-- Evaluating leaves cache and configuration alone. -/
lemma evaluate_snd (engine : Engine σ) (declaration : Text) (payload : Payload) :
    ∃ state, (engine.evaluate declaration payload).2 = { engine with state } := by
  rw [Engine.evaluate]
  cases engine.describe declaration payload with
  | error failure => exact ⟨_, rfl⟩
  | ok request =>
    cases request with
    | rest call => exact ⟨_, rfl⟩
    | storage access =>
      dsimp only
      rw [Engine.perform]
      split
      · split
        · exact ⟨_, rfl⟩
        · exact ⟨_, rfl⟩
      · exact ⟨_, rfl⟩

/-- A call inserts what it records and changes nothing else but the state of the collaborators. -/
theorem after_eq (engine : Engine σ) (operation : Operation) :
    ∃ state, engine.after operation =
      { engine with
        cache := engine.cache.insertAll (operation.recorded engine.config)
        state := state } := by
  cases operation with
  | loadEntries entries => exact ⟨engine.state, engine.loadEntries_snd entries⟩
  | compileSource source => exact ⟨engine.state, engine.compileSource_snd source⟩
  | compileAll tree =>
    refine ⟨engine.state, ?_⟩
    rw [Engine.after, Engine.compileAll, Operation.recorded]
    cases readUnits tree engine.config.sourceRoot engine.config.extensions with
    | error failure => rfl
    | ok units =>
      dsimp only
      rw [Cache.loadUnits_snd]
  | evaluate declaration payload => exact engine.evaluate_snd declaration payload
  | validateSource _ | facts _ | describe _ _ => exact ⟨engine.state, rfl⟩

/-- A sequence of calls inserts its log and changes nothing else but the state of the
collaborators. -/
theorem afterAll_eq (engine : Engine σ) (operations : List Operation) :
    ∃ state, engine.afterAll operations =
      { engine with
        cache := engine.cache.insertAll (log engine.config operations)
        state := state } := by
  induction operations generalizing engine with
  | nil => exact ⟨engine.state, rfl⟩
  | cons operation rest ih =>
    obtain ⟨between, hafter⟩ := engine.after_eq operation
    obtain ⟨state, hrest⟩ := ih (engine.after operation)
    refine ⟨state, ?_⟩
    rw [log, List.flatMap_cons, Cache.insertAll_append]
    rw [hafter] at hrest
    exact (congrArg (Engine.afterAll · rest) hafter).trans hrest

end Engine

/-! ### The invariant -/

/-- An engine whose cache is a log inserted entry by entry, all of them accepted. -/
structure Engine.Records {σ : Type} (engine : Engine σ) (entries : List Entry) : Prop where
  /-- The cache holds the log and nothing else. -/
  cache_eq : engine.cache = Cache.insertAll SortedMap.empty entries
  /-- Nothing in the log was rejected. -/
  accepted : ∀ entry ∈ entries, entry.accepted = true

namespace Engine.Records

variable {σ : Type} {engine : Engine σ} {entries : List Entry}

/-- An engine that was made with an empty cache has recorded nothing. -/
lemma of_assemble {transport : Option (Transport σ)} {storage : Option (Storage σ)}
    {config : Config} {state : σ}
    (h : Engine.assemble transport storage config SortedMap.empty state = .ok engine) :
    engine.Records [] ∧ engine.config = config := by
  unfold Engine.assemble at h
  split at h
  · cases h
  · cases h
  · cases h
    exact ⟨⟨rfl, nofun⟩, rfl⟩

/-- A call keeps the invariant, with what it records at the end of the log. -/
theorem after (h : engine.Records entries) (operation : Operation) :
    (engine.after operation).Records (entries ++ operation.recorded engine.config) := by
  obtain ⟨state, hafter⟩ := engine.after_eq operation
  rw [hafter]
  constructor
  · rw [Cache.insertAll_append, ← h.cache_eq]
  · intro entry hentry
    rcases List.mem_append.mp hentry with hold | hnew
    · exact h.accepted entry hold
    · exact Operation.accepted_of_mem_recorded hnew

/-- A sequence of calls keeps the invariant, with its log at the end. -/
theorem afterAll (h : engine.Records entries) (operations : List Operation) :
    (engine.afterAll operations).Records (entries ++ log engine.config operations) := by
  induction operations generalizing engine entries with
  | nil =>
    rw [log, List.flatMap_nil, List.append_nil]
    exact h
  | cons operation rest ih =>
    obtain ⟨state, hafter⟩ := engine.after_eq operation
    have hconfig : (engine.after operation).config = engine.config := by rw [hafter]
    have hrest := ih (h.after operation)
    rw [hconfig, List.append_assoc] at hrest
    rw [log, List.flatMap_cons]
    exact hrest

/-- The cache knows the entry of a declaration that was recorded last. -/
lemma get?_cache (h : engine.Records entries) (declaration : Text) :
    engine.cache.get? declaration = latest? entries declaration := by
  rw [h.cache_eq, Cache.get?_insertAll, SortedMap.get?_empty, Option.or_none]

/-- What is cached was recorded. -/
lemma mem_of_mem_cache (h : engine.Records entries) {entry : Entry}
    (hentry : entry ∈ engine.cache.entries) : entry ∈ entries := by
  rw [h.cache_eq] at hentry
  exact (Cache.mem_insertAll hentry).resolve_right List.not_mem_nil

end Engine.Records

/-! ### Evaluable engines -/

/-- What can be relied on in an engine that has recorded some entries. -/
structure Engine.Evaluable {σ : Type} (engine : Engine σ) (entries : List Entry) : Prop where
  /-- Every cached declaration compiles against its cached fields. -/
  cached : ∀ declaration fields, (declaration, fields) ∈ engine.cache.entries →
    ∃ derived, deriveFacts declaration fields = .ok derived
  /-- The facts of a recorded declaration are those of the entry recorded last. -/
  facts_latest : ∀ declaration fields, latest? entries declaration = some fields →
    ∃ derived, deriveFacts declaration fields = .ok derived ∧
      engine.facts declaration = .ok derived
  /-- A declaration that was never recorded has no facts. -/
  facts_never : ∀ declaration, (∀ fields, (declaration, fields) ∉ entries) →
    engine.facts declaration = .error (Cause.notCompiled declaration : Failure)
  /-- A request fails because the declaration was never recorded, or because it is one of a REST
  declaration and the payload lacks a value. -/
  describe_error : ∀ declaration payload failure,
    engine.describe declaration payload = .error failure →
      (∀ fields, (declaration, fields) ∉ entries) ∧ failure = Cause.notCompiled declaration ∨
        ∃ method facts name, engine.facts declaration = .ok (.rest method, facts) ∧
          payload.get? name = none ∧ failure = Cause.missingRequestData name

/-- An accepted form has a first argument. -/
lemma Accepts.exists_target {form : Form} {fields : List Text} {keyword : Keyword} {facts : Facts}
    (h : Accepts form fields keyword facts) : ∃ target, form.arg? 0 = some target := by
  cases h with
  | access hlocal hname hargs =>
    obtain ⟨key, rest, hcons⟩ := List.exists_cons_of_ne_nil hargs
    exact ⟨key, by rw [Form.arg?, hcons]; rfl⟩
  | rest hname hbody hmapping harg hurl hbound => exact ⟨_, harg⟩

/-- The request of a declaration that compiles fails only if it is a REST declaration and the
payload lacks a value. -/
theorem missing_of_resolve_error {declaration : Text} {fields : List Text} {keyword : Keyword}
    {facts : Facts} {payload : Payload} {failure : Failure}
    (hfacts : deriveFacts declaration fields = .ok (keyword, facts))
    (h : resolve keyword (Form.split declaration) facts payload = .error failure) :
    ∃ method name, keyword = .rest method ∧ payload.get? name = none ∧
      failure = Cause.missingRequestData name := by
  have haccepts := deriveFacts_eq_ok_iff.mp hfacts
  obtain ⟨target, htarget⟩ := haccepts.exists_target
  cases haccepts with
  | access hlocal hname hargs =>
    rw [resolve, htarget] at h
    rcases hlocal with rfl | rfl
    · cases h
    · cases h
  | rest hname hbody hmapping harg hurl hbound =>
    rw [resolve_rest harg] at h
    obtain ⟨name, -, hnone, hfailure⟩ := missing_of_formatUrl_error (map_eq_error_iff.mp h)
    exact ⟨_, name, rfl, hnone, hfailure⟩

namespace Engine.Records

variable {σ : Type} {engine : Engine σ} {entries : List Entry}

/-- The facts of a declaration are those of the entry recorded last. -/
lemma facts_of_latest (h : engine.Records entries) {declaration : Text} {fields : List Text}
    (hlatest : latest? entries declaration = some fields) :
    ∃ derived, deriveFacts declaration fields = .ok derived ∧
      engine.facts declaration = .ok derived := by
  obtain ⟨derived, hderived⟩ := Entry.accepted_iff.mp (h.accepted _ (mem_of_latest? hlatest))
  refine ⟨derived, hderived, ?_⟩
  rw [Engine.facts, Cache.require, h.get?_cache, hlatest]
  dsimp only [bind, Except.bind] at hderived ⊢
  rw [hderived]

/-- A declaration that was never recorded is not compiled. -/
lemma facts_of_never (h : engine.Records entries) {declaration : Text}
    (hnever : ∀ fields, (declaration, fields) ∉ entries) :
    engine.facts declaration = .error (Cause.notCompiled declaration : Failure) := by
  rw [Engine.facts, Cache.require, h.get?_cache, latest?_eq_none_iff.mpr hnever]
  rfl

/-- A request fails because the declaration was never recorded, or for want of a value. -/
lemma describe_error (h : engine.Records entries) {declaration : Text} {payload : Payload}
    {failure : Failure} (hdescribe : engine.describe declaration payload = .error failure) :
    (∀ fields, (declaration, fields) ∉ entries) ∧ failure = Cause.notCompiled declaration ∨
      ∃ method facts name, engine.facts declaration = .ok (.rest method, facts) ∧
        payload.get? name = none ∧ failure = Cause.missingRequestData name := by
  by_cases hnever : ∀ fields, (declaration, fields) ∉ entries
  · rw [Engine.describe, h.facts_of_never hnever] at hdescribe
    cases hdescribe
    exact .inl ⟨hnever, rfl⟩
  · have hrecorded : latest? entries declaration ≠ none := mt latest?_eq_none_iff.mp hnever
    obtain ⟨fields, hlatest⟩ := Option.ne_none_iff_exists'.mp hrecorded
    obtain ⟨⟨keyword, facts⟩, hderived, hfacts⟩ := h.facts_of_latest hlatest
    rw [Engine.describe, hfacts] at hdescribe
    obtain ⟨method, name, rfl, hnone, hfailure⟩ := missing_of_resolve_error hderived hdescribe
    exact .inr ⟨method, facts, name, hfacts, hnone, hfailure⟩

/-- An engine that has recorded its cache is evaluable. -/
theorem evaluable (h : engine.Records entries) : engine.Evaluable entries := by
  refine ⟨?_, ?_, ?_, ?_⟩
  · intro declaration fields hentry
    exact Entry.accepted_iff.mp (h.accepted _ (h.mem_of_mem_cache hentry))
  · intro declaration fields hlatest
    exact h.facts_of_latest hlatest
  · intro declaration hnever
    exact h.facts_of_never hnever
  · intro declaration payload failure hdescribe
    exact h.describe_error hdescribe

end Engine.Records

/-- An engine that was made with an empty cache stays evaluable, whatever it is asked and whether
it succeeds or fails: its cache, its facts and its requests are those of the log of the calls. -/
theorem Engine.evaluable_afterAll {σ : Type} {transport : Option (Transport σ)}
    {storage : Option (Storage σ)} {config : Config} {state : σ} {start : Engine σ}
    (hstart : Engine.assemble transport storage config SortedMap.empty state = .ok start)
    (operations : List Operation) :
    (start.afterAll operations).Evaluable (log config operations) := by
  obtain ⟨hrecords, hconfig⟩ := Engine.Records.of_assemble hstart
  have hrun := hrecords.afterAll operations
  rw [hconfig, List.nil_append] at hrun
  exact hrun.evaluable

/-- A second load of a declaration that is rejected for another one in the same list, and a request
without a value, leave the facts of the first load. -/
theorem Engine.evaluable_afterAll_rejected :
    let declaration : Text := "(Rest/get /:id selfMappings)"
    let operations : List Operation :=
      [.loadEntries [(declaration, ["id"])],
        .loadEntries [(declaration, ["id", "page"]), ("(Rest/fetch /:id)", [])],
        .evaluate declaration SortedMap.empty]
    ∃ start : Engine Slots,
      Engine.assemble (some (Transport.echo Slots)) (some Storage.memory) Config.default
        SortedMap.empty SortedMap.empty = .ok start ∧
      (start.afterAll operations).Evaluable (log Config.default operations) ∧
      ∃ derived, deriveFacts declaration ["id"] = .ok derived ∧
        (start.afterAll operations).facts declaration = .ok derived := by
  intro declaration operations
  obtain ⟨start, hstart⟩ : ∃ start : Engine Slots,
      Engine.assemble (some (Transport.echo Slots)) (some Storage.memory) Config.default
        SortedMap.empty SortedMap.empty = .ok start := ⟨_, rfl⟩
  have hevaluable := Engine.evaluable_afterAll hstart operations
  have hlatest : latest? (log Config.default operations) declaration =
      some [("id" : Text)] := by
    decide +kernel
  exact ⟨start, hstart, hevaluable, hevaluable.facts_latest declaration ["id"] hlatest⟩

end Endpoints
