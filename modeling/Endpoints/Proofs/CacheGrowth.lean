import Endpoints.Proofs.EngineRuns

/-!
# Loads of a list or a text, and the growth of the cache

A list of entries is loaded whole or not at all.  How a load of a list ends is described by
`ListLoad`, one constructor for each ending, and `TextLoad` says the same of a source text.  A load
that fails names the first rejected entry and leaves the cache as it was.  Behind a load that
succeeds, every declaration of the list has the fields of its last entry, and every other one has
the fields that it had (`Cache.Overwrites`).

Whatever an engine is asked, it only inserts into its cache, so a compiled declaration stays
compiled for good; and a call that loads nothing leaves the cache alone.
-/

namespace Endpoints

/-! ### Caches that were written over -/

/-- A cache in which entries were recorded one after another.  A declaration that is repeated has
the fields of its last entry, and one without an entry has the fields it had. -/
structure Cache.Overwrites (entries : List Entry) (before after : Cache) : Prop where
  last : ∀ earlier declaration fields later, entries = earlier ++ (declaration, fields) :: later →
    (∀ other ∈ later, other.1 ≠ declaration) → after.get? declaration = some fields
  others : ∀ declaration, (∀ entry ∈ entries, entry.1 ≠ declaration) →
    after.get? declaration = before.get? declaration

/-- The entry of a declaration behind which there is no other one is the last. -/
lemma latest?_append_cons {earlier later : List Entry} {declaration : Text} {fields : List Text}
    (hlater : ∀ other ∈ later, other.1 ≠ declaration) :
    latest? (earlier ++ (declaration, fields) :: later) declaration = some fields := by
  have hnone : later.reverse.lookup declaration = none := by
    rw [List.lookup_eq_none_iff]
    intro other hother
    exact bne_iff_ne.mpr (hlater other (List.mem_reverse.mp hother)).symm
  rw [latest?, List.reverse_append, List.reverse_cons, List.append_assoc, List.lookup_append, hnone,
    Option.none_or, List.singleton_append, lookup_cons, if_pos rfl]

/-- Inserting entries one after another writes over a cache. -/
lemma Cache.overwrites_insertAll (cache : Cache) (entries : List Entry) :
    Cache.Overwrites entries cache (cache.insertAll entries) := by
  constructor
  · intro earlier declaration fields later hentries hlater
    rw [Cache.get?_insertAll, hentries, latest?_append_cons hlater, Option.some_or]
  · intro declaration hnone
    have hlatest : latest? entries declaration = none := by
      rw [latest?_eq_none_iff]
      intro fields hmem
      exact hnone _ hmem rfl
    rw [Cache.get?_insertAll, hlatest, Option.none_or]

/-! ### The endings of a load -/

/-- How a load of a list of entries can end: its answer, and the cache behind it. -/
inductive ListLoad (cache : Cache) (entries : List Entry) : Except Failure Nat → Cache → Prop
  /-- An entry is rejected, and those in front of it are accepted. -/
  | rejected {before after : List Entry} {declaration : Text} {fields : List Text}
      {fault : CompileFault} (hentries : entries = before ++ (declaration, fields) :: after)
      (hbefore : ∀ entry ∈ before, entry.accepted = true)
      (hfault : deriveFacts declaration fields = .error fault) :
      ListLoad cache entries (.error (Cause.rejected declaration fault.message)) cache
  /-- All entries are accepted; the answer counts them with repetition. -/
  | loaded {after : Cache} (haccepted : ∀ entry ∈ entries, entry.accepted = true)
      (hafter : Cache.Overwrites entries cache after) :
      ListLoad cache entries (.ok entries.length) after

/-- How a load of a source text can end: its answer, and the cache behind it. -/
inductive TextLoad (cache : Cache) (source : Text) : Except Failure Nat → Cache → Prop
  /-- The text has a malformed site. -/
  | malformed {failure : Failure} (hextract : extract source = .error failure) :
      TextLoad cache source (.error failure) cache
  /-- The declarations found in the text are loaded as a list. -/
  | extracted {found : List Extracted} {answer : Except Failure Nat} {after : Cache}
      (hextract : extract source = .ok found)
      (hload : ListLoad cache (found.map Extracted.entry) answer after) :
      TextLoad cache source answer after

namespace Engine

variable {σ : Type}

/-- A list of accepted entries is inserted. -/
lemma loadEntries_of_accepted (engine : Engine σ) {entries : List Entry}
    (h : ∀ entry ∈ entries, entry.accepted = true) :
    engine.loadEntries entries =
      (.ok entries.length, { engine with cache := engine.cache.insertAll entries }) := by
  have hnone : (compileBatch entries).findSome? Compilation.failure? = none :=
    findSome?_compileBatch_eq_none_iff.mpr (List.all_eq_true.mpr h)
  rw [Engine.loadEntries, ← Cache.recordAll_compile engine.cache h]
  rw [hnone, compileBatch, List.length_map]

/-- The first rejected entry of a list is the failure, and nothing is inserted. -/
lemma loadEntries_of_rejected (engine : Engine σ) {before after : List Entry} {declaration : Text}
    {fields : List Text} {fault : CompileFault}
    (hbefore : ∀ entry ∈ before, entry.accepted = true)
    (hfault : deriveFacts declaration fields = .error fault) :
    engine.loadEntries (before ++ (declaration, fields) :: after) =
      (.error (Cause.rejected declaration fault.message), engine) := by
  have hnone : (compileBatch before).findSome? Compilation.failure? = none :=
    findSome?_compileBatch_eq_none_iff.mpr (List.all_eq_true.mpr hbefore)
  have hsome : (compile declaration fields).failure? =
      some (Cause.rejected declaration fault.message : Failure) := by
    rw [Compilation.failure?, compile, hfault]
    rfl
  have hfirst : (compileBatch (before ++ (declaration, fields) :: after)).findSome?
      Compilation.failure? = some (Cause.rejected declaration fault.message : Failure) := by
    rw [compileBatch, List.map_append, List.findSome?_append, ← compileBatch, hnone, List.map_cons,
      Option.none_or, List.findSome?_cons, hsome]
  rw [Engine.loadEntries]
  rw [hfirst]

/-- A load of a list has one of the endings, and changes nothing but the cache. -/
lemma exists_listLoad (engine : Engine σ) (entries : List Entry) :
    ∃ answer cache, ListLoad engine.cache entries answer cache ∧
      engine.loadEntries entries = (answer, { engine with cache }) := by
  by_cases haccepted : ∀ entry ∈ entries, entry.accepted = true
  · exact ⟨_, _, .loaded haccepted (engine.cache.overwrites_insertAll entries),
      engine.loadEntries_of_accepted haccepted⟩
  · obtain ⟨before, entry, after, rfl, hentry, hbefore⟩ := exists_first_not entries haccepted
    obtain ⟨declaration, fields⟩ := entry
    cases hfault : deriveFacts declaration fields with
    | ok derived => exact absurd (Entry.accepted_iff.mpr ⟨derived, hfault⟩) hentry
    | error fault =>
      exact ⟨_, _, .rejected rfl hbefore hfault, engine.loadEntries_of_rejected hbefore hfault⟩

/-- A load of a text has one of the endings, and changes nothing but the cache. -/
lemma exists_textLoad (engine : Engine σ) (source : Text) :
    ∃ answer cache, TextLoad engine.cache source answer cache ∧
      engine.compileSource source = (answer, { engine with cache }) := by
  cases hextract : extract source with
  | error failure =>
    exact ⟨_, _, .malformed hextract, engine.compileSource_of_malformed hextract⟩
  | ok found =>
    obtain ⟨answer, cache, hload, hanswer⟩ := engine.exists_listLoad (found.map Extracted.entry)
    exact ⟨answer, cache, .extracted hextract hload,
      (engine.compileSource_of_extract hextract).trans hanswer⟩

/-- Calls of any kind and number keep the compiled declarations. -/
lemma isCompiled_afterAll {engine : Engine σ} {declaration : Text}
    (h : engine.isCompiled declaration = true) (operations : List Operation) :
    (engine.afterAll operations).isCompiled declaration = true := by
  obtain ⟨state, hrun⟩ := engine.afterAll_eq operations
  rw [Engine.isCompiled, SortedMap.contains] at h
  rw [hrun, Engine.isCompiled, SortedMap.contains, Cache.get?_insertAll, Option.isSome_or, h,
    Bool.or_true]

end Engine

/-! ### Growth -/

/-- Whether a call loads declarations. -/
def Operation.loads : Operation → Bool
  | .loadEntries _ | .compileSource _ | .compileAll _ => true
  | .validateSource _ | .facts _ | .describe _ _ | .evaluate _ _ => false

/-- What can be relied on in the cache of an engine. -/
structure Engine.CacheGrows {σ : Type} (engine : Engine σ) : Prop where
  /-- A compiled declaration stays compiled, whatever the engine is asked. -/
  compiled : ∀ operations declaration, engine.isCompiled declaration = true →
    (engine.afterAll operations).isCompiled declaration = true
  /-- A list is loaded whole or not at all. -/
  list : ∀ entries, ∃ answer cache, ListLoad engine.cache entries answer cache ∧
    engine.loadEntries entries = (answer, { engine with cache })
  /-- A source text is loaded whole or not at all. -/
  text : ∀ source, ∃ answer cache, TextLoad engine.cache source answer cache ∧
    engine.compileSource source = (answer, { engine with cache })
  /-- A call that loads nothing leaves the cache alone. -/
  others : ∀ operation, operation.loads = false → (engine.after operation).cache = engine.cache

/-- The cache of an engine only grows and is only written over, a list or a text at a time, whatever
it held at the start. -/
theorem Engine.cacheGrows {σ : Type} (engine : Engine σ) : engine.CacheGrows := by
  refine ⟨?_, engine.exists_listLoad, engine.exists_textLoad, ?_⟩
  · intro operations declaration hcompiled
    exact Engine.isCompiled_afterAll hcompiled operations
  · intro operation hloads
    cases operation with
    | loadEntries _ | compileSource _ | compileAll _ => cases hloads
    | validateSource _ | facts _ | describe _ _ => rfl
    | evaluate declaration payload =>
      obtain ⟨state, hafter⟩ := engine.evaluate_snd declaration payload
      rw [Engine.after, hafter]

end Endpoints
