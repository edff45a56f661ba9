import Endpoints.Proofs.DryRun

/-!
# The local storage over whole runs

Behind an engine with a storage in memory every key is a register: a read gives back the whole
payload of the last write under its key.  Which key a declaration reads or writes is decided by its
keyword and its first argument (`storageKey?`), so declarations that differ in their description, in
their spacing or in the fields that they were compiled against share a register.

What a compiled declaration of the local storage asks for (`Asks`) depends on its text and on the
payload only, and it is all that a description can say (`describe_eq_storage_iff`).  The writes of a
run are collected in order (`Engine.writes`), where only evaluations that succeed count.  One call
changes what is stored by the write that it makes and by nothing else
(`Engine.HasMemory.stored?_after`), hence so does a run (`Engine.HasMemory.stored?_afterAll`).
-/

namespace Endpoints

variable {σ τ ρ : Type}

/-! ### A storage beside a transport -/

/-- The transport that works on the first of two states and does not see the second. -/
def Transport.onFirst (transport : Transport τ) (ρ : Type) : Transport (τ × ρ) where
  send call state :=
    let result := transport.send call state.1
    (result.1, result.2, state.2)

/-- The storage that works on the second of two states and does not see the first. -/
def Storage.onSecond (storage : Storage ρ) (τ : Type) : Storage (τ × ρ) where
  store key data state :=
    let result := storage.store key data state.2
    (result.1, state.1, result.2)
  retrieve key state :=
    let result := storage.retrieve key state.2
    (result.1, state.1, result.2)

/-- An engine with a storage in memory, beside any transport with a state of its own. -/
structure Engine.HasMemory (engine : Engine (τ × Slots)) : Prop where
  transport : ∃ own : Transport τ, engine.transport = own.onFirst Slots
  storage : engine.storage = Storage.memory.onSecond τ

/-- What is stored under a key. -/
def Engine.stored? (engine : Engine (τ × Slots)) (key : Text) : Option Json :=
  engine.state.2.get? key

/-! ### Declarations of the local storage -/

/-- The key of a declaration with the given keyword: its first argument, whatever stands behind
it. -/
def storageKey? (keyword : Keyword) (declaration : Text) : Option Text :=
  if (Form.split declaration).keyword = keyword.name then (Form.split declaration).arg? 0 else none

lemma storageKey?_eq_some_iff {keyword : Keyword} {declaration key : Text} :
    storageKey? keyword declaration = some key ↔
      (Form.split declaration).keyword = keyword.name ∧
        (Form.split declaration).arg? 0 = some key := by
  rw [storageKey?]
  split
  · next hname => exact ⟨fun h => ⟨hname, h⟩, fun h => h.2⟩
  · next hname => exact ⟨nofun, fun h => absurd h.1 hname⟩

/-- What a declaration of the local storage asks for: a read, a write of the whole payload, or with
an empty payload a write without data. -/
inductive Asks (declaration : Text) (payload : Payload) : StorageAccess → Prop
  | read {key : Text} (hkey : storageKey? .readLocal declaration = some key) :
      Asks declaration payload ⟨key, false, none⟩
  | write {key : Text} (hkey : storageKey? .writeLocal declaration = some key)
      (hdata : payload.isEmpty = false) : Asks declaration payload ⟨key, true, some payload⟩
  | noData {key : Text} (hkey : storageKey? .writeLocal declaration = some key)
      (hempty : payload.isEmpty = true) : Asks declaration payload ⟨key, true, none⟩

section Describe

variable {engine : Engine σ} {declaration : Text} {payload : Payload}

lemma facts_eq_ok_iff {derived : Keyword × Facts} :
    engine.facts declaration = .ok derived ↔
      ∃ fields, engine.cache.get? declaration = some fields ∧
        deriveFacts declaration fields = .ok derived := by
  rw [Engine.facts, Cache.require]
  cases engine.cache.get? declaration with
  | none => simp [bind, Except.bind]
  | some fields =>
    cases hderived : deriveFacts declaration fields with
    | ok found => simp [bind, Except.bind, hderived]
    | error fault => simp [bind, Except.bind, hderived]

/-- A compiled declaration of the local storage is always resolved, whatever its fields. -/
lemma exists_describe_eq_resolve {keyword : Keyword} {key : Text}
    (hlocal : keyword = .readLocal ∨ keyword = .writeLocal)
    (hcompiled : engine.isCompiled declaration = true)
    (hkey : storageKey? keyword declaration = some key) (payload : Payload) :
    ∃ facts, engine.describe declaration payload =
      resolve keyword (Form.split declaration) facts payload := by
  obtain ⟨fields, hfields⟩ := Option.isSome_iff_exists.mp hcompiled
  obtain ⟨hname, harg⟩ := storageKey?_eq_some_iff.mp hkey
  have hargs : (Form.split declaration).args ≠ [] := by
    intro hnil
    rw [Form.arg?, hnil] at harg
    cases harg
  have haccepts : Accepts (Form.split declaration) fields keyword ⟨fields, none, none⟩ :=
    .access hlocal hname hargs
  have hfacts := facts_eq_ok_iff.mpr ⟨fields, hfields, deriveFacts_of_accepts haccepts⟩
  refine ⟨⟨fields, none, none⟩, ?_⟩
  rw [Engine.describe, hfacts]
  rfl

/-- A compiled declaration of the local storage is described by what it asks for. -/
lemma Asks.describe_eq {access : StorageAccess} (h : Asks declaration payload access)
    (hcompiled : engine.isCompiled declaration = true) :
    engine.describe declaration payload = .ok (.storage access) := by
  cases h with
  | read hkey =>
    obtain ⟨facts, hdescribe⟩ := exists_describe_eq_resolve (.inl rfl) hcompiled hkey payload
    rw [hdescribe, resolve, (storageKey?_eq_some_iff.mp hkey).2]
  | write hkey hdata =>
    obtain ⟨facts, hdescribe⟩ := exists_describe_eq_resolve (.inr rfl) hcompiled hkey payload
    rw [hdescribe, resolve, (storageKey?_eq_some_iff.mp hkey).2, hdata]
    rfl
  | noData hkey hempty =>
    obtain ⟨facts, hdescribe⟩ := exists_describe_eq_resolve (.inr rfl) hcompiled hkey payload
    rw [hdescribe, resolve, (storageKey?_eq_some_iff.mp hkey).2, hempty]
    rfl

/-- What is described was compiled, and its facts can be derived. -/
lemma exists_facts_of_describe {request : Request}
    (h : engine.describe declaration payload = .ok request) :
    ∃ keyword facts fields, engine.cache.get? declaration = some fields ∧
      Accepts (Form.split declaration) fields keyword facts ∧
      resolve keyword (Form.split declaration) facts payload = .ok request := by
  rw [Engine.describe] at h
  cases hfacts : engine.facts declaration with
  | error failure =>
    rw [hfacts] at h
    cases h
  | ok derived =>
    rw [hfacts] at h
    obtain ⟨fields, hfields, hderived⟩ := facts_eq_ok_iff.mp hfacts
    exact ⟨derived.1, derived.2, fields, hfields, deriveFacts_eq_ok_iff.mp hderived, h⟩

/-- A REST declaration is not described by a storage access. -/
lemma resolve_rest_ne_storage {form : Form} {target : Text} (harg : form.arg? 0 = some target)
    (method : Method) (facts : Facts) (access : StorageAccess) :
    resolve (.rest method) form facts payload ≠ .ok (.storage access) := by
  rw [resolve_rest harg]
  cases formatUrl target facts.urlMapping payload with
  | error failure => nofun
  | ok url => nofun

/-- A description is a storage access exactly if the declaration was compiled and asks for it. -/
lemma describe_eq_storage_iff {access : StorageAccess} :
    engine.describe declaration payload = .ok (.storage access) ↔
      engine.isCompiled declaration = true ∧ Asks declaration payload access := by
  refine ⟨fun h => ?_, fun h => h.2.describe_eq h.1⟩
  obtain ⟨keyword, facts, fields, hfields, haccepts, hresolve⟩ := exists_facts_of_describe h
  refine ⟨Option.isSome_iff_exists.mpr ⟨fields, hfields⟩, ?_⟩
  obtain ⟨key, harg⟩ := haccepts.exists_target
  cases haccepts with
  | rest => exact absurd hresolve (resolve_rest_ne_storage harg _ _ access)
  | access hlocal hname =>
    have hkey := storageKey?_eq_some_iff.mpr ⟨hname, harg⟩
    rw [resolve, harg] at hresolve
    rcases hlocal with rfl | rfl
    · cases hresolve
      exact .read hkey
    · cases hempty : payload.isEmpty with
      | true =>
        rw [hempty] at hresolve
        cases hresolve
        exact .noData hkey hempty
      | false =>
        rw [hempty] at hresolve
        cases hresolve
        exact .write hkey hempty

end Describe

/-! ### Evaluations with a storage in memory -/

section Evaluate

variable {engine : Engine (τ × Slots)} {declaration key : Text} {payload : Payload}

namespace Engine.HasMemory

/-- A call leaves transport and storage in place. -/
lemma after (h : engine.HasMemory) (operation : Operation) :
    (engine.after operation).HasMemory := by
  obtain ⟨state, hafter⟩ := engine.after_eq operation
  rw [hafter]
  exact ⟨h.transport, h.storage⟩

/-- A sequence of calls leaves transport and storage in place. -/
lemma afterAll (h : engine.HasMemory) (operations : List Operation) :
    (engine.afterAll operations).HasMemory := by
  induction operations generalizing engine with
  | nil => exact h
  | cons operation rest ih => exact ih (h.after operation)

/-- A read gives what is stored, or null, and changes nothing. -/
lemma evaluate_read (h : engine.HasMemory) (hcompiled : engine.isCompiled declaration = true)
    (hkey : storageKey? .readLocal declaration = some key) (payload : Payload) :
    engine.evaluate declaration payload =
      (.ok (some ((engine.stored? key).getD .null)), engine) := by
  have hasks : Asks declaration payload ⟨key, false, none⟩ := .read hkey
  have hdescribe := hasks.describe_eq hcompiled
  have hretrieve : engine.storage.retrieve key engine.state =
      (.ok ((engine.stored? key).getD .null), engine.state) := by
    rw [h.storage]
    rfl
  exact Dispatches.evaluate_eq (hdescribe ▸ Dispatches.retrieved hretrieve)

/-- A write of data stores the whole payload. -/
lemma evaluate_write (h : engine.HasMemory) (hcompiled : engine.isCompiled declaration = true)
    (hkey : storageKey? .writeLocal declaration = some key) (hdata : payload.isEmpty = false) :
    engine.evaluate declaration payload =
      (.ok none, { engine with
        state := (engine.state.1, engine.state.2.insert key (Json.ofPayload payload)) }) := by
  have hdescribe := (Asks.write hkey hdata).describe_eq hcompiled
  have hstore : engine.storage.store key payload engine.state =
      (.ok (), engine.state.1, engine.state.2.insert key (Json.ofPayload payload)) := by
    rw [h.storage]
    rfl
  exact Dispatches.evaluate_eq (hdescribe ▸ Dispatches.stored hstore)

end Engine.HasMemory

/-- A write without data fails and changes nothing. -/
lemma evaluate_noData {engine : Engine σ} (hcompiled : engine.isCompiled declaration = true)
    (hkey : storageKey? .writeLocal declaration = some key) (hempty : payload.isEmpty = true) :
    engine.evaluate declaration payload = (.error (Cause.emptyStoreData : Failure), engine) := by
  have hdescribe := (Asks.noData hkey hempty).describe_eq hcompiled
  exact Dispatches.evaluate_eq (hdescribe ▸ Dispatches.noData key)

/-- A declaration that was never compiled fails and changes nothing. -/
lemma evaluate_of_not_compiled {engine : Engine σ} (h : engine.isCompiled declaration = false)
    (payload : Payload) :
    engine.evaluate declaration payload =
      (.error (Cause.notCompiled declaration : Failure), engine) := by
  have hnone : engine.cache.get? declaration = none :=
    Option.not_isSome_iff_eq_none.mp (Bool.eq_false_iff.mp h)
  have hdescribe : engine.describe declaration payload =
      .error (Cause.notCompiled declaration : Failure) := by
    rw [Engine.describe, Engine.facts, Cache.require, hnone]
    rfl
  exact Dispatches.evaluate_eq (hdescribe ▸ Dispatches.failed _)

/-- What is not written is not changed. -/
lemma Engine.HasMemory.slots_evaluate (h : engine.HasMemory)
    (hkey : storageKey? .writeLocal declaration = none) (payload : Payload) :
    (engine.evaluate declaration payload).2.state.2 = engine.state.2 := by
  cases hdescribe : engine.describe declaration payload with
  | error failure =>
    have hevaluate := Dispatches.evaluate_eq (hdescribe ▸ Dispatches.failed failure)
    rw [hevaluate]
  | ok request =>
    cases request with
    | rest call =>
      obtain ⟨own, hown⟩ := h.transport
      have hsend : engine.transport.send call engine.state =
          ((own.send call engine.state.1).1, (own.send call engine.state.1).2, engine.state.2) := by
        rw [hown]
        rfl
      have hevaluate := Dispatches.evaluate_eq (hdescribe ▸ Dispatches.sent hsend)
      rw [hevaluate]
    | storage access =>
      obtain ⟨hcompiled, hasks⟩ := describe_eq_storage_iff.mp hdescribe
      cases hasks with
      | read hread => rw [h.evaluate_read hcompiled hread]
      | write hwrite | noData hwrite =>
        rw [hkey] at hwrite
        cases hwrite

end Evaluate

/-! ### The writes of a run -/

/-- The write that a call makes, as a key with its data: an evaluation of a declaration that writes,
if it succeeds. -/
def Engine.written (engine : Engine σ) : Operation → List (Text × Payload)
  | .evaluate declaration payload =>
    match (engine.evaluate declaration payload).1 with
    | .error _ => []
    | .ok _ => ((storageKey? .writeLocal declaration).map fun key => (key, payload)).toList
  | .loadEntries _ | .compileSource _ | .compileAll _ | .validateSource _ | .facts _
  | .describe _ _ => []

/-- The writes that a sequence of calls makes, in their order. -/
def Engine.writes (engine : Engine σ) : List Operation → List (Text × Payload)
  | [] => []
  | operation :: rest => engine.written operation ++ (engine.after operation).writes rest

/-- The data of the last write under a key. -/
def lastWritten? (writes : List (Text × Payload)) (key : Text) : Option Payload :=
  writes.reverse.lookup key

lemma lastWritten?_append (before after : List (Text × Payload)) (key : Text) :
    lastWritten? (before ++ after) key = (lastWritten? after key).or (lastWritten? before key) := by
  rw [lastWritten?, List.reverse_append, List.lookup_append]
  rfl

lemma lastWritten?_singleton (written key : Text) (data : Payload) :
    lastWritten? [(written, data)] key = if key = written then some data else none := by
  rw [lastWritten?, List.reverse_singleton, lookup_cons, List.lookup_nil]

/-- A write is made by a successful evaluation of a declaration that writes its key. -/
lemma evaluates_of_mem_written {engine : Engine σ} {operation : Operation} {key : Text}
    {data : Payload} (h : (key, data) ∈ engine.written operation) :
    ∃ declaration answer, operation = .evaluate declaration data ∧
      storageKey? .writeLocal declaration = some key ∧
      (engine.evaluate declaration data).1 = .ok answer := by
  cases operation with
  | evaluate declaration payload =>
    rw [Engine.written] at h
    split at h
    · exact absurd h List.not_mem_nil
    · next answer hanswer =>
      obtain ⟨written, hkey, heq⟩ := Option.map_eq_some_iff.mp (Option.mem_toList.mp h)
      obtain ⟨rfl, rfl⟩ := Prod.mk.inj heq
      exact ⟨declaration, answer, rfl, hkey, hanswer⟩
  | loadEntries _ | compileSource _ | compileAll _ | validateSource _ | facts _ | describe _ _ =>
    exact absurd h List.not_mem_nil

namespace Engine.HasMemory

variable {engine : Engine (τ × Slots)}

/-- A call changes what is stored by the write that it makes, and by nothing else. -/
theorem stored?_after (h : engine.HasMemory) (operation : Operation) (key : Text) :
    (engine.after operation).stored? key =
      ((lastWritten? (engine.written operation) key).map Json.ofPayload).or
        (engine.stored? key) := by
  cases operation with
  | evaluate declaration payload =>
    rw [Engine.after, Engine.stored?, Engine.written]
    cases hcompiled : engine.isCompiled declaration with
    | false =>
      rw [evaluate_of_not_compiled hcompiled]
      rfl
    | true =>
      cases hkey : storageKey? .writeLocal declaration with
      | none =>
        rw [h.slots_evaluate hkey]
        cases (engine.evaluate declaration payload).1 <;> rfl
      | some written =>
        cases hempty : payload.isEmpty with
        | true =>
          rw [evaluate_noData hcompiled hkey hempty]
          rfl
        | false =>
          rw [h.evaluate_write hcompiled hkey hempty]
          dsimp only [Option.map_some, Option.toList_some]
          rw [lastWritten?_singleton, SortedMap.get?_insert]
          split <;> rfl
  | loadEntries entries =>
    rw [Engine.after, engine.loadEntries_snd]
    rfl
  | compileSource source =>
    rw [Engine.after, engine.compileSource_snd]
    rfl
  | compileAll tree =>
    rw [Engine.after, Engine.compileAll]
    cases readUnits tree engine.config.sourceRoot engine.config.extensions <;> rfl
  | validateSource _ | facts _ | describe _ _ => rfl

/-- A sequence of calls changes what is stored by the writes that it makes. -/
theorem stored?_afterAll (h : engine.HasMemory) (operations : List Operation) (key : Text) :
    (engine.afterAll operations).stored? key =
      ((lastWritten? (engine.writes operations) key).map Json.ofPayload).or
        (engine.stored? key) := by
  induction operations generalizing engine with
  | nil => rfl
  | cons operation rest ih =>
    have hrest := ih (h.after operation)
    rw [Engine.writes, lastWritten?_append, Option.map_or, Option.or_assoc,
      ← h.stored?_after operation key]
    exact hrest

end Engine.HasMemory

/-! ### A register for each key -/

/-- What can be relied on in the local storage of an engine that made some writes, where the slots
were filled in some way before. -/
structure Engine.Remembers (engine : Engine (τ × Slots)) (before : Slots)
    (writes : List (Text × Payload)) : Prop where
  /-- A read gives the whole payload of the last write of its key, whatever payload it gets. -/
  read_written : ∀ declaration key data payload, engine.isCompiled declaration = true →
    storageKey? .readLocal declaration = some key → lastWritten? writes key = some data →
      (engine.evaluate declaration payload).1 = .ok (some (Json.ofPayload data))
  /-- A read of a key that was not written gives what was there before, which is null in a storage
  that was empty. -/
  read_unwritten : ∀ declaration key payload, engine.isCompiled declaration = true →
    storageKey? .readLocal declaration = some key → lastWritten? writes key = none →
      (engine.evaluate declaration payload).1 = .ok (some ((before.get? key).getD .null))
  /-- A write of data succeeds. -/
  write_data : ∀ declaration key payload, engine.isCompiled declaration = true →
    storageKey? .writeLocal declaration = some key → payload.isEmpty = false →
      (engine.evaluate declaration payload).1 = .ok none
  /-- A write without data fails, compiled or not, and leaves what was stored. -/
  write_noData : ∀ declaration key payload, storageKey? .writeLocal declaration = some key →
    payload.isEmpty = true →
      engine.evaluate declaration payload =
        (.error ⟨if engine.isCompiled declaration then .emptyStoreData
          else .notCompiled declaration, none⟩, engine)
  /-- A call that changes a key is a successful evaluation of a declaration that writes it. -/
  changed : ∀ operation key, (engine.after operation).stored? key ≠ engine.stored? key →
    ∃ declaration data answer, operation = .evaluate declaration data ∧
      storageKey? .writeLocal declaration = some key ∧
      (engine.evaluate declaration data).1 = .ok answer

/-- What is changed was written. -/
lemma Engine.HasMemory.exists_write_of_changed {engine : Engine (τ × Slots)} (h : engine.HasMemory)
    {operation : Operation} {key : Text}
    (hchanged : (engine.after operation).stored? key ≠ engine.stored? key) :
    ∃ data, (key, data) ∈ engine.written operation := by
  rw [h.stored?_after operation key] at hchanged
  cases hlast : lastWritten? (engine.written operation) key with
  | none =>
    rw [hlast] at hchanged
    exact absurd rfl hchanged
  | some data =>
    obtain ⟨earlier, later, hsplit, -⟩ := List.lookup_eq_some_iff.mp hlast
    have hmem : (key, data) ∈ (engine.written operation).reverse := by
      rw [hsplit]
      exact List.mem_append_right _ List.mem_cons_self
    exact ⟨data, List.mem_reverse.mp hmem⟩

/-- The local storage in memory is a register for each key over any sequence of calls, whether they
succeed or fail: a read gives the data of the last successful write, and nothing but a write with
data changes a key. -/
theorem Engine.remembers_afterAll {start : Engine (τ × Slots)} (hmemory : start.HasMemory)
    (operations : List Operation) :
    (start.afterAll operations).Remembers start.state.2 (start.writes operations) := by
  have hafter := hmemory.afterAll operations
  have hstored := hmemory.stored?_afterAll operations
  refine ⟨?_, ?_, ?_, ?_, ?_⟩
  · intro declaration key data payload hcompiled hkey hlast
    rw [hafter.evaluate_read hcompiled hkey, hstored key, hlast]
    rfl
  · intro declaration key payload hcompiled hkey hlast
    rw [hafter.evaluate_read hcompiled hkey, hstored key, hlast]
    rfl
  · intro declaration key payload hcompiled hkey hdata
    rw [hafter.evaluate_write hcompiled hkey hdata]
  · intro declaration key payload hkey hempty
    cases hcompiled : (start.afterAll operations).isCompiled declaration with
    | false => exact evaluate_of_not_compiled hcompiled payload
    | true => exact evaluate_noData hcompiled hkey hempty
  · intro operation key hchanged
    obtain ⟨data, hwritten⟩ := hafter.exists_write_of_changed hchanged
    obtain ⟨declaration, answer, hoperation, hkey, hanswer⟩ := evaluates_of_mem_written hwritten
    exact ⟨declaration, data, answer, hoperation, hkey, hanswer⟩

/-- A profile that was saved is shown by a declaration that is spaced and described in another way,
behind a failed write, a failed request and a request that is sent. -/
theorem Engine.remembers_afterAll_profile :
    let save : Text := "(Local/set-in profile (Save the profile))"
    let load : Text := "Local/get-in   profile"
    let list : Text := "(Rest/get /users/:id selfMappings)"
    let data : Payload := SortedMap.ofList [("id", .int 7)]
    let operations : List Operation :=
      [.loadEntries [(save, ["id"]), (load, []), (list, ["id"])], .evaluate save data,
        .evaluate save SortedMap.empty, .evaluate list SortedMap.empty, .evaluate list data]
    let start : Engine (Unit × Slots) :=
      ⟨Config.default, SortedMap.empty, (Transport.echo Unit).onFirst Slots,
        Storage.memory.onSecond Unit, (), SortedMap.empty⟩
    start.HasMemory ∧
      ((start.afterAll operations).evaluate load SortedMap.empty).1 =
        .ok (some (.object [("id", .int 7)])) := by
  dsimp only
  refine ⟨⟨⟨Transport.echo Unit, rfl⟩, rfl⟩, ?_⟩
  refine (Engine.remembers_afterAll ⟨⟨Transport.echo Unit, rfl⟩, rfl⟩ _).read_written _ "profile"
    (SortedMap.ofList [("id", .int 7)]) _ ?_ ?_ ?_
  · decide +kernel
  · decide +kernel
  · with_unfolding_all rfl

end Endpoints
