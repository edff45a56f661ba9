import Endpoints.Proofs.EngineRuns

/-!
# The dry run

A description of a declaration shows in advance what its evaluation does.  To see what an evaluation
really does, the collaborators are watched (`Engine.watched`): each of them works on its own state as
before, and every call that it gets is noted.  `Dispatches` lists what follows a description, with
the calls, the answer and the state that the collaborators are left in; something follows whatever
the collaborators are (`exists_dispatches`), it is what evaluation does (`Dispatches.evaluate_eq`),
and under watch the same follows (`Dispatches.watched`).

A description depends on the cache alone, and evaluation does not touch the cache.  So the calls of a
whole run of evaluations are those of the descriptions that could be made before it
(`Engine.afterAll_watched`).
-/

namespace Endpoints

variable {σ : Type}

/-! ### Calls -/

/-- A call of a collaborator, with all that is handed over. -/
inductive CollaboratorCall where
  | send (call : RestCall)
  | store (key : Text) (data : Payload)
  | retrieve (key : Text)

/-- The transport that answers as before and notes its calls. -/
def Transport.watched (transport : Transport σ) : Transport (σ × List CollaboratorCall) where
  send call state :=
    let result := transport.send call state.1
    (result.1, result.2, state.2 ++ [.send call])

/-- The storage that answers as before and notes its calls. -/
def Storage.watched (storage : Storage σ) : Storage (σ × List CollaboratorCall) where
  store key data state :=
    let result := storage.store key data state.1
    (result.1, result.2, state.2 ++ [.store key data])
  retrieve key state :=
    let result := storage.retrieve key state.1
    (result.1, result.2, state.2 ++ [.retrieve key])

/-- The engine with both collaborators watched, behind the calls that they got so far. -/
def Engine.watched (engine : Engine σ) (calls : List CollaboratorCall) :
    Engine (σ × List CollaboratorCall) where
  config := engine.config
  cache := engine.cache
  transport := engine.transport.watched
  storage := engine.storage.watched
  state := (engine.state, calls)

/-- What may follow a description: the calls that are made, the answer that is given, and the state
in which the collaborators are left. -/
inductive Dispatches (engine : Engine σ) :
    Except Failure Request → List CollaboratorCall → Except Failure (Option Json) → σ → Prop
  /-- Without a description nothing is called. -/
  | failed (failure : Failure) : Dispatches engine (.error failure) [] (.error failure) engine.state
  /-- A REST call is sent, and the response or the failure of the transport is the answer. -/
  | sent {call : RestCall} {response : Except Failure Json} {state : σ}
      (h : engine.transport.send call engine.state = (response, state)) :
      Dispatches engine (.ok (.rest call)) [.send call] (response.map some) state
  /-- A read retrieves its key, and the value or the failure of the storage is the answer. -/
  | retrieved {key : Text} {data : Option Payload} {value : Except Failure Json} {state : σ}
      (h : engine.storage.retrieve key engine.state = (value, state)) :
      Dispatches engine (.ok (.storage ⟨key, false, data⟩)) [.retrieve key] (value.map some) state
  /-- A write with data stores them, and gives no value or the failure of the storage. -/
  | stored {key : Text} {data : Payload} {done : Except Failure Unit} {state : σ}
      (h : engine.storage.store key data engine.state = (done, state)) :
      Dispatches engine (.ok (.storage ⟨key, true, some data⟩)) [.store key data]
        (done.map fun _ => none) state
  /-- A write without data fails, and nothing is called. -/
  | noData (key : Text) :
      Dispatches engine (.ok (.storage ⟨key, true, none⟩)) []
        (.error (Cause.emptyStoreData : Failure)) engine.state

section Dispatches

variable {engine : Engine σ} {description : Except Failure Request}
  {calls : List CollaboratorCall} {answer : Except Failure (Option Json)} {state : σ}

/-- Something follows every description. -/
lemma exists_dispatches (engine : Engine σ) (description : Except Failure Request) :
    ∃ calls answer state, Dispatches engine description calls answer state := by
  cases description with
  | error failure => exact ⟨_, _, _, .failed failure⟩
  | ok request =>
    cases request with
    | rest call => exact ⟨_, _, _, .sent rfl⟩
    | storage access =>
      obtain ⟨key, write, data⟩ := access
      cases write with
      | false => exact ⟨_, _, _, .retrieved rfl⟩
      | true =>
        cases data with
        | none => exact ⟨_, _, _, .noData key⟩
        | some data => exact ⟨_, _, _, .stored rfl⟩

/-- Under watch the same follows, and its calls are noted behind the earlier ones. -/
lemma Dispatches.watched (h : Dispatches engine description calls answer state)
    (before : List CollaboratorCall) :
    Dispatches (engine.watched before) description calls answer (state, before ++ calls) := by
  cases h with
  | failed failure =>
    rw [List.append_nil]
    exact .failed failure
  | sent h => exact .sent (by simp only [Engine.watched, Transport.watched, h])
  | retrieved h => exact .retrieved (by simp only [Engine.watched, Storage.watched, h])
  | stored h => exact .stored (by simp only [Engine.watched, Storage.watched, h])
  | noData key =>
    rw [List.append_nil]
    exact .noData key

/-- A request that is performed does what follows it. -/
lemma Dispatches.perform_eq {request : Request}
    (h : Dispatches engine (.ok request) calls answer state) :
    engine.perform request = (answer, { engine with state }) := by
  cases h with
  | sent h => simp only [Engine.perform, h]
  | retrieved h => simp only [Engine.perform, h, Bool.false_eq_true, if_false]
  | stored h => simp only [Engine.perform, h, if_true]
  | noData key => simp only [Engine.perform, if_true]

/-- An evaluation does what follows its description. -/
theorem Dispatches.evaluate_eq {declaration : Text} {payload : Payload}
    (h : Dispatches engine (engine.describe declaration payload) calls answer state) :
    engine.evaluate declaration payload = (answer, { engine with state }) := by
  rw [Engine.evaluate]
  cases hdescribe : engine.describe declaration payload with
  | error failure =>
    rw [hdescribe] at h
    cases h
    rfl
  | ok request =>
    rw [hdescribe] at h
    exact h.perform_eq

end Dispatches

/-! ### Descriptions and evaluations -/

/-- An evaluation does what follows its description, watched or not. -/
lemma exists_dispatches_evaluate (engine : Engine σ) (declaration : Text) (payload : Payload)
    (before : List CollaboratorCall) :
    ∃ calls answer state,
      Dispatches engine (engine.describe declaration payload) calls answer state ∧
      engine.evaluate declaration payload = (answer, { engine with state }) ∧
      (engine.watched before).evaluate declaration payload =
        (answer, { engine with state }.watched (before ++ calls)) := by
  obtain ⟨calls, answer, state, h⟩ :=
    exists_dispatches engine (engine.describe declaration payload)
  have hwatched : Dispatches (engine.watched before)
      ((engine.watched before).describe declaration payload) calls answer
      (state, before ++ calls) := h.watched before
  exact ⟨calls, answer, state, h, h.evaluate_eq, hwatched.evaluate_eq⟩

/-- The answer of the echo transport to a described call. -/
lemma evaluate_echo (engine : Engine σ) {declaration : Text} {payload : Payload} {call : RestCall}
    (h : engine.describe declaration payload = .ok (.rest call)) :
    ({ engine with transport := Transport.echo σ }.evaluate declaration payload).1 =
      .ok (some call.echo) := by
  let echoing : Engine σ := { engine with transport := Transport.echo σ }
  have hdescribe : echoing.describe declaration payload = .ok (.rest call) := h
  have hsent : Dispatches echoing (echoing.describe declaration payload) [.send call]
      (.ok (some call.echo)) engine.state := by
    have hsend : echoing.transport.send call echoing.state = (.ok call.echo, engine.state) := rfl
    rw [hdescribe]
    exact .sent hsend
  exact congrArg Prod.fst hsent.evaluate_eq

/-- An evaluation makes the call that its description announces, or none, and no other; it answers
what the collaborator answers, or fails as the description does, and leaves everything but the state
of the collaborators as it is.  To a described REST call the echo transport answers with the
description. -/
theorem evaluate_follows_describe (engine : Engine σ) (declaration : Text) (payload : Payload)
    (before : List CollaboratorCall) :
    (∃ calls answer state,
      Dispatches engine (engine.describe declaration payload) calls answer state ∧
      engine.evaluate declaration payload = (answer, { engine with state }) ∧
      (engine.watched before).evaluate declaration payload =
        (answer, { engine with state }.watched (before ++ calls))) ∧
    ∀ call, engine.describe declaration payload = .ok (.rest call) →
      ({ engine with transport := Transport.echo σ }.evaluate declaration payload).1 =
        .ok (some (.object [("body", Json.ofPayload? call.body),
          ("method", .string call.method.name), ("url", .string call.url)])) :=
  ⟨exists_dispatches_evaluate engine declaration payload before,
    fun _ hdescribe => evaluate_echo engine hdescribe⟩

/-- A request for the URL `/users/:id` comes back from the echo transport as it was described. -/
theorem evaluate_follows_describe_users :
    let declaration : Text := "(Rest/get /users/:id selfMappings)"
    let payload : Payload := SortedMap.ofList [("id", .int 7)]
    let engine : Engine Slots :=
      ⟨Config.default, SortedMap.ofList [(declaration, ["id"])], Transport.echo Slots,
        Storage.memory, SortedMap.empty⟩
    engine.describe declaration payload = .ok (.rest ⟨.get, "/users/7", none⟩) ∧
      (engine.evaluate declaration payload).1 =
        .ok (some (.object [("body", .null), ("method", .string "get"),
          ("url", .string "/users/7")])) := by
  intro declaration payload engine
  let facts : Facts := ⟨["id"], some (Mapping.identity ["id"]), none⟩
  have hfacts : engine.facts declaration = .ok (.rest .get, facts) := by decide +kernel
  have harg : (Form.split declaration).arg? 0 = some ("/users/:id" : Text) := by decide +kernel
  have hurl : formatUrl ("/users/:id" : Text) facts.urlMapping payload = .ok ("/users/7" : Text) := by
    decide +kernel
  have hdescribe : engine.describe declaration payload = .ok (.rest ⟨.get, "/users/7", none⟩) := by
    rw [Engine.describe, hfacts]
    exact (resolve_rest harg .get facts payload).trans (by rw [hurl]; rfl)
  refine ⟨hdescribe, ?_⟩
  exact (evaluate_follows_describe engine declaration payload []).2 _ hdescribe

/-! ### Runs of evaluations -/

/-- The calls that a description announces. -/
def announced : Except Failure Request → List CollaboratorCall
  | .error _ => []
  | .ok (.rest call) => [.send call]
  | .ok (.storage access) =>
    if access.write then (access.data.map fun data => .store access.key data).toList
    else [.retrieve access.key]

/-- What is called is what the description announces. -/
lemma Dispatches.calls_eq {engine : Engine σ} {description : Except Failure Request}
    {calls : List CollaboratorCall} {answer : Except Failure (Option Json)} {state : σ}
    (h : Dispatches engine description calls answer state) : calls = announced description := by
  cases h <;> rfl

/-- The evaluation of one declaration after another. -/
def evaluations (requests : List (Text × Payload)) : List Operation :=
  requests.map fun request => .evaluate request.1 request.2

/-- The calls that the descriptions of some requests announce, one request after another. -/
def Engine.announcedFor (engine : Engine σ) (requests : List (Text × Payload)) :
    List CollaboratorCall :=
  requests.flatMap fun request => announced (engine.describe request.1 request.2)

/-- A run of evaluations makes the calls that the descriptions announce at its start. -/
theorem Engine.afterAll_watched (engine : Engine σ) (requests : List (Text × Payload))
    (before : List CollaboratorCall) :
    ∃ state, engine.afterAll (evaluations requests) = { engine with state } ∧
      (engine.watched before).afterAll (evaluations requests) =
        { engine with state }.watched (before ++ engine.announcedFor requests) := by
  induction requests generalizing engine before with
  | nil =>
    rw [Engine.announcedFor, List.flatMap_nil, List.append_nil]
    exact ⟨engine.state, rfl, rfl⟩
  | cons request rest ih =>
    obtain ⟨calls, answer, after, h, hplain, hwatched⟩ :=
      exists_dispatches_evaluate engine request.1 request.2 before
    -- the descriptions of the other requests are the same before and after the first evaluation
    obtain ⟨state, hrest, hwatchedRest⟩ := ih { engine with state := after } (before ++ calls)
    have hcalls : calls ++ Engine.announcedFor { engine with state := after } rest =
        engine.announcedFor (request :: rest) := by
      rw [h.calls_eq, Engine.announcedFor, Engine.announcedFor, List.flatMap_cons]
      rfl
    refine ⟨state, ?_, ?_⟩
    · have hfirst : engine.after (.evaluate request.1 request.2) = { engine with state := after } :=
        congrArg Prod.snd hplain
      rw [← hrest, ← hfirst]
      rfl
    · have hfirst : (engine.watched before).after (.evaluate request.1 request.2) =
          { engine with state := after }.watched (before ++ calls) := congrArg Prod.snd hwatched
      rw [← hcalls, ← List.append_assoc, ← hwatchedRest, ← hfirst]
      rfl

end Endpoints
