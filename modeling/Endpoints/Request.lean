import Endpoints.Declaration.Compilation

/-!
# Requests

A compiled declaration and a payload together describe one request: a REST call with its method,
URL and body, or a read or write of the local storage under a key.  Describing a request sends
nothing.
-/

namespace Endpoints

/-! ### Filling URL templates

The URL of a request is its template with the mapped placeholders replaced by payload values: in
the path by the value, in the query by the name, an equals sign and the value.  The keys of the
mapping are taken one after another, each over the whole template.  A placeholder is replaced only
as a whole token, so `:id` leaves `:idx` alone, and a value is asked for only where it is used.
-/

/-- Whether the text behind a key ends the token, so that the key is not part of a longer word. -/
def endsToken (t : Text) : Bool :=
  match t with
  | [] => true
  | c :: _ => !isWordChar c

/-- Replaces every whole token `:key` of a text by `value`.  Behind an occurrence of the key, whole
token or not, the search goes on after the key.  If `value` is an error, the first place that
needs it is an error. -/
def substitute {ε : Type} (key : Text) (value : Except ε Text) : Text → Except ε Text
  | [] => .ok []
  | c :: rest =>
    if c = ':' && key.isPrefixOf rest then
      match endsToken (rest.drop key.length), value with
      | true, .error e => .error e
      | true, .ok v => (substitute key value (rest.drop key.length)).map (v ++ ·)
      | false, _ => (substitute key value (rest.drop key.length)).map (':' :: key ++ ·)
    else (substitute key value rest).map (c :: ·)
termination_by t => t.length
decreasing_by all_goals simp only [List.length_drop, List.length_cons]; omega

/-- The value of a name as it appears in a URL. -/
def Payload.urlValue (payload : Payload) (name : Text) : Except Failure Text :=
  match payload.get? name with
  | some value => .ok value.render
  | none => .error (Cause.missingRequestData name)

/-- Fills one key into the path and the query of a template. -/
def fillKey (payload : Payload) (key : Text) (path : Text) (query : Option Text) :
    Except Failure (Text × Option Text) := do
  let value := payload.urlValue key
  let path ← substitute key value path
  match query with
  | none => .ok (path, none)
  | some query => do
    let query ← substitute key (value.map fun v => key ++ '=' :: v) query
    .ok (path, some query)

/-- Fills keys one after another into the path and the query of a template. -/
def fillKeys (payload : Payload) :
    List Text → Text → Option Text → Except Failure (Text × Option Text)
  | [], path, query => .ok (path, query)
  | key :: rest, path, query => do
    let (path, query) ← fillKey payload key path query
    fillKeys payload rest path query

/-- The URL of a template: everything behind the first question mark is its query. -/
def formatUrl (template : Text) (mapping : Option Mapping) (payload : Payload) :
    Except Failure Text := do
  let (path, query) := Text.cutAt '?' template
  let keys := (mapping.map Mapping.keys).getD []
  match ← fillKeys payload keys path query with
  | (path, none) => .ok path
  | (path, some query) => .ok (path ++ '?' :: query)

/-! ### Descriptions of requests -/

/-- A REST call; requests with the method `get` have no body. -/
structure RestCall where
  method : Method
  url : Text
  body : Option Payload

/-- A read or write of the local storage; data is there only for a write that was given some. -/
structure StorageAccess where
  key : Text
  write : Bool
  data : Option Payload

/-- What evaluating a declaration does. -/
inductive Request where
  | rest (call : RestCall)
  | storage (access : StorageAccess)

/-- A payload as JSON, or null where there is none. -/
def Json.ofPayload? (payload : Option Payload) : Json :=
  (payload.map Json.ofPayload).getD .null

/-- The description of a request, its members in the order in which they are shown. -/
def Request.toJson : Request → Json
  | .rest call =>
    .object [("kind", .string "rest"), ("method", .string call.method.name),
      ("url", .string call.url), ("body", Json.ofPayload? call.body)]
  | .storage access =>
    .object [("kind", .string "storage"), ("key", .string access.key),
      ("write", .bool access.write), ("data", Json.ofPayload? access.data)]

/-- The body of a request: the values of the payload under the keys of the body mapping. -/
def requestBody (mapping : Option Mapping) (payload : Payload) : Payload :=
  SortedMap.ofList <| ((mapping.map Mapping.keys).getD []).filterMap fun key =>
    (payload.get? key).map (key, ·)

/-- The request of a validated declaration: its keyword, its form and the facts it establishes. -/
def resolve (keyword : Keyword) (form : Form) (facts : Facts) (payload : Payload) :
    Except Failure Request :=
  match form.arg? 0 with
  | none => .error (Cause.internal (keyword.name ++ " has no target"))
  | some target =>
    match keyword with
    | .rest method => do
      let url ← formatUrl target facts.urlMapping payload
      .ok (.rest {
        method, url
        body := if method.hasBody then some (requestBody facts.bodyMapping payload) else none })
    | .readLocal => .ok (.storage { key := target, write := false, data := none })
    | .writeLocal =>
      .ok (.storage {
        key := target, write := true
        data := if payload.isEmpty then none else some payload })

end Endpoints
