import Endpoints.Proofs.EngineRuns
import Endpoints.Proofs.MapLiterals
import Endpoints.Proofs.StaleFacts

/-!
# What is sent as the body of a request

The body of a request is a part of the payload, and the directives of the declaration say which: the
keys of a map literal behind the URL, else the keys of a map literal at the position of the body,
else the request fields (`bodyKeys`).  A map literal behind the URL goes first because it is checked
last, so that it puts its mapping over what the position of the body has established.

The body reads the payload under the keys of a mapping, and not under its targets.  What is left of
the payload is a map again, and a map is determined by what is found under its keys
(`SortedMap.ext_get?`); so of the mapping only the set of its keys shows in the body.
-/

namespace Endpoints

/-! ### Maps with the same values -/

namespace SortedMap

variable {α : Type}

/-- A key below all others has no value. -/
lemma lookup_eq_none_of_lt {key : Text} {entries : List (Text × α)}
    (h : ∀ entry ∈ entries, key < entry.1) : entries.lookup key = none := by
  rw [List.lookup_eq_none_iff]
  intro entry hentry
  exact bne_iff_ne.mpr fun heq => List.lt_irrefl _ (heq ▸ h entry hentry)

/-- A key with a value is not below the first one. -/
lemma not_lt_of_lookup_eq_some {key : Text} {value : α} {entry : Text × α}
    {rest : List (Text × α)} (h : Ascending (entry :: rest))
    (hvalue : (entry :: rest).lookup key = some value) : ¬ key < entry.1 := by
  intro hlt
  have hbelow := (List.pairwise_cons.mp h).1
  have hnone : (entry :: rest).lookup key = none := lookup_eq_none_of_lt
    (List.forall_mem_cons.mpr ⟨hlt, fun later hlater => List.lt_trans hlt (hbelow later hlater)⟩)
  cases hnone.symm.trans hvalue

/-- Ascending entries in which the same is found are the same. -/
lemma entries_eq_of_lookup {entries others : List (Text × α)} (h : Ascending entries)
    (h' : Ascending others) (hlookup : ∀ key, entries.lookup key = others.lookup key) :
    entries = others := by
  have hself : ∀ (entry : Text × α) (rest : List (Text × α)),
      (entry :: rest).lookup entry.1 = some entry.2 := fun entry rest =>
    (lookup_cons _ _ _ _).trans (if_pos rfl)
  induction entries generalizing others with
  | nil =>
    cases others with
    | nil => rfl
    | cons other rest' => cases (hlookup other.1).trans (hself other rest')
  | cons entry rest ih =>
    cases others with
    | nil => cases (hself entry rest).symm.trans (hlookup entry.1)
    | cons other rest' =>
      have hfirst := (hlookup entry.1).symm.trans (hself entry rest)
      have hfirst' := (hlookup other.1).trans (hself other rest')
      have hkey : entry.1 = other.1 := Text.eq_of_not_lt (not_lt_of_lookup_eq_some h' hfirst)
        (not_lt_of_lookup_eq_some h hfirst')
      have hvalue : entry.2 = other.2 := by
        rw [hkey, hself] at hfirst
        exact (Option.some.inj hfirst).symm
      obtain rfl : entry = other := Prod.ext hkey hvalue
      obtain ⟨hbelow, hrest⟩ := List.pairwise_cons.mp h
      obtain ⟨hbelow', hrest'⟩ := List.pairwise_cons.mp h'
      refine congrArg (entry :: ·) (ih hrest hrest' fun key => ?_)
      by_cases hk : key = entry.1
      · rw [hk, lookup_eq_none_of_lt hbelow, lookup_eq_none_of_lt hbelow']
      · have hlater := hlookup key
        rwa [lookup_cons, lookup_cons, if_neg hk, if_neg hk] at hlater

/-- A map is determined by the values of its keys. -/
lemma ext_get? {m n : SortedMap α} (h : ∀ key, m.get? key = n.get? key) : m = n :=
  ext (entries_eq_of_lookup m.ascending n.ascending h)

/-- The last entry of a key gives its value. -/
lemma get?_ofList (entries : List (Text × α)) (key : Text) :
    (ofList entries).get? key = entries.reverse.lookup key := by
  -- entries that are inserted later go over what is there
  have hinsert : ∀ later sorted : List (Text × α),
      (later.foldl (fun sorted entry => insertSorted entry.1 entry.2 sorted) sorted).lookup key =
        (later.reverse.lookup key).or (sorted.lookup key) := by
    intro later
    induction later with
    | nil => exact fun sorted => rfl
    | cons entry rest ih =>
      intro sorted
      rw [List.foldl_cons, ih, lookup_insertSorted, List.reverse_cons, List.lookup_append,
        Option.or_assoc, lookup_cons]
      split <;> rfl
  have h := hinsert entries []
  rw [List.lookup_nil, Option.or_none] at h
  exact h

/-- The map with only the given keys. -/
def restrict (m : SortedMap α) (names : List Text) : SortedMap α :=
  ⟨m.entries.filter fun entry => names.contains entry.1, m.ascending.filter _⟩

/-- A key has its value in the restricted map if it is one of those given. -/
@[simp] lemma get?_restrict (m : SortedMap α) (names : List Text) (key : Text) :
    (m.restrict names).get? key = if key ∈ names then m.get? key else none := by
  rw [get?, restrict, lookup_filter names.contains, get?]
  simp only [List.contains_iff_mem]

end SortedMap

/-! ### The body of a mapping -/

/-- The values under some keys, one entry a key. -/
lemma lookup_filterMap_get? (payload : Payload) (keys : List Text) (name : Text) :
    (keys.filterMap fun key => (payload.get? key).map (key, ·)).lookup name =
      if name ∈ keys then payload.get? name else none := by
  induction keys with
  | nil => rfl
  | cons key keys ih =>
    cases hvalue : payload.get? key with
    | none =>
      rw [List.filterMap_cons_none (by rw [hvalue, Option.map_none]), ih]
      by_cases hname : name = key
      · rw [hname, hvalue, ite_self, ite_self]
      · simp only [List.mem_cons, hname, false_or]
    | some value =>
      rw [List.filterMap_cons_some (by rw [hvalue, Option.map_some]), lookup_cons, ih]
      by_cases hname : name = key
      · rw [if_pos hname, if_pos (hname ▸ List.mem_cons_self), hname, hvalue]
      · simp only [List.mem_cons, hname, false_or, if_false]

/-- The body has the values of the payload under the keys of the mapping. -/
lemma get?_requestBody (mapping : Mapping) (payload : Payload) (name : Text) :
    (requestBody (some mapping) payload).get? name =
      if name ∈ mapping.keys then payload.get? name else none := by
  rw [requestBody, SortedMap.get?_ofList, ← List.filterMap_reverse, Option.map_some,
    Option.getD_some, lookup_filterMap_get?]
  simp only [List.mem_reverse]

/-- The body is the payload with only the keys of the mapping, in whatever order and however often
they are listed. -/
theorem requestBody_eq_restrict {mapping : Mapping} {names : List Text}
    (h : ∀ name, name ∈ names ↔ name ∈ mapping.keys) (payload : Payload) :
    requestBody (some mapping) payload = payload.restrict names :=
  SortedMap.ext_get? fun name => by
    rw [get?_requestBody, SortedMap.get?_restrict]
    simp only [h]

/-! ### The mapping of the directives -/

/-- The keys that the directives of a form give to the body: those of a map literal behind the URL,
else those of a map literal at the position of the body, else the fields. -/
def bodyKeys (form : Form) (fields : List Text) : List Text :=
  match (form.arg? 1).bind MapLiteral.parse?, (form.arg? 2).bind MapLiteral.parse? with
  | some mapping, _ => mapping.keys
  | none, some mapping => mapping.keys
  | none, none => fields

/-- A request with a body establishes a mapping with the keys that the directives give. -/
lemma Accepts.exists_bodyMapping {form : Form} {fields : List Text} {method : Method}
    {found : Facts} (h : Accepts form fields (.rest method) found)
    (hmethod : method.hasBody = true) :
    ∃ mapping, found.bodyMapping = some mapping ∧
      ∀ name, name ∈ mapping.keys ↔ name ∈ bodyKeys form fields := by
  cases h with
  | access hlocal => rcases hlocal with h | h <;> cases h
  | @rest method body url mapping hname hbody hmapping harg hurl hbound =>
    dsimp only
    rw [bodyKeys]
    cases hfirst : (form.arg? 1).bind MapLiteral.parse? with
    | some literal => exact ⟨literal, rfl, fun name => Iff.rfl⟩
    | none =>
      rw [Option.none_or]
      cases hbody with
      | absent h => cases hmethod.symm.trans h
      | @given given _ hgiven =>
        refine ⟨given, rfl, fun name => ?_⟩
        rcases directive_iff.mp hgiven with hliteral | ⟨htoken, rfl⟩
        · rw [hliteral]
        · have hnone : (form.arg? 2).bind MapLiteral.parse? = none := by
            rw [htoken]
            decide
          rw [hnone]
          exact Mapping.mem_keys_identity

/-- The body of a request is the payload with only the keys that the directives give, and a request
with the method `get` has none.  The keys count as a set: any names with the same members give the
same body, so targets, order and repetitions do not show in it. -/
theorem resolve_body_exact {declaration : Text} {fields : List Text} {method : Method}
    {facts : Facts} (hfacts : deriveFacts declaration fields = .ok (.rest method, facts))
    {payload : Payload} {request : Request}
    (hresolve : resolve (.rest method) (Form.split declaration) facts payload = .ok request)
    {names : List Text}
    (hnames : ∀ name, name ∈ names ↔ name ∈ bodyKeys (Form.split declaration) fields) :
    ∃ url, request = .rest {
      method, url
      body := if method = .get then none else some (payload.restrict names) } := by
  have haccepts := deriveFacts_eq_ok_iff.mp hfacts
  obtain ⟨target, harg⟩ := haccepts.exists_target
  rw [resolve_rest harg] at hresolve
  cases hurl : formatUrl target facts.urlMapping payload with
  | error failure =>
    rw [hurl] at hresolve
    cases hresolve
  | ok url =>
    rw [hurl] at hresolve
    cases hresolve
    refine ⟨url, ?_⟩
    cases hmethod : method.hasBody with
    | false =>
      rw [if_pos (Method.hasBody_eq_false_iff.mp hmethod)]
      rfl
    | true =>
      obtain ⟨mapping, hmapping, hkeys⟩ := haccepts.exists_bodyMapping hmethod
      have hget : method ≠ .get := by
        rintro rfl
        cases hmethod
      have hbody := requestBody_eq_restrict (fun name => (hnames name).trans (hkeys name).symm)
        payload
      rw [if_neg hget, hmapping, hbody]
      rfl

/-- A map literal behind the URL decides over the one for the body, and its keys are read in the
payload under their own names. -/
theorem resolve_body_exact_literal :
    let declaration : Text := "(Rest/put /users/:id \x7b:id name :page name\x7d \x7b:name id\x7d)"
    let mapping := Mapping.ofList [("id", "name"), ("page", "name")]
    let facts : Facts := ⟨["name", "name"], some mapping, some mapping⟩
    let payload : Payload :=
      SortedMap.ofList [("id", .int 7), ("name", .string "x"), ("page", .string "y")]
    let names : List Text := ["page", "id", "page"]
    deriveFacts declaration ["name", "name"] = .ok (.rest .put, facts) ∧
      (∀ name, name ∈ names ↔ name ∈ bodyKeys (Form.split declaration) ["name", "name"]) ∧
      resolve (.rest .put) (Form.split declaration) facts payload =
        .ok (.rest ⟨.put, "/users/7", some (payload.restrict names)⟩) ∧
      payload.restrict names = SortedMap.ofList [("id", .int 7), ("page", .string "y")] := by
  intro declaration mapping facts payload names
  have hfacts : deriveFacts declaration ["name", "name"] = .ok (.rest .put, facts) := by
    decide +kernel
  have hnames : ∀ name, name ∈ names ↔
      name ∈ bodyKeys (Form.split declaration) ["name", "name"] := by
    have hkeys : bodyKeys (Form.split declaration) ["name", "name"] =
        [("id" : Text), "page"] := by decide +kernel
    intro name
    rw [hkeys, List.mem_cons, List.mem_pair]
    exact ⟨fun h => h.elim .inr id, .inr⟩
  have harg : (Form.split declaration).arg? 0 = some ("/users/:id" : Text) := by decide +kernel
  have hurl : formatUrl ("/users/:id" : Text) facts.urlMapping payload =
      .ok ("/users/7" : Text) := by decide +kernel
  have hresolve : resolve (.rest .put) (Form.split declaration) facts payload =
      .ok (.rest ⟨.put, "/users/7", some (requestBody (some mapping) payload)⟩) := by
    rw [resolve_rest harg, hurl]
    rfl
  obtain ⟨url, hrequest⟩ := resolve_body_exact hfacts hresolve hnames
  obtain ⟨-, -, hbody⟩ := RestCall.mk.inj (Request.rest.inj hrequest)
  rw [hbody] at hresolve
  exact ⟨hfacts, hnames, hresolve, SortedMap.ext rfl⟩

end Endpoints
