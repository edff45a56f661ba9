import Endpoints.Proofs.Replacement
import Endpoints.Request

/-!
# Filling the keys of a mapping

General facts about the passes of `formatUrl`: how a URL is put together from path and query, what
one key needs from the payload, and how one key and a list of keys can fail.  A pass looks up its
own key only (`fillKey_congr`), and needs the value exactly if the text so far has a token of it
(`fillKey_eq_self`, `fillKey_missing`).  Hence whatever fails, fails because the value of one of the
keys is missing (`missing_of_fillKeys_error`).
-/

namespace Endpoints

open UrlTemplate

/-! ### Path and query -/

/-- A path and the query that may follow it, as one text. -/
def joinQuery (path : Text) : Option Text → Text
  | none => path
  | some query => path ++ '?' :: query

/-- The names of a path and of the query that may follow it. -/
def namesIn (path : Text) (query : Option Text) : List Text :=
  namesOf path ++ (query.map namesOf).getD []

/-- Cut at the first question mark and joined again a text is the same. -/
lemma joinQuery_cutAt (t : Text) : joinQuery (Text.cutAt '?' t).1 (Text.cutAt '?' t).2 = t := by
  have hparts : t.takeWhile (· != '?') ++ t.dropWhile (· != '?') = t :=
    List.takeWhile_append_dropWhile
  rw [Text.cutAt]
  cases hrest : t.dropWhile (· != '?') with
  | nil =>
    rw [hrest, List.append_nil] at hparts
    exact hparts
  | cons c q =>
    have hc : c = '?' := by
      have hhead := List.head?_dropWhile_not (· != '?') t
      simpa [hrest] using hhead
    subst hc
    rwa [hrest] at hparts

/-- What stands in front of the first question mark holds none. -/
lemma not_mem_cutAt (t : Text) : '?' ∉ (Text.cutAt '?' t).1 := by
  intro h
  have hall := List.all_eq_true.mp
    (List.all_takeWhile : (t.takeWhile (· != '?')).all (· != '?') = true) '?' h
  exact absurd hall (by decide)

/-- A question mark ends every token. -/
lemma endsToken_question (q : Text) : endsToken ('?' :: q) = true := rfl

/-- The names of a joined text are those of its path and of its query. -/
lemma namesOf_joinQuery (path : Text) (query : Option Text) :
    namesOf (joinQuery path query) = namesIn path query := by
  cases query with
  | none => simp [joinQuery, namesIn]
  | some q =>
    rw [joinQuery, namesOf_append path (endsToken_question q), namesOf_char (by decide)]
    rfl

/-- The placeholders of a template are the names of its path and of its query. -/
lemma mem_placeholders_cutAt {t name : Text} :
    name ∈ placeholders t ↔ name ∈ namesIn (Text.cutAt '?' t).1 (Text.cutAt '?' t).2 := by
  rw [mem_placeholders, ← namesOf_joinQuery, joinQuery_cutAt]

/-- A URL is the filled path with the filled query behind it. -/
lemma formatUrl_eq (template : Text) (mapping : Mapping) (payload : Payload) :
    formatUrl template (some mapping) payload =
      (fillKeys payload mapping.keys (Text.cutAt '?' template).1 (Text.cutAt '?' template).2).map
        fun filled => joinQuery filled.1 filled.2 := by
  rw [formatUrl]
  simp only [Option.map_some, Option.getD_some]
  cases fillKeys payload mapping.keys (Text.cutAt '?' template).1 (Text.cutAt '?' template).2 with
  | error e => rfl
  | ok filled =>
    obtain ⟨path, query⟩ := filled
    cases query <;> rfl

/-! ### One key -/

section Passes

variable {payload other : Payload} {key : Text} {path : Text} {query : Option Text}

/-- Filling a key looks at no other key. -/
lemma fillKey_congr (h : payload.get? key = other.get? key) :
    fillKey payload key path query = fillKey other key path query := by
  have hvalue : payload.urlValue key = other.urlValue key := by
    rw [Payload.urlValue, Payload.urlValue, h]
  rw [fillKey, fillKey, hvalue]

/-- A key without a token stays without effect, whether it has a value or not. -/
lemma fillKey_eq_self (hkey : Text.isWord key = true) (hnames : key ∉ namesIn path query) :
    fillKey payload key path query = .ok (path, query) := by
  rw [namesIn, List.mem_append, not_or] at hnames
  obtain ⟨hpath, hquery⟩ := hnames
  rw [fillKey, substitute_eq_self hkey _ hpath]
  cases query with
  | none => rfl
  | some q =>
    have hq := substitute_eq_self hkey ((payload.urlValue key).map fun v => key ++ '=' :: v) hquery
    exact congrArg (fun filled => Except.map (fun q => (path, some q)) filled) hq

/-- A key with a token needs a value. -/
lemma fillKey_missing (hkey : Text.isWord key = true) (hnames : key ∈ namesIn path query)
    (hnone : payload.get? key = none) :
    fillKey payload key path query = .error (Cause.missingRequestData key : Failure) := by
  have hvalue : payload.urlValue key = .error (Cause.missingRequestData key : Failure) := by
    rw [Payload.urlValue, hnone]
  rw [fillKey, hvalue]
  by_cases hpath : key ∈ namesOf path
  · rw [substitute_error hkey _ hpath]
    rfl
  · rw [namesIn, List.mem_append] at hnames
    have hquery := hnames.resolve_left hpath
    rw [substitute_eq_self hkey _ hpath]
    cases query with
    | none => exact absurd hquery List.not_mem_nil
    | some q =>
      have hq := substitute_error hkey (Cause.missingRequestData key : Failure) hquery
      exact congrArg (fun filled => Except.map (fun q => (path, some q)) filled) hq

/-- Filling a key fails only because its value is missing. -/
lemma missing_of_fillKey_error {failure : Failure}
    (h : fillKey payload key path query = .error failure) :
    payload.get? key = none ∧ failure = Cause.missingRequestData key := by
  have hvalue : payload.urlValue key = .error failure := by
    rw [fillKey] at h
    cases hpath : substitute key (payload.urlValue key) path with
    | error e =>
      rw [hpath] at h
      cases h
      exact eq_of_substitute_error hpath
    | ok filled =>
      rw [hpath] at h
      cases query with
      | none => cases h
      | some q => exact map_eq_error_iff.mp (eq_of_substitute_error (map_eq_error_iff.mp h))
  rw [Payload.urlValue] at hvalue
  cases hget : payload.get? key with
  | some value =>
    rw [hget] at hvalue
    cases hvalue
  | none =>
    rw [hget] at hvalue
    cases hvalue
    exact ⟨rfl, rfl⟩

/-! ### The keys of a list -/

/-- Filling keys fails only because the value of one of them is missing. -/
theorem missing_of_fillKeys_error {keys : List Text} {failure : Failure}
    (h : fillKeys payload keys path query = .error failure) :
    ∃ key ∈ keys, payload.get? key = none ∧ failure = Cause.missingRequestData key := by
  induction keys generalizing path query with
  | nil => cases h
  | cons key rest ih =>
    rw [fillKeys] at h
    cases hkey : fillKey payload key path query with
    | error e =>
      rw [hkey] at h
      cases h
      exact ⟨key, List.mem_cons_self, missing_of_fillKey_error hkey⟩
    | ok filled =>
      rw [hkey] at h
      obtain ⟨missing, hmem, hmissing⟩ := ih h
      exact ⟨missing, List.mem_cons_of_mem _ hmem, hmissing⟩

end Passes

/-! ### Requests -/

/-- A URL fails only because the value of a key of the mapping is missing. -/
lemma missing_of_formatUrl_error {template : Text} {mapping : Mapping} {payload : Payload}
    {failure : Failure} (h : formatUrl template (some mapping) payload = .error failure) :
    ∃ key ∈ mapping.keys, payload.get? key = none ∧ failure = Cause.missingRequestData key := by
  rw [formatUrl_eq] at h
  exact missing_of_fillKeys_error (map_eq_error_iff.mp h)

/-- The request of a REST declaration is its filled URL with method and body. -/
lemma resolve_rest {form : Form} {target : Text} (harg : form.arg? 0 = some target)
    (method : Method) (facts : Facts) (payload : Payload) :
    resolve (.rest method) form facts payload =
      (formatUrl target facts.urlMapping payload).map fun url => .rest {
        method, url
        body :=
          if method.hasBody then some (requestBody facts.bodyMapping payload) else none } := by
  rw [resolve, harg]
  rfl

end Endpoints
