import Endpoints.Proofs.Acceptance
import Endpoints.Proofs.Mappings
import Endpoints.Proofs.SimultaneousFilling

/-!
# What a URL reveals of a payload

A value that is put into a URL may itself look like a placeholder, and the passes for later keys
then fill it in.  So a URL can show, and a request can ask for, fields of the payload that the
template does not name.  `askedNames` follows the passes and lists the names whose values they look
up.  The invariant of the passes is that the list settles them: payloads that agree on it fill alike
(`fillKeys_congr_askedFor`), and a pass fails exactly for a name on the list without a value
(`fillKeys_eq_missing_iff`).

Hence the values of some names settle a URL exactly if they include all names on the list
(`formatUrl_settled_iff`), and the fields that the template names settle it exactly if the list
stays within them.  It does where no value that the template uses names a key
(`askedNames_subset_placeholders`); the value `:b` of one field in front of a field `b` is enough to
leave it.
-/

namespace Endpoints

open UrlTemplate

/-! ### The names that are asked for -/

/-- The names that the passes for some keys ask the payload for: a key is asked for if the text has
a token of it when its turn comes. -/
def askedFor (payload : Payload) : List Text → Text → Option Text → List Text
  | [], _, _ => []
  | key :: rest, path, query =>
    let later := match fillKey payload key path query with
      | .ok (path, query) => askedFor payload rest path query
      | .error _ => []
    if (namesIn path query).contains key then key :: later else later

/-- The names that a template asks the payload for when it is filled. -/
def askedNames (template : Text) (mapping : Option Mapping) (payload : Payload) : List Text :=
  askedFor payload ((mapping.map Mapping.keys).getD []) (Text.cutAt '?' template).1
    (Text.cutAt '?' template).2

/-- Two payloads agree on some names if each of them has the same value in both or in neither. -/
def Payload.AgreeOn (names : List Text) (payload other : Payload) : Prop :=
  ∀ name ∈ names, payload.get? name = other.get? name

/-- Two outcomes show the same of a URL: both have it, or both lack the value of the same name. -/
inductive SameUrl : Except Failure Request → Except Failure Request → Prop
  | url {call other : RestCall} (h : call.url = other.url) :
      SameUrl (.ok (.rest call)) (.ok (.rest other))
  | missing (name : Text) :
      SameUrl (.error (Cause.missingRequestData name)) (.error (Cause.missingRequestData name))

section Passes

variable {payload other : Payload} {keys : List Text} {path : Text} {query : Option Text}

/-- A key without a token is not asked for and changes nothing. -/
lemma askedFor_cons_of_not_mem {key : Text} (hkey : Text.isWord key = true)
    (hnames : key ∉ namesIn path query) :
    askedFor payload (key :: keys) path query = askedFor payload keys path query := by
  rw [askedFor, fillKey_eq_self hkey hnames, if_neg (mt List.contains_iff_mem.mp hnames)]

/-- A key with a token is asked for. -/
lemma mem_askedFor_self {key : Text} (hnames : key ∈ namesIn path query) :
    key ∈ askedFor payload (key :: keys) path query := by
  rw [askedFor, if_pos (List.contains_iff_mem.mpr hnames)]
  exact List.mem_cons_self

/-- Behind a key with a token and a value the later keys ask the filled text. -/
lemma askedFor_cons_of_ok {key : Text} (hnames : key ∈ namesIn path query)
    {filled : Text × Option Text} (hfilled : fillKey payload key path query = .ok filled) :
    askedFor payload (key :: keys) path query =
      key :: askedFor payload keys filled.1 filled.2 := by
  rw [askedFor, hfilled, if_pos (List.contains_iff_mem.mpr hnames)]

/-- Behind a key with a token but no value nothing is asked for any more. -/
lemma askedFor_cons_of_error {key : Text} (hnames : key ∈ namesIn path query)
    {failure : Failure} (hfilled : fillKey payload key path query = .error failure) :
    askedFor payload (key :: keys) path query = [key] := by
  rw [askedFor, hfilled, if_pos (List.contains_iff_mem.mpr hnames)]

/-- Payloads that agree on the names that one of them is asked for fill alike. -/
theorem fillKeys_congr_askedFor (hwords : ∀ key ∈ keys, Text.isWord key = true)
    (h : payload.AgreeOn (askedFor payload keys path query) other) :
    fillKeys payload keys path query = fillKeys other keys path query := by
  induction keys generalizing path query with
  | nil => rfl
  | cons key rest ih =>
    obtain ⟨hkey, hrest⟩ := List.forall_mem_cons.mp hwords
    rw [fillKeys, fillKeys]
    by_cases hnames : key ∈ namesIn path query
    · have hsame : fillKey payload key path query = fillKey other key path query :=
        fillKey_congr (h key (mem_askedFor_self hnames))
      rw [← hsame]
      cases hfilled : fillKey payload key path query with
      | error failure => rfl
      | ok filled =>
        rw [askedFor_cons_of_ok hnames hfilled] at h
        exact ih hrest fun name hname => h name (List.mem_cons_of_mem _ hname)
    · rw [askedFor_cons_of_not_mem hkey hnames] at h
      rw [fillKey_eq_self hkey hnames, fillKey_eq_self hkey hnames]
      exact ih hrest h

/-- Filling fails exactly for a name that is asked for and has no value. -/
theorem fillKeys_eq_missing_iff (hwords : ∀ key ∈ keys, Text.isWord key = true) {name : Text} :
    fillKeys payload keys path query = .error (Cause.missingRequestData name : Failure) ↔
      name ∈ askedFor payload keys path query ∧ payload.get? name = none := by
  induction keys generalizing path query with
  | nil => exact ⟨nofun, nofun⟩
  | cons key rest ih =>
    obtain ⟨hkey, hrest⟩ := List.forall_mem_cons.mp hwords
    rw [fillKeys]
    by_cases hnames : key ∈ namesIn path query
    · cases hfilled : fillKey payload key path query with
      | error failure =>
        obtain ⟨hnone, rfl⟩ := missing_of_fillKey_error hfilled
        rw [askedFor_cons_of_error hnames hfilled, List.mem_singleton]
        constructor
        · intro h
          cases h
          exact ⟨rfl, hnone⟩
        · rintro ⟨rfl, -⟩
          rfl
      | ok filled =>
        rw [askedFor_cons_of_ok hnames hfilled, List.mem_cons]
        refine (ih hrest).trans (and_congr_left fun hnone => (or_iff_right ?_).symm)
        rintro rfl
        rw [fillKey_missing hkey hnames hnone] at hfilled
        cases hfilled
    · rw [askedFor_cons_of_not_mem hkey hnames, fillKey_eq_self hkey hnames]
      exact ih hrest

/-- Whether a name is asked for does not depend on its own value. -/
lemma mem_askedFor_congr (hwords : ∀ key ∈ keys, Text.isWord key = true) {name : Text}
    (h : ∀ key ∈ keys, key ≠ name → payload.get? key = other.get? key)
    (hname : name ∈ askedFor payload keys path query) :
    name ∈ askedFor other keys path query := by
  induction keys generalizing path query with
  | nil => exact hname
  | cons key rest ih =>
    obtain ⟨hkey, hrest⟩ := List.forall_mem_cons.mp hwords
    obtain ⟨hvalue, hvalues⟩ := List.forall_mem_cons.mp h
    by_cases hnames : key ∈ namesIn path query
    · by_cases hself : key = name
      · subst hself
        exact mem_askedFor_self hnames
      · have hsame : fillKey payload key path query = fillKey other key path query :=
          fillKey_congr (hvalue hself)
        cases hfilled : fillKey payload key path query with
        | error failure =>
          rw [askedFor_cons_of_error hnames hfilled, List.mem_singleton] at hname
          exact absurd hname.symm hself
        | ok filled =>
          rw [askedFor_cons_of_ok hnames hfilled, List.mem_cons] at hname
          rw [askedFor_cons_of_ok hnames (hsame ▸ hfilled)]
          have hlater := hname.resolve_left fun hfirst => hself hfirst.symm
          exact List.mem_cons_of_mem _ (ih hrest hvalues hlater)
    · rw [askedFor_cons_of_not_mem hkey hnames] at hname ⊢
      exact ih hrest hvalues hname

end Passes

/-! ### The keys of a mapping -/

/-- What is read as a key is a word. -/
lemma MapLiteral.isWord_of_key? {text key : Text} (h : MapLiteral.key? text = some key) :
    Text.isWord key = true := by
  unfold MapLiteral.key? at h
  split at h
  · split at h
    · next hword =>
      cases h
      exact hword
    · cases h
  · cases h

/-- The keys that are read from a map literal are words. -/
lemma MapLiteral.isWord_of_pairUp {words : List Text} {pairs : List (Text × Text)}
    (h : MapLiteral.pairUp words = some pairs) : ∀ pair ∈ pairs, Text.isWord pair.1 = true := by
  induction words using MapLiteral.pairUp.induct generalizing pairs with
  | case1 =>
    cases h
    nofun
  | case2 => cases h
  | case3 first target rest ih =>
    rw [MapLiteral.pairUp] at h
    obtain ⟨key, hkey, h⟩ := Option.bind_eq_some_iff.mp h
    obtain ⟨later, hlater, h⟩ := Option.bind_eq_some_iff.mp h
    split at h
    · cases h
      exact List.forall_mem_cons.mpr ⟨MapLiteral.isWord_of_key? hkey, ih hlater⟩
    · cases h

/-- The keys of a mapping that a directive stands for are words if the fields are. -/
lemma Directive.isWord_of_mem_keys {token : Text} {fields : List Text} {arg : Option Text}
    {mapping : Mapping} (h : Directive token fields arg mapping)
    (hfields : ∀ field ∈ fields, Text.isWord field = true) :
    ∀ key ∈ mapping.keys, Text.isWord key = true := by
  intro key hkey
  cases h with
  | literal hparse =>
    obtain ⟨pairs, hpairs, rfl⟩ := Option.map_eq_some_iff.mp hparse
    obtain ⟨pair, hpair, rfl⟩ := List.mem_map.mp (Mapping.mem_keys_ofList.mp hkey)
    obtain ⟨content, -, hcontent⟩ := Option.bind_eq_some_iff.mp hpairs
    exact MapLiteral.isWord_of_pairUp hcontent pair hpair
  | token =>
    have hmem := Mapping.mem_keys_ofList.mp hkey
    rw [List.map_map] at hmem
    obtain ⟨field, hfield, rfl⟩ := List.mem_map.mp hmem
    exact hfields field hfield

/-! ### Leaving out a field -/

/-- Among the entries whose keys are kept, a key has its value if it is kept. -/
lemma lookup_filter {α : Type} (keep : Text → Bool) (entries : List (Text × α)) (name : Text) :
    (entries.filter fun entry => keep entry.1).lookup name =
      if keep name then entries.lookup name else none := by
  induction entries with
  | nil => split <;> rfl
  | cons entry rest ih =>
    obtain ⟨k, v⟩ := entry
    rw [lookup_cons, List.filter_cons]
    by_cases hname : name = k
    · subst hname
      cases hkeep : keep name <;> simp [ih, hkeep]
    · cases keep k <;> simp [ih, lookup_cons, hname]

namespace SortedMap

variable {α : Type}

/-- The map without a key. -/
def erase (m : SortedMap α) (key : Text) : SortedMap α :=
  ⟨m.entries.filter fun entry => entry.1 ≠ key, m.ascending.filter _⟩

/-- A map without a key has all other keys with their values. -/
lemma get?_erase (m : SortedMap α) (key name : Text) :
    (m.erase key).get? name = if name = key then none else m.get? name := by
  have hlookup := lookup_filter (fun k => k ≠ key) m.entries name
  rw [get?, erase, hlookup]
  by_cases hname : name = key <;> simp [hname, get?]

end SortedMap

/-! ### What settles a URL -/

section Settled

variable {template : Text} {mapping : Mapping} {payload : Payload}

/-- A URL fails exactly for a name that is asked for and has no value. -/
lemma formatUrl_eq_missing_iff (hwords : ∀ key ∈ mapping.keys, Text.isWord key = true)
    {name : Text} :
    formatUrl template (some mapping) payload =
        .error (Cause.missingRequestData name : Failure) ↔
      name ∈ askedNames template (some mapping) payload ∧ payload.get? name = none := by
  rw [formatUrl_eq]
  exact map_eq_error_iff.trans (fillKeys_eq_missing_iff hwords)

/-- The values of some names settle a URL exactly if they include all names that it asks for. -/
theorem formatUrl_settled_iff (hwords : ∀ key ∈ mapping.keys, Text.isWord key = true)
    (names : List Text) :
    (∀ other, payload.AgreeOn names other →
      formatUrl template (some mapping) payload = formatUrl template (some mapping) other) ↔
      ∀ name ∈ askedNames template (some mapping) payload, name ∈ names := by
  constructor
  · intro hsettled name hasked
    by_contra hname
    cases hvalue : payload.get? name with
    | none =>
      -- a value for the name takes the failure away
      have hagree : payload.AgreeOn names (payload.insert name .null) := by
        intro key hkey
        have hne : key ≠ name := fun h => hname (h ▸ hkey)
        rw [SortedMap.get?_insert, if_neg hne]
      have hmissing := (formatUrl_eq_missing_iff hwords).mpr ⟨hasked, hvalue⟩
      rw [hsettled _ hagree] at hmissing
      have hnone := ((formatUrl_eq_missing_iff hwords).mp hmissing).2
      rw [SortedMap.get?_insert, if_pos rfl] at hnone
      cases hnone
    | some value =>
      -- without its value the name makes the filling fail
      have hother : ∀ key, key ≠ name → payload.get? key = (payload.erase name).get? key := by
        intro key hne
        rw [SortedMap.get?_erase, if_neg hne]
      have hagree : payload.AgreeOn names (payload.erase name) := fun key hkey =>
        hother key fun h => hname (h ▸ hkey)
      have hasked' : name ∈ askedNames template (some mapping) (payload.erase name) :=
        mem_askedFor_congr hwords (fun key _ => hother key) hasked
      have hnone : (payload.erase name).get? name = none := by
        rw [SortedMap.get?_erase, if_pos rfl]
      have hmissing := (formatUrl_eq_missing_iff hwords).mpr ⟨hasked', hnone⟩
      rw [← hsettled _ hagree] at hmissing
      have hnone' := ((formatUrl_eq_missing_iff hwords).mp hmissing).2
      rw [hvalue] at hnone'
      cases hnone'
  · intro hnames other hagree
    rw [formatUrl_eq, formatUrl_eq]
    have hfilled := fillKeys_congr_askedFor hwords fun name hname =>
      hagree name (hnames name hname)
    rw [hfilled]

/-- Requests show the same of their URLs exactly if the URLs are filled alike. -/
lemma sameUrl_resolve_iff {form : Form} (harg : form.arg? 0 = some template) {facts : Facts}
    (hmapping : facts.urlMapping = some mapping) (method : Method) (other : Payload) :
    SameUrl (resolve (.rest method) form facts payload) (resolve (.rest method) form facts other) ↔
      formatUrl template (some mapping) payload = formatUrl template (some mapping) other := by
  rw [resolve_rest harg, resolve_rest harg, hmapping]
  cases hfirst : formatUrl template (some mapping) payload with
  | error failure =>
    obtain ⟨name, -, -, rfl⟩ := missing_of_formatUrl_error hfirst
    constructor
    · intro h
      cases hsecond : formatUrl template (some mapping) other with
      | error failure =>
        rw [hsecond] at h
        cases h
        rfl
      | ok url =>
        rw [hsecond] at h
        cases h
    · intro h
      rw [← h]
      exact .missing name
  | ok url =>
    constructor
    · intro h
      cases hsecond : formatUrl template (some mapping) other with
      | error failure =>
        rw [hsecond] at h
        cases h
      | ok url' =>
        rw [hsecond] at h
        cases h with
        | url hurl => exact congrArg Except.ok hurl
    · intro h
      rw [← h]
      exact .url rfl

end Settled

/-! ### Values that name no key -/

/-- A filled path with its query depends on the values of their names only. -/
lemma joinQuery_replaceTokens_congr {f g : Text → Option Text} {path : Text} {query : Option Text}
    (hnil : f [] = g []) (h : ∀ name ∈ namesIn path query, f name = g name) :
    joinQuery (replaceTokens f path) (query.map (replaceTokens (queryText f))) =
      joinQuery (replaceTokens g path) (query.map (replaceTokens (queryText g))) := by
  have hpath : replaceTokens f path = replaceTokens g path :=
    replaceTokens_congr hnil fun name hname => h name (List.mem_append_left _ hname)
  have hquery : query.map (replaceTokens (queryText f)) =
      query.map (replaceTokens (queryText g)) := by
    cases query with
    | none => rfl
    | some q =>
      refine congrArg some (replaceTokens_congr ?_ fun name hname => ?_)
      · rw [queryText, queryText, hnil]
      · rw [queryText, queryText, h name (List.mem_append_right _ hname)]
  rw [hpath, hquery]

/-- If no value that a template uses names a key, a payload that agrees on the names of the template
fills it alike. -/
theorem formatUrl_congr_of_inert {template : Text} {mapping : Mapping} {payload other : Payload}
    (hwords : ∀ key ∈ mapping.keys, Text.isWord key = true) (hseparated : separated template = true)
    (hinert : Inert template mapping payload)
    (hagree : payload.AgreeOn (placeholders template) other) :
    formatUrl template (some mapping) payload = formatUrl template (some mapping) other := by
  have hinert' : Inert template mapping other := by
    intro key hkey hname value hvalue
    exact hinert key hkey hname value ((hagree key hname).trans hvalue)
  have hcontains : (fun key => decide (key ∈ placeholders template) && !payload.contains key) =
      fun key => decide (key ∈ placeholders template) && !other.contains key := by
    funext key
    by_cases hkey : key ∈ placeholders template
    · rw [SortedMap.contains, SortedMap.contains, hagree key hkey]
    · rw [decide_eq_false hkey, Bool.false_and, Bool.false_and]
  have hnil : [] ∉ mapping.keys := fun h => Text.ne_nil_of_isWord (hwords [] h) rfl
  have hvalue : ∀ name ∈ namesIn (Text.cutAt '?' template).1 (Text.cutAt '?' template).2,
      among mapping.keys payload.pathText name = among mapping.keys other.pathText name := by
    intro name hname
    rw [among, among, Payload.pathText, Payload.pathText,
      hagree name (mem_placeholders_cutAt.mpr hname)]
  rw [formatUrl_eq_replaced template mapping payload hwords hseparated hinert,
    formatUrl_eq_replaced template mapping other hwords hseparated hinert', hcontains]
  split
  · rfl
  · rw [joinQuery_replaceTokens_congr ((if_neg hnil).trans (if_neg hnil).symm) hvalue]

/-- If no value that a template uses names a key, only names of the template are asked for. -/
theorem askedNames_subset_placeholders {template : Text} {mapping : Mapping} {payload : Payload}
    (hwords : ∀ key ∈ mapping.keys, Text.isWord key = true) (hseparated : separated template = true)
    (hinert : Inert template mapping payload) :
    ∀ name ∈ askedNames template (some mapping) payload, name ∈ placeholders template :=
  (formatUrl_settled_iff hwords _).mp fun _ hagree =>
    formatUrl_congr_of_inert hwords hseparated hinert hagree

/-! ### The fields that a URL names -/

/-- The fields that a URL template names settle the URL of a request exactly if no other name is
asked for when the template is filled, and a field is missed exactly if it is asked for and has no
value. -/
theorem sameUrl_of_agree_iff {declaration : Text} {fields : List Text} {method : Method}
    {facts : Facts} (hfields : ∀ field ∈ fields, Text.isWord field = true)
    (hfacts : deriveFacts declaration fields = .ok (.rest method, facts)) (payload : Payload) :
    ∃ url, (Form.split declaration).arg? 0 = some url ∧
      ((∀ other, payload.AgreeOn (placeholders url) other →
          SameUrl (resolve (.rest method) (Form.split declaration) facts payload)
            (resolve (.rest method) (Form.split declaration) facts other)) ↔
        ∀ name ∈ askedNames url facts.urlMapping payload, name ∈ placeholders url) ∧
      ∀ name, resolve (.rest method) (Form.split declaration) facts payload =
          .error (Cause.missingRequestData name : Failure) ↔
        name ∈ askedNames url facts.urlMapping payload ∧ payload.get? name = none := by
  cases deriveFacts_eq_ok_iff.mp hfacts with
  | access hlocal hname hargs => rcases hlocal with h | h <;> cases h
  | rest hname hbody hmapping harg hurl hbound =>
    have hwords := hmapping.isWord_of_mem_keys hfields
    refine ⟨_, harg, ?_, fun name => ?_⟩
    · rw [← formatUrl_settled_iff hwords]
      exact forall₂_congr fun other _ => sameUrl_resolve_iff harg rfl method other
    · rw [resolve_rest harg, map_eq_error_iff]
      exact formatUrl_eq_missing_iff hwords

/-- A value without placeholders: the URL `/:a` is settled by the field `a`. -/
theorem sameUrl_of_agree_iff_number :
    let declaration : Text := "(Rest/get /:a selfMappings)"
    let fields : List Text := ["a", "b"]
    let facts : Facts := ⟨fields, some (Mapping.identity fields), none⟩
    let payload : Payload := SortedMap.ofList [("a", .int 7), ("b", .string "x")]
    (∀ field ∈ fields, Text.isWord field = true) ∧
      deriveFacts declaration fields = .ok (.rest .get, facts) ∧
      ∀ other, payload.AgreeOn ["a"] other →
        SameUrl (resolve (.rest .get) (Form.split declaration) facts payload)
          (resolve (.rest .get) (Form.split declaration) facts other) := by
  intro declaration fields facts payload
  have hfields : ∀ field ∈ fields, Text.isWord field = true := by decide
  have hfacts : deriveFacts declaration fields = .ok (.rest .get, facts) := by decide +kernel
  refine ⟨hfields, hfacts, ?_⟩
  obtain ⟨url, harg, hiff, -⟩ := sameUrl_of_agree_iff hfields hfacts payload
  have hurl : (Form.split declaration).arg? 0 = some ("/:a" : Text) := by decide +kernel
  cases harg.symm.trans hurl
  have hplaceholders : placeholders ("/:a" : Text) = [("a" : Text)] := by decide +kernel
  have hasked : ∀ name ∈ askedNames ("/:a" : Text) facts.urlMapping payload,
      name ∈ placeholders ("/:a" : Text) := by decide +kernel
  rw [hplaceholders] at hiff hasked
  exact hiff.mpr hasked

/-- The URL `/:a` asks for the field `b`, which it does not name, once the field `a` holds `:b`:
without `b` the request fails, and with it the value of `b` is the URL. -/
theorem not_sameUrl_of_colon :
    let declaration : Text := "(Rest/get /:a selfMappings)"
    let fields : List Text := ["a", "b"]
    let facts : Facts := ⟨fields, some (Mapping.identity fields), none⟩
    let payload : Payload := SortedMap.ofList [("a", .string ":b")]
    let other : Payload := SortedMap.ofList [("a", .string ":b"), ("b", .string "x")]
    (∀ field ∈ fields, Text.isWord field = true) ∧
      deriveFacts declaration fields = .ok (.rest .get, facts) ∧
      (Form.split declaration).arg? 0 = some ("/:a" : Text) ∧
      payload.AgreeOn (placeholders ("/:a" : Text)) other ∧
      resolve (.rest .get) (Form.split declaration) facts payload =
        .error (Cause.missingRequestData "b" : Failure) ∧
      resolve (.rest .get) (Form.split declaration) facts other = .ok (.rest ⟨.get, "/x", none⟩) ∧
      ¬ SameUrl (resolve (.rest .get) (Form.split declaration) facts payload)
        (resolve (.rest .get) (Form.split declaration) facts other) := by
  intro declaration fields facts payload other
  have harg : (Form.split declaration).arg? 0 = some ("/:a" : Text) := by decide +kernel
  have hmissing : resolve (.rest .get) (Form.split declaration) facts payload =
      .error (Cause.missingRequestData "b" : Failure) := by
    have hurl : formatUrl ("/:a" : Text) facts.urlMapping payload =
        .error (Cause.missingRequestData "b" : Failure) := by decide +kernel
    rw [resolve_rest harg, hurl]
    rfl
  have hfilled : resolve (.rest .get) (Form.split declaration) facts other =
      .ok (.rest ⟨.get, "/x", none⟩) := by
    have hurl : formatUrl ("/:a" : Text) facts.urlMapping other = .ok ("/x" : Text) := by
      decide +kernel
    rw [resolve_rest harg, hurl]
    rfl
  have hagree : payload.AgreeOn (placeholders ("/:a" : Text)) other := by
    have hplaceholders : placeholders ("/:a" : Text) = [("a" : Text)] := by decide +kernel
    rw [hplaceholders]
    intro name hname
    cases List.mem_singleton.mp hname
    rfl
  refine ⟨by decide, by decide +kernel, harg, hagree, hmissing, hfilled, ?_⟩
  rw [hmissing, hfilled]
  intro h
  cases h

end Endpoints
