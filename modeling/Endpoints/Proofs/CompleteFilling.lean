import Endpoints.Proofs.PayloadExposure
import Endpoints.Proofs.TokenOrder

/-!
# URLs without open placeholders

Path and query of a URL are filled independently of each other (`exists_filled_iff`), so both are
treated as single texts that are filled key by key (`Filled`).  A text in order is filled whatever
plain values it gets (`filled_of_inOrder`).  A text that is not in order is not filled by a word that
is longer than every key (`not_filled_of_stuck`), and for a path such a word is a possible value.  In a
query the name in front of a value keeps the value out of what is read as a name; the values then play
no part, and one payload shows what all of them do (`filled_of_alike`).
-/

namespace Endpoints

open UrlTemplate

/-! ### All keys of a text -/

/-- Whether the passes for some keys over a text miss no value and leave no placeholder. -/
def Filled (value : Text → Option Text) : List Text → Text → Prop
  | [], t => namesOf t = []
  | key :: keys, t =>
    match value key with
    | some v => Filled value keys (replaceTokens (only key v) t)
    | none => key ∉ namesOf t ∧ Filled value keys t

/-- A replacement leaves a text alone that does not have the name. -/
lemma replaceTokens_of_absent {key : Text} (hkey : key ≠ []) {t : Text} (h : key ∉ namesOf t)
    (v : Text) : replaceTokens (only key v) t = t :=
  replaceTokens_eq_self (if_neg (Ne.symm hkey)) fun name hname =>
    if_neg fun hsame : name = key => h (hsame ▸ hname)

/-- A value is put into a query behind its name. -/
lemma queryText_of_some {value : Text → Option Text} {key v : Text} (hv : value key = some v) :
    queryText value key = some (key ++ '=' :: v) := by
  rw [queryText, hv, Option.map_some]

/-- What has no value has none in a query. -/
lemma queryText_of_none {value : Text → Option Text} {key : Text} (hv : value key = none) :
    queryText value key = none := by
  rw [queryText, hv, Option.map_none]

section Filled

variable {value : Text → Option Text} {key : Text} {keys : List Text} {t : Text}

/-- A key with a value is replaced by it before the other keys. -/
lemma filled_cons_of_some {v : Text} (hv : value key = some v) :
    Filled value (key :: keys) t ↔ Filled value keys (replaceTokens (only key v) t) := by
  rw [Filled, hv]

/-- A key without a value must not be a name of the text. -/
lemma filled_cons_of_none (hv : value key = none) :
    Filled value (key :: keys) t ↔ key ∉ namesOf t ∧ Filled value keys t := by
  rw [Filled, hv]

/-- A key that is no name of the text is passed over, whether it has a value or not. -/
lemma filled_cons_of_absent (hkey : key ≠ []) (h : key ∉ namesOf t) :
    Filled value (key :: keys) t ↔ Filled value keys t := by
  cases hv : value key with
  | some v => rw [filled_cons_of_some hv, replaceTokens_of_absent hkey h]
  | none => rw [filled_cons_of_none hv, and_iff_right h]

end Filled

section Passes

variable {payload : Payload} {key : Text} {keys : List Text} {path : Text} {query : Option Text}

/-- A key with a value is replaced in path and query. -/
lemma fillKey_of_value (hkey : Text.isWord key = true) {v : Text}
    (hv : payload.pathText key = some v) :
    fillKey payload key path query =
      .ok (replaceTokens (only key v) path,
        query.map (replaceTokens (only key (key ++ '=' :: v)))) := by
  have hvalue : payload.urlValue key = .ok v := by
    rw [Payload.urlValue_eq, hv, Option.elim_some]
  rw [fillKey, hvalue, substitute_ok hkey]
  cases query with
  | none => rfl
  | some q =>
    have hq := substitute_ok (ε := Failure) hkey (key ++ '=' :: v) q
    exact congrArg (Except.map fun q => (replaceTokens (only key v) path, some q)) hq

/-- A path and a query are filled without a placeholder being left exactly if each of them is. -/
theorem exists_filled_iff (hwords : ∀ key ∈ keys, Text.isWord key = true) :
    (∃ filled, fillKeys payload keys path query = .ok filled ∧ namesIn filled.1 filled.2 = []) ↔
      Filled payload.pathText keys path ∧
        ∀ q ∈ query, Filled (queryText payload.pathText) keys q := by
  induction keys generalizing path query with
  | nil =>
    have hunfilled : fillKeys payload [] path query = .ok (path, query) := rfl
    simp only [hunfilled, Except.ok.injEq, exists_eq_left', namesIn, List.append_eq_nil_iff]
    cases query <;> simp [Filled]
  | cons key rest ih =>
    obtain ⟨hkey, hrest⟩ := List.forall_mem_cons.mp hwords
    have hnil : key ≠ [] := Text.ne_nil_of_isWord hkey
    rw [fillKeys]
    cases hv : payload.pathText key with
    | some v =>
      rw [fillKey_of_value hkey hv]
      refine (ih hrest).trans ?_
      simp only [filled_cons_of_some hv, filled_cons_of_some (queryText_of_some hv), Option.mem_def,
        Option.map_eq_some_iff, forall_exists_index, and_imp, forall_apply_eq_imp_iff₂]
    | none =>
      by_cases hnames : key ∈ namesIn path query
      · have hget : payload.get? key = none := Option.map_eq_none_iff.mp hv
        rw [fillKey_missing hkey hnames hget]
        constructor
        · rintro ⟨filled, hfilled, -⟩
          cases hfilled
        · rintro ⟨hpath, hquery⟩
          rcases List.mem_append.mp hnames with hmem | hmem
          · exact absurd hmem ((filled_cons_of_none hv).mp hpath).1
          · cases query with
            | none => cases hmem
            | some q =>
              have hfilled := (filled_cons_of_none (queryText_of_none hv)).mp (hquery q rfl)
              exact absurd hmem hfilled.1
      · have hpath : key ∉ namesOf path := fun h => hnames (List.mem_append_left _ h)
        have hquery : ∀ q ∈ query, key ∉ namesOf q := by
          rintro q rfl hmem
          exact hnames (List.mem_append_right _ hmem)
        rw [fillKey_eq_self hkey hnames, filled_cons_of_absent hnil hpath]
        refine (ih hrest).trans (and_congr_right fun _ => forall₂_congr fun q hmem => ?_)
        exact (filled_cons_of_absent hnil (hquery q hmem)).symm

end Passes

/-- A text in order is filled if its names are keys with values and no value holds a colon. -/
theorem filled_of_inOrder {value : Text → Option Text} {keys : List Text} {t : Text}
    (hnil : [] ∉ keys) (hplain : ∀ key ∈ keys, ∀ v, value key = some v → ':' ∉ v)
    (hnames : ∀ name ∈ namesOf t, name ∈ keys ∧ value name ≠ none) (horder : InOrder keys t) :
    Filled value keys t := by
  induction keys generalizing t with
  | nil => exact List.eq_nil_iff_forall_not_mem.mpr fun name hname => nomatch (hnames name hname).1
  | cons key rest ih =>
    rw [List.mem_cons, not_or] at hnil
    obtain ⟨hplain, hplainRest⟩ := List.forall_mem_cons.mp hplain
    have hkey : key ≠ [] := Ne.symm hnil.1
    have hlater : ∀ name ∈ namesOf t, name ≠ key → name ∈ rest ∧ value name ≠ none :=
      fun name hname hne =>
        ⟨(List.mem_cons.mp (hnames name hname).1).resolve_left hne, (hnames name hname).2⟩
    by_cases hmem : key ∈ namesOf t
    · obtain ⟨v, hv⟩ := Option.ne_none_iff_exists'.mp (hnames key hmem).2
      have hfewer := (namesOf_replaceTokens_eq_filter hkey (hplain v hv) horder.leads).1
      have hrest := inOrder_replaceTokens hkey (hplain v hv) horder
      refine (filled_cons_of_some hv).mpr (ih hnil.2 hplainRest (fun name hname => ?_) hrest)
      rw [hfewer, List.mem_filter] at hname
      exact hlater name hname.1 (by simpa using hname.2)
    · have hrest := inOrder_replaceTokens hkey List.not_mem_nil horder
      rw [replaceTokens_of_absent hkey hmem] at hrest
      refine (filled_cons_of_absent hkey hmem).mpr (ih hnil.2 hplainRest (fun name hname => ?_) hrest)
      exact hlater name hname fun h => hmem (h ▸ hname)

/-- A stuck text is not filled by a word that is longer than every key. -/
theorem not_filled_of_stuck {z : Text} (hz : ∀ c ∈ z, isWordChar c = true)
    {value : Text → Option Text} {keys : List Text} {t : Text}
    (hvalue : ∀ key ∈ keys, value key = some z) (hlength : ∀ key ∈ keys, key.length < z.length)
    (h : Stuck z.length keys t) : ¬ Filled value keys t := by
  induction keys generalizing t with
  | nil =>
    intro hfilled
    have hnames : namesOf t = [] := hfilled
    rcases h with ⟨name, hname, -⟩ | ⟨pair, -, hlt⟩
    · rw [hnames] at hname
      cases hname
    · exact absurd hlt (Nat.lt_irrefl 0)
  | cons key rest ih =>
    obtain ⟨hkey, hrest⟩ := List.forall_mem_cons.mp hvalue
    obtain ⟨hfirst, hlater⟩ := List.forall_mem_cons.mp hlength
    rw [filled_cons_of_some hkey]
    exact ih hrest hlater (stuck_replaceTokens hz hfirst h)

/-! ### A query, whatever the values -/

/-- Texts with the same tokens, where plain characters stand between the same of them. -/
inductive Alike : Text → Text → Prop
  | nil : Alike [] []
  | gap {s s' rest rest' : Text} (hs : s ≠ []) (hs' : s' ≠ []) (hplain : ':' ∉ s)
      (hplain' : ':' ∉ s') (h : Alike rest rest') : Alike (s ++ rest) (s' ++ rest')
  | token {w rest rest' : Text} (hw : ∀ c ∈ w, isWordChar c = true) (hr : endsToken rest = true)
      (hr' : endsToken rest' = true) (h : Alike rest rest') :
      Alike (':' :: (w ++ rest)) (':' :: (w ++ rest'))

/-- A text is like itself. -/
lemma Alike.refl (t : Text) : Alike t t := by
  induction t using tokenInduction with
  | nil => exact .nil
  | char c rest hc ih =>
    have hplain : ':' ∉ [c] := fun h => hc (List.mem_singleton.mp h).symm
    exact Alike.gap (List.cons_ne_nil c []) (List.cons_ne_nil c []) hplain hplain ih
  | token w rest hw hr ih => exact .token hw hr hr ih

/-- Like texts have the same names. -/
lemma Alike.namesOf_eq {t t' : Text} (h : Alike t t') : namesOf t = namesOf t' := by
  induction h with
  | nil => rfl
  | gap hs hs' hplain hplain' h ih =>
    rw [namesOf_plain_append hplain, namesOf_plain_append hplain', ih]
  | token hw hr hr' h ih => rw [namesOf_token hw hr, namesOf_token hw hr', ih]

/-- Whether a text continues a token is seen at its first character. -/
lemma endsToken_append_congr {s : Text} (hs : s ≠ []) (t t' : Text) :
    endsToken (s ++ t) = endsToken (s ++ t') := by
  cases s with
  | nil => exact absurd rfl hs
  | cons c s => rfl

/-- Like texts stay alike when a key gives way to its name and a value, and so they do behind a
token. -/
lemma Alike.replace {key v v' : Text} (hkey : Text.isWord key = true) (hv : ':' ∉ v)
    (hv' : ':' ∉ v') {t t' : Text} (h : Alike t t') :
    Alike (replaceTokens (only key (key ++ '=' :: v)) t)
        (replaceTokens (only key (key ++ '=' :: v')) t') ∧
      (endsToken t = true → endsToken t' = true → ∀ w, (∀ c ∈ w, isWordChar c = true) →
        Alike (':' :: (w ++ replaceTokens (only key (key ++ '=' :: v)) t))
          (':' :: (w ++ replaceTokens (only key (key ++ '=' :: v')) t'))) := by
  have hchars := Text.isWordChar_of_isWord hkey
  have hplainKey : ':' ∉ key := colon_not_mem_of_isWordChar hchars
  induction h with
  | nil =>
    rw [replaceTokens, replaceTokens]
    exact ⟨.nil, fun hr hr' w hw => .token hw hr hr' .nil⟩
  | gap hs hs' hplain hplain' h ih =>
    rw [replaceTokens_plain_append _ hplain, replaceTokens_plain_append _ hplain']
    have hgap := Alike.gap hs hs' hplain hplain' ih.1
    refine ⟨hgap, fun hr hr' w hw => .token hw ?_ ?_ hgap⟩
    · rwa [endsToken_append_congr hs]
    · rwa [endsToken_append_congr hs']
  | @token word rest rest' hword hr hr' h ih =>
    rw [replaceTokens_token _ hword hr, replaceTokens_token _ hword hr', only, only]
    by_cases hsame : word = key
    · rw [if_pos hsame, if_pos hsame, Option.getD_some, Option.getD_some]
      have hplain : ':' ∉ '=' :: v := by simp [hv]
      have hplain' : ':' ∉ '=' :: v' := by simp [hv']
      have hgap := Alike.gap (List.cons_ne_nil _ _) (List.cons_ne_nil _ _) hplain hplain' ih.1
      constructor
      · refine .gap (by simp) (by simp) ?_ ?_ ih.1
        · simp [hplainKey, hv]
        · simp [hplainKey, hv']
      · -- the name in front of the value continues the token, and the equals sign ends it
        intro _ _ w hw
        have hboth : ∀ c ∈ w ++ key, isWordChar c = true := fun c hc =>
          (List.mem_append.mp hc).elim (hw c) (hchars c)
        have htoken := Alike.token hboth rfl rfl hgap
        simpa only [List.append_assoc, List.cons_append] using htoken
    · rw [if_neg hsame, if_neg hsame, Option.getD_none]
      have htoken := ih.2 hr hr' word hword
      exact ⟨htoken, fun _ _ w hw => .token hw rfl rfl htoken⟩

/-- Behind their names all values without a colon are as good: if some fill a query, so do any
others that are there for the same names. -/
theorem filled_of_alike {value other : Text → Option Text} {keys : List Text}
    (hwords : ∀ key ∈ keys, Text.isWord key = true)
    (hmore : ∀ name, other name = none → value name = none)
    (hcolon : ∀ name v, value name = some v → ':' ∉ v)
    (hcolon' : ∀ name v, other name = some v → ':' ∉ v) {t t' : Text} (h : Alike t t')
    (hfilled : Filled (queryText value) keys t) : Filled (queryText other) keys t' := by
  induction keys generalizing t t' with
  | nil =>
    have hnames : namesOf t = [] := hfilled
    exact h.namesOf_eq.symm.trans hnames
  | cons key rest ih =>
    obtain ⟨hkey, hrest⟩ := List.forall_mem_cons.mp hwords
    cases hv : value key with
    | some v =>
      obtain ⟨v', hv'⟩ := Option.ne_none_iff_exists'.mp (mt (hmore key) (by simp [hv]))
      rw [filled_cons_of_some (queryText_of_some hv)] at hfilled
      rw [filled_cons_of_some (queryText_of_some hv')]
      exact ih hrest (h.replace hkey (hcolon key v hv) (hcolon' key v' hv')).1 hfilled
    | none =>
      obtain ⟨habsent, hfilled⟩ := (filled_cons_of_none (queryText_of_none hv)).mp hfilled
      rw [h.namesOf_eq] at habsent
      exact (filled_cons_of_absent (Text.ne_nil_of_isWord hkey) habsent).mpr (ih hrest h hfilled)

/-! ### Requests without placeholders -/

/-- A payload has a value for every placeholder of a template, and no value with a colon. -/
structure Payload.Supplies (payload : Payload) (template : Text) : Prop where
  complete : ∀ name ∈ placeholders template, payload.contains name = true
  plain : ∀ name value, payload.get? name = some value → ':' ∉ value.render

/-- The payload with one value for all of some names. -/
def Payload.constant (names : List Text) (value : Json) : Payload :=
  names.foldr (fun name payload => payload.insert name value) SortedMap.empty

/-- A request is made, and its URL has no placeholder. -/
inductive FullUrl : Except Failure Request → Prop
  | ok {call : RestCall} (h : placeholders call.url = []) : FullUrl (.ok (.rest call))

/-- Every name of a constant payload has its value, and no other name has one. -/
lemma Payload.get?_constant (names : List Text) (value : Json) (name : Text) :
    (Payload.constant names value).get? name = if name ∈ names then some value else none := by
  induction names with
  | nil => rfl
  | cons first rest ih =>
    have hinsert : Payload.constant (first :: rest) value =
        (Payload.constant rest value).insert first value := rfl
    rw [hinsert, SortedMap.get?_insert, ih]
    by_cases hsame : name = first <;> simp [hsame]

/-- A constant payload supplies a template if it has all placeholders and its value has no colon. -/
lemma Payload.supplies_constant {names : List Text} {value : Json} {template : Text}
    (hnames : ∀ name ∈ placeholders template, name ∈ names) (hplain : ':' ∉ value.render) :
    (Payload.constant names value).Supplies template := by
  constructor
  · intro name hname
    rw [SortedMap.contains, Payload.get?_constant, if_pos (hnames name hname), Option.isSome_some]
  · intro name value' hvalue
    rw [Payload.get?_constant] at hvalue
    split at hvalue
    · cases hvalue
      exact hplain
    · cases hvalue

/-- A payload supplies a template if it has its placeholders and no entry with a colon. -/
lemma Payload.supplies_of_entries {payload : Payload} {template : Text}
    (hnames : ∀ name ∈ placeholders template, payload.contains name = true)
    (hentries : ∀ entry ∈ payload.entries, ':' ∉ entry.2.render) : payload.Supplies template := by
  refine ⟨hnames, fun name value hvalue => ?_⟩
  obtain ⟨before, after, hsplit, -⟩ := List.lookup_eq_some_iff.mp hvalue
  have hmem : (name, value) ∈ payload.entries :=
    hsplit ▸ List.mem_append_right _ List.mem_cons_self
  exact hentries (name, value) hmem

/-- The values of a payload that supplies a template are plain where they are put in. -/
lemma Payload.Supplies.plain_pathText {payload : Payload} {template : Text}
    (h : payload.Supplies template) {name v : Text} (hv : payload.pathText name = some v) :
    ':' ∉ v := by
  obtain ⟨value, hvalue, rfl⟩ := Option.map_eq_some_iff.mp hv
  exact h.plain name value hvalue

/-- A payload that supplies a template has a value for each of its placeholders. -/
lemma Payload.Supplies.pathText_ne_none {payload : Payload} {template : Text}
    (h : payload.Supplies template) {name : Text} (hname : name ∈ placeholders template) :
    payload.pathText name ≠ none := by
  rw [Payload.pathText, Ne, Option.map_eq_none_iff]
  exact Option.isSome_iff_ne_none.mp (h.complete name hname)

/-- Whether a payload fills the path and the query of a template. -/
def Payload.Fills (payload : Payload) (mapping : Mapping) (template : Text) : Prop :=
  Filled payload.pathText mapping.keys (Text.cutAt '?' template).1 ∧
    ∀ q ∈ (Text.cutAt '?' template).2, Filled (queryText payload.pathText) mapping.keys q

/-- The URL of a request is full exactly if the payload fills its path and its query. -/
lemma fullUrl_resolve_iff {form : Form} {template : Text} (harg : form.arg? 0 = some template)
    {facts : Facts} {mapping : Mapping} (hmapping : facts.urlMapping = some mapping)
    (hwords : ∀ key ∈ mapping.keys, Text.isWord key = true) (method : Method) (payload : Payload) :
    FullUrl (resolve (.rest method) form facts payload) ↔ payload.Fills mapping template := by
  rw [Payload.Fills, ← exists_filled_iff hwords, resolve_rest harg, hmapping, formatUrl_eq]
  cases fillKeys payload mapping.keys (Text.cutAt '?' template).1 (Text.cutAt '?' template).2 with
  | error failure => exact ⟨nofun, nofun⟩
  | ok filled =>
    have hnames : placeholders (joinQuery filled.1 filled.2) = [] ↔
        namesIn filled.1 filled.2 = [] := by
      rw [List.eq_nil_iff_forall_not_mem, List.eq_nil_iff_forall_not_mem, ← namesOf_joinQuery]
      simp only [mem_placeholders]
    constructor
    · intro h
      cases h with
      | ok h => exact ⟨filled, rfl, hnames.mp h⟩
    · rintro ⟨filled', hfilled, h⟩
      cases hfilled
      exact .ok (hnames.mpr h)

section Templates

variable {template : Text} {mapping : Mapping}

/-- What is in order in a template is in order in its path and in its query. -/
lemma inOrder_cutAt {keys : List Text} (h : InOrder keys template) :
    InOrder keys (Text.cutAt '?' template).1 ∧
      ∀ q ∈ (Text.cutAt '?' template).2, InOrder keys q := by
  rw [← joinQuery_cutAt template] at h
  cases hquery : (Text.cutAt '?' template).2 with
  | none =>
    rw [hquery] at h
    exact ⟨h, nofun⟩
  | some query =>
    rw [hquery] at h
    have hneighbours := neighbours_append_question (Text.cutAt '?' template).1 query
    constructor
    · intro pair hpair
      exact h pair (hneighbours ▸ List.mem_append_left _ hpair)
    · rintro q hq pair hpair
      cases hq
      exact h pair (hneighbours ▸ List.mem_append_right _ hpair)

variable (hwords : ∀ key ∈ mapping.keys, Text.isWord key = true)

include hwords

/-- No key of a mapping of words is empty. -/
lemma nil_not_mem_keys : [] ∉ mapping.keys :=
  fun h => Text.ne_nil_of_isWord (hwords [] h) rfl

/-- If a path is filled whatever the values are, it is in order: a word that is longer than every
key would stay in it otherwise. -/
theorem inOrder_of_fills (hkeys : ∀ name ∈ placeholders template, name ∈ mapping.keys)
    (h : ∀ payload : Payload, payload.Supplies template → payload.Fills mapping template) :
    InOrder mapping.keys (Text.cutAt '?' template).1 := by
  let z : Text := 'x' :: mapping.keys.flatten
  have hz : ∀ c ∈ z, isWordChar c = true := by
    refine List.forall_mem_cons.mpr ⟨by decide, fun c hc => ?_⟩
    obtain ⟨key, hkey, hmem⟩ := List.mem_flatten.mp hc
    exact Text.isWordChar_of_isWord (hwords key hkey) c hmem
  have hlength : ∀ key ∈ mapping.keys, key.length < z.length := fun key hkey =>
    Nat.lt_succ_of_le (List.sublist_flatten_of_mem hkey).length_le
  have hvalue : ∀ key ∈ mapping.keys,
      (Payload.constant mapping.keys (.string z)).pathText key = some z := by
    intro key hkey
    rw [Payload.pathText, Payload.get?_constant, if_pos hkey]
    rfl
  have hplain : ':' ∉ (Json.string z).render := colon_not_mem_of_isWordChar hz
  have hfilled := (h _ (Payload.supplies_constant hkeys hplain)).1
  intro pair hpair
  by_contra hlt
  exact not_filled_of_stuck hz hvalue hlength (.inr ⟨pair, hpair, Nat.lt_of_not_le hlt⟩) hfilled

variable {payload : Payload}

/-- A path in order is filled by every payload that supplies the template. -/
theorem filled_path (hkeys : ∀ name ∈ placeholders template, name ∈ mapping.keys)
    (hpayload : payload.Supplies template)
    (horder : InOrder mapping.keys (Text.cutAt '?' template).1) :
    Filled payload.pathText mapping.keys (Text.cutAt '?' template).1 := by
  refine filled_of_inOrder (nil_not_mem_keys hwords) (fun _ _ _ => hpayload.plain_pathText)
    (fun name hname => ?_) horder
  have hmem : name ∈ placeholders template :=
    mem_placeholders_cutAt.mpr (List.mem_append_left _ hname)
  exact ⟨hkeys name hmem, hpayload.pathText_ne_none hmem⟩

/-- A query in order is filled by every payload that supplies the template. -/
theorem filled_query (hkeys : ∀ name ∈ placeholders template, name ∈ mapping.keys)
    (hpayload : payload.Supplies template) {query : Text}
    (hquery : (Text.cutAt '?' template).2 = some query) (horder : InOrder mapping.keys query) :
    Filled (queryText payload.pathText) mapping.keys query := by
  refine filled_of_inOrder (nil_not_mem_keys hwords) (fun key hkey w hw => ?_)
    (fun name hname => ?_) horder
  · -- neither the key in front of the value nor the value holds a colon
    obtain ⟨v, hv, rfl⟩ := Option.map_eq_some_iff.mp hw
    have hplainKey := colon_not_mem_of_isWordChar (Text.isWordChar_of_isWord (hwords key hkey))
    simp [hplainKey, hpayload.plain_pathText hv]
  · have hmem : name ∈ placeholders template := by
      refine mem_placeholders_cutAt.mpr (List.mem_append_right _ ?_)
      rwa [hquery]
    obtain ⟨v, hv⟩ := Option.ne_none_iff_exists'.mp (hpayload.pathText_ne_none hmem)
    exact ⟨hkeys name hmem, by rw [queryText_of_some hv]; exact Option.some_ne_none _⟩

/-- If one payload that supplies a template fills its query, all payloads do that supply it and have
values where that payload has some. -/
theorem filled_query_of_filled {other : Payload} (hpayload : payload.Supplies template)
    (hother : other.Supplies template)
    (hmore : ∀ name, payload.get? name ≠ none → other.get? name ≠ none) {query : Text}
    (h : Filled (queryText payload.pathText) mapping.keys query) :
    Filled (queryText other.pathText) mapping.keys query := by
  refine filled_of_alike hwords (fun name hnone => ?_) (fun _ _ => hpayload.plain_pathText)
    (fun _ _ => hother.plain_pathText) (Alike.refl query) h
  rw [Payload.pathText, Option.map_eq_none_iff] at hnone ⊢
  exact not_not.mp (mt (hmore name) (not_not.mpr hnone))

end Templates

/-! ### Accepted declarations -/

/-- A placeholder that is bound is a key. -/
lemma Bound.mem_keys {mapping : Mapping} {fields : List Text} {name : Text}
    (h : Bound mapping fields name) : name ∈ mapping.keys := by
  obtain ⟨target, hget, -⟩ := h
  obtain ⟨before, after, hpairs, -⟩ := List.lookup_eq_some_iff.mp hget
  rw [Mapping.keys, hpairs, List.map_append]
  exact List.mem_append_right _ List.mem_cons_self

/-- The URL of an accepted declaration has no placeholder left, whatever plain values it is filled
with, exactly if its path is in order and no placeholder is left when all values are empty; and it
has none left if all of it is in order. -/
theorem fullUrl_iff {declaration : Text} {fields : List Text} {method : Method} {facts : Facts}
    (hfields : ∀ field ∈ fields, Text.isWord field = true)
    (hfacts : deriveFacts declaration fields = .ok (.rest method, facts)) :
    ∃ url mapping, (Form.split declaration).arg? 0 = some url ∧ facts.urlMapping = some mapping ∧
      ((∀ payload : Payload, payload.Supplies url →
          FullUrl (resolve (.rest method) (Form.split declaration) facts payload)) ↔
        InOrder mapping.keys (Text.cutAt '?' url).1 ∧
          FullUrl (resolve (.rest method) (Form.split declaration) facts
            (Payload.constant (placeholders url) (.string [])))) ∧
      (InOrder mapping.keys url → ∀ payload : Payload, payload.Supplies url →
        FullUrl (resolve (.rest method) (Form.split declaration) facts payload)) := by
  cases deriveFacts_eq_ok_iff.mp hfacts with
  | access hlocal hname hargs => rcases hlocal with h | h <;> cases h
  | @rest _ body mapping url hname hbody hmapping harg hurl hbound =>
    have hwords := hmapping.isWord_of_mem_keys hfields
    have hkeys : ∀ name ∈ placeholders url, name ∈ mapping.keys := fun name hmem =>
      (hbound name hmem).mem_keys
    have hblank : (Payload.constant (placeholders url) (.string [])).Supplies url :=
      Payload.supplies_constant (fun _ hname => hname) List.not_mem_nil
    have hfull (payload : Payload) : FullUrl (resolve (.rest method) (Form.split declaration)
        ⟨fields, some mapping, (((Form.split declaration).arg? 1).bind MapLiteral.parse?).or body⟩
        payload) ↔ payload.Fills mapping url := fullUrl_resolve_iff harg rfl hwords method payload
    refine ⟨url, mapping, harg, rfl, ?_⟩
    simp only [hfull]
    refine ⟨⟨fun h => ⟨inOrder_of_fills hwords hkeys h, h _ hblank⟩, ?_⟩, ?_⟩
    · rintro ⟨horder, -, hquery⟩ payload hpayload
      refine ⟨filled_path hwords hkeys hpayload horder, fun query hmem => ?_⟩
      refine filled_query_of_filled hwords hblank hpayload (fun name hname => ?_) (hquery query hmem)
      have hmem : name ∈ placeholders url := by
        by_contra hmem
        rw [Payload.get?_constant, if_neg hmem] at hname
        exact hname rfl
      exact Option.isSome_iff_ne_none.mp (hpayload.complete name hmem)
    · intro horder payload hpayload
      obtain ⟨hpath, hquery⟩ := inOrder_cutAt horder
      exact ⟨filled_path hwords hkeys hpayload hpath, fun query hmem =>
        filled_query hwords hkeys hpayload hmem (hquery query hmem)⟩

/-- Placeholders side by side do no harm as long as their keys come in the order of the URL. -/
theorem fullUrl_iff_adjacent :
    let declaration : Text := "(Rest/get /:a:b?:a:c selfMappings)"
    let fields : List Text := ["a", "b", "c"]
    let facts : Facts := ⟨fields, some (Mapping.identity fields), none⟩
    let payload : Payload := SortedMap.ofList [("a", .int 1), ("b", .string "x"), ("c", .null)]
    (∀ field ∈ fields, Text.isWord field = true) ∧
      deriveFacts declaration fields = .ok (.rest .get, facts) ∧
      FullUrl (resolve (.rest .get) (Form.split declaration) facts payload) := by
  intro declaration fields facts payload
  have hfields : ∀ field ∈ fields, Text.isWord field = true := by decide
  have hfacts : deriveFacts declaration fields = .ok (.rest .get, facts) := by decide +kernel
  have hurl : (Form.split declaration).arg? 0 = some ("/:a:b?:a:c" : Text) := by decide +kernel
  have horder : InOrder (Mapping.identity fields).keys ("/:a:b?:a:c" : Text) := by decide +kernel
  have hpayload : payload.Supplies ("/:a:b?:a:c" : Text) :=
    Payload.supplies_of_entries (by decide +kernel) (by decide +kernel)
  refine ⟨hfields, hfacts, ?_⟩
  obtain ⟨url, mapping, harg, hmapping, -, hfull⟩ := fullUrl_iff hfields hfacts
  cases harg.symm.trans hurl
  cases hmapping
  exact hfull horder payload hpayload

/-- Where the key of the second placeholder comes first, its value becomes part of the name of the
first: with the fields in the order `b`, `a` the URL `/:a:b` is sent as `/:ay`. -/
theorem not_fullUrl_later_key_first :
    let declaration : Text := "(Rest/get /:a:b selfMappings)"
    let fields : List Text := ["b", "a"]
    let facts : Facts := ⟨fields, some (Mapping.identity fields), none⟩
    let payload : Payload := SortedMap.ofList [("a", .string "x"), ("b", .string "y")]
    (∀ field ∈ fields, Text.isWord field = true) ∧
      deriveFacts declaration fields = .ok (.rest .get, facts) ∧
      (Form.split declaration).arg? 0 = some ("/:a:b" : Text) ∧
      payload.Supplies ("/:a:b" : Text) ∧
      resolve (.rest .get) (Form.split declaration) facts payload =
        .ok (.rest ⟨.get, "/:ay", none⟩) ∧
      ¬ FullUrl (resolve (.rest .get) (Form.split declaration) facts payload) := by
  intro declaration fields facts payload
  have harg : (Form.split declaration).arg? 0 = some ("/:a:b" : Text) := by decide +kernel
  have hsent : resolve (.rest .get) (Form.split declaration) facts payload =
      .ok (.rest ⟨.get, "/:ay", none⟩) := by
    have hurl : formatUrl ("/:a:b" : Text) facts.urlMapping payload = .ok ("/:ay" : Text) := by
      decide +kernel
    rw [resolve_rest harg, hurl]
    rfl
  have hpayload : payload.Supplies ("/:a:b" : Text) :=
    Payload.supplies_of_entries (by decide +kernel) (by decide +kernel)
  refine ⟨by decide, by decide +kernel, harg, hpayload, hsent, ?_⟩
  rw [hsent]
  intro h
  cases h with
  | ok h => exact absurd h (by decide +kernel)

end Endpoints
