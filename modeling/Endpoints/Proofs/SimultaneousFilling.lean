import Endpoints.Proofs.Filling

/-!
# A URL is filled at once

`formatUrl` goes over the path and the query of a template once for every key of the mapping, and
every pass but the first reads text into which values have already been put.  `fillOnce` reads the
template a single time.  The two agree when the placeholders of the template are kept apart and no
inserted value names a key (`Inert`).

The invariant of the passes is that the text behind the keys `done` is the template with exactly
the tokens of these keys replaced, `replaceTokens (among done value)`; one pass keeps it
(`substitute_among`), and so does one key over path and query (`fillKey_among`).  All passes
together then replace the tokens of all keys (`formatUrl_eq_replaced`).
-/

namespace Endpoints

open UrlTemplate

/-- The value of a payload under a name as it is put into a path. -/
def Payload.pathText (payload : Payload) (name : Text) : Option Text :=
  (payload.get? name).map Json.render

/-- A value as it is put into a query: behind its name and an equals sign. -/
def queryText (value : Text → Option Text) (name : Text) : Option Text :=
  (value name).map fun v => name ++ '=' :: v

/-- The values of some names only. -/
def among (names : List Text) (value : Text → Option Text) (name : Text) : Option Text :=
  if name ∈ names then value name else none

/-- Fills a template in one pass: every token whose word has a value gives way to the value, behind
the first question mark to the word, an equals sign and the value; all else stays. -/
def fillOnce (value : Text → Option Text) (inQuery : Bool) : Text → Text
  | [] => []
  | c :: rest =>
    if c = ':' then
      match value (Text.leadingWord rest) with
      | some v =>
        (if inQuery then Text.leadingWord rest ++ '=' :: v else v) ++
          fillOnce value inQuery (Text.afterWord rest)
      | none => c :: fillOnce value inQuery rest
    else c :: fillOnce value (inQuery || c == '?') rest
termination_by t => t.length
decreasing_by
  · have := Text.afterWord_length_le rest
    simp only [List.length_cons]
    omega
  · simp
  · simp

/-! ### One pass over one text -/

/-- The passes for some keys leave the names of a text as they were, as far as other keys go. -/
lemma mem_namesOf_among {key : Text} {done : List Text} {value : Text → Option Text} {t : Text}
    (ht : separated t = true) (hnil : [] ∉ done) (hkey : key ∉ done)
    (hinert : ∀ name ∈ namesOf t, name ∈ done → ∀ v, value name = some v → key ∉ namesOf v) :
    key ∈ namesOf (replaceTokens (among done value) t) ↔ key ∈ namesOf t := by
  rw [namesOf_replaceTokens (if_neg hnil) ht, List.mem_flatMap]
  constructor
  · rintro ⟨name, hname, hmem⟩
    by_cases hdone : name ∈ done
    · cases hv : value name with
      | none =>
        have hkept : key = name := by simpa [among, hdone, hv] using hmem
        exact hkept ▸ hname
      | some v =>
        have hin : key ∈ namesOf v := by simpa [among, hdone, hv] using hmem
        exact absurd hin (hinert name hname hdone v hv)
    · have hkept : key = name := by simpa [among, hdone] using hmem
      exact hkept ▸ hname
  · intro h
    exact ⟨key, h, by simp [among, hkey]⟩

/-- A pass for one more key keeps the invariant, or fails if the text needs a value that is not
there. -/
theorem substitute_among {ε : Type} {key : Text} {done : List Text} {value : Text → Option Text}
    {t : Text} (hword : Text.isWord key = true) (ht : separated t = true) (hnil : [] ∉ done)
    (hkey : key ∉ done)
    (hinert : ∀ name ∈ namesOf t, name ∈ done → ∀ v, value name = some v → key ∉ namesOf v)
    (e : ε) :
    substitute key ((value key).elim (.error e) .ok) (replaceTokens (among done value) t) =
      if key ∈ namesOf t ∧ value key = none then .error e
      else .ok (replaceTokens (among (done ++ [key]) value) t) := by
  rw [substitute_eq hword]
  simp only [mem_namesOf_among ht hnil hkey hinert]
  have hnilKey : [] ≠ key := fun h => Text.ne_nil_of_isWord hword h.symm
  by_cases hmem : key ∈ namesOf t
  · cases hv : value key with
    | none => simp [hmem, Except.map]
    | some v =>
      simp only [hmem, true_and, if_true, Option.elim_some, Except.map, reduceCtorEq, if_false]
      rw [replaceTokens_replaceTokens (if_neg hnil) ht]
      refine congrArg Except.ok (replaceTokens_congr ?_ fun name hname => ?_)
      · simp [among, only, hnil, hnilKey]
      · by_cases hdone : name ∈ done
        · have hne : name ≠ key := fun h => hkey (h ▸ hdone)
          cases hu : value name with
          | none => simp [among, only, hdone, hne, hu]
          | some u =>
            -- the value that is already there does not name the key, so the pass leaves it alone
            have hself : replaceTokens (only key v) u = u := by
              refine replaceTokens_eq_self (if_neg hnilKey) fun other hother => if_neg ?_
              rintro rfl
              exact hinert name hname hdone u hu hother
            simp [among, hdone, hu, hself]
        · by_cases hsame : name = key
          · subst hsame
            simp [among, only, hdone, hv]
          · simp [among, only, hdone, hsame]
  · simp only [hmem, if_false, false_and]
    refine congrArg Except.ok (replaceTokens_congr ?_ fun name hname => ?_)
    · simp [among, hnil, hnilKey]
    · have hne : name ≠ key := fun h => hmem (h ▸ hname)
      simp [among, hne]

/-! ### One key over path and query -/

/-- The value of a name, or the failure that it is missing. -/
lemma Payload.urlValue_eq (payload : Payload) (name : Text) :
    payload.urlValue name =
      (payload.pathText name).elim (.error (Cause.missingRequestData name : Failure)) .ok := by
  rw [Payload.urlValue, Payload.pathText]
  cases payload.get? name <;> rfl

/-- A value in the query names what it names in the path. -/
lemma namesOf_queryText {value : Text → Option Text} {name v : Text}
    (hword : Text.isWord name = true) (h : queryText value name = some v) :
    ∃ u, value name = some u ∧ namesOf v = namesOf u := by
  obtain ⟨u, hu, rfl⟩ := Option.map_eq_some_iff.mp h
  refine ⟨u, hu, ?_⟩
  rw [namesOf_word_append (Text.isWordChar_of_isWord hword), namesOf_char (by decide)]

/-- Values that do not name a key do not name it in the query either. -/
lemma inert_queryText {key : Text} {done names : List Text} {value : Text → Option Text}
    (hwords : ∀ name ∈ done, Text.isWord name = true)
    (hinert : ∀ name ∈ names, name ∈ done → ∀ v, value name = some v → key ∉ namesOf v) :
    ∀ name ∈ names, name ∈ done → ∀ v, queryText value name = some v → key ∉ namesOf v := by
  intro name hname hdone v hv
  obtain ⟨u, hu, hnames⟩ := namesOf_queryText (hwords name hdone) hv
  rw [hnames]
  exact hinert name hname hdone u hu

/-- The value of a name with the name in front, or the failure that it is missing. -/
lemma map_elim_queryText {ε : Type} (value : Text → Option Text) (name : Text) (e : ε) :
    (((value name).elim (.error e) .ok : Except ε Text).map fun v => name ++ '=' :: v) =
      (queryText value name).elim (.error e) .ok := by
  rw [queryText]
  cases value name <;> rfl

section Passes

variable {payload : Payload} {path : Text} {query : Option Text}

/-- One key, over path and query: the invariant is kept, or the value of the key is needed and
missing. -/
theorem fillKey_among {key : Text} {done : List Text}
    (hwords : ∀ name ∈ done ++ [key], Text.isWord name = true) (hkey : key ∉ done)
    (hpath : separated path = true) (hquery : ∀ q ∈ query, separated q = true)
    (hinert : ∀ name ∈ namesIn path query, name ∈ done → ∀ v, payload.pathText name = some v →
      key ∉ namesOf v) :
    fillKey payload key (replaceTokens (among done payload.pathText) path)
        (query.map (replaceTokens (among done (queryText payload.pathText)))) =
      if key ∈ namesIn path query ∧ payload.contains key = false then
        .error (Cause.missingRequestData key : Failure)
      else .ok (replaceTokens (among (done ++ [key]) payload.pathText) path,
        query.map (replaceTokens (among (done ++ [key]) (queryText payload.pathText)))) := by
  have hword : Text.isWord key = true := hwords key (by simp)
  have hnil : [] ∉ done := fun h => Text.ne_nil_of_isWord (hwords [] (by simp [h])) rfl
  have hnone : payload.pathText key = none ↔ payload.contains key = false := by
    simp [Payload.pathText, SortedMap.contains]
  have hinPath := substitute_among hword hpath hnil hkey
    (fun name hname => hinert name (List.mem_append_left _ hname))
    (Cause.missingRequestData key : Failure)
  rw [fillKey, Payload.urlValue_eq, hinPath]
  cases query with
  | none =>
    simp only [namesIn, Option.map_none, Option.getD_none, List.append_nil, hnone]
    split <;> rfl
  | some q =>
    have hinert' := inert_queryText (fun name hdone => hwords name (List.mem_append_left _ hdone))
      fun name hname => hinert name (List.mem_append_right _ hname)
    have hinQuery := substitute_among hword (hquery q rfl) hnil hkey hinert'
      (Cause.missingRequestData key : Failure)
    have hnone' : queryText payload.pathText key = none ↔ payload.contains key = false := by
      simp [queryText, Payload.pathText, SortedMap.contains]
    simp only [Option.map_some, map_elim_queryText, hinQuery, hnone, hnone', namesIn,
      Option.getD_some, List.mem_append]
    by_cases hmissing : payload.contains key = false
    · by_cases hmem : key ∈ namesOf path
      · simp [hmissing, hmem]
        rfl
      · by_cases hmem' : key ∈ namesOf q
        · simp [hmissing, hmem, hmem']
          rfl
        · simp [hmissing, hmem, hmem']
          rfl
    · simp [hmissing]
      rfl

/-- All keys of a list, one after another: the invariant at the end, or the failure of the first
key whose value is needed and missing. -/
theorem fillKeys_among {keys done : List Text}
    (hwords : ∀ name ∈ done ++ keys, Text.isWord name = true) (hnodup : (done ++ keys).Nodup)
    (hpath : separated path = true) (hquery : ∀ q ∈ query, separated q = true)
    (hinert : ∀ name ∈ namesIn path query, name ∈ done ++ keys →
      ∀ v, payload.pathText name = some v → ∀ key ∈ done ++ keys, key ∉ namesOf v) :
    fillKeys payload keys (replaceTokens (among done payload.pathText) path)
        (query.map (replaceTokens (among done (queryText payload.pathText)))) =
      match keys.find? fun key => key ∈ namesIn path query && !payload.contains key with
      | some key => .error (Cause.missingRequestData key : Failure)
      | none => .ok (replaceTokens (among (done ++ keys) payload.pathText) path,
          query.map (replaceTokens (among (done ++ keys) (queryText payload.pathText)))) := by
  induction keys generalizing done with
  | nil =>
    rw [fillKeys, List.append_nil]
    rfl
  | cons key rest ih =>
    have hassoc : done ++ key :: rest = (done ++ [key]) ++ rest := by simp
    have hkey : key ∉ done := fun h =>
      (List.nodup_append.mp hnodup).2.2 key h key List.mem_cons_self rfl
    have hwords' : ∀ name ∈ done ++ [key], Text.isWord name = true := by
      intro name hname
      exact hwords name (hassoc ▸ List.mem_append_left rest hname)
    have hinert' : ∀ name ∈ namesIn path query, name ∈ done →
        ∀ v, payload.pathText name = some v → key ∉ namesOf v := by
      intro name hname hdone v hv
      exact hinert name hname (List.mem_append_left _ hdone) v hv key (by simp)
    rw [fillKeys, fillKey_among hwords' hkey hpath hquery hinert', List.find?_cons]
    by_cases hneeded : key ∈ namesIn path query ∧ payload.contains key = false
    · simp [hneeded]
      rfl
    · have hfound : (decide (key ∈ namesIn path query) && !payload.contains key) = false := by
        simpa using hneeded
      rw [if_neg hneeded, hfound]
      rw [hassoc] at hwords hnodup hinert ⊢
      exact ih hwords hnodup hinert

end Passes

/-- If the placeholders of a template are kept apart, so are those of its path and its query. -/
lemma separated_cutAt {t : Text} (h : separated t = true) :
    separated (Text.cutAt '?' t).1 = true ∧ ∀ q ∈ (Text.cutAt '?' t).2, separated q = true := by
  rw [← joinQuery_cutAt t] at h
  cases hquery : (Text.cutAt '?' t).2 with
  | none =>
    rw [hquery] at h
    exact ⟨h, nofun⟩
  | some q =>
    rw [hquery] at h
    obtain ⟨hpath, hq⟩ := separated_append (endsToken_question q) h
    rw [separated_char (by decide)] at hq
    refine ⟨hpath, fun q' hq' => ?_⟩
    cases hq'
    exact hq

/-! ### The single pass -/

section SinglePass

variable (value : Text → Option Text)

/-- A plain character is kept, and the first question mark begins the query. -/
lemma fillOnce_char (inQuery : Bool) {c : Char} (hc : c ≠ ':') (rest : Text) :
    fillOnce value inQuery (c :: rest) = c :: fillOnce value (inQuery || c == '?') rest := by
  rw [fillOnce, if_neg hc]

/-- Word characters at the front of a text are kept and begin no query. -/
lemma fillOnce_word_append (inQuery : Bool) {w : Text} (hw : ∀ c ∈ w, isWordChar c = true)
    (rest : Text) : fillOnce value inQuery (w ++ rest) = w ++ fillOnce value inQuery rest := by
  induction w with
  | nil => rfl
  | cons c w ih =>
    obtain ⟨hc, hw⟩ := List.forall_mem_cons.mp hw
    have hquestion : (c == '?') = false := by
      rw [beq_eq_false_iff_ne]
      rintro rfl
      exact absurd hc (by decide)
    rw [List.cons_append, fillOnce_char value inQuery (ne_colon_of_isWordChar hc), hquestion,
      Bool.or_false, ih hw, List.cons_append]

/-- A token gives way to the value of its word, in a query behind its name. -/
lemma fillOnce_token (inQuery : Bool) {w rest : Text} (hw : ∀ c ∈ w, isWordChar c = true)
    (hr : endsToken rest = true) :
    fillOnce value inQuery (':' :: (w ++ rest)) =
      ((if inQuery then queryText value else value) w).getD (':' :: w) ++
        fillOnce value inQuery rest := by
  rw [fillOnce, if_pos rfl, Text.leadingWord_append hw hr, Text.afterWord_append hw hr,
    fillOnce_word_append value inQuery hw]
  cases inQuery <;> cases hv : value w <;> simp [queryText, hv]

/-- Inside the query the single pass is a replacement of tokens. -/
lemma fillOnce_query (t : Text) : fillOnce value true t = replaceTokens (queryText value) t := by
  induction t using tokenInduction with
  | nil => rw [fillOnce, replaceTokens]
  | char c rest hc ih => rw [fillOnce_char value true hc, replaceTokens_char _ hc, Bool.true_or, ih]
  | token w rest hw hr ih =>
    rw [fillOnce_token value true hw hr, replaceTokens_token _ hw hr, ih]
    rfl

/-- In front of the query the single pass is a replacement of tokens. -/
lemma fillOnce_path_append {s t : Text} (hs : '?' ∉ s) (ht : endsToken t = true) :
    fillOnce value false (s ++ t) = replaceTokens value s ++ fillOnce value false t := by
  induction s using tokenInduction with
  | nil => rw [replaceTokens]; rfl
  | char c rest hc ih =>
    rw [List.mem_cons, not_or] at hs
    have hquestion : (c == '?') = false := beq_eq_false_iff_ne.mpr fun h => hs.1 h.symm
    rw [List.cons_append, fillOnce_char value false hc, replaceTokens_char value hc, hquestion,
      Bool.false_or, ih hs.2, List.cons_append]
  | token w rest hw hr ih =>
    have hrest : '?' ∉ rest := fun h =>
      hs (List.mem_cons_of_mem _ (List.mem_append_right _ h))
    rw [List.cons_append, List.append_assoc,
      fillOnce_token value false hw (endsToken_append hr ht), replaceTokens_token value hw hr,
      ih hrest, List.append_assoc]
    rfl

/-- The single pass over a joined text fills path and query. -/
theorem fillOnce_joinQuery {path : Text} (hpath : '?' ∉ path) (query : Option Text) :
    fillOnce value false (joinQuery path query) =
      joinQuery (replaceTokens value path) (query.map (replaceTokens (queryText value))) := by
  cases query with
  | none =>
    have h := fillOnce_path_append value hpath (rfl : endsToken [] = true)
    rwa [List.append_nil, fillOnce, List.append_nil] at h
  | some q =>
    rw [joinQuery, fillOnce_path_append value hpath (endsToken_question q),
      fillOnce_char value false (by decide), Option.map_some, ← fillOnce_query]
    rfl

end SinglePass

/-- The values of some names in a query are the values of these names, each behind its name. -/
lemma queryText_among (names : List Text) (value : Text → Option Text) :
    queryText (among names value) = among names (queryText value) := by
  funext name
  by_cases h : name ∈ names <;> simp [queryText, among, h]

/-- Before the first pass none of the tokens is replaced. -/
lemma replaceTokens_among_nil (value : Text → Option Text) :
    replaceTokens (among [] value) = id :=
  funext fun _ => replaceTokens_eq_self rfl fun _ _ => rfl

/-- The values that a template uses name no key. -/
def Inert (template : Text) (mapping : Mapping) (payload : Payload) : Prop :=
  ∀ key ∈ mapping.keys, key ∈ placeholders template → ∀ value, payload.get? key = some value →
    ∀ name ∈ placeholders value.render, name ∉ mapping.keys

/-- Values that name no key when the template is looked at name none in its path and query. -/
lemma Inert.cutAt {template : Text} {mapping : Mapping} {payload : Payload}
    (hinert : Inert template mapping payload) :
    ∀ name ∈ namesIn (Text.cutAt '?' template).1 (Text.cutAt '?' template).2,
      name ∈ [] ++ mapping.keys → ∀ v, payload.pathText name = some v →
        ∀ key ∈ [] ++ mapping.keys, key ∉ namesOf v := by
  intro name hname hmapped v hv key hkey hin
  obtain ⟨value, hvalue, rfl⟩ := Option.map_eq_some_iff.mp hv
  exact hinert name hmapped (mem_placeholders_cutAt.mpr hname) value hvalue key
    (mem_placeholders.mpr hin) hkey

/-! ### The main result -/

/-- All passes together replace the tokens of the keys in path and query, or fail with the first key
whose value is needed and missing. -/
theorem formatUrl_eq_replaced (template : Text) (mapping : Mapping) (payload : Payload)
    (hwords : ∀ key ∈ mapping.keys, Text.isWord key = true) (hseparated : separated template = true)
    (hinert : Inert template mapping payload) :
    formatUrl template (some mapping) payload =
      match mapping.keys.find? fun key =>
          key ∈ placeholders template && !payload.contains key with
      | some key => .error (Cause.missingRequestData key : Failure)
      | none => .ok (joinQuery
          (replaceTokens (among mapping.keys payload.pathText) (Text.cutAt '?' template).1)
          ((Text.cutAt '?' template).2.map
            (replaceTokens (queryText (among mapping.keys payload.pathText))))) := by
  obtain ⟨hpath, hquery⟩ := separated_cutAt hseparated
  have hpasses := fillKeys_among hwords mapping.keys_nodup hpath hquery hinert.cutAt
  simp only [replaceTokens_among_nil, Option.map_id, id_eq, List.nil_append] at hpasses
  rw [formatUrl_eq, hpasses, queryText_among]
  simp only [mem_placeholders_cutAt]
  split
  · rfl
  · rfl

/-- If the placeholders of a template are kept apart and no value it uses names a key, the URL is
filled in one pass over the template, or fails with the first key whose value is needed and
missing.  Where the keys point to plays no part, and a question mark in a value begins no query. -/
theorem formatUrl_eq_fillOnce (template : Text) (mapping : Mapping) (payload : Payload)
    (hwords : ∀ key ∈ mapping.keys, Text.isWord key = true) (hseparated : separated template = true)
    (hinert : ∀ key ∈ mapping.keys, key ∈ placeholders template →
      ∀ value, payload.get? key = some value →
        ∀ name ∈ placeholders value.render, name ∉ mapping.keys) :
    formatUrl template (some mapping) payload =
      match mapping.keys.find? fun key =>
          key ∈ placeholders template && !payload.contains key with
      | some key => .error (Cause.missingRequestData key : Failure)
      | none => .ok (fillOnce (among mapping.keys payload.pathText) false template) := by
  rw [formatUrl_eq_replaced template mapping payload hwords hseparated hinert,
    ← fillOnce_joinQuery _ (not_mem_cutAt template), joinQuery_cutAt]

/-- A template with a longer name, a repeated key and a second question mark, filled with values
that hold a colon at the end, a name that is no key and a question mark. -/
theorem formatUrl_eq_fillOnce_items :
    let template : Text := "/a/:id/:idx?:q&:id?:x"
    let mapping := Mapping.ofList [("q", "text"), ("id", "item")]
    let payload : Payload := SortedMap.ofList [("q", .string ":"), ("id", .string "7?:y")]
    (∀ key ∈ mapping.keys, Text.isWord key = true) ∧ separated template = true ∧
      (∀ key ∈ mapping.keys, key ∈ placeholders template →
        ∀ value, payload.get? key = some value →
          ∀ name ∈ placeholders value.render, name ∉ mapping.keys) ∧
      formatUrl template (some mapping) payload =
        .ok ("/a/7?:y/:idx?q=:&id=7?:y?:x" : Text) := by
  intro template mapping payload
  have hwords : ∀ key ∈ mapping.keys, Text.isWord key = true := by decide
  have hseparated : separated template = true := by decide
  have hinert : ∀ key ∈ mapping.keys, key ∈ placeholders template →
      ∀ value, payload.get? key = some value →
        ∀ name ∈ placeholders value.render, name ∉ mapping.keys := by
    intro key hkey _ value hvalue
    have hkeys : mapping.keys = [("q" : Text), ("id" : Text)] := by decide
    have hq : payload.get? ("q" : Text) = some (.string (":" : Text)) := rfl
    have hid : payload.get? ("id" : Text) = some (.string ("7?:y" : Text)) := rfl
    rw [hkeys, List.mem_cons, List.mem_singleton] at hkey
    rcases hkey with rfl | rfl
    · cases hq.symm.trans hvalue
      decide
    · cases hid.symm.trans hvalue
      decide
  refine ⟨hwords, hseparated, hinert, ?_⟩
  have hfound : (mapping.keys.find? fun key =>
      key ∈ placeholders template && !payload.contains key) = none := by decide
  have hfilled : fillOnce (among mapping.keys payload.pathText) false template =
      ("/a/7?:y/:idx?q=:&id=7?:y?:x" : Text) := by decide +kernel
  rw [formatUrl_eq_fillOnce template mapping payload hwords hseparated hinert, hfound, hfilled]

end Endpoints
