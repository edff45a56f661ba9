import Endpoints.Proofs.Acceptance

/-!
# Checks from facts that were used before

A check is handed the facts that it starts from and leaves what it establishes in them, so a caller
may hand it facts in which earlier checks have left their mappings.  The URL is checked against the
mapping that is there, and still none of this is ever read: the directives stand behind the URL and
are checked first.

All of it follows from the two descriptions of a check, `check_of_accepts` and `check_of_refuses`,
which mention what was there before in one place only: the facts of an accepted form go over it.
What stays visible is therefore what the form does not establish itself, which for a request is the
mapping of the body in one case (`Accepts.bodyMapping_eq_none_iff`).
-/

namespace Endpoints

/-- Facts that were put over others stay when they are put over them again. -/
lemma Facts.over_over (found before : Facts) :
    found.over (found.over before) = found.over before := by
  simp only [Facts.over, ← Option.or_assoc, Option.or_self]

/-- Requests have a body unless their method is `get`. -/
lemma Method.hasBody_eq_false_iff {method : Method} : method.hasBody = false ↔ method = .get := by
  rw [Method.hasBody, bne_eq_false_iff_eq]

section Accepted

variable {form : Form} {fields : List Text} {method : Method} {found : Facts}

/-- A request establishes the mapping of its URL. -/
lemma Accepts.exists_urlMapping (h : Accepts form fields (.rest method) found) :
    ∃ mapping, found.urlMapping = some mapping := by
  cases h with
  | access hlocal => rcases hlocal with h | h <;> cases h
  | rest => exact ⟨_, rfl⟩

/-- A request establishes no mapping of a body exactly if its method is `get`, which takes none, and
its URL has no map literal, which would count for both. -/
lemma Accepts.bodyMapping_eq_none_iff (h : Accepts form fields (.rest method) found) :
    found.bodyMapping = none ↔
      method = .get ∧ form.arg? 1 = some ("selfMappings" : Text) := by
  cases h with
  | access hlocal => rcases hlocal with h | h <;> cases h
  | @rest method body mapping url hname hbody hmapping harg hurl hbound =>
    dsimp only
    rw [Option.or_eq_none_iff]
    constructor
    · rintro ⟨hliteral, rfl⟩
      cases hbody with
      | absent hmethod =>
        refine ⟨Method.hasBody_eq_false_iff.mp hmethod, ?_⟩
        rcases directive_iff.mp hmapping with h | ⟨h, -⟩
        · cases hliteral.symm.trans h
        · exact h
    · rintro ⟨hmethod, htoken⟩
      rw [htoken]
      refine ⟨by decide, ?_⟩
      cases hbody with
      | absent => rfl
      | given hhas => cases (Method.hasBody_eq_false_iff.mpr hmethod).symm.trans hhas

end Accepted

/-- A check of a form of the local storage, or without a known keyword, establishes nothing. -/
lemma check_snd_of_not_rest {form : Form} (facts : Facts)
    (h : form.keyword = Keyword.readLocal.name ∨ form.keyword = Keyword.writeLocal.name ∨
      form.keyword ∉ keywordNames) : (form.check facts).2 = facts := by
  have haccess : ∀ keyword : Keyword, keyword = .readLocal ∨ keyword = .writeLocal →
      form.keyword = keyword.name → (form.check facts).2 = facts := by
    intro keyword hlocal hname
    by_cases hargs : form.args = []
    · rw [check_of_noKey hlocal hname hargs]
    · rw [check_of_accepts (.access hlocal hname hargs)]
      rfl
  rcases h with hread | hwrite | hunknown
  · exact haccess _ (.inl rfl) hread
  · exact haccess _ (.inr rfl) hwrite
  · rw [check_of_unknown facts hunknown]

/-- In what the checks of a form from two facts agree, and what they leave of the facts. -/
structure Form.IgnoresStale (form : Form) (facts other : Facts) : Prop where
  /-- The keyword is the same, or the fault is. -/
  verdict : (form.check facts).1 = (form.check other).1
  /-- A request has the same mapping of its URL. -/
  urlMapping : ∀ method, (form.check facts).1 = .ok (.rest method) →
    (form.check facts).2.urlMapping = (form.check other).2.urlMapping
  /-- A request has the same mapping of its body, if it establishes one. -/
  bodyMapping : ∀ method, (form.check facts).1 = .ok (.rest method) →
    ¬ (method = .get ∧ form.arg? 1 = some ("selfMappings" : Text)) →
      (form.check facts).2.bodyMapping = (form.check other).2.bodyMapping
  /-- A request that establishes none leaves each the one that it had. -/
  bodyMapping_kept : (form.check facts).1 = .ok (.rest .get) →
    form.arg? 1 = some ("selfMappings" : Text) →
      (form.check facts).2.bodyMapping = facts.bodyMapping ∧
        (form.check other).2.bodyMapping = other.bodyMapping
  /-- The local storage and unknown keywords change nothing. -/
  untouched : form.keyword = Keyword.readLocal.name ∨ form.keyword = Keyword.writeLocal.name ∨
    form.keyword ∉ keywordNames → (form.check facts).2 = facts ∧ (form.check other).2 = other
  /-- The fields never change, whether the form passes or is refused. -/
  fields : (form.check facts).2.fields = facts.fields ∧
    (form.check other).2.fields = other.fields
  /-- A form that passed passes again from the facts that it left, and leaves the same. -/
  again : ∀ keyword, (form.check facts).1 = .ok keyword →
    form.check (form.check facts).2 = (.ok keyword, (form.check facts).2)

/-- The verdict on a form is that of any other facts with the same fields. -/
lemma check_fst_congr (form : Form) {facts other : Facts} (h : facts.fields = other.fields) :
    (form.check facts).1 = (form.check other).1 := by
  rcases unknown_or_accepts_or_refuses form facts.fields with
    hunknown | ⟨keyword, found, haccepts⟩ | ⟨position, fault, hrefuses⟩
  · rw [check_of_unknown facts hunknown, check_of_unknown other hunknown]
  · rw [check_of_accepts haccepts, check_of_accepts (h ▸ haccepts)]
  · obtain ⟨after, -, hcheck⟩ := check_of_refuses hrefuses
    obtain ⟨after', -, hcheck'⟩ := check_of_refuses (h ▸ hrefuses)
    rw [hcheck, hcheck']

/-- A check keeps the fields. -/
lemma check_snd_fields (form : Form) (facts : Facts) :
    (form.check facts).2.fields = facts.fields := by
  rcases unknown_or_accepts_or_refuses form facts.fields with
    hunknown | ⟨keyword, found, haccepts⟩ | ⟨position, fault, hrefuses⟩
  · rw [check_of_unknown facts hunknown]
  · rw [check_of_accepts haccepts]
    cases haccepts <;> rfl
  · obtain ⟨after, hafter, hcheck⟩ := check_of_refuses hrefuses
    rw [hcheck]
    exact hafter

/-- A form that passes is accepted, and the check leaves its facts over those that were there. -/
lemma accepts_of_check {form : Form} {facts : Facts} {keyword : Keyword}
    (h : (form.check facts).1 = .ok keyword) :
    ∃ found, Accepts form facts.fields keyword found ∧
      form.check facts = (.ok keyword, found.over facts) := by
  rcases unknown_or_accepts_or_refuses form facts.fields with
    hunknown | ⟨keyword', found, haccepts⟩ | ⟨position, fault, hrefuses⟩
  · rw [check_of_unknown facts hunknown] at h
    cases h
  · have hcheck := check_of_accepts haccepts
    rw [hcheck] at h
    cases h
    exact ⟨found, haccepts, hcheck⟩
  · obtain ⟨after, -, hcheck⟩ := check_of_refuses hrefuses
    rw [hcheck] at h
    cases h

/-- A check reads nothing of the facts that it is handed but the fields: the mappings that earlier
checks left there decide neither its verdict nor what it establishes. -/
theorem check_ignores_stale (form : Form) {facts other : Facts}
    (h : facts.fields = other.fields) : form.IgnoresStale facts other := by
  refine ⟨check_fst_congr form h, ?_, ?_, ?_, ?_, ?_, ?_⟩
  · intro method hok
    obtain ⟨found, haccepts, hcheck⟩ := accepts_of_check hok
    obtain ⟨mapping, hmapping⟩ := haccepts.exists_urlMapping
    rw [hcheck, check_of_accepts (h ▸ haccepts)]
    simp only [Facts.over, hmapping, Option.some_or]
  · intro method hok hestablished
    obtain ⟨found, haccepts, hcheck⟩ := accepts_of_check hok
    obtain ⟨mapping, hmapping⟩ := Option.ne_none_iff_exists'.mp
      (mt haccepts.bodyMapping_eq_none_iff.mp hestablished)
    rw [hcheck, check_of_accepts (h ▸ haccepts)]
    simp only [Facts.over, hmapping, Option.some_or]
  · intro hok htoken
    obtain ⟨found, haccepts, hcheck⟩ := accepts_of_check hok
    have hnone := haccepts.bodyMapping_eq_none_iff.mpr ⟨rfl, htoken⟩
    rw [hcheck, check_of_accepts (h ▸ haccepts)]
    simp only [Facts.over, hnone, Option.none_or, and_self]
  · intro hkeyword
    exact ⟨check_snd_of_not_rest facts hkeyword, check_snd_of_not_rest other hkeyword⟩
  · exact ⟨check_snd_fields form facts, check_snd_fields form other⟩
  · intro keyword hok
    obtain ⟨found, haccepts, hcheck⟩ := accepts_of_check hok
    have hfields : (found.over facts).fields = facts.fields := by
      rw [← check_snd_fields form facts, hcheck]
    rw [hcheck, check_of_accepts (hfields ▸ haccepts), Facts.over_over]

/-- A mapping in which the placeholder has a target that is no field, and a mapping of a body, were
left by a check of other declarations. -/
theorem check_ignores_stale_other :
    let form := Form.split "(Rest/get /users/:id selfMappings)"
    let facts : Facts := ⟨["id"], none, none⟩
    let other : Facts :=
      ⟨["id"], some (Mapping.ofList [("id", "page")]), some (Mapping.identity ["name"])⟩
    facts.fields = other.fields ∧ form.IgnoresStale facts other ∧
      (form.check other).1 = .ok (.rest .get) ∧
      (form.check other).2.urlMapping = some (Mapping.identity ["id"]) ∧
      (form.check other).2.bodyMapping = other.bodyMapping := by
  intro form facts other
  have hstale : form.IgnoresStale facts other := check_ignores_stale form rfl
  have hok : (form.check facts).1 = .ok (.rest .get) := by decide +kernel
  have hmapping : (form.check facts).2.urlMapping = some (Mapping.identity ["id"]) := by
    decide +kernel
  refine ⟨rfl, hstale, hstale.verdict ▸ hok, ?_, ?_⟩
  · exact (hstale.urlMapping .get hok).symm.trans hmapping
  · exact (hstale.bodyMapping_kept hok (by decide +kernel)).2

end Endpoints
