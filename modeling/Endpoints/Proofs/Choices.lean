import Endpoints.Proofs.Acceptance

/-!
# Choices between categories

A choice tries its categories one after another, each on the facts as the one before has left them.
The URL category reads facts that others write, so what one category leaves could decide about the
next.  It never does: an argument that does not fit a category leaves the facts as they were
(`Category.validate_of_not_fits`), so every category is tried on the facts at the start, and the
first one that fits decides alone (`Decides`).

What a category that fits leaves is said by `Establishes`, one constructor a category.
-/

namespace Endpoints

open UrlTemplate

/-! ### One category -/

/-- An argument fits a category on given facts if it is accepted there. -/
def Category.Fits (category : Category) (arg : Option Text) (facts : Facts) : Prop :=
  (category.validate arg facts).1 = .ok ()

/-- The arguments that fit a category on given facts, with the facts behind them.  A map literal
establishes the mappings of the URL and of the body, `selfMappings` that of the URL and `asBody`
that of the body; nothing else changes, and a URL or a string changes nothing at all. -/
inductive Establishes (facts : Facts) : Category → Option Text → Facts → Prop
  | url {url : Text} (hurl : isUrl url = true)
      (hbound : ∀ name ∈ placeholders url,
        ∃ mapping, facts.urlMapping = some mapping ∧ Bound mapping facts.fields name) :
      Establishes facts .url (some url) facts
  | string {text : Text} : Establishes facts .string (some text) facts
  | map {text : Text} {mapping : Mapping} (h : MapLiteral.parse? text = some mapping) :
      Establishes facts .map (some text)
        { facts with urlMapping := some mapping, bodyMapping := some mapping }
  | selfMappings :
      Establishes facts .selfMappings (some "selfMappings")
        { facts with urlMapping := some (Mapping.identity facts.fields) }
  | asBody :
      Establishes facts .asBody (some "asBody")
        { facts with bodyMapping := some (Mapping.identity facts.fields) }

section Single

variable {category : Category} {arg : Option Text} {facts found : Facts}

/-- Nothing is wrong with a placeholder exactly if there is a mapping that binds it. -/
lemma placeholderFault?_eq_none_iff_exists {name : Text} :
    placeholderFault? facts name = none ↔
      ∃ mapping, facts.urlMapping = some mapping ∧ Bound mapping facts.fields name := by
  constructor
  · intro h
    cases hmapping : facts.urlMapping with
    | none =>
      rw [placeholderFault?, hmapping] at h
      cases h
    | some mapping => exact ⟨mapping, rfl, (placeholderFault?_eq_none_iff hmapping).mp h⟩
  · rintro ⟨mapping, hmapping, hbound⟩
    exact (placeholderFault?_eq_none_iff hmapping).mpr hbound

/-- A URL passes exactly if it is one and all its placeholders are bound. -/
lemma checkUrl_eq_ok_iff :
    checkUrl arg facts = .ok () ↔
      ∃ url, arg = some url ∧ isUrl url = true ∧
        ∀ name ∈ placeholders url,
          ∃ mapping, facts.urlMapping = some mapping ∧ Bound mapping facts.fields name := by
  simp only [← placeholderFault?_eq_none_iff_exists, ← List.findSome?_eq_none_iff]
  rw [checkUrl]
  split
  · next hnone =>
    refine iff_of_false (by rintro ⟨⟩) ?_
    rintro ⟨url, rfl, hurl, -⟩
    exact Option.filter_eq_none_iff.mp hnone url rfl hurl
  · next url hsome =>
    obtain ⟨rfl, hurl⟩ := Option.filter_eq_some_iff.mp hsome
    split
    · next fault hfault =>
      refine iff_of_false (by rintro ⟨⟩) ?_
      rintro ⟨_, ⟨⟩, -, hnone⟩
      cases hfault.symm.trans hnone
    · next hnone => exact iff_of_true rfl ⟨url, rfl, hurl, hnone⟩

/-- What establishes something is accepted, and leaves what it establishes. -/
lemma Establishes.validate_eq (h : Establishes facts category arg found) :
    category.validate arg facts = (.ok (), found) := by
  cases h with
  | url hurl hbound => rw [Category.validate, checkUrl_eq_ok_iff.mpr ⟨_, rfl, hurl, hbound⟩]
  | string => rfl
  | @map text mapping hparse =>
    have hbind : (some text).bind MapLiteral.parse? = some mapping := hparse
    exact validate_map hbind facts
  | selfMappings => rfl
  | asBody => rfl

/-- An argument establishes something in a category, or is refused there and leaves the facts as
they were. -/
lemma establishes_or_refused (category : Category) (arg : Option Text) (facts : Facts) :
    (∃ found, Establishes facts category arg found) ∨
      ∃ fault, category.validate arg facts = (.error fault, facts) := by
  cases category with
  | url =>
    cases hcheck : checkUrl arg facts with
    | ok _ =>
      obtain ⟨url, rfl, hurl, hbound⟩ := checkUrl_eq_ok_iff.mp hcheck
      exact .inl ⟨facts, .url hurl hbound⟩
    | error fault => exact .inr ⟨fault, by rw [Category.validate, hcheck]⟩
  | string =>
    cases arg with
    | none => exact .inr ⟨_, rfl⟩
    | some text => exact .inl ⟨facts, .string⟩
  | map =>
    cases hparse : arg.bind MapLiteral.parse? with
    | none => exact .inr ⟨_, validate_map_error hparse facts⟩
    | some mapping =>
      obtain ⟨text, rfl, hmapping⟩ := Option.bind_eq_some_iff.mp hparse
      exact .inl ⟨_, .map hmapping⟩
  | selfMappings =>
    by_cases htoken : arg = some ("selfMappings" : Text)
    · subst htoken
      exact .inl ⟨_, .selfMappings⟩
    · exact .inr ⟨_, validate_selfMappings_error facts htoken⟩
  | asBody =>
    by_cases htoken : arg = some ("asBody" : Text)
    · subst htoken
      exact .inl ⟨_, .asBody⟩
    · exact .inr ⟨_, validate_asBody_error facts htoken⟩

/-- An argument is accepted in a category exactly if it establishes something there. -/
lemma validate_eq_ok_iff :
    category.validate arg facts = (.ok (), found) ↔ Establishes facts category arg found := by
  refine ⟨fun h => ?_, Establishes.validate_eq⟩
  rcases establishes_or_refused category arg facts with ⟨other, hother⟩ | ⟨fault, hfault⟩
  · cases h.symm.trans hother.validate_eq
    exact hother
  · cases h.symm.trans hfault

/-- An argument that does not fit a category leaves the facts as they were. -/
lemma Category.validate_of_not_fits (h : ¬ category.Fits arg facts) :
    ∃ fault, category.validate arg facts = (.error fault, facts) := by
  rcases establishes_or_refused category arg facts with ⟨found, hfound⟩ | hrefused
  · exact absurd (congrArg Prod.fst hfound.validate_eq) h
  · exact hrefused

/-- An argument that fits a category is accepted with what it leaves. -/
lemma Category.validate_of_fits (h : category.Fits arg facts) :
    category.validate arg facts = (.ok (), (category.validate arg facts).2) :=
  Prod.ext h rfl

end Single

/-! ### A choice -/

/-- How a choice is decided: by the first category that the argument fits on the facts at the start,
which answers as if it stood alone, or by none, and then the facts are those at the start. -/
inductive Decides (categories : List Category) (arg : Option Text) (facts : Facts) : Verdict → Prop
  | first {before after : List Category} {category : Category}
      (hsplit : categories = before ++ category :: after)
      (hbefore : ∀ earlier ∈ before, ¬ earlier.Fits arg facts) (hfits : category.Fits arg facts) :
      Decides categories arg facts (category.validate arg facts)
  | none (h : ∀ category ∈ categories, ¬ category.Fits arg facts) :
      Decides categories arg facts (.error (.noneOf categories), facts)

section Choice

variable {categories before : List Category} {category : Category} {arg : Option Text}
  {facts : Facts}

/-- Categories that the argument does not fit make no difference to those behind them. -/
lemma tryEach_append (hbefore : ∀ earlier ∈ before, ¬ earlier.Fits arg facts)
    (after : List Category) : tryEach arg (before ++ after) facts = tryEach arg after facts := by
  induction before with
  | nil => rfl
  | cons earlier rest ih =>
    obtain ⟨hearlier, hrest⟩ := List.forall_mem_cons.mp hbefore
    obtain ⟨fault, hfault⟩ := Category.validate_of_not_fits hearlier
    rw [List.cons_append, tryEach, hfault]
    exact ih hrest

/-- The first category that the argument fits decides a choice. -/
lemma validate_oneOf_of_first (hbefore : ∀ earlier ∈ before, ¬ earlier.Fits arg facts)
    (hfits : category.Fits arg facts) (after : List Category) :
    (ArgSpec.oneOf (before ++ category :: after)).validate arg facts =
      category.validate arg facts := by
  have hvalidate := Category.validate_of_fits hfits
  have htry : tryEach arg (before ++ category :: after) facts =
      (true, (category.validate arg facts).2) := by
    rw [tryEach_append hbefore, tryEach, hvalidate]
  rw [ArgSpec.validate, htry]
  exact hvalidate.symm

/-- A choice of which the argument fits nothing is refused, and nothing is established. -/
lemma validate_oneOf_of_none (h : ∀ category ∈ categories, ¬ category.Fits arg facts) :
    (ArgSpec.oneOf categories).validate arg facts = (.error (.noneOf categories), facts) := by
  have htry : tryEach arg categories facts = (false, facts) := by
    have hnil := tryEach_append h []
    rwa [List.append_nil] at hnil
  rw [ArgSpec.validate, htry]

/-- Every choice is decided by the first category that fits, or by none. -/
theorem decides_validate (categories : List Category) (arg : Option Text) (facts : Facts) :
    Decides categories arg facts ((ArgSpec.oneOf categories).validate arg facts) := by
  by_cases h : ∀ category ∈ categories, ¬ category.Fits arg facts
  · rw [validate_oneOf_of_none h]
    exact .none h
  · obtain ⟨before, category, after, rfl, hfits, hbefore⟩ := exists_first_not categories h
    rw [validate_oneOf_of_first hbefore (not_not.mp hfits)]
    exact .first rfl hbefore (not_not.mp hfits)

/-- A choice is accepted exactly if the argument fits one of its categories. -/
lemma Decides.accepts_iff {verdict : Verdict} (h : Decides categories arg facts verdict) :
    verdict.1 = .ok () ↔ ∃ category ∈ categories, category.Fits arg facts := by
  cases h with
  | @first before after category hsplit hbefore hfits =>
    have hmem : category ∈ categories := hsplit ▸ List.mem_append_right _ List.mem_cons_self
    exact iff_of_true hfits ⟨category, hmem, hfits⟩
  | none hnone => exact iff_of_false nofun fun ⟨category, hmem, hfits⟩ => hnone category hmem hfits

/-- A choice is decided in one way only. -/
lemma Decides.validate_eq {verdict : Verdict} (h : Decides categories arg facts verdict) :
    (ArgSpec.oneOf categories).validate arg facts = verdict := by
  cases h with
  | first hsplit hbefore hfits =>
    subst hsplit
    exact validate_oneOf_of_first hbefore hfits _
  | none h => exact validate_oneOf_of_none h

end Choice

/-- A choice commits to the first category that the argument fits on the facts at the start, and
answers as that category alone does; it is refused exactly if the argument fits none.  A category
changes nothing but the mappings that it establishes, and what is refused leaves no trace. -/
theorem choice_commits (categories : List Category) (arg : Option Text) (facts : Facts) :
    (((ArgSpec.oneOf categories).validate arg facts).1 = .ok () ↔
        ∃ category ∈ categories, category.Fits arg facts) ∧
      (∀ verdict, (ArgSpec.oneOf categories).validate arg facts = verdict ↔
        Decides categories arg facts verdict) ∧
      ∀ category : Category,
        (∀ found, category.validate arg facts = (.ok (), found) ↔
          Establishes facts category arg found) ∧
        ∀ fault found, category.validate arg facts = (.error fault, found) → found = facts := by
  have hdecides := decides_validate categories arg facts
  refine ⟨hdecides.accepts_iff, fun verdict => ⟨?_, Decides.validate_eq⟩, fun category =>
    ⟨fun found => validate_eq_ok_iff, ?_⟩⟩
  · rintro rfl
    exact hdecides
  · intro fault found h
    have hfits : ¬ category.Fits arg facts := by
      rw [Category.Fits, h]
      nofun
    obtain ⟨other, hother⟩ := Category.validate_of_not_fits hfits
    exact congrArg Prod.snd (h.symm.trans hother)

/-- A map literal fits two of these categories, and the first of them decides. -/
example :
    let mapping := Mapping.ofList [("id", "page")]
    (ArgSpec.oneOf [.url, .asBody, .map, .url, .string]).validate
        (some "\x7b:id page\x7d") ⟨["page"], none, none⟩ =
      (.ok (), ⟨["page"], some mapping, some mapping⟩) := by
  decide +kernel

end Endpoints
