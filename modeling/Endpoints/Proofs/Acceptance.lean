import Endpoints.Declaration.Compilation
import Endpoints.Proofs.Tokens

/-!
# Which declarations are accepted

The compiler walks over the arguments from the last to the first, and what it finds at one position
decides what it asks for at the next.  This file says without that walk which forms are accepted
(`Accepts`) and which fault at which position a form is refused for (`Refuses`), and proves that
these two, and the forms without a known keyword, are exactly the three outcomes of `deriveFacts`.

Every position asks for something that depends only on the form and the fields: a directive for a
mapping (`Directive`), and for the URL that its placeholders are bound by that mapping (`Bound`).
The proof evaluates the compiler on every accepted and every refused form, and shows that a form
with a known keyword is one of the two.  The walk is evaluated from any facts, not only from those
with which a compilation starts, so the results hold for every check (`check_of_accepts`,
`check_of_refuses`).
-/

namespace Endpoints

open UrlTemplate

/-! ### What is asked for -/

/-- What a directive stands for: a map literal for the mapping that is written in it, and the token
of the directive for the identity over the fields. -/
inductive Directive (token : Text) (fields : List Text) : Option Text → Mapping → Prop
  | literal {arg : Text} {mapping : Mapping} (h : MapLiteral.parse? arg = some mapping) :
      Directive token fields (some arg) mapping
  | token : Directive token fields (some token) (Mapping.identity fields)

/-- The directive for the body of a request, which only methods with a body take. -/
inductive BodyDirective (fields : List Text) (method : Method) (arg : Option Text) :
    Option Mapping → Prop
  | absent (h : method.hasBody = false) : BodyDirective fields method arg none
  | given {mapping : Mapping} (h : method.hasBody = true)
      (hmapping : Directive "asBody" fields arg mapping) :
      BodyDirective fields method arg (some mapping)

/-- A placeholder is bound if it is a key whose target is one of the fields. -/
def Bound (mapping : Mapping) (fields : List Text) (name : Text) : Prop :=
  ∃ target, mapping.get? name = some target ∧ target ∈ fields

/-- What is wrong with a placeholder that is not bound. -/
inductive Unbound (mapping : Mapping) (fields : List Text) (name : Text) : SyntaxFault → Prop
  | unmapped (h : mapping.get? name = none) : Unbound mapping fields name (.unmapped name)
  | unknownTarget {target : Text} (h : mapping.get? name = some target) (hnew : target ∉ fields) :
      Unbound mapping fields name (.unknownTarget target)

/-- The forms that are accepted, with their keyword and the facts that they establish.  For the
local storage any first argument will do.  For a request the URL must be one, with all its
placeholders bound by the mapping behind it. -/
inductive Accepts (form : Form) (fields : List Text) : Keyword → Facts → Prop
  | access {keyword : Keyword} (hlocal : keyword = .readLocal ∨ keyword = .writeLocal)
      (hname : form.keyword = keyword.name) (hargs : form.args ≠ []) :
      Accepts form fields keyword ⟨fields, none, none⟩
  | rest {method : Method} {body : Option Mapping} {mapping : Mapping} {url : Text}
      (hname : form.keyword = (Keyword.rest method).name)
      (hbody : BodyDirective fields method (form.arg? 2) body)
      (hmapping : Directive "selfMappings" fields (form.arg? 1) mapping)
      (harg : form.arg? 0 = some url) (hurl : isUrl url = true)
      (hbound : ∀ name ∈ placeholders url, Bound mapping fields name) :
      Accepts form fields (.rest method)
        ⟨fields, some mapping, ((form.arg? 1).bind MapLiteral.parse?).or body⟩

/-- The forms that are refused, with the position and the fault: at the highest position that does
not hold what is asked for there, and for a URL with unbound placeholders because of the first. -/
inductive Refuses (form : Form) (fields : List Text) : Nat → SyntaxFault → Prop
  | noKey {keyword : Keyword} (hlocal : keyword = .readLocal ∨ keyword = .writeLocal)
      (hname : form.keyword = keyword.name) (hargs : form.args = []) :
      Refuses form fields 0 .notString
  | noBody {method : Method} (hname : form.keyword = (Keyword.rest method).name)
      (hbody : ∀ body, ¬ BodyDirective fields method (form.arg? 2) body) :
      Refuses form fields 2 (.noneOf [.map, .asBody])
  | noMapping {method : Method} {body : Option Mapping}
      (hname : form.keyword = (Keyword.rest method).name)
      (hbody : BodyDirective fields method (form.arg? 2) body)
      (hmapping : ∀ mapping, ¬ Directive "selfMappings" fields (form.arg? 1) mapping) :
      Refuses form fields 1 (.noneOf [.map, .selfMappings])
  | noUrl {method : Method} {body : Option Mapping} {mapping : Mapping}
      (hname : form.keyword = (Keyword.rest method).name)
      (hbody : BodyDirective fields method (form.arg? 2) body)
      (hmapping : Directive "selfMappings" fields (form.arg? 1) mapping)
      (hurl : ∀ url, form.arg? 0 = some url → isUrl url = false) :
      Refuses form fields 0 .notUrl
  | placeholder {method : Method} {body : Option Mapping} {mapping : Mapping} {url : Text}
      {before after : List Text} {name : Text} {fault : SyntaxFault}
      (hname : form.keyword = (Keyword.rest method).name)
      (hbody : BodyDirective fields method (form.arg? 2) body)
      (hmapping : Directive "selfMappings" fields (form.arg? 1) mapping)
      (harg : form.arg? 0 = some url) (hurl : isUrl url = true)
      (hfirst : placeholders url = before ++ name :: after)
      (hbefore : ∀ other ∈ before, Bound mapping fields other)
      (hfault : Unbound mapping fields name fault) : Refuses form fields 0 fault

/-! ### Keywords -/

/-- The keyword of a name is the one that is written so. -/
lemma Keyword.ofName?_eq_some_iff {name : Text} {keyword : Keyword} :
    Keyword.ofName? name = some keyword ↔ name = keyword.name := by
  constructor
  · intro h
    have hfound := List.find?_some h
    exact (of_decide_eq_true hfound).symm
  · rintro rfl
    rcases keyword with (_ | _ | _ | _ | _) | _ | _ <;> decide

/-- The seven names that the language knows. -/
def keywordNames : List Text :=
  ["Rest/get", "Rest/post", "Rest/delete", "Rest/put", "Rest/patch", "Local/get-in",
    "Local/set-in"]

/-- A name without a keyword is none of the seven. -/
lemma Keyword.ofName?_eq_none_iff {name : Text} :
    Keyword.ofName? name = none ↔ name ∉ keywordNames := by
  have hnames : ∀ keyword ∈ Keyword.all, keyword.name ∈ keywordNames := by decide
  have hall : ∀ known ∈ keywordNames, ∃ keyword ∈ Keyword.all, keyword.name = known := by decide
  rw [Keyword.ofName?, List.find?_eq_none]
  constructor
  · intro h hname
    obtain ⟨keyword, hkeyword, rfl⟩ := hall name hname
    exact h keyword hkeyword (decide_eq_true rfl)
  · intro h keyword hkeyword hname
    exact h (of_decide_eq_true hname ▸ hnames keyword hkeyword)

/-! ### One position -/

/-- A directive settles a choice between a map literal and the token of the directive. -/
lemma directive_iff {token : Text} {fields : List Text} {arg : Option Text} {mapping : Mapping} :
    Directive token fields arg mapping ↔
      arg.bind MapLiteral.parse? = some mapping ∨
        arg = some token ∧ mapping = Mapping.identity fields := by
  constructor
  · rintro (h | _)
    · exact .inl h
    · exact .inr ⟨rfl, rfl⟩
  · rintro (h | ⟨rfl, rfl⟩)
    · obtain ⟨text, rfl, hparse⟩ := Option.bind_eq_some_iff.mp h
      exact .literal hparse
    · exact .token

/-- A map literal establishes both mappings. -/
lemma validate_map {arg : Option Text} {mapping : Mapping}
    (h : arg.bind MapLiteral.parse? = some mapping) (facts : Facts) :
    Category.map.validate arg facts = (.ok (), ⟨facts.fields, some mapping, some mapping⟩) := by
  rw [Category.validate, h]

/-- What is no map literal is refused as one, and nothing is established. -/
lemma validate_map_error {arg : Option Text} (h : arg.bind MapLiteral.parse? = none)
    (facts : Facts) : Category.map.validate arg facts = (.error .notMap, facts) := by
  rw [Category.validate, h]

section Choice

variable {arg : Option Text} {facts : Facts} {category : Category}

/-- A choice that begins with a map literal takes it. -/
lemma validate_choice_literal {mapping : Mapping} (h : arg.bind MapLiteral.parse? = some mapping) :
    (ArgSpec.oneOf [.map, category]).validate arg facts =
      (.ok (), ⟨facts.fields, some mapping, some mapping⟩) := by
  rw [ArgSpec.validate, tryEach, validate_map h]

/-- Where there is no map literal a choice takes what comes behind it. -/
lemma validate_choice_token (h : arg.bind MapLiteral.parse? = none) {found : Facts}
    (hok : category.validate arg facts = (.ok (), found)) :
    (ArgSpec.oneOf [.map, category]).validate arg facts = (.ok (), found) := by
  rw [ArgSpec.validate, tryEach, validate_map_error h]
  dsimp only
  rw [tryEach, hok]

/-- A choice of which nothing fits is refused, and nothing is established. -/
lemma validate_choice_error (h : arg.bind MapLiteral.parse? = none) {fault : SyntaxFault}
    (herror : category.validate arg facts = (.error fault, facts)) :
    (ArgSpec.oneOf [.map, category]).validate arg facts =
      (.error (.noneOf [.map, category]), facts) := by
  rw [ArgSpec.validate, tryEach, validate_map_error h]
  dsimp only
  rw [tryEach, herror]
  rfl

end Choice

/-- The directive for the URL establishes its mapping, and a map literal also that of the body. -/
lemma validate_urlDirective (facts : Facts) {arg : Option Text} {mapping : Mapping}
    (h : Directive "selfMappings" facts.fields arg mapping) :
    (ArgSpec.oneOf [.map, .selfMappings]).validate arg facts =
      (.ok (), ⟨facts.fields, some mapping,
        (arg.bind MapLiteral.parse?).or facts.bodyMapping⟩) := by
  rcases directive_iff.mp h with hliteral | ⟨rfl, rfl⟩
  · rw [validate_choice_literal hliteral, hliteral]
    rfl
  · have hnone : (some ("selfMappings" : Text)).bind MapLiteral.parse? = none := by decide
    rw [hnone, validate_choice_token hnone]
    rw [Category.validate, if_pos rfl]
    rfl

/-- The directive for the body establishes the mapping of the body. -/
lemma validate_bodyDirective (facts : Facts) {arg : Option Text} {mapping : Mapping}
    (h : Directive "asBody" facts.fields arg mapping) :
    ∃ urlMapping, (ArgSpec.oneOf [.map, .asBody]).validate arg facts =
      (.ok (), ⟨facts.fields, urlMapping, some mapping⟩) := by
  rcases directive_iff.mp h with hliteral | ⟨rfl, rfl⟩
  · exact ⟨some mapping, validate_choice_literal hliteral⟩
  · have hnone : (some ("asBody" : Text)).bind MapLiteral.parse? = none := by decide
    refine ⟨facts.urlMapping, validate_choice_token hnone ?_⟩
    rw [Category.validate, if_pos rfl]
    rfl

/-- What is no directive is refused, and nothing is established. -/
lemma validate_noDirective {token : Text} {category : Category} {fault : SyntaxFault}
    {facts : Facts} {arg : Option Text}
    (hcategory : arg ≠ some token → category.validate arg facts = (.error fault, facts))
    (h : ∀ mapping, ¬ Directive token facts.fields arg mapping) :
    (ArgSpec.oneOf [.map, category]).validate arg facts =
      (.error (.noneOf [.map, category]), facts) := by
  simp only [directive_iff, not_or] at h
  have hnone : arg.bind MapLiteral.parse? = none :=
    Option.eq_none_iff_forall_ne_some.mpr fun mapping => (h mapping).1
  have htoken : arg ≠ some token := fun harg => (h _).2 ⟨harg, rfl⟩
  exact validate_choice_error hnone (hcategory htoken)

/-- What is not the token `selfMappings` is refused as such. -/
lemma validate_selfMappings_error {arg : Option Text} (facts : Facts)
    (h : arg ≠ some ("selfMappings" : Text)) :
    Category.selfMappings.validate arg facts = (.error .notSelfMappings, facts) := by
  rw [Category.validate, if_neg h]

/-- What is not the token `asBody` is refused as such. -/
lemma validate_asBody_error {arg : Option Text} (facts : Facts)
    (h : arg ≠ some ("asBody" : Text)) :
    Category.asBody.validate arg facts = (.error .notAsBody, facts) := by
  rw [Category.validate, if_neg h]

/-! ### The URL -/

section Url

variable {facts : Facts} {mapping : Mapping}

/-- Nothing is wrong with a placeholder exactly if it is bound. -/
lemma placeholderFault?_eq_none_iff (hmapping : facts.urlMapping = some mapping) {name : Text} :
    placeholderFault? facts name = none ↔ Bound mapping facts.fields name := by
  rw [placeholderFault?, hmapping, Option.bind_some, Bound]
  cases mapping.get? name with
  | none => simp
  | some target => simp [Facts.knows]

/-- What is wrong with a placeholder that is not bound. -/
lemma placeholderFault?_eq_some (hmapping : facts.urlMapping = some mapping) {name : Text}
    {fault : SyntaxFault} (h : Unbound mapping facts.fields name fault) :
    placeholderFault? facts name = some fault := by
  rw [placeholderFault?, hmapping, Option.bind_some]
  cases h with
  | unmapped h => rw [h]
  | unknownTarget h hnew =>
    rw [h]
    simp [Facts.knows, hnew]

/-- A placeholder that is not bound has a fault. -/
lemma exists_unbound {fields : List Text} {name : Text} (h : ¬ Bound mapping fields name) :
    ∃ fault, Unbound mapping fields name fault := by
  cases htarget : mapping.get? name with
  | none => exact ⟨_, .unmapped htarget⟩
  | some target => exact ⟨_, .unknownTarget htarget fun hmem => h ⟨target, htarget, hmem⟩⟩

/-- A URL passes if all its placeholders are bound. -/
lemma checkUrl_ok (hmapping : facts.urlMapping = some mapping) {url : Text}
    (hurl : isUrl url = true)
    (hbound : ∀ name ∈ placeholders url, Bound mapping facts.fields name) :
    checkUrl (some url) facts = .ok () := by
  have hnone : (placeholders url).findSome? (placeholderFault? facts) = none :=
    List.findSome?_eq_none_iff.mpr fun name hname =>
      (placeholderFault?_eq_none_iff hmapping).mpr (hbound name hname)
  rw [checkUrl, Option.filter_some_pos hurl]
  dsimp only
  rw [hnone]

/-- The first placeholder that is not bound decides the fault of a URL. -/
lemma checkUrl_placeholder (hmapping : facts.urlMapping = some mapping) {url : Text}
    (hurl : isUrl url = true) {before after : List Text} {name : Text} {fault : SyntaxFault}
    (hfirst : placeholders url = before ++ name :: after)
    (hbefore : ∀ other ∈ before, Bound mapping facts.fields other)
    (hfault : Unbound mapping facts.fields name fault) :
    checkUrl (some url) facts = .error fault := by
  have hfound : (placeholders url).findSome? (placeholderFault? facts) = some fault :=
    List.findSome?_eq_some_iff.mpr ⟨before, name, after, hfirst,
      placeholderFault?_eq_some hmapping hfault,
      fun other hother => (placeholderFault?_eq_none_iff hmapping).mpr (hbefore other hother)⟩
  rw [checkUrl, Option.filter_some_pos hurl]
  dsimp only
  rw [hfound]

/-- What is no URL is refused as such. -/
lemma checkUrl_notUrl {arg : Option Text} (h : ∀ url, arg = some url → isUrl url = false) :
    checkUrl arg facts = .error .notUrl := by
  have hnone : arg.filter isUrl = none := by
    rw [Option.filter_eq_none_iff]
    intro url hurl
    simp [h url hurl]
  rw [checkUrl, hnone]

end Url

/-! ### The walk over the positions -/

section Walk

variable {form : Form} {facts found : Facts} {position : Nat} {spec : ArgSpec}
  {later : List ArgSpec}

/-- Where the later positions hold, the walk goes on with what they established. -/
lemma checkFrom_cons_ok (h : form.checkFrom (position + 1) later facts = (.ok (), found)) :
    form.checkFrom position (spec :: later) facts =
      match spec.validate (form.arg? position) found with
      | (.ok (), facts) => (.ok (), facts)
      | (.error fault, facts) => (.error (.argument position fault), facts) := by
  cases hverdict : spec.validate (form.arg? position) found with
  | mk verdict facts => cases verdict <;> simp only [Form.checkFrom, h, hverdict]

/-- Where a later position is refused, the walk ends there. -/
lemma checkFrom_cons_error {fault : CompileFault}
    (h : form.checkFrom (position + 1) later facts = (.error fault, found)) :
    form.checkFrom position (spec :: later) facts = (.error fault, found) := by
  rw [Form.checkFrom, h]

end Walk

/-- What the grammar of a request asks for behind the mapping of the URL. -/
def bodySpecs (method : Method) : List ArgSpec :=
  if method.hasBody then [.oneOf [.map, .asBody]] else []

/-- The facts behind the directives of a request, in front of its URL: the mapping of the URL, and
for the body a map literal, what its own directive gives, or what was there before. -/
def Facts.directed (start : Facts) (form : Form) (mapping : Mapping) (body : Option Mapping) :
    Facts where
  fields := start.fields
  urlMapping := some mapping
  bodyMapping := ((form.arg? 1).bind MapLiteral.parse?).or (body.or start.bodyMapping)

section Request

variable {form : Form} {start : Facts} {method : Method} {body : Option Mapping}

/-- The walk establishes the mapping of the body. -/
lemma checkFrom_body (hbody : BodyDirective start.fields method (form.arg? 2) body) :
    ∃ urlMapping, form.checkFrom 2 (bodySpecs method) start =
      (.ok (), ⟨start.fields, urlMapping, body.or start.bodyMapping⟩) := by
  cases hbody with
  | absent h =>
    refine ⟨start.urlMapping, ?_⟩
    rw [bodySpecs, h]
    rfl
  | given h hmapping =>
    obtain ⟨urlMapping, hvalidate⟩ := validate_bodyDirective start hmapping
    refine ⟨urlMapping, ?_⟩
    rw [bodySpecs, h, if_pos rfl, checkFrom_cons_ok rfl, hvalidate]
    rfl

/-- Without a directive for the body the walk ends at once. -/
lemma checkFrom_noBody (hbody : ∀ body, ¬ BodyDirective start.fields method (form.arg? 2) body) :
    form.checkFrom 2 (bodySpecs method) start =
      (.error (.argument 2 (.noneOf [.map, .asBody])), start) := by
  have hmethod : method.hasBody = true := by
    by_contra h
    exact hbody none (.absent (Bool.not_eq_true _ ▸ h))
  have hvalidate := validate_noDirective (validate_asBody_error start)
    fun mapping hmapping => hbody _ (.given hmethod hmapping)
  rw [bodySpecs, hmethod, if_pos rfl, checkFrom_cons_ok rfl, hvalidate]

/-- The walk establishes the mapping of the URL, and from a map literal also that of the body. -/
lemma checkFrom_mapping (hbody : BodyDirective start.fields method (form.arg? 2) body)
    {mapping : Mapping}
    (hmapping : Directive "selfMappings" start.fields (form.arg? 1) mapping) :
    form.checkFrom 1 (.oneOf [.map, .selfMappings] :: bodySpecs method) start =
      (.ok (), start.directed form mapping body) := by
  obtain ⟨urlMapping, hlater⟩ := checkFrom_body hbody
  rw [checkFrom_cons_ok hlater, validate_urlDirective ⟨start.fields, urlMapping, _⟩ hmapping]
  rfl

/-- Without a directive for the URL the walk ends in front of the URL. -/
lemma checkFrom_noMapping (hbody : BodyDirective start.fields method (form.arg? 2) body)
    (hmapping : ∀ mapping, ¬ Directive "selfMappings" start.fields (form.arg? 1) mapping) :
    ∃ after : Facts, after.fields = start.fields ∧
      form.checkFrom 1 (.oneOf [.map, .selfMappings] :: bodySpecs method) start =
        (.error (.argument 1 (.noneOf [.map, .selfMappings])), after) := by
  obtain ⟨urlMapping, hlater⟩ := checkFrom_body hbody
  have hvalidate := validate_noDirective
    (validate_selfMappings_error ⟨start.fields, urlMapping, body.or start.bodyMapping⟩) hmapping
  refine ⟨⟨start.fields, urlMapping, body.or start.bodyMapping⟩, rfl, ?_⟩
  rw [checkFrom_cons_ok hlater, hvalidate]

/-- The grammar of a request: the URL, its mapping and, with a body, the mapping of the body. -/
lemma grammar_rest (method : Method) :
    (Keyword.rest method).grammar =
      .one .url :: .oneOf [.map, .selfMappings] :: bodySpecs method := rfl

/-- Behind its directives the URL decides how the walk ends, and nothing more is established. -/
lemma checkFrom_url (hbody : BodyDirective start.fields method (form.arg? 2) body)
    {mapping : Mapping}
    (hmapping : Directive "selfMappings" start.fields (form.arg? 1) mapping)
    {verdict : Except SyntaxFault Unit}
    (hurl : checkUrl (form.arg? 0) (start.directed form mapping body) = verdict) :
    form.checkFrom 0 (Keyword.rest method).grammar start =
      (verdict.mapError (.argument 0), start.directed form mapping body) := by
  rw [grammar_rest, checkFrom_cons_ok (checkFrom_mapping hbody hmapping), ArgSpec.validate,
    Category.validate, hurl]
  cases verdict <;> rfl

end Request

/-! ### Checks from any facts

A check is handed the facts that it starts from.  What it establishes does not depend on the
mappings that are there already: it goes over them, and what it does not establish stays. -/

/-- What was found out, over what was there before: a mapping that was not found out is the earlier
one. -/
def Facts.over (found before : Facts) : Facts where
  fields := found.fields
  urlMapping := found.urlMapping.or before.urlMapping
  bodyMapping := found.bodyMapping.or before.bodyMapping

/-- Facts over none are the facts. -/
lemma Facts.over_bare (found : Facts) (fields : List Text) :
    found.over ⟨fields, none, none⟩ = found := by
  rw [Facts.over, Option.or_none, Option.or_none]

/-- A list that does not have a property throughout has a first member without it. -/
lemma exists_first_not {α : Type} {P : α → Prop} (l : List α) (h : ¬ ∀ a ∈ l, P a) :
    ∃ before a after, l = before ++ a :: after ∧ ¬ P a ∧ ∀ b ∈ before, P b := by
  induction l with
  | nil => exact absurd (fun _ ha => absurd ha List.not_mem_nil) h
  | cons a rest ih =>
    by_cases ha : P a
    · have hrest : ¬ ∀ b ∈ rest, P b := fun hall =>
        h (List.forall_mem_cons.mpr ⟨ha, hall⟩)
      obtain ⟨before, b, after, rfl, hb, hbefore⟩ := ih hrest
      exact ⟨a :: before, b, after, rfl, hb, List.forall_mem_cons.mpr ⟨ha, hbefore⟩⟩
    · exact ⟨[], a, rest, rfl, ha, nofun⟩

section Check

variable {form : Form} {facts found : Facts} {keyword : Keyword}

/-- A form with a known keyword passes if the walk over the grammar does. -/
lemma check_of_walk_ok (hname : form.keyword = keyword.name)
    (h : form.checkFrom 0 keyword.grammar facts = (.ok (), found)) :
    form.check facts = (.ok keyword, found) := by
  rw [Form.check, Keyword.ofName?_eq_some_iff.mpr hname]
  dsimp only
  rw [h]

/-- A form with a known keyword is refused if the walk over the grammar ends early. -/
lemma check_of_walk_error (hname : form.keyword = keyword.name) {fault : CompileFault}
    (h : form.checkFrom 0 keyword.grammar facts = (.error fault, found)) :
    form.check facts = (.error fault, found) := by
  rw [Form.check, Keyword.ofName?_eq_some_iff.mpr hname]
  dsimp only
  rw [h]

/-- A form without a known keyword is refused before anything is looked at. -/
lemma check_of_unknown (facts : Facts) (hname : form.keyword ∉ keywordNames) :
    form.check facts = (.error .invalidKeyword, facts) := by
  rw [Form.check, Keyword.ofName?_eq_none_iff.mpr hname]

/-- The accepted forms pass, with their keyword, and their facts go over those that were there. -/
theorem check_of_accepts (h : Accepts form facts.fields keyword found) :
    form.check facts = (.ok keyword, found.over facts) := by
  cases h with
  | access hlocal hname hargs =>
    obtain ⟨key, rest, hcons⟩ := List.exists_cons_of_ne_nil hargs
    have harg : form.arg? 0 = some key := by rw [Form.arg?, hcons]; rfl
    apply check_of_walk_ok hname
    rcases hlocal with rfl | rfl <;>
      rw [Keyword.grammar, checkFrom_cons_ok rfl, harg] <;> rfl
  | @rest method body mapping url hname hbody hmapping harg hurl hbound =>
    have hverdict : checkUrl (form.arg? 0) (facts.directed form mapping body) = .ok () := by
      rw [harg]
      exact checkUrl_ok rfl hurl hbound
    rw [check_of_walk_ok hname (checkFrom_url hbody hmapping hverdict), Facts.over,
      Option.or_assoc]
    rfl

/-- A form of the local storage without a key is refused, and nothing is established. -/
lemma check_of_noKey (hlocal : keyword = .readLocal ∨ keyword = .writeLocal)
    (hname : form.keyword = keyword.name) (hargs : form.args = []) :
    form.check facts = (.error (.argument 0 .notString), facts) := by
  have harg : form.arg? 0 = none := by rw [Form.arg?, hargs]; rfl
  apply check_of_walk_error hname
  rcases hlocal with rfl | rfl <;>
    rw [Keyword.grammar, checkFrom_cons_ok rfl, harg] <;> rfl

/-- The refused forms are refused, at their position and for their fault, and the fields stay. -/
theorem check_of_refuses {position : Nat} {fault : SyntaxFault}
    (h : Refuses form facts.fields position fault) :
    ∃ after : Facts, after.fields = facts.fields ∧
      form.check facts = (.error (.argument position fault), after) := by
  cases h with
  | noKey hlocal hname hargs => exact ⟨facts, rfl, check_of_noKey hlocal hname hargs⟩
  | noBody hname hbody =>
    refine ⟨facts, rfl, check_of_walk_error hname ?_⟩
    rw [grammar_rest, checkFrom_cons_error (checkFrom_cons_error (checkFrom_noBody hbody))]
  | noMapping hname hbody hmapping =>
    obtain ⟨after, hfields, hlater⟩ := checkFrom_noMapping hbody hmapping
    refine ⟨after, hfields, check_of_walk_error hname ?_⟩
    rw [grammar_rest, checkFrom_cons_error hlater]
  | @noUrl method body mapping hname hbody hmapping hurl =>
    exact ⟨facts.directed form mapping body, rfl,
      check_of_walk_error hname (checkFrom_url hbody hmapping (checkUrl_notUrl hurl))⟩
  | @placeholder method body mapping url before after name fault hname hbody hmapping harg hurl
      hfirst hbefore hfault =>
    have hverdict :
        checkUrl (form.arg? 0) (facts.directed form mapping body) = .error fault := by
      rw [harg]
      exact checkUrl_placeholder rfl hurl hfirst hbefore hfault
    exact ⟨facts.directed form mapping body, rfl,
      check_of_walk_error hname (checkFrom_url hbody hmapping hverdict)⟩

end Check

/-! ### The three outcomes -/

/-- A declaration without a known keyword is refused before anything is looked at. -/
lemma deriveFacts_of_unknown {declaration : Text} (fields : List Text)
    (hname : (Form.split declaration).keyword ∉ keywordNames) :
    deriveFacts declaration fields = .error .invalidKeyword := by
  rw [deriveFacts, check_of_unknown _ hname]

/-- The compiler accepts the accepted forms, with their keyword and facts. -/
theorem deriveFacts_of_accepts {declaration : Text} {fields : List Text} {keyword : Keyword}
    {facts : Facts} (h : Accepts (Form.split declaration) fields keyword facts) :
    deriveFacts declaration fields = .ok (keyword, facts) := by
  have hcheck : (Form.split declaration).check ⟨fields, none, none⟩ =
      (.ok keyword, facts.over ⟨fields, none, none⟩) := check_of_accepts h
  rw [deriveFacts, hcheck, Facts.over_bare]

/-- The compiler refuses the refused forms, at their position and for their fault. -/
theorem deriveFacts_of_refuses {declaration : Text} {fields : List Text} {position : Nat}
    {fault : SyntaxFault} (h : Refuses (Form.split declaration) fields position fault) :
    deriveFacts declaration fields = .error (.argument position fault) := by
  have hrefuses : Refuses (Form.split declaration) (Facts.mk fields none none).fields position
      fault := h
  obtain ⟨after, -, hcheck⟩ := check_of_refuses hrefuses
  rw [deriveFacts, hcheck]

/-- A form with the keyword of a request is accepted or refused. -/
lemma accepts_or_refuses_rest {form : Form} (fields : List Text) {method : Method}
    (hname : form.keyword = (Keyword.rest method).name) :
    (∃ facts, Accepts form fields (.rest method) facts) ∨
      ∃ position fault, Refuses form fields position fault := by
  by_cases hbody : ∃ body, BodyDirective fields method (form.arg? 2) body
  swap
  · exact .inr ⟨_, _, .noBody hname (not_exists.mp hbody)⟩
  obtain ⟨body, hbody⟩ := hbody
  by_cases hmapping : ∃ mapping, Directive "selfMappings" fields (form.arg? 1) mapping
  swap
  · exact .inr ⟨_, _, .noMapping hname hbody (not_exists.mp hmapping)⟩
  obtain ⟨mapping, hmapping⟩ := hmapping
  by_cases hurl : ∃ url, form.arg? 0 = some url ∧ isUrl url = true
  swap
  · refine .inr ⟨_, _, .noUrl hname hbody hmapping fun url harg => ?_⟩
    exact Bool.eq_false_iff.mpr fun h => hurl ⟨url, harg, h⟩
  obtain ⟨url, harg, hurl⟩ := hurl
  by_cases hbound : ∀ name ∈ placeholders url, Bound mapping fields name
  · exact .inl ⟨_, .rest hname hbody hmapping harg hurl hbound⟩
  · obtain ⟨before, name, after, hfirst, hname', hbefore⟩ :=
      exists_first_not (placeholders url) hbound
    obtain ⟨fault, hfault⟩ := exists_unbound hname'
    exact .inr ⟨_, _, .placeholder hname hbody hmapping harg hurl hfirst hbefore hfault⟩

/-- A form is without a known keyword, accepted or refused. -/
theorem unknown_or_accepts_or_refuses (form : Form) (fields : List Text) :
    form.keyword ∉ keywordNames ∨ (∃ keyword facts, Accepts form fields keyword facts) ∨
      ∃ position fault, Refuses form fields position fault := by
  cases hkeyword : Keyword.ofName? form.keyword with
  | none => exact .inl (Keyword.ofName?_eq_none_iff.mp hkeyword)
  | some keyword =>
    have hname := Keyword.ofName?_eq_some_iff.mp hkeyword
    have haccess : keyword = .readLocal ∨ keyword = .writeLocal →
        (∃ facts, Accepts form fields keyword facts) ∨
          ∃ position fault, Refuses form fields position fault := by
      intro hlocal
      by_cases hargs : form.args = []
      · exact .inr ⟨_, _, .noKey hlocal hname hargs⟩
      · exact .inl ⟨_, .access hlocal hname hargs⟩
    refine .inr ?_
    cases keyword with
    | rest method =>
      exact (accepts_or_refuses_rest fields hname).imp_left fun ⟨facts, h⟩ => ⟨_, facts, h⟩
    | readLocal => exact (haccess (.inl rfl)).imp_left fun ⟨facts, h⟩ => ⟨_, facts, h⟩
    | writeLocal => exact (haccess (.inr rfl)).imp_left fun ⟨facts, h⟩ => ⟨_, facts, h⟩

/-- The compiler accepts exactly the accepted forms. -/
theorem deriveFacts_eq_ok_iff {declaration : Text} {fields : List Text} {keyword : Keyword}
    {facts : Facts} :
    deriveFacts declaration fields = .ok (keyword, facts) ↔
      Accepts (Form.split declaration) fields keyword facts := by
  refine ⟨fun h => ?_, deriveFacts_of_accepts⟩
  rcases unknown_or_accepts_or_refuses (Form.split declaration) fields with
    hname | ⟨keyword', facts', haccepts⟩ | ⟨position, fault, hrefuses⟩
  · rw [deriveFacts_of_unknown fields hname] at h
    cases h
  · rw [deriveFacts_of_accepts haccepts] at h
    cases h
    exact haccepts
  · rw [deriveFacts_of_refuses hrefuses] at h
    cases h

/-- The compiler refuses an argument exactly for the refused forms. -/
theorem deriveFacts_eq_argument_iff {declaration : Text} {fields : List Text} {position : Nat}
    {fault : SyntaxFault} :
    deriveFacts declaration fields = .error (.argument position fault) ↔
      Refuses (Form.split declaration) fields position fault := by
  refine ⟨fun h => ?_, deriveFacts_of_refuses⟩
  rcases unknown_or_accepts_or_refuses (Form.split declaration) fields with
    hname | ⟨keyword', facts', haccepts⟩ | ⟨position', fault', hrefuses⟩
  · rw [deriveFacts_of_unknown fields hname] at h
    cases h
  · rw [deriveFacts_of_accepts haccepts] at h
    cases h
  · rw [deriveFacts_of_refuses hrefuses] at h
    cases h
    exact hrefuses

/-- The compiler knows no keyword exactly for the other names. -/
theorem deriveFacts_eq_invalidKeyword_iff {declaration : Text} {fields : List Text} :
    deriveFacts declaration fields = .error .invalidKeyword ↔
      (Form.split declaration).keyword ∉ keywordNames := by
  refine ⟨fun h => ?_, deriveFacts_of_unknown fields⟩
  rcases unknown_or_accepts_or_refuses (Form.split declaration) fields with
    hname | ⟨keyword', facts', haccepts⟩ | ⟨position', fault', hrefuses⟩
  · exact hname
  · rw [deriveFacts_of_accepts haccepts] at h
    cases h
  · rw [deriveFacts_of_refuses hrefuses] at h
    cases h

/-- The verdict on a declaration, for every text and all fields.  A declaration is without a known
keyword, accepted or refused, and the compiler tells which, with the keyword and the facts of an
accepted form and with the position and the fault of a refused one. -/
theorem deriveFacts_decides (declaration : Text) (fields : List Text) :
    (deriveFacts declaration fields = .error .invalidKeyword ↔
        (Form.split declaration).keyword ∉ keywordNames) ∧
      (∀ keyword facts, deriveFacts declaration fields = .ok (keyword, facts) ↔
        Accepts (Form.split declaration) fields keyword facts) ∧
      ∀ position fault, deriveFacts declaration fields = .error (.argument position fault) ↔
        Refuses (Form.split declaration) fields position fault := by
  refine ⟨deriveFacts_eq_invalidKeyword_iff, fun keyword facts => ?_, fun position fault => ?_⟩
  · exact deriveFacts_eq_ok_iff
  · exact deriveFacts_eq_argument_iff

end Endpoints
