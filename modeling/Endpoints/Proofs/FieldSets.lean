import Endpoints.Proofs.Acceptance
import Endpoints.Proofs.Mappings

/-!
# Acceptance and the set of the request fields

The fields that a declaration is compiled against are a list, and the token of a directive turns
them into a mapping in which their order shows.  The verdict does not depend on it: with more fields
no declaration is lost, and with the same fields in another order, or with repetitions, the verdict
is the same, down to the fault.

The two lists are compared directive by directive (`Directive.exists_under`).  A map literal is the
same mapping under both, and the mapping of a token knows each field of its own list
(`Mapping.get?_identity`), so what is bound under one list is bound under a longer one, and what is
wrong under both is wrong in the same way.
-/

namespace Endpoints

open UrlTemplate

/-! ### Directives under two lists of fields -/

section Identity

variable {fields : List Text} {name : Text}

/-- The identity binds its fields. -/
lemma bound_identity_iff : Bound (Mapping.identity fields) fields name ↔ name ∈ fields := by
  rw [Bound, Mapping.get?_identity]
  constructor
  · rintro ⟨target, htarget, hmem⟩
    split at htarget
    · next hname => exact hname
    · cases htarget
  · intro hname
    exact ⟨name, if_pos hname, hname⟩

/-- What the identity does not bind is not mapped. -/
lemma unbound_identity_iff {fault : SyntaxFault} :
    Unbound (Mapping.identity fields) fields name fault ↔
      name ∉ fields ∧ fault = .unmapped name := by
  constructor
  · intro h
    cases h with
    | unmapped h =>
      rw [Mapping.get?_identity] at h
      refine ⟨fun hname => ?_, rfl⟩
      rw [if_pos hname] at h
      cases h
    | unknownTarget h hnew =>
      rw [Mapping.get?_identity] at h
      split at h
      · next hname =>
        cases h
        exact absurd hname hnew
      · cases h
  · rintro ⟨hname, rfl⟩
    exact .unmapped (by rw [Mapping.get?_identity, if_neg hname])

end Identity

section Under

variable {fields others : List Text} {arg : Option Text} {form : Form}

/-- A directive stands for a mapping under more fields too, which binds what it bound before.  If
there are no new fields among them, what is not bound is not bound for the same fault. -/
lemma Directive.exists_under {token : Text} {mapping : Mapping}
    (h : Directive token fields arg mapping) (hsub : fields ⊆ others) :
    ∃ mapping', Directive token others arg mapping' ∧
      (∀ name, Bound mapping fields name → Bound mapping' others name) ∧
      (others ⊆ fields → ∀ name fault, Unbound mapping fields name fault →
        Unbound mapping' others name fault) := by
  cases h with
  | literal hparse =>
    refine ⟨mapping, .literal hparse, ?_, ?_⟩
    · rintro name ⟨target, htarget, hmem⟩
      exact ⟨target, htarget, hsub hmem⟩
    · intro hsup name fault hfault
      cases hfault with
      | unmapped hnone => exact .unmapped hnone
      | unknownTarget htarget hnew => exact .unknownTarget htarget fun hmem => hnew (hsup hmem)
  | token =>
    refine ⟨Mapping.identity others, .token, ?_, ?_⟩
    · intro name hbound
      exact bound_identity_iff.mpr (hsub (bound_identity_iff.mp hbound))
    · intro hsup name fault hfault
      obtain ⟨hname, hunmapped⟩ := unbound_identity_iff.mp hfault
      exact unbound_identity_iff.mpr ⟨fun hmem => hname (hsup hmem), hunmapped⟩

/-- A directive for the body stays one under more fields. -/
lemma BodyDirective.exists_under {method : Method} {body : Option Mapping}
    (h : BodyDirective fields method arg body) (hsub : fields ⊆ others) :
    ∃ body', BodyDirective others method arg body' := by
  cases h with
  | absent hmethod => exact ⟨none, .absent hmethod⟩
  | given hmethod hmapping =>
    obtain ⟨mapping, hmapping', -⟩ := hmapping.exists_under hsub
    exact ⟨some mapping, .given hmethod hmapping'⟩

/-! ### Acceptance -/

/-- What is accepted is accepted with more fields, with the same keyword. -/
theorem Accepts.of_subset {keyword : Keyword} {found : Facts}
    (h : Accepts form fields keyword found) (hsub : fields ⊆ others) :
    ∃ found', Accepts form others keyword found' := by
  cases h with
  | access hlocal hname hargs => exact ⟨_, .access hlocal hname hargs⟩
  | rest hname hbody hmapping harg hurl hbound =>
    obtain ⟨body', hbody'⟩ := hbody.exists_under hsub
    obtain ⟨mapping', hmapping', hbinds, -⟩ := hmapping.exists_under hsub
    exact ⟨_, .rest hname hbody' hmapping' harg hurl fun name hmem =>
      hbinds name (hbound name hmem)⟩

/-- What is refused is refused at the same position and for the same fault if the fields have the
same members. -/
theorem Refuses.of_sameMembers {position : Nat} {fault : SyntaxFault}
    (h : Refuses form fields position fault) (hsub : fields ⊆ others) (hsup : others ⊆ fields) :
    Refuses form others position fault := by
  cases h with
  | noKey hlocal hname hargs => exact .noKey hlocal hname hargs
  | noBody hname hbody =>
    refine .noBody hname fun body hother => ?_
    obtain ⟨body', hbody'⟩ := hother.exists_under hsup
    exact hbody body' hbody'
  | noMapping hname hbody hmapping =>
    obtain ⟨body', hbody'⟩ := hbody.exists_under hsub
    refine .noMapping hname hbody' fun mapping hother => ?_
    obtain ⟨mapping', hmapping', -⟩ := hother.exists_under hsup
    exact hmapping mapping' hmapping'
  | noUrl hname hbody hmapping hurl =>
    obtain ⟨body', hbody'⟩ := hbody.exists_under hsub
    obtain ⟨mapping', hmapping', -⟩ := hmapping.exists_under hsub
    exact .noUrl hname hbody' hmapping' hurl
  | placeholder hname hbody hmapping harg hurl hfirst hbefore hfault =>
    obtain ⟨body', hbody'⟩ := hbody.exists_under hsub
    obtain ⟨mapping', hmapping', hbinds, hfaults⟩ := hmapping.exists_under hsub
    exact .placeholder hname hbody' hmapping' harg hurl hfirst
      (fun other hmem => hbinds other (hbefore other hmem)) (hfaults hsup _ _ hfault)

end Under

/-- A compilation succeeds exactly for the accepted forms. -/
lemma isOk_compile_iff {declaration : Text} {fields : List Text} :
    (compile declaration fields).isOk = true ↔
      ∃ keyword found, Accepts (Form.split declaration) fields keyword found := by
  rw [Compilation.isOk, compile]
  cases hderived : deriveFacts declaration fields with
  | ok derived => exact iff_of_true rfl ⟨_, _, deriveFacts_eq_ok_iff.mp hderived⟩
  | error fault =>
    refine iff_of_false nofun ?_
    rintro ⟨keyword, found, haccepts⟩
    cases hderived.symm.trans (deriveFacts_of_accepts haccepts)

/-- The verdict on a declaration depends on the set of the request fields only, and grows with it:
with more fields an accepted declaration stays accepted, and with the same fields, in whatever order
and however often, the fault is the same. -/
theorem compile_depends_on_field_set (declaration : Text) (fields others : List Text) :
    (fields ⊆ others → (compile declaration fields).isOk = true →
        (compile declaration others).isOk = true) ∧
      ((∀ field, field ∈ fields ↔ field ∈ others) →
        (compile declaration fields).fault = (compile declaration others).fault) := by
  constructor
  · intro hsub hok
    obtain ⟨keyword, found, haccepts⟩ := isOk_compile_iff.mp hok
    obtain ⟨found', haccepts'⟩ := haccepts.of_subset hsub
    exact isOk_compile_iff.mpr ⟨keyword, found', haccepts'⟩
  · intro hsame
    have hsub : fields ⊆ others := fun field => (hsame field).mp
    have hsup : others ⊆ fields := fun field => (hsame field).mpr
    rw [compile, compile]
    dsimp only
    rcases unknown_or_accepts_or_refuses (Form.split declaration) fields with
      hunknown | ⟨keyword, found, haccepts⟩ | ⟨position, fault, hrefuses⟩
    · rw [deriveFacts_of_unknown fields hunknown, deriveFacts_of_unknown others hunknown]
    · obtain ⟨found', haccepts'⟩ := haccepts.of_subset hsub
      rw [deriveFacts_of_accepts haccepts, deriveFacts_of_accepts haccepts']
    · have hrefuses' := hrefuses.of_sameMembers hsub hsup
      rw [deriveFacts_of_refuses hrefuses, deriveFacts_of_refuses hrefuses']

/-- A declaration is accepted with more fields in another order, and refused for the same fault
with a field that is repeated. -/
theorem compile_depends_on_field_set_page :
    let declaration : Text := "(Rest/post /:page/:id selfMappings \x7b:page page\x7d)"
    let fields : List Text := ["id", "page"]
    let more : List Text := ["user", "page", "id", "id"]
    (fields ⊆ more ∧ (compile declaration fields).isOk = true ∧
        (compile declaration more).isOk = true) ∧
      (∀ field : Text, field ∈ [("id" : Text)] ↔ field ∈ [("id" : Text), "id"]) ∧
        (compile declaration ["id", "id"]).fault = some (.argument 0 (.unmapped "page")) := by
  intro declaration fields more
  have hsub : fields ⊆ more := by decide
  have hok : (compile declaration fields).isOk = true := by decide +kernel
  have hsame : ∀ field : Text, field ∈ [("id" : Text)] ↔ field ∈ [("id" : Text), "id"] := by simp
  have hfault : (compile declaration ["id"]).fault = some (.argument 0 (.unmapped "page")) := by
    decide +kernel
  refine ⟨⟨hsub, hok, ?_⟩, hsame, ?_⟩
  · exact (compile_depends_on_field_set declaration fields more).1 hsub hok
  · rw [← (compile_depends_on_field_set declaration ["id"] ["id", "id"]).2 hsame, hfault]

end Endpoints
