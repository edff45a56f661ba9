import Endpoints.Proofs.Filling
import Mathlib.Data.List.Basic

/-!
# Placeholders side by side

A value that is put in directly behind a token becomes part of its word: in `:a:b` the value `y` of
`b` turns the token `:a` into `:ay`.  `neighbours` lists the placeholders that directly follow a
token, and a text is `InOrder` for some keys if none of them has its turn before the token in front
of it.

In a text in order the key whose turn it is `Leads`: no other token stands directly in front of it.
Replaced by a value without a colon its tokens disappear, and nothing else happens to the tokens of
the text (`namesOf_replaceTokens_eq_filter`), so the text stays in order for the later keys
(`inOrder_replaceTokens`).  If a text is not in order, a value that is longer than every key becomes
part of a name, and a name that is longer than every key stays: the text is `Stuck`, whatever key
comes next (`stuck_replaceTokens`).
-/

namespace Endpoints

open UrlTemplate

/-! ### Tokens that are followed by a placeholder -/

/-- The name of the placeholder that a text starts with. -/
def frontName : Text → Option Text
  | [] => none
  | c :: rest =>
    if c = ':' && !(Text.leadingWord rest).isEmpty then some (Text.leadingWord rest) else none

/-- The words of the tokens that a placeholder directly follows, each with the name of the
placeholder; the word of a bare colon is empty. -/
def neighbours : Text → List (Text × Text)
  | [] => []
  | c :: rest =>
    (if c = ':' then
      (frontName (Text.afterWord rest)).toList.map fun name => (Text.leadingWord rest, name)
    else []) ++ neighbours rest

/-- No placeholder directly follows a token whose word is a later key or no key. -/
def InOrder (keys : List Text) (t : Text) : Prop :=
  ∀ pair ∈ neighbours t, keys.idxOf pair.1 ≤ keys.idxOf pair.2

instance (keys : List Text) (t : Text) : Decidable (InOrder keys t) :=
  inferInstanceAs (Decidable (∀ pair ∈ neighbours t, keys.idxOf pair.1 ≤ keys.idxOf pair.2))

/-- A plain character is no placeholder. -/
lemma frontName_char {c : Char} (hc : c ≠ ':') (rest : Text) : frontName (c :: rest) = none := by
  simp [frontName, hc]

/-- A token is a placeholder if it has a word. -/
lemma frontName_token {w rest : Text} (hw : ∀ c ∈ w, isWordChar c = true)
    (hr : endsToken rest = true) :
    frontName (':' :: (w ++ rest)) = if w = [] then none else some w := by
  rw [frontName, Text.leadingWord_append hw hr]
  cases w <;> simp

/-- A text that starts with a placeholder is its token and a rest. -/
lemma eq_append_of_frontName {t name : Text} (h : frontName t = some name) :
    ∃ rest, t = ':' :: (name ++ rest) ∧ (∀ c ∈ name, isWordChar c = true) ∧ name ≠ [] ∧
      endsToken rest = true := by
  cases t with
  | nil => cases h
  | cons c rest =>
    by_cases hc : c = ':' && !(Text.leadingWord rest).isEmpty
    · rw [frontName, if_pos hc] at h
      rw [Bool.and_eq_true, decide_eq_true_eq, Bool.not_eq_true', List.isEmpty_eq_false_iff] at hc
      cases h
      refine ⟨Text.afterWord rest, ?_, Text.isWordChar_of_mem_leadingWord rest, hc.2,
        endsToken_afterWord rest⟩
      rw [Text.leadingWord_append_afterWord, hc.1]
    · rw [frontName, if_neg hc] at h
      cases h

/-- A plain character is followed by nothing that matters. -/
lemma neighbours_char {c : Char} (hc : c ≠ ':') (rest : Text) :
    neighbours (c :: rest) = neighbours rest := by
  rw [neighbours, if_neg hc, List.nil_append]

/-- Plain characters in front of a text are followed by nothing that matters. -/
lemma neighbours_plain_append {s : Text} (hs : ':' ∉ s) (rest : Text) :
    neighbours (s ++ rest) = neighbours rest := by
  induction s with
  | nil => rfl
  | cons c s ih =>
    rw [List.mem_cons, not_or] at hs
    rw [List.cons_append, neighbours_char (Ne.symm hs.1), ih hs.2]

/-- A token is followed by the placeholder that its rest starts with. -/
lemma neighbours_token {w rest : Text} (hw : ∀ c ∈ w, isWordChar c = true)
    (hr : endsToken rest = true) :
    neighbours (':' :: (w ++ rest)) =
      ((frontName rest).toList.map fun name => (w, name)) ++ neighbours rest := by
  rw [neighbours, if_pos rfl, Text.leadingWord_append hw hr, Text.afterWord_append hw hr,
    neighbours_plain_append (colon_not_mem_of_isWordChar hw)]

/-- A question mark follows no token and is followed by none. -/
lemma neighbours_append_question (s q : Text) :
    neighbours (s ++ '?' :: q) = neighbours s ++ neighbours q := by
  induction s using tokenInduction with
  | nil => exact neighbours_char (by decide) q
  | char c rest hc ih => rw [List.cons_append, neighbours_char hc, neighbours_char hc, ih]
  | token w rest hw hr ih =>
    have hfront : frontName (rest ++ '?' :: q) = frontName rest := by
      cases rest with
      | nil => exact frontName_char (by decide) q
      | cons c rest =>
        rw [List.cons_append, frontName, frontName,
          Text.leadingWord_append_of_endsToken _ (endsToken_question q)]
    rw [List.cons_append, List.append_assoc,
      neighbours_token hw (endsToken_append hr (endsToken_question q)), neighbours_token hw hr,
      hfront, ih, List.append_assoc]

/-- The placeholder that a text starts with is one of its names. -/
lemma mem_namesOf_of_frontName {t name : Text} (h : frontName t = some name) :
    name ∈ namesOf t := by
  obtain ⟨rest, rfl, hname, hne, hr⟩ := eq_append_of_frontName h
  rw [namesOf_token hname hr, if_neg hne]
  exact List.mem_cons_self

/-- What directly follows a token is a name of the text, and so is the word of the token unless it
is empty. -/
lemma mem_namesOf_of_mem_neighbours {t : Text} {pair : Text × Text} (h : pair ∈ neighbours t) :
    (pair.1 ≠ [] → pair.1 ∈ namesOf t) ∧ pair.2 ∈ namesOf t := by
  induction t using tokenInduction with
  | nil => cases h
  | char c rest hc ih =>
    rw [neighbours_char hc] at h
    rw [namesOf_char hc]
    exact ih h
  | token w rest hw hr ih =>
    have hrest : ∀ name ∈ namesOf rest, name ∈ namesOf (':' :: (w ++ rest)) := by
      intro name hname
      rw [namesOf_token hw hr]
      split
      · exact hname
      · exact List.mem_cons_of_mem _ hname
    rw [neighbours_token hw hr, List.mem_append] at h
    rcases h with h | h
    · obtain ⟨name, hname, rfl⟩ := List.mem_map.mp h
      have hmem := mem_namesOf_of_frontName (Option.mem_toList.mp hname)
      refine ⟨fun hne => ?_, hrest _ hmem⟩
      rw [namesOf_token hw hr, if_neg hne]
      exact List.mem_cons_self
    · obtain ⟨hfirst, hsecond⟩ := ih h
      exact ⟨fun hne => hrest _ (hfirst hne), hrest _ hsecond⟩

/-! ### One key of a text in order -/

/-- A placeholder directly follows no token but its own. -/
def Leads (key : Text) (t : Text) : Prop :=
  ∀ pair ∈ neighbours t, pair.2 = key → pair.1 = key

section InOrder

variable {key v : Text}

/-- What a leading placeholder is to a token: it leads the rest, and does not start it unless the
token is its own. -/
lemma Leads.of_token {w rest : Text} (hw : ∀ c ∈ w, isWordChar c = true)
    (hr : endsToken rest = true) (h : Leads key (':' :: (w ++ rest))) :
    (w ≠ key → frontName rest ≠ some key) ∧ Leads key rest := by
  have hneighbours := neighbours_token hw hr
  constructor
  · intro hne hfront
    have hpair : (w, key) ∈ neighbours (':' :: (w ++ rest)) := by
      rw [hneighbours, hfront]
      exact List.mem_append_left _ List.mem_cons_self
    exact hne (h (w, key) hpair rfl)
  · intro pair hpair
    exact h pair (hneighbours ▸ List.mem_append_right _ hpair)

/-- A text that does not start with a leading placeholder starts as before when this is
replaced. -/
lemma frontName_replaceTokens (hkey : key ≠ []) {t : Text} (ht : endsToken t = true)
    (hfront : frontName t ≠ some key) (hleads : Leads key t) :
    endsToken (replaceTokens (only key v) t) = true ∧
      frontName (replaceTokens (only key v) t) = frontName t := by
  induction t using tokenInduction with
  | nil => rw [replaceTokens]; exact ⟨ht, rfl⟩
  | char c rest hc ih =>
    rw [replaceTokens_char _ hc, frontName_char hc, frontName_char hc]
    exact ⟨ht, rfl⟩
  | token w rest hw hr ih =>
    have hne : w ≠ key := by
      rintro rfl
      rw [frontName_token hw hr, if_neg hkey] at hfront
      exact hfront rfl
    obtain ⟨hfrontRest, hleadsRest⟩ := hleads.of_token hw hr
    have hends := (ih hr (hfrontRest hne) hleadsRest).1
    rw [replaceTokens_token _ hw hr, only, if_neg hne, Option.getD_none, List.cons_append,
      frontName_token hw hends, frontName_token hw hr]
    exact ⟨rfl, rfl⟩

/-- Replacing a leading placeholder takes away its name, and brings no two tokens together. -/
lemma namesOf_replaceTokens_eq_filter (hkey : key ≠ []) (hv : ':' ∉ v) {t : Text}
    (hleads : Leads key t) :
    namesOf (replaceTokens (only key v) t) = (namesOf t).filter (· ≠ key) ∧
      ∀ pair ∈ neighbours (replaceTokens (only key v) t), pair ∈ neighbours t := by
  induction t using tokenInduction with
  | nil => rw [replaceTokens]; exact ⟨rfl, fun _ hpair => hpair⟩
  | char c rest hc ih =>
    have hleadsRest : Leads key rest := fun pair hpair =>
      hleads pair (by rwa [neighbours_char hc])
    rw [replaceTokens_char _ hc, namesOf_char hc, namesOf_char hc, neighbours_char hc,
      neighbours_char hc]
    exact ih hleadsRest
  | token w rest hw hr ih =>
    obtain ⟨hfront, hleadsRest⟩ := hleads.of_token hw hr
    obtain ⟨hnames, hpairs⟩ := ih hleadsRest
    rw [replaceTokens_token _ hw hr, only, namesOf_token hw hr, neighbours_token hw hr]
    by_cases hsame : w = key
    · subst hsame
      rw [if_pos rfl, Option.getD_some, namesOf_plain_append hv, neighbours_plain_append hv, hnames,
        if_neg hkey, List.filter_cons_of_neg (by simp)]
      exact ⟨rfl, fun pair hpair => List.mem_append_right _ (hpairs pair hpair)⟩
    · obtain ⟨hends, hsameFront⟩ :=
        frontName_replaceTokens (v := v) hkey hr (hfront hsame) hleadsRest
      rw [if_neg hsame, Option.getD_none, List.cons_append, namesOf_token hw hends,
        neighbours_token hw hends, hnames, hsameFront]
      constructor
      · split
        · rfl
        · rw [List.filter_cons_of_pos (by simpa using hsame)]
      · intro pair hpair
        exact (List.mem_append.mp hpair).elim (List.mem_append_left _)
          fun h => List.mem_append_right _ (hpairs pair h)

/-- In a text in order the first key leads. -/
lemma InOrder.leads {keys : List Text} {t : Text} (h : InOrder (key :: keys) t) :
    Leads key t := by
  intro pair hpair hkey
  have hle := h pair hpair
  rw [hkey, List.idxOf_cons_self, Nat.le_zero, List.idxOf_cons] at hle
  by_contra hne
  simp [beq_eq_false_iff_ne.mpr fun h => hne h.symm] at hle

/-- A text in order stays in order for the other keys when the first is replaced. -/
theorem inOrder_replaceTokens {keys : List Text} (hkey : key ≠ []) (hv : ':' ∉ v) {t : Text}
    (h : InOrder (key :: keys) t) : InOrder keys (replaceTokens (only key v) t) := by
  obtain ⟨hnames, hpairs⟩ := namesOf_replaceTokens_eq_filter hkey hv h.leads
  intro pair hpair
  obtain ⟨hfirst, hsecond⟩ := mem_namesOf_of_mem_neighbours hpair
  rw [hnames, List.mem_filter] at hfirst hsecond
  have hsecondNe : pair.2 ≠ key := by simpa using hsecond.2
  have hfirstNe : pair.1 ≠ key := by
    intro hsame
    have hmem := (hfirst (hsame ▸ hkey)).2
    simp [hsame] at hmem
  have hle := h pair (hpairs pair hpair)
  rw [List.idxOf_cons_ne _ hfirstNe.symm, List.idxOf_cons_ne _ hsecondNe.symm] at hle
  exact Nat.le_of_succ_le_succ hle

end InOrder

/-! ### A text that is not in order -/

/-- Whether a text has a name that is as long as a given number, or longer. -/
def HasLongName (length : Nat) (t : Text) : Prop := ∃ name ∈ namesOf t, length ≤ name.length

/-- Whether a text has a long name, or a placeholder behind a token whose word is a later key or no
key. -/
def Stuck (length : Nat) (keys : List Text) (t : Text) : Prop :=
  HasLongName length t ∨ ∃ pair ∈ neighbours t, keys.idxOf pair.2 < keys.idxOf pair.1

/-- A text in front of another takes none of its long names away. -/
lemma HasLongName.append_left {length : Nat} {t : Text} (h : HasLongName length t) (s : Text) :
    HasLongName length (s ++ t) := by
  obtain ⟨name, hname, hlong⟩ := h
  refine ⟨name, ?_, hlong⟩
  induction s with
  | nil => exact hname
  | cons c s ih =>
    rw [List.cons_append, namesOf]
    split
    · exact List.mem_cons_of_mem _ ih
    · exact ih

/-- A text in front of another takes none of its neighbours away. -/
lemma mem_neighbours_append_right (s : Text) {t : Text} {pair : Text × Text}
    (h : pair ∈ neighbours t) : pair ∈ neighbours (s ++ t) := by
  induction s with
  | nil => exact h
  | cons c s ih =>
    rw [List.cons_append, neighbours]
    exact List.mem_append_right _ ih

/-- A colon in front of a long word makes it a name. -/
lemma hasLongName_of_leadingWord {length : Nat} (hpos : 0 < length) {t : Text}
    (h : length ≤ (Text.leadingWord t).length) : HasLongName length (':' :: t) := by
  have hne : Text.leadingWord t ≠ [] := List.ne_nil_of_length_pos (Nat.lt_of_lt_of_le hpos h)
  refine ⟨Text.leadingWord t, ?_, h⟩
  rw [namesOf, if_pos (by simp [hne])]
  exact List.mem_cons_self

/-- Word characters in front of a text make its leading word longer. -/
lemma Text.le_length_leadingWord_append {w : Text} (hw : ∀ c ∈ w, isWordChar c = true) (t : Text) :
    w.length ≤ (Text.leadingWord (w ++ t)).length ∧
      (Text.leadingWord t).length ≤ (Text.leadingWord (w ++ t)).length := by
  rw [Text.leadingWord, List.takeWhile_append_of_pos hw, List.length_append]
  exact ⟨Nat.le_add_right _ _, Nat.le_add_left _ _⟩

section Stuck

variable {key z : Text}

/-- A name that is longer than the key stays, or becomes longer. -/
lemma HasLongName.of_replaced (hlength : key.length < z.length) {t : Text}
    (h : HasLongName z.length t) : HasLongName z.length (replaceTokens (only key z) t) := by
  obtain ⟨name, hname, hlong⟩ := h
  induction t using tokenInduction with
  | nil => cases hname
  | char c rest hc ih =>
    rw [namesOf_char hc] at hname
    rw [replaceTokens_char _ hc]
    exact (ih hname).append_left [c]
  | token w rest hw hr ih =>
    have hcases : w = name ∨ name ∈ namesOf rest := by
      rw [namesOf_token hw hr] at hname
      split at hname
      · exact .inr hname
      · exact (List.mem_cons.mp hname).imp_left Eq.symm
    rw [replaceTokens_token _ hw hr, only]
    rcases hcases with rfl | hrest
    · have hne : w ≠ key := by
        rintro rfl
        exact absurd hlength (Nat.not_lt.mpr hlong)
      have hword := (Text.le_length_leadingWord_append hw (replaceTokens (only key z) rest)).1
      rw [if_neg hne]
      exact hasLongName_of_leadingWord (Nat.zero_lt_of_lt hlength) (Nat.le_trans hlong hword)
    · exact (ih hrest).append_left _

variable (hz : ∀ c ∈ z, isWordChar c = true)

include hz

/-- A replacement by a word continues what stands in front of it by the whole word, or not at
all. -/
lemma endsToken_or_le_leadingWord {t : Text} (ht : endsToken t = true) :
    endsToken (replaceTokens (only key z) t) = true ∨
      z.length ≤ (Text.leadingWord (replaceTokens (only key z) t)).length := by
  induction t using tokenInduction with
  | nil => rw [replaceTokens]; exact .inl ht
  | char c rest hc ih => rw [replaceTokens_char _ hc]; exact .inl ht
  | token w rest hw hr ih =>
    rw [replaceTokens_token _ hw hr, only]
    by_cases hsame : w = key
    · rw [if_pos hsame]
      exact .inr (Text.le_length_leadingWord_append hz _).1
    · rw [if_neg hsame]
      exact .inl rfl

/-- A placeholder behind another token stays behind it, or a name becomes as long as the value. -/
lemma neighbours_replaceTokens {t w name : Text} (h : (w, name) ∈ neighbours t) (hne : w ≠ key)
    (hpos : 0 < z.length) :
    HasLongName z.length (replaceTokens (only key z) t) ∨
      (name ≠ key ∧ (w, name) ∈ neighbours (replaceTokens (only key z) t)) := by
  induction t using tokenInduction with
  | nil => cases h
  | char c rest hc ih =>
    rw [neighbours_char hc] at h
    rw [replaceTokens_char _ hc, neighbours_char hc]
    exact (ih h).imp_left fun hlong => hlong.append_left [c]
  | token w' rest hw hr ih =>
    rw [neighbours_token hw hr, List.mem_append] at h
    rw [replaceTokens_token _ hw hr, only]
    rcases h with hfront | hrest
    · obtain ⟨name', hname', hpair⟩ := List.mem_map.mp hfront
      cases hpair
      obtain ⟨later, rfl, hchars, hnil, hlater⟩ :=
        eq_append_of_frontName (Option.mem_toList.mp hname')
      rw [if_neg hne, Option.getD_none, replaceTokens_token _ hchars hlater, only]
      by_cases hsame : name = key
      · -- the value becomes part of the word in front of it
        have hvalue := (Text.le_length_leadingWord_append hz (replaceTokens (only key z) later)).1
        have hword := (Text.le_length_leadingWord_append hw
          (z ++ replaceTokens (only key z) later)).2
        rw [if_pos hsame]
        exact .inl (hasLongName_of_leadingWord hpos (Nat.le_trans hvalue hword))
      · rw [if_neg hsame]
        have hcontinued : endsToken (replaceTokens (only key z) later) = true ∨
            z.length ≤ (Text.leadingWord (replaceTokens (only key z) later)).length :=
          endsToken_or_le_leadingWord hz hlater
        rcases hcontinued with hends | hvalue
        · refine .inr ⟨hsame, ?_⟩
          rw [Option.getD_none, List.cons_append, List.cons_append, neighbours_token hw rfl,
            frontName_token hchars hends, if_neg hnil]
          exact List.mem_append_left _ List.mem_cons_self
        · -- the value becomes part of the name behind the token
          have hword := (Text.le_length_leadingWord_append hchars
            (replaceTokens (only key z) later)).2
          have hlong := hasLongName_of_leadingWord hpos (Nat.le_trans hvalue hword)
          exact .inl (hlong.append_left (':' :: w))
    · exact (ih hrest).imp (fun hlong => hlong.append_left _)
        fun hstays => ⟨hstays.1, mem_neighbours_append_right _ hstays.2⟩

/-- A stuck text stays stuck when the first key is replaced by a longer word. -/
theorem stuck_replaceTokens {keys : List Text} (hlength : key.length < z.length) {t : Text}
    (h : Stuck z.length (key :: keys) t) :
    Stuck z.length keys (replaceTokens (only key z) t) := by
  rcases h with hlong | ⟨⟨w, name⟩, hpair, hlt⟩
  · exact .inl (hlong.of_replaced hlength)
  · have hne : w ≠ key := by
      rintro rfl
      rw [List.idxOf_cons_self] at hlt
      exact absurd hlt (Nat.not_lt_zero _)
    rcases neighbours_replaceTokens hz hpair hne (Nat.zero_lt_of_lt hlength) with
      hlong | ⟨hname, hstays⟩
    · exact .inl hlong
    · rw [List.idxOf_cons_ne _ hne.symm, List.idxOf_cons_ne _ hname.symm] at hlt
      exact .inr ⟨(w, name), hstays, Nat.lt_of_succ_lt_succ hlt⟩

end Stuck

end Endpoints
