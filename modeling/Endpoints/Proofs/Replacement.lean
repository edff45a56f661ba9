import Endpoints.Proofs.Tokens

/-!
# Replacing tokens

`replaceTokens value` replaces in one pass every token whose word has a value and keeps all else.
The search and replace of `substitute`, which takes one key at a time, is such a replacement
(`substitute_eq`); and on a text whose placeholders are kept apart (`separated`) one replacement
after another is again a single one (`replaceTokens_replaceTokens`), because no inserted value can
join what stands before it into a new token.
-/

namespace Endpoints

open UrlTemplate

/-- Replaces every token whose word has a value, in one pass over the text. -/
def replaceTokens (value : Text → Option Text) : Text → Text
  | [] => []
  | c :: rest =>
    if c = ':' then
      match value (Text.leadingWord rest) with
      | some v => v ++ replaceTokens value (Text.afterWord rest)
      | none => c :: replaceTokens value rest
    else c :: replaceTokens value rest
termination_by t => t.length
decreasing_by
  · have := Text.afterWord_length_le rest
    simp only [List.length_cons]
    omega
  · simp
  · simp

/-- The value of a single name. -/
def only (key value : Text) (name : Text) : Option Text := if name = key then some value else none

/-- Whether a text starts with a colon and a name. -/
def startsPlaceholder : Text → Bool
  | [] => false
  | c :: rest => c == ':' && !(Text.leadingWord rest).isEmpty

/-- Whether no placeholder starts directly behind a colon or behind the name of another
placeholder. -/
def separated : Text → Bool
  | [] => true
  | c :: rest => (c != ':' || !startsPlaceholder (Text.afterWord rest)) && separated rest

/-! ### Replacement, token by token -/

/-- A plain character is kept. -/
lemma replaceTokens_char (value : Text → Option Text) {c : Char} (hc : c ≠ ':') (rest : Text) :
    replaceTokens value (c :: rest) = c :: replaceTokens value rest := by
  rw [replaceTokens, if_neg hc]

/-- Plain characters at the front of a text are kept. -/
lemma replaceTokens_plain_append (value : Text → Option Text) {s : Text} (hs : ':' ∉ s)
    (rest : Text) : replaceTokens value (s ++ rest) = s ++ replaceTokens value rest := by
  induction s with
  | nil => rfl
  | cons c s ih =>
    rw [List.mem_cons, not_or] at hs
    rw [List.cons_append, replaceTokens_char value (Ne.symm hs.1), ih hs.2, List.cons_append]

/-- Word characters at the front of a text are kept. -/
lemma replaceTokens_word_append (value : Text → Option Text) {w : Text}
    (hw : ∀ c ∈ w, isWordChar c = true) (rest : Text) :
    replaceTokens value (w ++ rest) = w ++ replaceTokens value rest :=
  replaceTokens_plain_append value (colon_not_mem_of_isWordChar hw) rest

/-- A token gives way to the value of its word, or is kept if there is none. -/
lemma replaceTokens_token (value : Text → Option Text) {w rest : Text}
    (hw : ∀ c ∈ w, isWordChar c = true) (hr : endsToken rest = true) :
    replaceTokens value (':' :: (w ++ rest)) =
      (value w).getD (':' :: w) ++ replaceTokens value rest := by
  rw [replaceTokens, if_pos rfl, Text.leadingWord_append hw hr, Text.afterWord_append hw hr,
    replaceTokens_word_append value hw]
  cases value w <;> rfl

/-- A token on its own gives way to the value of its word, or is kept if there is none. -/
lemma replaceTokens_single_token (value : Text → Option Text) {w : Text}
    (hw : ∀ c ∈ w, isWordChar c = true) :
    replaceTokens value (':' :: w) = (value w).getD (':' :: w) := by
  have h := replaceTokens_token value hw (rfl : endsToken [] = true)
  rwa [List.append_nil, replaceTokens.eq_1, List.append_nil] at h

/-- Only the values of the names of a text matter. -/
lemma replaceTokens_congr {f g : Text → Option Text} (hnil : f [] = g []) {t : Text}
    (h : ∀ name ∈ namesOf t, f name = g name) : replaceTokens f t = replaceTokens g t := by
  induction t using tokenInduction with
  | nil => simp [replaceTokens]
  | char c rest hc ih =>
    rw [namesOf_char hc] at h
    rw [replaceTokens_char f hc, replaceTokens_char g hc, ih h]
  | token w rest hw hr ih =>
    rw [namesOf_token hw hr] at h
    rw [replaceTokens_token f hw hr, replaceTokens_token g hw hr]
    by_cases hnil' : w = []
    · subst hnil'
      rw [hnil, ih (by simpa using h)]
    · rw [if_neg hnil', List.forall_mem_cons] at h
      rw [h.1, ih h.2]

/-- Without values a text stays as it is. -/
lemma replaceTokens_eq_self {f : Text → Option Text} (hnil : f [] = none) {t : Text}
    (h : ∀ name ∈ namesOf t, f name = none) : replaceTokens f t = t := by
  induction t using tokenInduction with
  | nil => simp [replaceTokens]
  | char c rest hc ih =>
    rw [namesOf_char hc] at h
    rw [replaceTokens_char f hc, ih h]
  | token w rest hw hr ih =>
    rw [namesOf_token hw hr] at h
    rw [replaceTokens_token f hw hr]
    by_cases hnil' : w = []
    · subst hnil'
      rw [hnil, ih (by simpa using h)]
      rfl
    · rw [if_neg hnil', List.forall_mem_cons] at h
      rw [h.1, ih h.2]
      rfl

/-- Tokens are replaced part by part, unless a word reaches over the boundary. -/
lemma replaceTokens_append (value : Text → Option Text) (s : Text) {t : Text}
    (ht : endsToken t = true) :
    replaceTokens value (s ++ t) = replaceTokens value s ++ replaceTokens value t := by
  induction s using tokenInduction with
  | nil => simp [replaceTokens]
  | char c rest hc ih =>
    rw [List.cons_append, replaceTokens_char value hc, replaceTokens_char value hc, ih,
      List.cons_append]
  | token w rest hw hr ih =>
    rw [List.cons_append, List.append_assoc, replaceTokens_token value hw (endsToken_append hr ht),
      replaceTokens_token value hw hr, ih, List.append_assoc]

/-! ### Replacing again -/

/-- A plain character keeps nothing apart and brings nothing together. -/
lemma separated_char {c : Char} (hc : c ≠ ':') (rest : Text) :
    separated (c :: rest) = separated rest := by
  simp [separated, hc]

/-- Word characters at the front of a text do not bring its placeholders together. -/
lemma separated_word_append {w : Text} (hw : ∀ c ∈ w, isWordChar c = true) (rest : Text) :
    separated (w ++ rest) = separated rest := by
  induction w with
  | nil => rfl
  | cons c w ih =>
    obtain ⟨hc, hw⟩ := List.forall_mem_cons.mp hw
    rw [List.cons_append, separated_char (ne_colon_of_isWordChar hc)]
    exact ih hw

/-- Where placeholders are kept apart none starts directly behind a token. -/
lemma separated_token {w rest : Text} (hw : ∀ c ∈ w, isWordChar c = true)
    (hr : endsToken rest = true) :
    separated (':' :: (w ++ rest)) = (!startsPlaceholder rest && separated rest) := by
  rw [separated, Text.afterWord_append hw hr, separated_word_append hw]
  simp

/-- A placeholder at the front of a text is one whatever follows the text. -/
lemma startsPlaceholder_append {s : Text} (hs : startsPlaceholder s = true) (t : Text) :
    startsPlaceholder (s ++ t) = true := by
  rcases s with _ | ⟨c, _ | ⟨d, s⟩⟩
  · simp [startsPlaceholder] at hs
  · simp [startsPlaceholder, Text.leadingWord] at hs
  · have hd : isWordChar d = true := by
      by_contra hd
      simp [startsPlaceholder, Text.leadingWord, hd] at hs
    simpa [startsPlaceholder, Text.leadingWord, hd] using hs

/-- If the placeholders of a text are kept apart, so are those of its parts. -/
lemma separated_append {s t : Text} (ht : endsToken t = true)
    (h : separated (s ++ t) = true) : separated s = true ∧ separated t = true := by
  induction s using tokenInduction with
  | nil => exact ⟨rfl, h⟩
  | char c rest hc ih =>
    rw [List.cons_append, separated_char hc] at h
    rw [separated_char hc]
    exact ih h
  | token w rest hw hr ih =>
    rw [List.cons_append, List.append_assoc, separated_token hw (endsToken_append hr ht),
      Bool.and_eq_true] at h
    obtain ⟨hrest, htail⟩ := ih h.2
    have hstart : startsPlaceholder rest = false := by
      by_contra hstart
      rw [Bool.not_eq_false] at hstart
      simp [startsPlaceholder_append hstart] at h
    rw [separated_token hw hr, hstart, hrest]
    exact ⟨rfl, htail⟩

/-- A replacement continues no token in front of it if no placeholder starts there. -/
lemma endsToken_replaceTokens {f : Text → Option Text} (hnil : f [] = none) {t : Text}
    (ht : endsToken t = true) (hs : startsPlaceholder t = false) :
    endsToken (replaceTokens f t) = true := by
  cases t with
  | nil => simp [replaceTokens, endsToken]
  | cons c rest =>
    by_cases hc : c = ':'
    · subst hc
      have hword : Text.leadingWord rest = [] := by simpa [startsPlaceholder] using hs
      rw [replaceTokens, if_pos rfl, hword, hnil]
      rfl
    · rw [replaceTokens_char f hc]
      exact ht

/-- Where placeholders are kept apart, one replacement after another is a single one: the values
of the first with the second done in them, and the values of the second for the other names. -/
theorem replaceTokens_replaceTokens {f g : Text → Option Text} (hnil : f [] = none) {t : Text}
    (ht : separated t = true) :
    replaceTokens g (replaceTokens f t) =
      replaceTokens (fun name => ((f name).map (replaceTokens g)).or (g name)) t := by
  induction t using tokenInduction with
  | nil => simp [replaceTokens]
  | char c rest hc ih =>
    rw [replaceTokens_char f hc, replaceTokens_char g hc, replaceTokens_char _ hc,
      ih (by rwa [separated_char hc] at ht)]
  | token w rest hw hr ih =>
    rw [separated_token hw hr, Bool.and_eq_true, Bool.not_eq_true'] at ht
    obtain ⟨hstart, hrest⟩ := ht
    have hends := endsToken_replaceTokens hnil hr hstart
    rw [replaceTokens_token f hw hr, replaceTokens_append g _ hends, ih hrest,
      replaceTokens_token _ hw hr]
    cases f w with
    | some v => rfl
    | none =>
      rw [Option.getD_none, replaceTokens_single_token g hw]
      rfl

/-- The names of a replacement: those of the inserted values, and those that had no value. -/
theorem namesOf_replaceTokens {f : Text → Option Text} (hnil : f [] = none) {t : Text}
    (ht : separated t = true) :
    namesOf (replaceTokens f t) =
      (namesOf t).flatMap fun name => ((f name).map namesOf).getD [name] := by
  induction t using tokenInduction with
  | nil => simp [replaceTokens, namesOf]
  | char c rest hc ih =>
    rw [replaceTokens_char f hc, namesOf_char hc, namesOf_char hc,
      ih (by rwa [separated_char hc] at ht)]
  | token w rest hw hr ih =>
    rw [separated_token hw hr, Bool.and_eq_true, Bool.not_eq_true'] at ht
    obtain ⟨hstart, hrest⟩ := ht
    have hends := endsToken_replaceTokens hnil hr hstart
    rw [replaceTokens_token f hw hr, namesOf_append _ hends, ih hrest, namesOf_token hw hr]
    by_cases hword : w = []
    · subst hword
      rw [hnil, Option.getD_none, namesOf_single_token hw]
      rfl
    · rw [if_neg hword, List.flatMap_cons]
      cases f w with
      | some v => rfl
      | none =>
        rw [Option.getD_none, namesOf_single_token hw, if_neg hword]
        rfl

/-! ### Search and replace -/

/-- At each character the search looks for the key behind a colon, and for what follows it. -/
lemma substitute_cons {ε : Type} (key : Text) (value : Except ε Text) (c : Char) (rest : Text) :
    substitute key value (c :: rest) =
      if c = ':' && key.isPrefixOf rest then
        if endsToken (rest.drop key.length) then
          value.bind fun v => (substitute key value (rest.drop key.length)).map (v ++ ·)
        else (substitute key value (rest.drop key.length)).map (':' :: key ++ ·)
      else (substitute key value rest).map (c :: ·) := by
  rw [substitute.eq_def]
  dsimp only
  split
  · cases endsToken (rest.drop key.length) <;> cases value <;> rfl
  · rfl

/-- A plain character is passed over by the search. -/
lemma substitute_char {ε : Type} (key : Text) (value : Except ε Text) {c : Char} (hc : c ≠ ':')
    (rest : Text) :
    substitute key value (c :: rest) = (substitute key value rest).map (c :: ·) := by
  rw [substitute_cons]
  simp [hc]

/-- At a colon the search looks for the key, and for what follows it. -/
lemma substitute_colon {ε : Type} (key : Text) (value : Except ε Text) (rest : Text) :
    substitute key value (':' :: rest) =
      if key.isPrefixOf rest then
        if endsToken (rest.drop key.length) then
          value.bind fun v => (substitute key value (rest.drop key.length)).map (v ++ ·)
        else (substitute key value (rest.drop key.length)).map (':' :: key ++ ·)
      else (substitute key value rest).map (':' :: ·) := by
  rw [substitute_cons]
  simp only [decide_true, Bool.true_and]

/-- Word characters are passed over by the search. -/
lemma substitute_word_append {ε : Type} (key : Text) (value : Except ε Text) {w : Text}
    (hw : ∀ c ∈ w, isWordChar c = true) (rest : Text) :
    substitute key value (w ++ rest) = (substitute key value rest).map (w ++ ·) := by
  induction w with
  | nil =>
    rw [List.nil_append]
    cases substitute key value rest <;> rfl
  | cons c w ih =>
    obtain ⟨hc, hw⟩ := List.forall_mem_cons.mp hw
    rw [List.cons_append, substitute_char key value (ne_colon_of_isWordChar hc), ih hw]
    cases substitute key value rest <;> rfl

/-- At a token whose word is the key the search needs the value; any other token it keeps. -/
lemma substitute_token {ε : Type} {key : Text} (hkey : Text.isWord key = true)
    (value : Except ε Text) {w rest : Text} (hw : ∀ c ∈ w, isWordChar c = true)
    (hr : endsToken rest = true) :
    substitute key value (':' :: (w ++ rest)) =
      if w = key then value.bind fun v => (substitute key value rest).map (v ++ ·)
      else (substitute key value rest).map (':' :: w ++ ·) := by
  have hchars := Text.isWordChar_of_isWord hkey
  rw [substitute_colon]
  by_cases hsame : w = key
  · subst hsame
    rw [if_pos (by simp), List.drop_left, hr, if_pos rfl, if_pos rfl]
  · rw [if_neg hsame]
    by_cases hprefix : key.isPrefixOf (w ++ rest) = true
    · -- the key is a proper prefix of the word, so the search goes on inside the word
      obtain ⟨more, hmore, rfl⟩ := Text.eq_append_of_prefix hchars hw hr hprefix
      have hne : more ≠ [] := by
        rintro rfl
        exact hsame (List.append_nil key)
      have hends : endsToken (more ++ rest) = false := endsToken_word_append hmore hne rest
      rw [if_pos hprefix, List.append_assoc, List.drop_left, hends, if_neg (by decide),
        substitute_word_append key value hmore]
      cases substitute key value rest <;> simp [Except.map]
    · rw [if_neg hprefix, substitute_word_append key value hw]
      cases substitute key value rest <;> simp [Except.map]

/-- A text without the key stays as it is, whatever the value. -/
lemma substitute_eq_self {ε : Type} {key : Text} (hkey : Text.isWord key = true)
    (value : Except ε Text) {t : Text} (ht : key ∉ namesOf t) :
    substitute key value t = .ok t := by
  induction t using tokenInduction with
  | nil => rw [substitute]
  | char c rest hc ih =>
    rw [namesOf_char hc] at ht
    rw [substitute_char key value hc, ih ht]
    rfl
  | token w rest hw hr ih =>
    rw [namesOf_token hw hr] at ht
    rw [substitute_token hkey value hw hr]
    have hne : w ≠ key := by
      rintro rfl
      simp [Text.ne_nil_of_isWord hkey] at ht
    rw [if_neg hne, ih (by split at ht <;> simp_all)]
    rfl

/-- With a value the search replaces every token of the key. -/
lemma substitute_ok {ε : Type} {key : Text} (hkey : Text.isWord key = true) (v t : Text) :
    substitute key (.ok v : Except ε Text) t = .ok (replaceTokens (only key v) t) := by
  induction t using tokenInduction with
  | nil => rw [substitute, replaceTokens]
  | char c rest hc ih =>
    rw [substitute_char key _ hc, ih, replaceTokens_char _ hc]
    rfl
  | token w rest hw hr ih =>
    rw [substitute_token hkey _ hw hr, ih, replaceTokens_token _ hw hr, only]
    split <;> rfl

/-- Without a value the search fails as soon as a token of the key is there. -/
lemma substitute_error {ε : Type} {key : Text} (hkey : Text.isWord key = true) (e : ε) {t : Text}
    (ht : key ∈ namesOf t) : substitute key (.error e) t = .error e := by
  induction t using tokenInduction with
  | nil => simp [namesOf] at ht
  | char c rest hc ih =>
    rw [namesOf_char hc] at ht
    rw [substitute_char key _ hc, ih ht]
    rfl
  | token w rest hw hr ih =>
    rw [namesOf_token hw hr] at ht
    rw [substitute_token hkey _ hw hr]
    by_cases hsame : w = key
    · rw [if_pos hsame]
      rfl
    · have hrest : key ∈ namesOf rest := by
        split at ht
        · exact ht
        · exact (List.mem_cons.mp ht).resolve_left fun h => hsame h.symm
      rw [if_neg hsame, ih hrest]
      rfl

/-- A result that is mapped fails as it failed before. -/
lemma map_eq_error_iff {ε α β : Type} {f : α → β} {x : Except ε α} {e : ε} :
    x.map f = .error e ↔ x = .error e := by
  cases x with
  | error e' => exact ⟨fun h => by cases h; rfl, fun h => by cases h; rfl⟩
  | ok v => exact ⟨nofun, nofun⟩

/-- The search fails only for want of the value. -/
lemma eq_of_substitute_error {ε : Type} {key : Text} {value : Except ε Text} {t : Text} {e : ε}
    (h : substitute key value t = .error e) : value = .error e := by
  induction t using substitute.induct key value with
  | case1 =>
    rw [substitute] at h
    cases h
  | case2 c rest hfound e' hvalue hends =>
    rw [substitute.eq_def] at h
    simp only [hfound, if_true, hends, hvalue] at h
    rw [hvalue, h]
  | case3 c rest hfound v hvalue hends ih =>
    rw [substitute.eq_def] at h
    simp only [hfound, if_true, hends, hvalue] at h
    rw [hvalue] at ih ⊢
    exact ih (map_eq_error_iff.mp h)
  | case4 c rest hfound hends ih =>
    rw [substitute.eq_def] at h
    simp only [hfound, if_true, hends] at h
    exact ih (map_eq_error_iff.mp h)
  | case5 c rest hfound ih =>
    rw [substitute.eq_def] at h
    simp only [hfound] at h
    exact ih (map_eq_error_iff.mp h)

/-- The search needs the value exactly if the key is a name of the text, and is then a
replacement of its tokens. -/
theorem substitute_eq {ε : Type} {key : Text} (hkey : Text.isWord key = true)
    (value : Except ε Text) (t : Text) :
    substitute key value t =
      if key ∈ namesOf t then value.map fun v => replaceTokens (only key v) t else .ok t := by
  split
  · next h =>
    cases value with
    | error e => exact substitute_error hkey e h
    | ok v => exact substitute_ok hkey v t
  · next h => exact substitute_eq_self hkey value h

end Endpoints
