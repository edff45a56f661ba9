import Endpoints.Declaration.Syntax
import Endpoints.Proofs.FieldSets
import Endpoints.Proofs.PayloadExposure
import Endpoints.Proofs.Splitting

/-!
# What a map literal says

A map literal is accepted as a whole and read pair by pair.  The texts that are literals are given
here by their grammar, with the pairs that they say (`LiteralText`).  The reader takes the words
between the braces two at a time; it accepts the texts of the grammar and gives their pairs
(`pairs?_eq_some_iff`).  The pairs can also be searched for, without looking at the braces: each
colon with a word behind it, blanks, and another word (`searchPairs`).  In a literal this finds the
pairs in their order and nothing else (`LiteralText.searchPairs_eq`), because a colon stands only in
front of a key, and a key and a target end where a character stands that continues no word.

Words between blanks are the tokens of a text without braces (`words_eq_tokenize`), so what is known
about tokens tells how the words of a literal lie in it.
-/

namespace Endpoints

open Text (AllBlank)

/-! ### Words between blanks -/

/-- A text without blanks and braces. -/
structure PlainToken (token : Text) : Prop where
  nonempty : token ≠ []
  plain : ∀ c ∈ token, isBlank c = false ∧ c ≠ '\x7b' ∧ c ≠ '\x7d'

instance (token : Text) : Decidable (PlainToken token) :=
  decidable_of_iff (token ≠ [] ∧
      token.all (fun c => decide (isBlank c = false ∧ c ≠ '\x7b' ∧ c ≠ '\x7d')) = true) <| by
    rw [List.all_eq_true]
    simp only [decide_eq_true_eq]
    exact ⟨fun ⟨hne, hplain⟩ => ⟨hne, hplain⟩, fun h => ⟨h.nonempty, h.plain⟩⟩

/-- Text without braces leaves the depth as it is. -/
lemma foldl_depthAfter_of_plain {t : Text} (h : ∀ c ∈ t, c ≠ '\x7b' ∧ c ≠ '\x7d') (depth : Nat) :
    t.foldl depthAfter depth = depth := by
  induction t with
  | nil => rfl
  | cons c t ih =>
    obtain ⟨⟨hopen, hclose⟩, ht⟩ := List.forall_mem_cons.mp h
    rw [List.foldl_cons, depthAfter, if_neg hopen, if_neg hclose, ih ht]

/-- A text without blanks and braces is a token. -/
lemma PlainToken.whole {token : Text} (h : PlainToken token) : WholeToken token where
  nonempty := h.nonempty
  kept := by
    rintro seen c rest rfl
    exact .inl (h.plain c (by simp)).1
  closed := foldl_depthAfter_of_plain (fun c hc => (h.plain c hc).2) 0

/-- Without an opening brace the tokens are the words. -/
lemma words_eq_tokenize {t : Text} (h : '\x7b' ∉ t) : Text.words t = tokenize t := by
  have hmarks : markTokens 0 t = t.map fun c => (c, !isBlank c) := by
    induction t with
    | nil => rfl
    | cons c t ih =>
      rw [List.mem_cons, not_or] at h
      have hdepth : depthAfter 0 c = 0 := by
        rw [depthAfter, if_neg (Ne.symm h.1)]
        split <;> rfl
      rw [markTokens, hdepth, ih h.2, List.map_cons]
      simp
  rw [Text.words, tokenize, hmarks]

/-- A character that is not blank stands in a word. -/
lemma exists_word_of_mem {t : Text} {c : Char} (hmem : c ∈ t) (hc : isBlank c = false) :
    ∃ word ∈ Text.words t, c ∈ word := by
  rw [← List.mem_flatten, Text.words, Text.flatten_runs, List.mem_map]
  refine ⟨(c, true), List.mem_filter.mpr ⟨List.mem_map.mpr ⟨c, hmem, ?_⟩, rfl⟩, rfl⟩
  rw [hc]
  rfl

/-- The characters of joined tokens. -/
lemma Joined.blank_or_mem {tokens : List Text} {t : Text} (h : Joined tokens t) {c : Char}
    (hc : c ∈ t) : isBlank c = true ∨ ∃ token ∈ tokens, c ∈ token := by
  induction h with
  | none => cases hc
  | one token => exact .inr ⟨token, List.mem_singleton_self token, hc⟩
  | @more token next gap t rest hne hgap hrest ih =>
    rcases List.mem_append.mp hc with hc | hc
    · rcases List.mem_append.mp hc with hc | hc
      · exact .inr ⟨token, List.mem_cons_self, hc⟩
      · exact .inl (hgap c hc)
    · refine (ih hc).imp_right ?_
      rintro ⟨other, hother, hmem⟩
      exact ⟨other, List.mem_cons_of_mem _ hother, hmem⟩

/-- The words of a text are plain tokens exactly if these are what the text consists of. -/
theorem words_eq_iff {words : List Text} (hplain : ∀ word ∈ words, PlainToken word) {t : Text} :
    Text.words t = words ↔ ∃ front s back, AllBlank front ∧ AllBlank back ∧ Joined words s ∧
      t = front ++ s ++ back := by
  have hwhole : ∀ word ∈ words, WholeToken word := fun word hword => (hplain word hword).whole
  have hopen : isBlank '\x7b' = false := by decide
  constructor
  · intro h
    have hbrace : '\x7b' ∉ t := by
      intro hmem
      obtain ⟨word, hword, hchar⟩ := exists_word_of_mem hmem hopen
      exact ((hplain word (h ▸ hword)).plain _ hchar).2.1 rfl
    rw [words_eq_tokenize hbrace] at h
    obtain ⟨hlaid, htokens⟩ := tokenize_eq_iff.mp h
    exact hlaid.exists_joined htokens
  · rintro ⟨front, s, back, hfront, hback, hs, rfl⟩
    have hbrace : '\x7b' ∉ front ++ s ++ back := by
      rw [List.mem_append, List.mem_append]
      rintro ((hmem | hmem) | hmem)
      · cases hopen.symm.trans (hfront _ hmem)
      · rcases hs.blank_or_mem hmem with hblank | ⟨word, hword, hchar⟩
        · cases hopen.symm.trans hblank
        · exact ((hplain word hword).plain _ hchar).2.1 rfl
      · cases hopen.symm.trans (hback _ hmem)
    obtain ⟨htokens, hdepth⟩ := hs.tokenize_eq hwhole
    rw [words_eq_tokenize hbrace, List.append_assoc, tokenize_blanks_append hfront,
      tokenize_append_blanks hdepth hback, htokens]

/-- A word character is not blank. -/
lemma isBlank_of_isWordChar {c : Char} (hc : isWordChar c = true) : isBlank c = false := by
  have hrange : 48 ≤ c.toNat ∧ c.toNat ≤ 122 := by
    delta isWordChar Char.isAlphanum Char.isAlpha Char.isUpper Char.isLower Char.isDigit at hc
    simp only [Bool.or_eq_true, Bool.and_eq_true, decide_eq_true_eq, beq_iff_eq,
      UInt32.le_iff_toNat_le, ge_iff_le] at hc
    rcases hc with ((⟨hfirst, hlast⟩ | ⟨hfirst, hlast⟩) | ⟨hfirst, hlast⟩) | rfl
    · exact ⟨Nat.le_trans (by decide) hfirst, Nat.le_trans hlast (by decide)⟩
    · exact ⟨Nat.le_trans (by decide) hfirst, Nat.le_trans hlast (by decide)⟩
    · exact ⟨Nat.le_trans (by decide) hfirst, Nat.le_trans hlast (by decide)⟩
    · decide
  have hapart : ∀ blanks ∈ blankRanges, blanks.2 < 48 ∨ 122 < blanks.1 := by decide
  rw [isBlank, List.any_eq_false]
  rintro ⟨first, last⟩ hmem hin
  obtain ⟨hfirst, hlast⟩ := Bool.and_eq_true_iff.mp hin
  rw [decide_eq_true_eq] at hfirst hlast
  have hends := hapart _ hmem
  dsimp only at hends
  omega

/-- A word is a plain token. -/
lemma plainToken_of_isWord {word : Text} (h : Text.isWord word = true) : PlainToken word where
  nonempty := Text.ne_nil_of_isWord h
  plain := by
    intro c hc
    have hchar := Text.isWordChar_of_isWord h c hc
    refine ⟨isBlank_of_isWordChar hchar, ?_, ?_⟩ <;> rintro rfl <;> exact absurd hchar (by decide)

/-- A word behind a colon is a plain token. -/
lemma plainToken_colon {word : Text} (h : Text.isWord word = true) : PlainToken (':' :: word) where
  nonempty := List.cons_ne_nil _ _
  plain := List.forall_mem_cons.mpr ⟨by decide, (plainToken_of_isWord h).plain⟩

namespace MapLiteral

/-! ### The grammar -/

/-- The words of pairs as they are written: a colon and the key, then the target. -/
def pairWords (pairs : List (Text × Text)) : List Text :=
  pairs.flatMap fun pair => [':' :: pair.1, pair.2]

/-- Whether the keys and the targets of pairs are words. -/
def AreWords (pairs : List (Text × Text)) : Prop :=
  ∀ pair ∈ pairs, Text.isWord pair.1 = true ∧ Text.isWord pair.2 = true

instance : DecidablePred AreWords := fun pairs =>
  inferInstanceAs (Decidable (∀ pair ∈ pairs,
    Text.isWord pair.1 = true ∧ Text.isWord pair.2 = true))

/-- The texts of map literals with their pairs: an opening brace, blanks, the words of the pairs
with blanks between neighbours, blanks, and a closing brace. -/
inductive LiteralText (pairs : List (Text × Text)) : Text → Prop
  | mk {front s back : Text} (hwords : AreWords pairs) (hfront : AllBlank front)
      (hs : Joined (pairWords pairs) s) (hback : AllBlank back) :
      LiteralText pairs ('\x7b' :: (front ++ s ++ back ++ ['\x7d']))

lemma AreWords.plainToken {pairs : List (Text × Text)} (h : AreWords pairs) :
    ∀ word ∈ pairWords pairs, PlainToken word := by
  intro word hword
  obtain ⟨pair, hpair, hmem⟩ := List.mem_flatMap.mp hword
  obtain ⟨hkey, htarget⟩ := h pair hpair
  rcases List.mem_pair.mp hmem with rfl | rfl
  · exact plainToken_colon hkey
  · exact plainToken_of_isWord htarget

/-! ### Reading the words in pairs -/

/-- A key is read from a colon with a word behind it. -/
lemma key?_eq_some_iff {word key : Text} :
    key? word = some key ↔ word = ':' :: key ∧ Text.isWord key = true := by
  constructor
  · intro h
    refine ⟨?_, isWord_of_key? h⟩
    unfold key? at h
    split at h
    · split at h <;> cases h
      rfl
    · cases h
  · rintro ⟨rfl, hkey⟩
    exact if_pos hkey

/-- Words are read as pairs exactly if they are the words of these pairs. -/
lemma pairUp_eq_some_iff {words : List Text} {pairs : List (Text × Text)} :
    pairUp words = some pairs ↔ words = pairWords pairs ∧ AreWords pairs := by
  constructor
  · intro h
    induction words using pairUp.induct generalizing pairs with
    | case1 =>
      cases h
      exact ⟨rfl, List.forall_mem_nil _⟩
    | case2 => cases h
    | case3 first target rest ih =>
      rw [pairUp] at h
      obtain ⟨key, hkey, h⟩ := Option.bind_eq_some_iff.mp h
      obtain ⟨later, hlater, h⟩ := Option.bind_eq_some_iff.mp h
      split at h
      · next htarget =>
        cases h
        obtain ⟨rfl, hword⟩ := key?_eq_some_iff.mp hkey
        obtain ⟨rfl, hwords⟩ := ih hlater
        exact ⟨rfl, List.forall_mem_cons.mpr ⟨⟨hword, htarget⟩, hwords⟩⟩
      · cases h
  · rintro ⟨rfl, hwords⟩
    induction pairs with
    | nil => rfl
    | cons pair pairs ih =>
      obtain ⟨⟨hkey, htarget⟩, hwords⟩ := List.forall_mem_cons.mp hwords
      have hpairs : pairWords (pair :: pairs) = (':' :: pair.1) :: pair.2 :: pairWords pairs := rfl
      rw [hpairs, pairUp, key?_eq_some_iff.mpr ⟨rfl, hkey⟩, ih hwords]
      exact if_pos htarget

/-- The inside of a text stands between two braces. -/
lemma inside?_eq_some_iff {c content : Text} :
    inside? c = some content ↔ c = '\x7b' :: (content ++ ['\x7d']) := by
  constructor
  · intro h
    unfold inside? at h
    split at h
    · next rest =>
      split at h
      · next hlast =>
        cases h
        rw [List.dropLast_append_getLast? _ hlast]
      · cases h
    · cases h
  · rintro rfl
    have hlast : (content ++ ['\x7d']).getLast? = some '\x7d' := List.getLast?_concat
    rw [inside?, if_pos hlast, List.dropLast_concat]

/-- The texts from which pairs are read are the literals of these pairs. -/
theorem pairs?_eq_some_iff {c : Text} {pairs : List (Text × Text)} :
    pairs? c = some pairs ↔ LiteralText pairs c := by
  constructor
  · intro h
    obtain ⟨content, hinside, hcontent⟩ := Option.bind_eq_some_iff.mp h
    obtain ⟨hwords, hpairs⟩ := pairUp_eq_some_iff.mp hcontent
    obtain ⟨front, s, back, hfront, hback, hs, rfl⟩ := (words_eq_iff hpairs.plainToken).mp hwords
    rw [inside?_eq_some_iff.mp hinside]
    exact .mk hpairs hfront hs hback
  · rintro ⟨hpairs, hfront, hs, hback⟩
    have hwords := (words_eq_iff hpairs.plainToken).mpr ⟨_, _, _, hfront, hback, hs, rfl⟩
    rw [pairs?, inside?_eq_some_iff.mpr rfl, Option.bind_eq_bind, Option.bind_some, hwords]
    exact pairUp_eq_some_iff.mpr ⟨rfl, hpairs⟩

/-! ### Searching for pairs -/

/-- The pair at the front of a text, if there is one, with what follows it: a colon and a word,
blanks, and another word.  Words and blanks are taken as long as possible. -/
def frontPair? : Text → Option ((Text × Text) × Text)
  | [] => none
  | c :: rest =>
    let behind := Text.afterWord rest
    let here := Text.trimStart behind
    if c = ':' ∧ Text.leadingWord rest ≠ [] ∧ behind.head?.any isBlank = true ∧
        Text.leadingWord here ≠ [] then
      some ((Text.leadingWord rest, Text.leadingWord here), Text.afterWord here)
    else none

/-- What follows a pair is shorter than the text. -/
lemma frontPair?_length {t after : Text} {pair : Text × Text}
    (h : frontPair? t = some (pair, after)) : after.length < t.length := by
  cases t with
  | nil => cases h
  | cons c rest =>
    rw [frontPair?] at h
    split at h
    · cases h
      have hword := Text.afterWord_length_le rest
      have hblank := Text.length_dropWhile_le isBlank (Text.afterWord rest)
      have hlater := Text.afterWord_length_le (Text.trimStart (Text.afterWord rest))
      rw [Text.trimStart] at hlater ⊢
      rw [List.length_cons]
      omega
    · cases h

/-- The pairs that are found from the left, going on behind each of them. -/
def searchPairs (t : Text) : List (Text × Text) :=
  match t with
  | [] => []
  | c :: rest =>
    match _h : frontPair? (c :: rest) with
    | some (pair, after) => pair :: searchPairs after
    | none => searchPairs rest
termination_by t.length
decreasing_by
  · exact frontPair?_length _h
  · exact Nat.lt_succ_self _

lemma searchPairs_of_some {t after : Text} {pair : Text × Text}
    (h : frontPair? t = some (pair, after)) : searchPairs t = pair :: searchPairs after := by
  cases t with
  | nil => cases h
  | cons c rest =>
    rw [searchPairs]
    split
    · next hsome =>
      cases hsome.symm.trans h
      rfl
    · next hnone => cases hnone.symm.trans h

/-- Where no colon stands no pair is found. -/
lemma searchPairs_append {s : Text} (h : ':' ∉ s) (t : Text) :
    searchPairs (s ++ t) = searchPairs t := by
  induction s with
  | nil => rfl
  | cons c s ih =>
    rw [List.mem_cons, not_or] at h
    have hnone : frontPair? (c :: (s ++ t)) = none := if_neg fun hpair => h.1 hpair.1.symm
    rw [List.cons_append, searchPairs]
    split
    · next hsome => cases hnone.symm.trans hsome
    · exact ih h.2

/-- Blanks hold no colon and continue no word. -/
lemma not_colon_of_blank {gap : Text} (hgap : AllBlank gap) : ':' ∉ gap :=
  fun hmem => absurd (hgap _ hmem) (by decide)

lemma endsToken_of_blank {gap : Text} (hne : gap ≠ []) (hgap : AllBlank gap) (rest : Text) :
    endsToken (gap ++ rest) = true := by
  obtain ⟨c, gap, rfl⟩ := List.exists_cons_of_ne_nil hne
  have hc : isBlank c = true := hgap c List.mem_cons_self
  rw [List.cons_append, endsToken, Bool.not_eq_true']
  exact Bool.eq_false_iff.mpr fun hword => by cases hc.symm.trans (isBlank_of_isWordChar hword)

/-- A written pair is found at its place. -/
lemma frontPair?_append {key gap target rest : Text} (hkey : Text.isWord key = true)
    (hne : gap ≠ []) (hgap : AllBlank gap) (htarget : Text.isWord target = true)
    (hrest : endsToken rest = true) :
    frontPair? (':' :: key ++ gap ++ (target ++ rest)) = some ((key, target), rest) := by
  have hkeyChars := Text.isWordChar_of_isWord hkey
  have htargetChars := Text.isWordChar_of_isWord htarget
  have hgapEnds := endsToken_of_blank hne hgap (target ++ rest)
  have hhead : (gap ++ (target ++ rest)).head?.any isBlank = true := by
    obtain ⟨c, gap, rfl⟩ := List.exists_cons_of_ne_nil hne
    exact hgap c List.mem_cons_self
  have htrim : Text.trimStart (gap ++ (target ++ rest)) = target ++ rest := by
    obtain ⟨c, more, rfl⟩ := List.exists_cons_of_ne_nil (Text.ne_nil_of_isWord htarget)
    exact Text.trimStart_append hgap (isBlank_of_isWordChar (htargetChars c List.mem_cons_self)) _
  have hword := Text.leadingWord_append hkeyChars hgapEnds
  have hbehind := Text.afterWord_append hkeyChars hgapEnds
  rw [List.cons_append, List.cons_append, List.append_assoc, frontPair?]
  simp only [hword, hbehind, htrim, Text.leadingWord_append htargetChars hrest,
    Text.afterWord_append htargetChars hrest]
  exact if_pos ⟨trivial, Text.ne_nil_of_isWord hkey, hhead, Text.ne_nil_of_isWord htarget⟩

/-- In the words of pairs the search finds the pairs, and goes on behind them. -/
lemma searchPairs_words {pairs : List (Text × Text)} (hwords : AreWords pairs) {s rest : Text}
    (hs : Joined (pairWords pairs) s) (hrest : endsToken rest = true) :
    searchPairs (s ++ rest) = pairs ++ searchPairs rest := by
  induction pairs generalizing s with
  | nil =>
    cases hs
    rfl
  | cons pair pairs ih =>
    obtain ⟨⟨hkey, htarget⟩, hlater⟩ := List.forall_mem_cons.mp hwords
    obtain ⟨hnil, -⟩ | ⟨-, gap, t, hne, hgap, ht, rfl⟩ := joined_cons_iff.mp hs
    · cases hnil
    rcases joined_cons_iff.mp ht with ⟨hnil, rfl⟩ | ⟨-, gap', t', hne', hgap', ht', rfl⟩
    · have hpairs : pairs = [] := by
        cases pairs with
        | nil => rfl
        | cons next pairs => cases hnil
      rw [List.append_assoc, searchPairs_of_some (frontPair?_append hkey hne hgap htarget hrest),
        hpairs]
      rfl
    · have hends := endsToken_of_blank hne' hgap' (t' ++ rest)
      have hpair := frontPair?_append hkey hne hgap htarget hends
      have hsplit : ':' :: pair.1 ++ gap ++ (pair.2 ++ gap' ++ t') ++ rest =
          ':' :: pair.1 ++ gap ++ (pair.2 ++ (gap' ++ (t' ++ rest))) := by
        simp only [List.append_assoc]
      rw [hsplit, searchPairs_of_some hpair, searchPairs_append (not_colon_of_blank hgap'),
        ih hlater ht', List.cons_append]

/-- In a map literal the search finds its pairs and no other. -/
theorem LiteralText.searchPairs_eq {pairs : List (Text × Text)} {c : Text}
    (h : LiteralText pairs c) : searchPairs c = pairs := by
  obtain @⟨front, s, back, hwords, hfront, hs, hback⟩ := h
  have hopen : ':' ∉ '\x7b' :: front := by
    rw [List.mem_cons, not_or]
    exact ⟨by decide, not_colon_of_blank hfront⟩
  have hclose : ':' ∉ back ++ ['\x7d'] := by
    rw [List.mem_append, not_or]
    exact ⟨not_colon_of_blank hback, by decide⟩
  have hends : endsToken (back ++ ['\x7d']) = true := by
    cases back with
    | nil => decide
    | cons d back => exact endsToken_of_blank (List.cons_ne_nil d back) hback _
  have hnothing : searchPairs (back ++ ['\x7d']) = [] := by
    rw [← List.append_nil (back ++ ['\x7d']), searchPairs_append hclose, searchPairs]
  rw [List.append_assoc, List.append_assoc, ← List.cons_append, searchPairs_append hopen,
    searchPairs_words hwords hs hends, hnothing, List.append_nil]

/-- The reader accepts exactly the texts of the grammar.  What it gives is the mapping of the pairs
in the order written, a key at its first place and with its last target; and the pairs are those that
a search finds. -/
theorem parse?_exact (c : Text) :
    ((parse? c).isSome = true ↔ ∃ pairs, LiteralText pairs c) ∧
      ∀ pairs, LiteralText pairs c → parse? c = some (Mapping.ofList pairs) ∧
        searchPairs c = pairs ∧
        (Mapping.ofList pairs).keys = distinct (pairs.map Prod.fst) ∧
        ∀ key, (Mapping.ofList pairs).get? key = pairs.reverse.lookup key := by
  constructor
  · rw [parse?, Option.isSome_map, Option.isSome_iff_exists]
    exact exists_congr fun pairs => pairs?_eq_some_iff
  · intro pairs h
    refine ⟨?_, h.searchPairs_eq, Mapping.keys_ofList pairs, Mapping.get?_ofList pairs⟩
    rw [parse?, pairs?_eq_some_iff.mpr h, Option.map_some]

/-- A literal with several kinds of blanks in which a key is repeated. -/
theorem parse?_exact_repeated :
    let pairs : List (Text × Text) := [("id", "user"), ("page", "n_1"), ("id", "owner")]
    let c : Text := "\x7b\u3000:id\tuser  :page n_1\n:id owner\x7d"
    LiteralText pairs c ∧ parse? c = some (Mapping.ofList [("id", "owner"), ("page", "n_1")]) ∧
      searchPairs c = pairs := by
  intro pairs c
  have hjoined : Joined (pairWords pairs) (":id" ++ "\t" ++ ("user" ++ "  " ++ (":page" ++ " " ++
      ("n_1" ++ "\n" ++ (":id" ++ " " ++ "owner" : Text))))) :=
    .more (by decide) (by decide) (.more (by decide) (by decide) (.more (by decide) (by decide)
      (.more (by decide) (by decide) (.more (by decide) (by decide) (.one _)))))
  have hliteral : LiteralText pairs c := by
    have h : LiteralText pairs ('\x7b' :: (("\u3000" : Text) ++ _ ++ [] ++ ['\x7d'])) :=
      .mk (by decide) (by decide) hjoined Text.allBlank_nil
    exact h
  obtain ⟨hparse, hsearch, -⟩ := (parse?_exact c).2 pairs hliteral
  have hmapping : Mapping.ofList pairs = Mapping.ofList [("id", "owner"), ("page", "n_1")] := by
    decide
  exact ⟨hliteral, hmapping ▸ hparse, hsearch⟩

end MapLiteral

end Endpoints
