import Endpoints.Proofs.RequestFields

/-!
# The declaration sites of a source

The sites of a source are defined here by how they read and where they stand, without a search: an
occurrence is a piece of the source with the wording of a site (`SiteText`).  No site starts inside
another one: behind the quotes of a site there is no further quote, and the second quote is not
followed by a parenthesis (`SiteText.at?_inside`).  A search that goes on behind each site therefore
misses none, which is `extractFrom_eq_mapM`.

What extraction makes of a site is put together from three conditions: the quoted text closes its
parenthesis (`ClosesParen`), a block follows (`OpensBlock`), and the block has its list of request
fields (`ListsFields`).  A site that fails one of the first two is malformed, and the first such
site of a source decides the failure.
-/

namespace Endpoints

/-! ### Fixed wordings -/

/-- A fixed wording is expected exactly where it stands. -/
lemma expect_eq_some_iff {wording t rest : Text} :
    expect wording t = some rest ↔ t = wording ++ rest := by
  constructor
  · intro h
    exact (append_of_expect h).symm
  · rintro rfl
    induction wording with
    | nil => rfl
    | cons a wording ih =>
      change (if a == a then expect wording (wording ++ rest) else none) = some rest
      rw [if_pos (beq_self_eq_true a), ih]

/-- A fixed wording that starts with something other than a blank is expected behind blanks. -/
lemma expectSpaced_eq_some_iff {wording t rest tail : Text} {c : Char}
    (hwording : wording = c :: tail) (hc : isBlank c = false) :
    expectSpaced wording t = some rest ↔
      ∃ blanks, Text.AllBlank blanks ∧ t = blanks ++ (wording ++ rest) := by
  unfold expectSpaced
  rw [expect_eq_some_iff]
  constructor
  · intro h
    obtain ⟨blanks, hblanks, ht⟩ := Text.exists_blanks_append t
    refine ⟨blanks, hblanks, ?_⟩
    rwa [h] at ht
  · rintro ⟨blanks, hblanks, rfl⟩
    rw [hwording, List.cons_append, Text.trimStart_append hblanks hc]

/-! ### Stretches of characters -/

/-- A text is cut where a stretch of characters ends at one that does not belong to it. -/
lemma takeWhile_dropWhile_iff (p : Char → Bool) {c : Char} (hc : p c = false)
    {t front rest : Text} :
    t.takeWhile p = front ∧ t.dropWhile p = c :: rest ↔
      (∀ d ∈ front, p d = true) ∧ t = front ++ c :: rest := by
  constructor
  · rintro ⟨rfl, hdrop⟩
    refine ⟨List.all_eq_true.mp List.all_takeWhile, ?_⟩
    rw [← hdrop, List.takeWhile_append_dropWhile]
  · rintro ⟨hfront, rfl⟩
    have hstop : ¬ p c = true := Bool.not_eq_true _ ▸ hc
    refine ⟨?_, ?_⟩
    · rw [List.takeWhile_append_of_pos hfront, List.takeWhile_cons_of_neg hstop, List.append_nil]
    · rw [List.dropWhile_append_of_pos hfront, List.dropWhile_cons_of_neg hstop]

/-- A text in front of a character that it does not hold is what stands in front of the first such
character. -/
lemma takeWhile_ne_iff {c : Char} {t front : Text} :
    (t.takeWhile (· != c)).length < t.length ∧ t.takeWhile (· != c) = front ↔
      c ∉ front ∧ ∃ after, t = front ++ c :: after := by
  have hstop : (c != c) = false := bne_self_eq_false c
  constructor
  · rintro ⟨hlt, hfront⟩
    cases hdrop : t.dropWhile (· != c) with
    | nil =>
      have hall : t.takeWhile (· != c) = t := by
        rw [← List.append_nil (t.takeWhile _), ← hdrop, List.takeWhile_append_dropWhile]
      rw [hall] at hlt
      exact absurd hlt (Nat.lt_irrefl _)
    | cons d after =>
      have hd := List.head?_dropWhile_not (· != c) t
      obtain rfl : d = c := by simpa [hdrop] using hd
      obtain ⟨hne, ht⟩ := (takeWhile_dropWhile_iff (· != d) hstop).mp ⟨hfront, hdrop⟩
      refine ⟨?_, after, ht⟩
      intro hmem
      exact bne_iff_ne.mp (hne d hmem) rfl
  · rintro ⟨hfront, after, rfl⟩
    have hne : ∀ d ∈ front, (d != c) = true := by
      intro d hd
      exact bne_iff_ne.mpr (ne_of_mem_of_not_mem hd hfront)
    obtain ⟨htake, -⟩ :=
      (takeWhile_dropWhile_iff (· != c) hstop).mpr ⟨hne, Eq.refl (front ++ c :: after)⟩
    rw [htake]
    refine ⟨?_, rfl⟩
    rw [List.length_append, List.length_cons]
    omega

/-! ### The wording of a site -/

/-- How a site reads: a text in quotes that starts with a parenthesis and stays on its line, then a
colon, an opening brace, `req` and a colon, with blanks between them. -/
def SiteText (text declaration : Text) : Prop :=
  ∃ inner b₁ b₂ b₃ b₄ : Text, (∀ c ∈ inner, c ≠ '"' ∧ c ≠ '\n') ∧
    Text.AllBlank b₁ ∧ Text.AllBlank b₂ ∧ Text.AllBlank b₃ ∧ Text.AllBlank b₄ ∧
    declaration = "(" ++ inner ∧
    text = "\"" ++ declaration ++ "\"" ++ b₁ ++ ":" ++ b₂ ++ "\x7b" ++ b₃ ++ "req" ++ b₄ ++ ":"

lemma isQuotable_iff {c : Char} : isQuotable c = true ↔ c ≠ '"' ∧ c ≠ '\n' := by
  simp [isQuotable]

/-- A site is found at the front of a text exactly if its wording stands there. -/
lemma Site.at?_eq_some_iff {t : Text} {site : Site} :
    Site.at? t = some site ↔ ∃ text, SiteText text site.declaration ∧ t = text ++ site.rest := by
  simp only [Site.at?, Option.bind_eq_bind, Option.bind_eq_some_iff, Option.some.injEq,
    expect_eq_some_iff, expectSpaced_eq_some_iff (rfl : (":" : String).toList = _) rfl,
    expectSpaced_eq_some_iff (rfl : ("\x7b" : String).toList = _) rfl,
    expectSpaced_eq_some_iff (rfl : ("req" : String).toList = _) rfl]
  have hquote : isQuotable '"' = false := rfl
  constructor
  · rintro ⟨t, rfl, rest₁, hquoted, rest₂, ⟨b₁, hb₁, rfl⟩, rest₃, ⟨b₂, hb₂, rfl⟩, rest₄,
      ⟨b₃, hb₃, rfl⟩, rest₅, ⟨b₄, hb₄, rfl⟩, rfl⟩
    obtain ⟨hinner, ht⟩ := (takeWhile_dropWhile_iff isQuotable hquote).mp ⟨rfl, hquoted⟩
    refine ⟨_, ⟨t.takeWhile isQuotable, b₁, b₂, b₃, b₄, ?_, hb₁, hb₂, hb₃, hb₄, rfl, rfl⟩, ?_⟩
    · intro c hc
      exact isQuotable_iff.mp (hinner c hc)
    · nth_rewrite 1 [ht]
      simp only [List.append_assoc]
      rfl
  · obtain ⟨declaration, rest⟩ := site
    rintro ⟨text, ⟨inner, b₁, b₂, b₃, b₄, hinner, hb₁, hb₂, hb₃, hb₄, rfl, rfl⟩, rfl⟩
    let behind : Text := b₁ ++ (":" ++ (b₂ ++ ("\x7b" ++ (b₃ ++ ("req" ++ (b₄ ++ (":" ++ rest)))))))
    have hquotable : ∀ c ∈ inner, isQuotable c = true := by
      intro c hc
      exact isQuotable_iff.mpr (hinner c hc)
    obtain ⟨htake, hdrop⟩ :=
      (takeWhile_dropWhile_iff isQuotable hquote).mpr ⟨hquotable, Eq.refl (inner ++ '"' :: behind)⟩
    refine ⟨inner ++ '"' :: behind, ?_, behind, hdrop, _, ⟨b₁, hb₁, rfl⟩, _, ⟨b₂, hb₂, rfl⟩, _,
      ⟨b₃, hb₃, rfl⟩, rest, ⟨b₄, hb₄, rfl⟩, ?_⟩
    · simp only [behind, List.append_assoc]
      rfl
    · rw [htake]
      rfl

/-- The first quote of a site is followed by a parenthesis, the second one is not, and there is no
third one. -/
lemma SiteText.quotes {text declaration : Text} (h : SiteText text declaration) :
    ∃ c tail, text = '"' :: (declaration ++ '"' :: c :: tail) ∧ '"' ∉ declaration ∧
      '"' ∉ c :: tail ∧ c ≠ '(' := by
  obtain ⟨inner, b₁, b₂, b₃, b₄, hinner, hb₁, hb₂, hb₃, hb₄, rfl, rfl⟩ := h
  let tail : Text := ":" ++ b₂ ++ "\x7b" ++ b₃ ++ "req" ++ b₄ ++ ":"
  have hnot : ∀ {blanks : Text}, Text.AllBlank blanks → '"' ∉ blanks := by
    intro blanks hblanks hmem
    exact Bool.false_ne_true (hblanks _ hmem)
  have hdeclaration : '"' ∉ "(".toList ++ inner := by
    rw [List.mem_append, not_or]
    refine ⟨by decide, ?_⟩
    intro hmem
    exact (hinner _ hmem).1 rfl
  have htail : '"' ∉ b₁ ++ tail := by
    simp [tail, hnot hb₁, hnot hb₂, hnot hb₃, hnot hb₄]
  have htext :
      ("\"" ++ ("(" ++ inner) ++ "\"" ++ b₁ ++ ":" ++ b₂ ++ "\x7b" ++ b₃ ++ "req" ++ b₄ ++ ":" :
        Text) = '"' :: (("(" ++ inner) ++ '"' :: (b₁ ++ tail)) := by
    simp [tail]
  rw [htext]
  cases b₁ with
  | nil => exact ⟨':', _, rfl, hdeclaration, htail, by decide⟩
  | cons c b₁ =>
    refine ⟨c, b₁ ++ tail, rfl, hdeclaration, htail, ?_⟩
    rintro rfl
    exact Bool.false_ne_true (hb₁ _ List.mem_cons_self)

/-- No site starts inside another one. -/
lemma SiteText.at?_inside {seen here declaration : Text} (h : SiteText (seen ++ here) declaration)
    (hseen : seen ≠ []) (hhere : here ≠ []) (rest : Text) : Site.at? (here ++ rest) = none := by
  rw [Option.eq_none_iff_forall_ne_some]
  intro site hsite
  obtain ⟨c, tail, htext, hdeclaration, htail, hc⟩ := h.quotes
  obtain ⟨text', hsite', hrest⟩ := Site.at?_eq_some_iff.mp hsite
  obtain ⟨c', tail', rfl, -, -, -⟩ := hsite'.quotes
  obtain ⟨inner, -, -, -, -, -, -, -, -, -, hinner, -⟩ := hsite'
  -- the site inside would have to start at the second quote
  obtain ⟨d, seen, rfl⟩ := List.exists_cons_of_ne_nil hseen
  obtain ⟨e, here, rfl⟩ := List.exists_cons_of_ne_nil hhere
  obtain ⟨rfl, hbehind⟩ := List.cons.inj hrest
  obtain ⟨-, hsplit⟩ := List.cons.inj htext
  obtain ⟨-, -, rfl⟩ := (List.append_cons_inj_of_notMem hdeclaration htail).mp hsplit.symm
  rw [hinner] at hbehind
  exact hc (List.cons.inj hbehind).1

/-! ### The sites of a source -/

/-- A piece of a source: what stands in front of it, its text, the quoted text in it, and what
stands behind it. -/
structure Occurrence where
  before : Text
  text : Text
  declaration : Text
  rest : Text

namespace Occurrence

/-- Whether a piece is a site of a source. -/
structure In (site : Occurrence) (source : Text) : Prop where
  split : source = site.before ++ site.text ++ site.rest
  wording : SiteText site.text site.declaration

/-- The line of a piece, counted from one. -/
def line (site : Occurrence) : Nat := 1 + lineEnds site.before

/-- The site that starts at a place. -/
def at? (before here : Text) : Option Occurrence :=
  (Site.at? here).map fun site => ⟨before, site.text here, site.declaration, site.rest⟩

lemma siteText_append (text : Text) (site : Site) : site.text (text ++ site.rest) = text := by
  unfold Site.text
  rw [List.length_append, Nat.add_sub_cancel, List.take_left]

/-- A site is found at its place and nowhere else. -/
lemma at?_eq_some_iff {before here : Text} {site : Occurrence} :
    at? before here = some site ↔ site.before = before ∧ site.In (before ++ here) := by
  unfold at?
  rw [Option.map_eq_some_iff]
  constructor
  · rintro ⟨found, hfound, rfl⟩
    obtain ⟨text, hwording, rfl⟩ := Site.at?_eq_some_iff.mp hfound
    rw [siteText_append]
    exact ⟨rfl, (List.append_assoc _ _ _).symm, hwording⟩
  · obtain ⟨_, text, declaration, rest⟩ := site
    rintro ⟨rfl, hsplit, hwording⟩
    rw [List.append_assoc] at hsplit
    obtain rfl := List.append_cancel_left hsplit
    refine ⟨⟨declaration, rest⟩, Site.at?_eq_some_iff.mpr ⟨text, hwording, rfl⟩, ?_⟩
    rw [siteText_append text ⟨declaration, rest⟩]

/-- The sites of a source are those that are found at its places. -/
lemma mem_findings_at? {site : Occurrence} {source : Text} :
    site ∈ findings at? [] source ↔ site.In source := by
  refine mem_findings_iff (fun before here site => at?_eq_some_iff) ?_
  intro site source hsite
  obtain ⟨c, tail, htext, -⟩ := hsite.wording.quotes
  refine ⟨site.text ++ site.rest, ?_, ?_⟩
  · rw [htext]
    exact List.cons_ne_nil _ _
  · rw [← List.append_assoc]
    exact hsite.split

/-- No site starts inside another one, so a later site starts behind the end of an earlier one. -/
lemma pairwise_findings_at? (source : Text) :
    (findings at? [] source).Pairwise fun a b => (a.before ++ a.text).length ≤ b.before.length := by
  apply pairwise_findings
  intro seen more here a b hmore _ ha hb
  rw [List.nil_append] at ha hb
  obtain ⟨hbefore, hsplit, hwording⟩ := at?_eq_some_iff.mp ha
  rw [hbefore, List.append_assoc] at hsplit
  rw [(at?_eq_some_iff.mp hb).1, hbefore]
  rcases List.append_eq_append_iff.mp (List.append_cancel_left hsplit) with
    ⟨inside, htext, hhere⟩ | ⟨between, hmore', -⟩
  · by_cases hinside : inside = []
    · have hsame : seen ++ a.text = seen ++ more := by
        rw [htext, hinside, List.append_nil]
      exact Nat.le_of_eq (congrArg List.length hsame)
    · -- the later site would start inside the earlier one
      rw [htext] at hwording
      have hnone := hwording.at?_inside hmore hinside a.rest
      rw [← hhere] at hnone
      rw [at?, hnone] at hb
      cases hb
  · rw [hmore']
    simp only [List.length_append]
    omega

/-- What is extracted from a site. -/
def extract (site : Occurrence) : Except Failure Extracted :=
  Site.extract (site.text ++ site.rest) ⟨site.declaration, site.rest⟩ site.line

end Occurrence

/-- The search that goes on behind each site extracts the sites at all places one by one. -/
lemma extractFrom_eq_mapM (line : Nat) (t : Text) : ∀ before, line = 1 + lineEnds before →
    extractFrom line t = (findings Occurrence.at? before t).mapM Occurrence.extract := by
  induction line, t using extractFrom.induct with
  | case1 line =>
    intro before hline
    rw [extractFrom]
    rfl
  | case2 line c rest hnone ih =>
    intro before hline
    have hline' : line + lineEnds [c] = 1 + lineEnds (before ++ [c]) := by
      rw [hline, lineEnds, lineEnds, lineEnds, List.count_append, Nat.add_assoc]
    have hfound : Occurrence.at? before (c :: rest) = none := by
      rw [Occurrence.at?, hnone]
      rfl
    rw [extractFrom, findings, hfound, Option.toList_none, List.nil_append, ← ih _ hline']
    split
    · rfl
    · next hsome => rw [hnone] at hsome; cases hsome
  | case3 line c rest site hsite ih =>
    intro before hline
    obtain ⟨text, hwording, ht⟩ := Site.at?_eq_some_iff.mp hsite
    obtain ⟨d, tail, htext, -⟩ := hwording.quotes
    obtain ⟨inside, rfl⟩ : ∃ inside, text = c :: inside := by
      rw [htext, List.cons_append] at ht
      exact ⟨_, (List.cons.inj ht).1 ▸ htext⟩
    obtain rfl : rest = inside ++ site.rest := (List.cons.inj ht).2
    have htext' : site.text (c :: (inside ++ site.rest)) = c :: inside :=
      Occurrence.siteText_append (c :: inside) site
    have hline' : line + lineEnds (site.text (c :: (inside ++ site.rest))) =
        1 + lineEnds (before ++ c :: inside) := by
      rw [htext', hline, lineEnds, lineEnds, lineEnds, List.count_append, Nat.add_assoc]
    have hfound : Occurrence.at? before (c :: (inside ++ site.rest)) =
        some ⟨before, c :: inside, site.declaration, site.rest⟩ := by
      rw [Occurrence.at?, hsite, Option.map_some, htext']
    have hskip := findings_cons_of_some hfound fun seen here hhere hinside => by
      rw [hinside, ← List.cons_append] at hwording
      rw [Occurrence.at?, hwording.at?_inside (List.cons_ne_nil c seen) hhere]
      rfl
    have hextract : Site.extract (c :: (inside ++ site.rest)) site line =
        Occurrence.extract ⟨before, c :: inside, site.declaration, site.rest⟩ := by
      rw [hline]
      rfl
    rw [extractFrom, hskip, List.mapM_cons, ← hextract, ← ih _ hline']
    split
    · next hnone => rw [hsite] at hnone; cases hnone
    · next site' hsite' =>
      obtain rfl : site = site' := Option.some.inj (hsite.symm.trans hsite')
      rfl

/-! ### What a site says -/

/-- Whether a declaration ends with a closing parenthesis, blanks aside. -/
def ClosesParen (declaration : Text) : Prop :=
  ∃ inner blanks, Text.AllBlank blanks ∧ declaration = inner ++ ')' :: blanks

lemma closesParen_iff {declaration : Text} :
    (Text.trimEnd declaration).getLast? = some ')' ↔ ClosesParen declaration := by
  have hlast : (Text.trimEnd declaration).getLast? = (Text.trimStart declaration.reverse).head? :=
    List.getLast?_reverse
  rw [hlast]
  constructor
  · intro h
    obtain ⟨tail, htail⟩ := List.head?_eq_some_iff.mp h
    obtain ⟨blanks, hblanks, hsplit⟩ := Text.exists_blanks_append declaration.reverse
    refine ⟨tail.reverse, blanks.reverse, hblanks.reverse, ?_⟩
    rw [← List.reverse_reverse declaration, hsplit, htail]
    simp only [List.reverse_append, List.reverse_cons, List.append_assoc, List.singleton_append]
  · rintro ⟨inner, blanks, hblanks, rfl⟩
    have hreverse : (inner ++ ')' :: blanks).reverse = blanks.reverse ++ ')' :: inner.reverse := by
      simp only [List.reverse_append, List.reverse_cons, List.append_assoc, List.singleton_append]
    rw [hreverse, Text.trimStart_append hblanks.reverse rfl]
    rfl

/-- Whether a text starts with a block in braces, blanks aside; the block ends at the first closing
brace. -/
def OpensBlock (rest block : Text) : Prop :=
  ∃ blanks after, Text.AllBlank blanks ∧ '\x7d' ∉ block ∧
    rest = blanks ++ '\x7b' :: (block ++ '\x7d' :: after)

lemma block?_eq_some_iff {rest block : Text} :
    block? rest = some block ↔ OpensBlock rest block := by
  simp only [block?, Option.bind_eq_bind, Option.bind_eq_some_iff,
    expectSpaced_eq_some_iff (rfl : ("\x7b" : String).toList = _) rfl,
    Option.ite_none_right_eq_some, Option.some.injEq, takeWhile_ne_iff]
  constructor
  · rintro ⟨opened, ⟨blanks, hblanks, rfl⟩, hblock, after, rfl⟩
    exact ⟨blanks, after, hblanks, hblock, rfl⟩
  · rintro ⟨blanks, after, hblanks, hblock, rfl⟩
    exact ⟨_, ⟨blanks, hblanks, rfl⟩, hblock, after, rfl⟩

namespace Occurrence

/-- What a site yields: its quoted text as it stands, its line and the fields of its block. -/
structure Yields (site : Occurrence) (found : Extracted) : Prop where
  closes : ClosesParen site.declaration
  declaration : found.declaration = site.declaration
  line : found.line = site.line
  fields : ∃ block, OpensBlock site.rest block ∧ ListsFields block found.fields

/-- Whether a site is malformed: its quoted text does not close its parenthesis, or no block
follows. -/
def Malformed (site : Occurrence) : Prop :=
  ¬ ClosesParen site.declaration ∨ ∀ block, ¬ OpensBlock site.rest block

lemma extract_eq_ok_iff {site : Occurrence} {found : Extracted} :
    site.extract = .ok found ↔ site.Yields found := by
  unfold extract Site.extract
  constructor
  · intro h
    split at h
    · next hcloses =>
      split at h
      · next block hblock =>
        cases h
        exact ⟨closesParen_iff.mp hcloses, rfl, rfl, block, block?_eq_some_iff.mp hblock,
          listsFields_fieldNames block⟩
      · cases h
    · cases h
  · obtain ⟨declaration, fields, line⟩ := found
    rintro ⟨hcloses, rfl, rfl, block, hblock, hfields⟩
    obtain rfl := hfields.unique (listsFields_fieldNames block)
    rw [if_pos (closesParen_iff.mpr hcloses)]
    dsimp only
    rw [block?_eq_some_iff.mpr hblock]

lemma extract_eq_error_iff {site : Occurrence} {failure : Failure} :
    site.extract = .error failure ↔
      site.Malformed ∧ failure = malformed site.text site.line := by
  have htext : Site.text (site.text ++ site.rest) ⟨site.declaration, site.rest⟩ = site.text :=
    siteText_append site.text ⟨site.declaration, site.rest⟩
  unfold extract Site.extract Malformed
  rw [htext]
  constructor
  · intro h
    split at h
    · split at h
      · cases h
      · next hnone =>
        cases h
        refine ⟨.inr ?_, rfl⟩
        intro block hblock
        rw [block?_eq_some_iff.mpr hblock] at hnone
        cases hnone
    · next hopen =>
      cases h
      exact ⟨.inl fun hcloses => hopen (closesParen_iff.mpr hcloses), rfl⟩
  · rintro ⟨hopen | hnone, rfl⟩
    · rw [if_neg fun hcloses => hopen (closesParen_iff.mp hcloses)]
    · have hblock : block? site.rest = none := by
        rw [Option.eq_none_iff_forall_ne_some]
        intro block hblock
        exact hnone block (block?_eq_some_iff.mp hblock)
      dsimp only
      rw [hblock]
      split <;> rfl

end Occurrence

/-! ### The sites of a source, one after another -/

/-- All sites of a source in their order.  They do not overlap: a later one starts behind the end of
an earlier one. -/
structure AllSites (source : Text) (sites : List Occurrence) : Prop where
  complete : ∀ site, site ∈ sites ↔ site.In source
  apart : sites.Pairwise fun a b => (a.before ++ a.text).length ≤ b.before.length

/-- Extraction goes through all sites of a source in their order.  It succeeds exactly if each site
yields a declaration, and then the declarations are those of the sites, one each; otherwise it fails
with the text and the line of the first malformed site.  Only a source without any site has no
declarations. -/
theorem extract_decides (source : Text) :
    ∃ sites, AllSites source sites ∧
      (∀ found, extract source = .ok found ↔ List.Forall₂ Occurrence.Yields sites found) ∧
      (∀ failure, extract source = .error failure ↔
        ∃ earlier site later, sites = earlier ++ site :: later ∧
          (∀ before ∈ earlier, ∃ found, before.Yields found) ∧ site.Malformed ∧
          failure = ⟨.malformedDeclaration site.text, some { line := some site.line }⟩) ∧
      (extract source = .ok [] ↔ ∀ site : Occurrence, ¬ site.In source) := by
  have hextract : extract source =
      (findings Occurrence.at? [] source).mapM Occurrence.extract :=
    extractFrom_eq_mapM 1 source [] rfl
  have hok : ∀ found, extract source = .ok found ↔
      List.Forall₂ Occurrence.Yields (findings Occurrence.at? [] source) found := by
    intro found
    rw [hextract, mapM_eq_ok_iff]
    simp only [Occurrence.extract_eq_ok_iff]
  refine ⟨findings Occurrence.at? [] source, ⟨?_, ?_⟩, hok, ?_, ?_⟩
  · intro site
    exact Occurrence.mem_findings_at?
  · exact Occurrence.pairwise_findings_at? source
  · intro failure
    rw [hextract, mapM_eq_error_iff]
    simp only [Occurrence.extract_eq_ok_iff, Occurrence.extract_eq_error_iff]
    rfl
  · rw [hok, List.forall₂_nil_right_iff, List.eq_nil_iff_forall_not_mem]
    simp only [Occurrence.mem_findings_at?]

end Endpoints
