import Endpoints.Proofs.MapLiterals

/-!
# Mappings that come back from a declaration

A mapping is displayed as a map literal.  Where its keys and targets are words the literal is read
as the same mapping, pairs in the same order (`Mapping.parse?_display`).  Written behind the URL of a
request it comes back from the whole declaration: its braces keep it together when the declaration
is split (`wholeToken_braced`), whatever is written behind it, and as the directive of the URL it
establishes the mappings of the URL and of the body, whatever the directive of the body is
(`Accepts.mappings_of_literal`).
-/

namespace Endpoints

open MapLiteral

/-! ### Text in braces -/

/-- Inside braces all characters belong to a token. -/
lemma markTokens_of_plain {content : Text} (h : ∀ c ∈ content, c ≠ '\x7b' ∧ c ≠ '\x7d')
    {depth : Nat} (hdepth : 0 < depth) : ∀ mark ∈ markTokens depth content, mark.2 = true := by
  induction content with
  | nil => exact List.forall_mem_nil _
  | cons c content ih =>
    obtain ⟨⟨hopen, hclose⟩, hcontent⟩ := List.forall_mem_cons.mp h
    have hsame : depthAfter depth c = depth := by rw [depthAfter, if_neg hopen, if_neg hclose]
    rw [markTokens, hsame]
    refine List.forall_mem_cons.mpr ⟨?_, ih hcontent⟩
    rw [decide_eq_true hdepth, Bool.or_true]

/-- A text in braces is one token, however many blanks it holds. -/
lemma wholeToken_braced {content : Text} (h : ∀ c ∈ content, c ≠ '\x7b' ∧ c ≠ '\x7d') :
    WholeToken ('\x7b' :: (content ++ ['\x7d'])) where
  nonempty := List.cons_ne_nil _ _
  kept := by
    rw [allKept_iff]
    change ∀ mark ∈ ('\x7b', true) :: markTokens 1 (content ++ ['\x7d']), mark.2 = true
    rw [markTokens_append, foldl_depthAfter_of_plain h]
    refine List.forall_mem_cons.mpr ⟨rfl, List.forall_mem_append.mpr ⟨?_, ?_⟩⟩
    · exact markTokens_of_plain h Nat.one_pos
    · exact List.forall_mem_singleton.mpr rfl
  closed := by
    change (content ++ ['\x7d']).foldl depthAfter 1 = 0
    rw [List.foldl_append, foldl_depthAfter_of_plain h]
    rfl

/-- A map literal is one token. -/
lemma MapLiteral.LiteralText.wholeToken {pairs : List (Text × Text)} {c : Text}
    (h : LiteralText pairs c) : WholeToken c := by
  obtain ⟨hwords, hfront, hs, hback⟩ := h
  apply wholeToken_braced
  intro c hc
  rcases List.mem_append.mp hc with hc | hc
  · rcases List.mem_append.mp hc with hc | hc
    · exact ne_brace_of_isBlank (hfront c hc)
    · rcases hs.blank_or_mem hc with hc | ⟨word, hword, hc⟩
      · exact ne_brace_of_isBlank hc
      · exact ((hwords.plainToken word hword).plain c hc).2
  · exact ne_brace_of_isBlank (hback c hc)

/-! ### What is displayed -/

/-- The words of displayed pairs stand with single blanks between them. -/
lemma joined_display (pairs : List (Text × Text)) :
    Joined (pairWords pairs)
      (Text.join " " (pairs.map fun pair => ":" ++ pair.1 ++ " " ++ pair.2)) := by
  have hgap : (" " : Text) ≠ [] := by decide
  have hblank : Text.AllBlank (" " : Text) := by decide
  induction pairs with
  | nil => exact .none
  | cons pair pairs ih =>
    cases pairs with
    | nil =>
      rw [List.map_singleton, Text.join, List.intercalate_singleton]
      exact .more hgap hblank (.one pair.2)
    | cons next pairs =>
      have hjoin : Text.join " " ((pair :: next :: pairs).map fun pair =>
            ":" ++ pair.1 ++ " " ++ pair.2) =
          ':' :: pair.1 ++ " " ++ (pair.2 ++ " " ++
            Text.join " " ((next :: pairs).map fun pair => ":" ++ pair.1 ++ " " ++ pair.2)) := by
        rw [List.map_cons, List.map_cons, Text.join, List.intercalate_cons_cons]
        simp only [Text.join, List.append_assoc]
        rfl
      rw [hjoin]
      exact .more hgap hblank (.more hgap hblank ih)

/-- What is displayed of a mapping between words is a map literal of its pairs. -/
lemma Mapping.literalText_display {m : Mapping} (h : AreWords m.pairs) :
    LiteralText m.pairs m.display := by
  have hliteral :=
    LiteralText.mk h Text.allBlank_nil (joined_display m.pairs) Text.allBlank_nil
  rwa [List.nil_append, List.append_nil] at hliteral

/-- A mapping between words is read from what is displayed of it. -/
theorem Mapping.parse?_display {m : Mapping} (h : AreWords m.pairs) :
    parse? m.display = some m := by
  rw [parse?, pairs?_eq_some_iff.mpr (m.literalText_display h), Option.map_some, ofList_pairs]

/-! ### In a declaration -/

/-- A declaration of a request with a mapping behind its URL, and any text behind that. -/
def declare (method : Method) (url : Text) (m : Mapping) (rest : Text) : Text :=
  parenthesised ((Keyword.rest method).name ++ " " ++ url ++ " " ++ m.display ++ rest)

/-- Keywords of requests are tokens. -/
lemma plainToken_name (method : Method) : PlainToken (Keyword.rest method).name := by
  cases method <;> decide

/-- A token in front of a blank, or of nothing, is the first one. -/
lemma tokenize_cons_of_head? {token rest : Text} (h : WholeToken token)
    (hrest : ∀ c, rest.head? = some c → isBlank c = true) :
    tokenize (token ++ rest) = token :: tokenize rest := by
  cases rest with
  | nil =>
    rw [List.append_nil, tokenize_of_kept h.nonempty h.kept]
    rfl
  | cons c rest => exact tokenize_token_append h (hrest c rfl) rest

/-- The displayed mapping is the second argument of its declaration. -/
lemma split_declare {m : Mapping} (h : AreWords m.pairs) (method : Method) {url : Text}
    (hurl : PlainToken url) {rest : Text} (hrest : ∀ c, rest.head? = some c → isBlank c = true) :
    Form.split (declare method url m rest) =
      ⟨(Keyword.rest method).name, url :: m.display :: tokenize rest⟩ := by
  have hblank : isBlank ' ' = true := by decide
  have hskip : ∀ t, tokenize (' ' :: t) = tokenize t :=
    tokenize_blanks_append (Text.allBlank_singleton hblank)
  have htokens : tokenize ((Keyword.rest method).name ++ " " ++ url ++ " " ++ m.display ++ rest) =
      (Keyword.rest method).name :: url :: m.display :: tokenize rest := by
    have hparts : (Keyword.rest method).name ++ " " ++ url ++ " " ++ m.display ++ rest =
        (Keyword.rest method).name ++ ' ' :: (url ++ ' ' :: (m.display ++ rest)) := by
      simp only [List.append_assoc]
      rfl
    rw [hparts, tokenize_token_append (plainToken_name method).whole hblank, hskip,
      tokenize_token_append hurl.whole hblank, hskip,
      tokenize_cons_of_head? (m.literalText_display h).wholeToken hrest]
  rw [declare, Form.split, stripParens_parenthesised, htokens]

/-- A map literal behind the URL of a request establishes both mappings. -/
lemma Accepts.mappings_of_literal {form : Form} {fields : List Text} {method : Method}
    {keyword : Keyword} {found : Facts} {m : Mapping} (h : Accepts form fields keyword found)
    (hname : form.keyword = (Keyword.rest method).name)
    (hliteral : (form.arg? 1).bind parse? = some m) :
    keyword = .rest method ∧ found = ⟨fields, some m, some m⟩ := by
  have hkeyword : form.keyword = keyword.name → keyword = .rest method := fun hother =>
    Option.some.inj ((Keyword.ofName?_eq_some_iff.mpr hother).symm.trans
      (Keyword.ofName?_eq_some_iff.mpr hname))
  cases h with
  | access hlocal hother =>
    have hrest := hkeyword hother
    rcases hlocal with rfl | rfl <;> cases hrest
  | @rest method' body mapping url hother hbody hmapping harg hurl hbound =>
    refine ⟨hkeyword hother, ?_⟩
    rcases directive_iff.mp hmapping with hmapping | ⟨htoken, -⟩
    · cases hliteral.symm.trans hmapping
      rw [hliteral, Option.some_or]
    · have hnone : (some ("selfMappings" : Text)).bind parse? = none := by decide
      rw [htoken, hnone] at hliteral
      cases hliteral

/-- A mapping between words comes back from a declaration in which it is displayed: it is one
argument there, it is read from that argument as it was, and if the declaration is accepted it is the
mapping of the URL and of the body, whatever stands behind it. -/
theorem derives_displayed_mapping {pairs : List (Text × Text)} (hpairs : AreWords pairs)
    (method : Method) {url : Text} (hurl : PlainToken url) {rest : Text}
    (hrest : ∀ c, rest.head? = some c → isBlank c = true) :
    let m := Mapping.ofList pairs
    Form.split (declare method url m rest) =
        ⟨(Keyword.rest method).name, url :: m.display :: tokenize rest⟩ ∧
      parse? m.display = some m ∧
      ∀ fields keyword facts, deriveFacts (declare method url m rest) fields = .ok (keyword, facts) →
        keyword = .rest method ∧ facts = ⟨fields, some m, some m⟩ := by
  intro m
  have hwords : AreWords m.pairs := fun pair hpair => hpairs pair (Mapping.mem_of_mem_ofList hpair)
  have hsplit := split_declare hwords method hurl hrest
  have hparse := m.parse?_display hwords
  refine ⟨hsplit, hparse, fun fields keyword facts hfacts => ?_⟩
  have haccepts := deriveFacts_eq_ok_iff.mp hfacts
  rw [hsplit] at haccepts
  exact haccepts.mappings_of_literal rfl hparse

/-- A mapping with a repeated key, in front of another map literal and a description. -/
theorem derives_displayed_mapping_repeated :
    let pairs : List (Text × Text) := [("id", "user"), ("page", "n_1"), ("id", "owner")]
    let m := Mapping.ofList pairs
    let rest : Text := "\n\x7b:a b\x7d (all pages) "
    let declaration := declare .post "/users/:id/:page" m rest
    let fields : List Text := ["owner", "n_1"]
    AreWords pairs ∧ PlainToken ("/users/:id/:page" : Text) ∧
      (∀ c, rest.head? = some c → isBlank c = true) ∧
      m.display = ("\x7b:id owner :page n_1\x7d" : Text) ∧
      (Form.split declaration).arg? 1 = some m.display ∧
      deriveFacts declaration fields = .ok (.rest .post, ⟨fields, some m, some m⟩) := by
  intro pairs m rest declaration fields
  have hpairs : AreWords pairs := by decide
  have hurl : PlainToken ("/users/:id/:page" : Text) := by decide
  have hrest : ∀ c, rest.head? = some c → isBlank c = true := by
    intro c hc
    cases hc
    decide
  obtain ⟨hsplit, -, hfacts⟩ := derives_displayed_mapping hpairs .post hurl hrest
  refine ⟨hpairs, hurl, hrest, by decide, ?_, ?_⟩
  · rw [hsplit]
    rfl
  · have hok : (compile declaration fields).isOk = true := by decide +kernel
    obtain ⟨keyword, found, haccepts⟩ := isOk_compile_iff.mp hok
    have hderived := deriveFacts_eq_ok_iff.mpr haccepts
    obtain ⟨rfl, rfl⟩ := hfacts fields keyword found hderived
    exact hderived

end Endpoints
