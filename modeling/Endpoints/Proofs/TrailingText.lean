import Endpoints.Proofs.Acceptance
import Endpoints.Request
import Mathlib.Data.List.Basic
import Mathlib.Data.List.TakeWhile

/-!
# What stands behind the arguments of a declaration

A declaration may carry a description behind its last argument, and its closing parenthesis may be
missing.  Neither is seen by the compiler or by the resolver, whatever the description holds, as
long as the braces in front of it are closed and all arguments that the grammar asks for are there.

The tokens of a text are read from the left, and the only thing that one part leaves for the next is
the brace depth (`markTokens_append`).  So behind a text that ends at depth zero a blank starts
afresh, and the tokens of a longer declaration begin with those of the shorter one
(`tokenize_append_blank`).  Stripping the parentheses touches nothing in front of that blank: the
opening one is the first character, and the last character is one of the description or the closing
one (`Described.exists_stripParens`).  Compiler and resolver look at no position behind the grammar
(`Form.SameArguments`).
-/

namespace Endpoints

/-! ### Tokens of two parts -/

/-- The brace depth behind a text that starts at depth zero. -/
def braceDepth (t : Text) : Nat := t.foldl depthAfter 0

/-- The second part of a text is marked from the depth behind the first. -/
lemma markTokens_append (depth : Nat) (s t : Text) :
    markTokens depth (s ++ t) = markTokens depth s ++ markTokens (s.foldl depthAfter depth) t := by
  induction s generalizing depth with
  | nil => rfl
  | cons c s ih =>
    rw [List.cons_append, markTokens, markTokens, ih, List.foldl_cons]
    rfl

/-- A separator ends the run in front of it. -/
lemma Text.leadingRun_append_separator (c : Char) (before after : List (Char × Bool)) :
    leadingRun (before ++ (c, false) :: after) =
      ((leadingRun before).1, (leadingRun before).2 ++ runs after) := by
  induction before with
  | nil => rfl
  | cons mark before ih =>
    obtain ⟨d, marked⟩ := mark
    rw [List.cons_append, leadingRun, ih, leadingRun]
    dsimp only
    cases marked with
    | true => rfl
    | false =>
      rw [if_neg Bool.false_ne_true, if_neg Bool.false_ne_true]
      split <;> rfl

/-- The runs on the two sides of a separator. -/
lemma Text.runs_append_separator (c : Char) (before after : List (Char × Bool)) :
    runs (before ++ (c, false) :: after) = runs before ++ runs after := by
  rw [runs, Text.leadingRun_append_separator]
  change _ = (if (leadingRun before).1.isEmpty then (leadingRun before).2
    else (leadingRun before).1 :: (leadingRun before).2) ++ runs after
  dsimp only
  split <;> rfl

/-- A blank is no brace. -/
lemma ne_brace_of_isBlank {c : Char} (hc : isBlank c = true) : c ≠ '\x7b' ∧ c ≠ '\x7d' := by
  constructor
  · rintro rfl
    exact absurd hc (by decide)
  · rintro rfl
    exact absurd hc (by decide)

/-- A blank leaves the depth as it is. -/
lemma depthAfter_of_isBlank {c : Char} (hc : isBlank c = true) (depth : Nat) :
    depthAfter depth c = depth := by
  obtain ⟨hopen, hclose⟩ := ne_brace_of_isBlank hc
  rw [depthAfter, if_neg hopen, if_neg hclose]

/-- Behind a text whose braces are closed a blank starts afresh. -/
theorem tokenize_append_blank {s : Text} (hdepth : braceDepth s = 0) {c : Char}
    (hc : isBlank c = true) (t : Text) : tokenize (s ++ c :: t) = tokenize s ++ tokenize t := by
  have hblank : markTokens 0 (c :: t) = (c, false) :: markTokens 0 t := by
    rw [markTokens, hc, depthAfter_of_isBlank hc]
    rfl
  rw [tokenize, markTokens_append, ← braceDepth, hdepth, hblank, Text.runs_append_separator]
  rfl

/-! ### The parentheses -/

/-- A text in parentheses. -/
def parenthesised (s : Text) : Text := '(' :: (s ++ [')'])

/-- The ways to write a description behind a declaration: in front of the closing parenthesis, or
without one, where it must be more than blanks. -/
inductive Described (s t : Text) : Text → Prop
  | closed : Described s t (parenthesised (s ++ ' ' :: t))
  | unclosed (h : ∃ c ∈ t, isBlank c = false) : Described s t ('(' :: (s ++ ' ' :: t))

/-- The last character that is not blank ends the trimmed text. -/
lemma Text.trimEnd_append {t : Text} (h : ∃ c ∈ t, isBlank c = false) (s : Text) :
    Text.trimEnd (s ++ t) = s ++ Text.trimEnd t ∧ Text.trimEnd t ≠ [] := by
  have hne : t.reverse.dropWhile isBlank ≠ [] := by
    obtain ⟨c, hc, hblank⟩ := h
    rw [Ne, List.dropWhile_eq_nil_iff]
    intro hall
    cases hblank.symm.trans (hall c (List.mem_reverse.mpr hc))
  constructor
  · rw [Text.trimEnd, List.reverse_append, List.dropWhile_append, if_neg (by simpa using hne),
      List.reverse_append, List.reverse_reverse, Text.trimEnd]
  · rw [Text.trimEnd, Ne, List.reverse_eq_nil_iff]
    exact hne

/-- A character is dropped at the end of the last part. -/
lemma Text.dropLastIf_append (c : Char) (s : Text) {t : Text} (h : t ≠ []) :
    Text.dropLastIf c (s ++ t) = s ++ Text.dropLastIf c t := by
  rw [Text.dropLastIf, Text.dropLastIf, List.getLast?_append_of_ne_nil s h,
    List.dropLast_append_of_ne_nil h]
  split <;> rfl

/-- Behind an opening parenthesis the text is stripped at its end only. -/
lemma stripParens_cons {t : Text} (h : ∃ c ∈ t, isBlank c = false) :
    stripParens ('(' :: t) = Text.dropLastIf ')' (Text.trimEnd t) := by
  have hstart : Text.trimStart ('(' :: t) = '(' :: t := rfl
  rw [stripParens, Text.trim, hstart, ← List.singleton_append, (Text.trimEnd_append h ['(']).1]
  rfl

/-- The parentheses around a text are stripped. -/
lemma stripParens_parenthesised (s : Text) : stripParens (parenthesised s) = s := by
  have hparen : ∃ c ∈ [')'], isBlank c = false := ⟨')', List.mem_singleton_self _, by decide⟩
  have hblank : ∃ c ∈ s ++ [')'], isBlank c = false :=
    ⟨')', List.mem_append_right _ (List.mem_singleton_self _), by decide⟩
  have htrim : Text.trimEnd [')'] = [')'] := rfl
  rw [parenthesised, stripParens_cons hblank, (Text.trimEnd_append hparen s).1, htrim,
    Text.dropLastIf_append _ _ (List.cons_ne_nil _ _)]
  exact List.append_nil s

/-- In front of a description nothing is stripped but the opening parenthesis. -/
lemma Described.exists_stripParens {s t declaration : Text} (h : Described s t declaration) :
    ∃ rest, stripParens declaration = s ++ ' ' :: rest := by
  cases h with
  | closed => exact ⟨t, stripParens_parenthesised _⟩
  | unclosed hblank =>
    obtain ⟨htrim, hne⟩ := Text.trimEnd_append hblank (s ++ [' '])
    obtain ⟨c, hc, hnot⟩ := hblank
    have hsome : ∃ c ∈ s ++ ' ' :: t, isBlank c = false :=
      ⟨c, List.mem_append_right _ (List.mem_cons_of_mem _ hc), hnot⟩
    refine ⟨Text.dropLastIf ')' (Text.trimEnd t), ?_⟩
    rw [stripParens_cons hsome, List.append_cons, htrim, Text.dropLastIf_append _ _ hne,
      ← List.append_cons]

/-! ### Positions of the grammar -/

/-- Two forms with the same keyword and the same arguments at all positions of its grammar. -/
structure Form.SameArguments (keyword : Keyword) (form other : Form) : Prop where
  name : form.keyword = keyword.name
  otherName : other.keyword = keyword.name
  arg : ∀ position < keyword.grammar.length, form.arg? position = other.arg? position

/-- A walk looks at the positions of its grammar only. -/
lemma checkFrom_congr {form other : Form} (specs : List ArgSpec) {position : Nat}
    (h : ∀ offset < specs.length, form.arg? (position + offset) = other.arg? (position + offset))
    (facts : Facts) :
    form.checkFrom position specs facts = other.checkFrom position specs facts := by
  induction specs generalizing position facts with
  | nil => rfl
  | cons spec later ih =>
    have hhere : form.arg? position = other.arg? position := h 0 (Nat.zero_lt_succ _)
    have hlater : ∀ offset < later.length,
        form.arg? (position + 1 + offset) = other.arg? (position + 1 + offset) := by
      intro offset hoffset
      have hnext := h (offset + 1) (Nat.succ_lt_succ hoffset)
      rwa [Nat.add_comm offset 1, ← Nat.add_assoc] at hnext
    rw [Form.checkFrom, Form.checkFrom, ih hlater, hhere]

namespace Form.SameArguments

variable {keyword : Keyword} {form other : Form}

/-- Such forms have the same verdict and establish the same facts. -/
lemma check_eq (h : form.SameArguments keyword other) (facts : Facts) :
    form.check facts = other.check facts := by
  have hwalk : form.checkFrom 0 keyword.grammar facts = other.checkFrom 0 keyword.grammar facts :=
    checkFrom_congr keyword.grammar (by simpa using h.arg) facts
  rw [Form.check, Form.check, h.name, h.otherName, Keyword.ofName?_eq_some_iff.mpr rfl]
  dsimp only
  rw [hwalk]

/-- Every grammar has a first position. -/
lemma grammar_length_pos (keyword : Keyword) : 0 < keyword.grammar.length := by
  cases keyword <;> exact Nat.zero_lt_succ _

/-- Such forms are resolved to the same request. -/
lemma resolve_eq (h : form.SameArguments keyword other) (resolved : Keyword) (facts : Facts)
    (payload : Payload) :
    resolve resolved form facts payload = resolve resolved other facts payload := by
  rw [resolve, resolve, h.arg 0 (grammar_length_pos keyword)]

end Form.SameArguments

/-! ### Descriptions -/

/-- A declaration has its arguments with and without a description. -/
lemma Described.sameArguments {s t declaration : Text} (h : Described s t declaration)
    (hdepth : braceDepth s = 0) {keyword : Keyword} {args : List Text}
    (htokens : tokenize s = keyword.name :: args) (hargs : keyword.grammar.length ≤ args.length) :
    (Form.split declaration).SameArguments keyword (Form.split (parenthesised s)) := by
  obtain ⟨rest, hstrip⟩ := h.exists_stripParens
  have hlong : Form.split declaration = ⟨keyword.name, args ++ tokenize rest⟩ := by
    rw [Form.split, hstrip, tokenize_append_blank hdepth rfl, htokens]
    rfl
  have hshort : Form.split (parenthesised s) = ⟨keyword.name, args⟩ := by
    rw [Form.split, stripParens_parenthesised, htokens]
  rw [hlong, hshort]
  refine ⟨rfl, rfl, fun position hposition => ?_⟩
  exact List.getElem?_append_left (Nat.lt_of_lt_of_le hposition hargs)

/-- A description behind the arguments of a declaration changes nothing, closed or not: neither the
fault for which it is refused nor its keyword and facts, and for no payload its request. -/
theorem description_changes_nothing {s : Text} {keyword : Keyword} {args : List Text}
    (hdepth : braceDepth s = 0) (htokens : tokenize s = keyword.name :: args)
    (hargs : keyword.grammar.length ≤ args.length) {t declaration : Text}
    (hdescribed : Described s t declaration) :
    (∀ fields, deriveFacts declaration fields = deriveFacts (parenthesised s) fields) ∧
      ∀ resolved facts payload, resolve resolved (Form.split declaration) facts payload =
        resolve resolved (Form.split (parenthesised s)) facts payload := by
  have hsame := hdescribed.sameArguments hdepth htokens hargs
  constructor
  · intro fields
    rw [deriveFacts, deriveFacts, hsame.check_eq]
  · intro resolved facts payload
    exact hsame.resolve_eq resolved facts payload

/-- A description with a brace that is never closed, in a declaration whose own closing parenthesis
is missing. -/
theorem description_changes_nothing_update :
    let s : Text := "Rest/put /posts/:id \x7b:id postId\x7d asBody"
    let t : Text := "(update \x7b the post)"
    (braceDepth s = 0 ∧ (Keyword.rest .put).grammar.length ≤ 3 ∧
        Described s t ('(' :: (s ++ ' ' :: t))) ∧
      ∃ facts, deriveFacts ('(' :: (s ++ ' ' :: t)) ["postId"] = .ok (.rest .put, facts) := by
  intro s t
  have hdepth : braceDepth s = 0 := by decide +kernel
  have htokens : tokenize s =
      (Keyword.rest .put).name :: ["/posts/:id", "\x7b:id postId\x7d", "asBody"] := by
    decide +kernel
  have hdescribed : Described s t ('(' :: (s ++ ' ' :: t)) :=
    .unclosed ⟨'u', by decide +kernel, by decide⟩
  obtain ⟨hfacts, -⟩ := description_changes_nothing hdepth htokens (Nat.le_refl 3) hdescribed
  refine ⟨⟨hdepth, Nat.le_refl 3, hdescribed⟩, ?_⟩
  rw [hfacts]
  exact ⟨⟨["postId"], some (Mapping.ofList [("id", "postId")]),
    some (Mapping.ofList [("id", "postId")])⟩, by decide +kernel⟩

end Endpoints
