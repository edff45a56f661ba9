import Endpoints.Proofs.RequestFields
import Endpoints.Proofs.TrailingText

/-!
# What splitting a declaration gives

A character belongs to a token if it is not blank or stands inside braces (`Kept`).  The tokens of a
text are its maximal runs of such characters: one stands at a place of the token list exactly if it
stands in the text between two neighbours that belong to none, with the earlier tokens in front of it
and the later ones behind it (`tokenize_eq_append_cons_iff`).  Nothing is lost on the way: the text
is its tokens with blanks around them (`LaidOut`), and these stand at depth zero, because only the
last token may leave a brace open, with nothing behind it.

Everything follows from the decomposition of a text into blanks, one token and what follows it
(`splitInduction`), where a token can be taken for itself: the brace depth at its front is zero.

The parentheses are written in a declaration or left out.  That makes no difference, except for
blanks behind a brace that is never closed: they are trimmed at the end of the declaration, but in
front of a closing parenthesis they belong to the last argument.
-/

namespace Endpoints

open Text (AllBlank)

/-! ### Characters that belong to tokens -/

/-- Whether a character belongs to a token; `before` is all that stands in front of it. -/
def Kept (before : Text) (c : Char) : Prop := isBlank c = false ∨ 0 < braceDepth before

/-- Whether all characters of a part belong to tokens. -/
def AllKept (before part : Text) : Prop :=
  ∀ seen c rest, part = seen ++ c :: rest → Kept (before ++ seen) c

lemma not_kept_iff {before : Text} {c : Char} :
    ¬ Kept before c ↔ isBlank c = true ∧ braceDepth before = 0 := by
  rw [Kept, not_or, Bool.not_eq_false, Nat.not_lt, Nat.le_zero]

/-- Behind closed braces the depth starts afresh. -/
lemma braceDepth_append {s : Text} (hs : braceDepth s = 0) (t : Text) :
    braceDepth (s ++ t) = braceDepth t := by
  rw [braceDepth, List.foldl_append, ← braceDepth, hs, braceDepth]

instance : DecidablePred Text.AllBlank := fun _ =>
  decidable_of_iff (List.all _ isBlank = true) List.all_eq_true

lemma Text.allBlank_nil : AllBlank [] := List.forall_mem_nil _

lemma Text.allBlank_singleton {c : Char} (hc : isBlank c = true) : AllBlank [c] :=
  List.forall_mem_singleton.mpr hc

lemma Text.AllBlank.foldl_depthAfter {gap : Text} (hgap : AllBlank gap) (depth : Nat) :
    gap.foldl depthAfter depth = depth := by
  induction gap with
  | nil => rfl
  | cons c gap ih =>
    obtain ⟨hc, hgap⟩ := List.forall_mem_cons.mp hgap
    rw [List.foldl_cons, depthAfter_of_isBlank hc, ih hgap]

/-- Blanks leave the depth at zero. -/
lemma Text.AllBlank.braceDepth_eq {gap : Text} (hgap : AllBlank gap) : braceDepth gap = 0 :=
  hgap.foldl_depthAfter 0

/-- Blanks at the end leave the depth as it is. -/
lemma Text.AllBlank.braceDepth_append {gap : Text} (hgap : AllBlank gap) (s : Text) :
    braceDepth (s ++ gap) = braceDepth s := by
  rw [braceDepth, List.foldl_append, hgap.foldl_depthAfter, braceDepth]

lemma kept_append_iff {s t : Text} {c : Char} (hs : braceDepth s = 0) :
    Kept (s ++ t) c ↔ Kept t c := by
  rw [Kept, Kept, braceDepth_append hs]

lemma allKept_append_iff {s t part : Text} (hs : braceDepth s = 0) :
    AllKept (s ++ t) part ↔ AllKept t part := by
  simp only [AllKept, List.append_assoc, kept_append_iff hs]

/-- An empty part has no characters. -/
lemma allKept_nil (before : Text) : AllKept before [] := by
  intro seen c rest hsplit
  exact absurd hsplit.symm (List.append_ne_nil_of_right_ne_nil seen (List.cons_ne_nil c rest))

lemma allKept_cons_iff {before part : Text} {c : Char} :
    AllKept before (c :: part) ↔ Kept before c ∧ AllKept (before ++ [c]) part := by
  constructor
  · intro h
    refine ⟨?_, fun seen d rest hsplit => ?_⟩
    · have hc := h [] c part rfl
      rwa [List.append_nil] at hc
    · have hd := h (c :: seen) d rest (by rw [hsplit, List.cons_append])
      rwa [List.append_cons] at hd
  · rintro ⟨hc, hpart⟩ seen d rest hsplit
    cases seen with
    | nil =>
      obtain ⟨rfl, -⟩ := List.cons.inj hsplit
      rwa [List.append_nil]
    | cons e seen =>
      obtain ⟨rfl, hpart'⟩ := List.cons.inj hsplit
      rw [List.append_cons]
      exact hpart seen d rest hpart'

/-- The characters of a part belong to tokens exactly if all of them are marked so. -/
lemma allKept_iff {before part : Text} :
    AllKept before part ↔ ∀ mark ∈ markTokens (braceDepth before) part, mark.2 = true := by
  induction part generalizing before with
  | nil => exact iff_of_true (allKept_nil before) nofun
  | cons c part ih =>
    have hdepth : depthAfter (braceDepth before) c = braceDepth (before ++ [c]) := by
      rw [braceDepth, braceDepth, List.foldl_append]
      rfl
    rw [allKept_cons_iff, ih, markTokens, hdepth, List.forall_mem_cons, Bool.or_eq_true,
      Bool.not_eq_true', decide_eq_true_eq, Kept]

instance (before part : Text) : Decidable (AllKept before part) :=
  decidable_of_iff ((markTokens (braceDepth before) part).all Prod.snd = true)
    (List.all_eq_true.trans allKept_iff.symm)

/-- A token that can stand anywhere: all its characters belong to it, and its braces are closed. -/
structure WholeToken (token : Text) : Prop where
  nonempty : token ≠ []
  kept : AllKept [] token
  closed : braceDepth token = 0

instance (token : Text) : Decidable (WholeToken token) :=
  decidable_of_iff (token ≠ [] ∧ AllKept [] token ∧ braceDepth token = 0)
    ⟨fun ⟨hne, hkept, hclosed⟩ => ⟨hne, hkept, hclosed⟩, fun h => ⟨h.nonempty, h.kept, h.closed⟩⟩

/-- A token does not begin with a blank. -/
lemma AllKept.exists_cons {token : Text} (hne : token ≠ []) (h : AllKept [] token) :
    ∃ c rest, token = c :: rest ∧ isBlank c = false := by
  obtain ⟨c, rest, rfl⟩ := List.exists_cons_of_ne_nil hne
  refine ⟨c, rest, rfl, ?_⟩
  exact (allKept_cons_iff.mp h).1.resolve_right (Nat.lt_irrefl 0)

/-! ### Blanks, a token, and what follows -/

lemma Text.leadingRun_of_marked {marks : List (Char × Bool)} (h : ∀ mark ∈ marks, mark.2 = true) :
    leadingRun marks = (marks.map Prod.fst, []) := by
  induction marks with
  | nil => rfl
  | cons mark marks ih =>
    obtain ⟨c, marked⟩ := mark
    obtain ⟨hmark, hmarks⟩ := List.forall_mem_cons.mp h
    cases (hmark : marked = true)
    rw [leadingRun, ih hmarks]
    rfl

lemma map_fst_markTokens (depth : Nat) (t : Text) : (markTokens depth t).map Prod.fst = t := by
  induction t generalizing depth with
  | nil => rfl
  | cons c t ih => rw [markTokens, List.map_cons, ih]

/-- A text that is one token. -/
lemma tokenize_of_kept {token : Text} (hne : token ≠ []) (h : AllKept [] token) :
    tokenize token = [token] := by
  have hmarks : ∀ mark ∈ markTokens 0 token, mark.2 = true := allKept_iff.mp h
  have hrun : Text.leadingRun (markTokens 0 token) = (token, []) := by
    rw [Text.leadingRun_of_marked hmarks, map_fst_markTokens]
  rw [tokenize, Text.runs, hrun]
  dsimp only
  rw [if_neg (by simpa using hne)]

/-- Blanks at the front lead no token. -/
lemma tokenize_blanks_append {gap : Text} (hgap : AllBlank gap) (t : Text) :
    tokenize (gap ++ t) = tokenize t := by
  induction gap with
  | nil => rfl
  | cons c gap ih =>
    obtain ⟨hc, hgap⟩ := List.forall_mem_cons.mp hgap
    rw [List.cons_append, ← ih hgap]
    exact tokenize_append_blank (s := []) rfl hc (gap ++ t)

lemma tokenize_of_allBlank {gap : Text} (hgap : AllBlank gap) : tokenize gap = [] := by
  have h := tokenize_blanks_append hgap []
  rwa [List.append_nil] at h

/-- Blanks at the end of a text with closed braces end its last token. -/
lemma tokenize_append_blanks {t gap : Text} (ht : braceDepth t = 0) (hgap : AllBlank gap) :
    tokenize (t ++ gap) = tokenize t := by
  cases gap with
  | nil => rw [List.append_nil]
  | cons c gap =>
    obtain ⟨hc, hgap⟩ := List.forall_mem_cons.mp hgap
    rw [tokenize_append_blank ht hc, tokenize_of_allBlank hgap, List.append_nil]

/-- A token with a blank behind it is the first one. -/
lemma tokenize_token_append {token : Text} (h : WholeToken token) {c : Char}
    (hc : isBlank c = true) (rest : Text) :
    tokenize (token ++ c :: rest) = token :: tokenize (c :: rest) := by
  have hrest : tokenize (c :: rest) = tokenize rest :=
    tokenize_blanks_append (Text.allBlank_singleton hc) rest
  rw [tokenize_append_blank h.closed hc, tokenize_of_kept h.nonempty h.kept, hrest]
  rfl

/-- The characters of a text that belong to a token, as far as they reach. -/
lemma exists_kept_append (before t : Text) : ∃ part rest, t = part ++ rest ∧ AllKept before part ∧
    ∀ c more, rest = c :: more → ¬ Kept (before ++ part) c := by
  induction t generalizing before with
  | nil => exact ⟨[], [], rfl, allKept_nil before, nofun⟩
  | cons c t ih =>
    by_cases hc : Kept before c
    · obtain ⟨part, rest, rfl, hpart, hrest⟩ := ih (before ++ [c])
      refine ⟨c :: part, rest, rfl, allKept_cons_iff.mpr ⟨hc, hpart⟩, ?_⟩
      rwa [List.append_cons]
    · refine ⟨[], c :: t, rfl, allKept_nil before, ?_⟩
      rintro d more hsplit
      obtain ⟨rfl, -⟩ := List.cons.inj hsplit
      rwa [List.append_nil]

/-- A text is blank up to its end or up to another character. -/
lemma Text.trimStart_eq_nil_or_cons (t : Text) :
    trimStart t = [] ∨ ∃ c rest, trimStart t = c :: rest ∧ isBlank c = false := by
  cases hstart : trimStart t with
  | nil => exact .inl rfl
  | cons c rest =>
    have hc := List.head?_dropWhile_not isBlank t
    rw [← trimStart, hstart] at hc
    exact .inr ⟨c, rest, rfl, hc⟩

/-- Induction on a text token by token: there are only blanks, the first token reaches up to the
end, or its braces are closed and a blank follows. -/
@[elab_as_elim]
theorem splitInduction {motive : Text → Prop} (blanks : ∀ gap, AllBlank gap → motive gap)
    (last : ∀ gap token, AllBlank gap → token ≠ [] → AllKept [] token → motive (gap ++ token))
    (token : ∀ gap token c rest, AllBlank gap → WholeToken token → isBlank c = true →
      motive (c :: rest) → motive (gap ++ (token ++ c :: rest)))
    (t : Text) : motive t := by
  -- what follows the first token is a shorter text, but not a tail of a fixed length
  induction hn : t.length using Nat.strongRecOn generalizing t with
  | ind n ih =>
    obtain ⟨gap, hgap, ht⟩ := Text.exists_blanks_append t
    obtain ⟨part, rest, hsplit, hkept, hend⟩ := exists_kept_append [] (Text.trimStart t)
    rw [hsplit] at ht
    by_cases hpart : part = []
    · -- what is left begins with no blank, so nothing is left
      subst hpart
      rw [ht]
      rcases Text.trimStart_eq_nil_or_cons t with hstart | ⟨c, more, hstart, hc⟩
      · rw [← hsplit, hstart, List.append_nil]
        exact blanks gap hgap
      · have hblank := (not_kept_iff.mp (hend c more (hsplit.symm.trans hstart))).1
        cases hblank.symm.trans hc
    · cases rest with
      | nil =>
        rw [ht, List.append_nil]
        exact last gap part hgap hpart hkept
      | cons c more =>
        obtain ⟨hc, hclosed⟩ := not_kept_iff.mp (hend c more rfl)
        rw [ht]
        refine token gap part c more hgap ⟨hpart, hkept, hclosed⟩ hc (ih _ ?_ _ rfl)
        have hpos := List.length_pos_iff.mpr hpart
        rw [← hn, ht, List.length_append, List.length_append]
        omega

/-! ### Maximal runs -/

/-- Whether a part of a text is a maximal run of characters that belong to tokens: it is not empty,
and neither neighbour, if there is one, belongs to a token. -/
structure MaximalRun (before token after : Text) : Prop where
  nonempty : token ≠ []
  kept : AllKept before token
  front : ∀ earlier c, before = earlier ++ [c] → ¬ Kept earlier c
  back : ∀ c later, after = c :: later → ¬ Kept (before ++ token) c

namespace MaximalRun

variable {before token after : Text}

/-- A run starts at depth zero. -/
lemma braceDepth_eq (h : MaximalRun before token after) : braceDepth before = 0 := by
  rcases List.eq_nil_or_concat' before with rfl | ⟨earlier, c, rfl⟩
  · rfl
  · obtain ⟨hc, hdepth⟩ := not_kept_iff.mp (h.front earlier c rfl)
    rw [(Text.allBlank_singleton hc).braceDepth_append, hdepth]

/-- The tokens of a text are those in front of a run, the run, and those behind it. -/
lemma tokenize_eq (h : MaximalRun before token after) :
    tokenize (before ++ token ++ after) = tokenize before ++ token :: tokenize after := by
  have hkept : AllKept [] token := by
    rw [← allKept_append_iff h.braceDepth_eq, List.append_nil]
    exact h.kept
  have hbehind : tokenize (token ++ after) = token :: tokenize after := by
    cases hafter : after with
    | nil =>
      rw [List.append_nil, tokenize_of_kept h.nonempty hkept]
      rfl
    | cons c later =>
      obtain ⟨hc, hdepth⟩ := not_kept_iff.mp (h.back c later hafter)
      rw [braceDepth_append h.braceDepth_eq] at hdepth
      exact tokenize_token_append ⟨h.nonempty, hkept, hdepth⟩ hc later
  rcases List.eq_nil_or_concat' before with rfl | ⟨earlier, c, rfl⟩
  · exact hbehind
  · obtain ⟨hc, hdepth⟩ := not_kept_iff.mp (h.front earlier c rfl)
    have hfront : tokenize (earlier ++ [c]) = tokenize earlier :=
      tokenize_append_blanks hdepth (Text.allBlank_singleton hc)
    rw [hfront, List.append_assoc, ← List.append_cons,
      tokenize_append_blank hdepth hc, hbehind]

/-- The first token of a text is a maximal run. -/
lemma of_blanks (hgap : AllBlank before) (hne : token ≠ []) (hkept : AllKept [] token)
    (hend : ∀ c later, after = c :: later → isBlank c = true ∧ braceDepth token = 0) :
    MaximalRun before token after where
  nonempty := hne
  kept := by
    rwa [← allKept_append_iff hgap.braceDepth_eq, List.append_nil] at hkept
  front := by
    rintro earlier c rfl
    have hearlier : AllBlank earlier := fun d hd => hgap d (List.mem_append_left _ hd)
    exact not_kept_iff.mpr ⟨hgap c (List.mem_append_right _ (List.mem_singleton_self c)),
      hearlier.braceDepth_eq⟩
  back := by
    intro c later hafter
    rw [not_kept_iff, braceDepth_append hgap.braceDepth_eq]
    exact hend c later hafter

/-- A run that does not begin its text stays one with closed braces in front. -/
lemma append_left (h : MaximalRun before token after) (hne : before ≠ []) {s : Text}
    (hs : braceDepth s = 0) : MaximalRun (s ++ before) token after where
  nonempty := h.nonempty
  kept := (allKept_append_iff hs).mpr h.kept
  front := by
    intro earlier c hsplit
    obtain ⟨earlier', d, rfl⟩ := (List.eq_nil_or_concat' before).resolve_left hne
    rw [← List.append_assoc] at hsplit
    obtain ⟨rfl, hlast⟩ := List.append_inj' hsplit rfl
    obtain ⟨rfl, -⟩ := List.cons.inj hlast
    rw [kept_append_iff hs]
    exact h.front earlier' d rfl
  back := by
    intro c later hafter
    rw [List.append_assoc, kept_append_iff hs]
    exact h.back c later hafter

end MaximalRun

/-- A token stands at a place of the list of tokens exactly if it is a maximal run of the text, with
the tokens in front of that place in front of it and those behind that place behind it. -/
theorem tokenize_eq_append_cons_iff {t token : Text} {earlier later : List Text} :
    tokenize t = earlier ++ token :: later ↔ ∃ before after, t = before ++ token ++ after ∧
      MaximalRun before token after ∧ tokenize before = earlier ∧ tokenize after = later := by
  refine ⟨fun h => ?_, ?_⟩
  · induction t using splitInduction generalizing earlier with
    | blanks gap hgap =>
      rw [tokenize_of_allBlank hgap] at h
      cases earlier <;> cases h
    | last gap first hgap hne hkept =>
      rw [tokenize_blanks_append hgap, tokenize_of_kept hne hkept] at h
      obtain ⟨rfl, h⟩ | ⟨_, -, h⟩ := List.cons_eq_append_iff.mp h
      · obtain ⟨rfl, rfl⟩ := List.cons.inj h
        refine ⟨gap, [], (List.append_nil _).symm, .of_blanks hgap hne hkept nofun, ?_, rfl⟩
        exact tokenize_of_allBlank hgap
      · simp at h
    | token gap first c rest hgap hfirst hc ih =>
      rw [tokenize_blanks_append hgap, tokenize_token_append hfirst hc] at h
      obtain ⟨rfl, h⟩ | ⟨earlier, rfl, hlater⟩ := List.cons_eq_append_iff.mp h
      · obtain ⟨rfl, rfl⟩ := List.cons.inj h
        refine ⟨gap, c :: rest, (List.append_assoc _ _ _).symm, ?_, tokenize_of_allBlank hgap, rfl⟩
        refine .of_blanks hgap hfirst.nonempty hfirst.kept fun d later hsplit => ?_
        obtain ⟨rfl, -⟩ := List.cons.inj hsplit
        exact ⟨hc, hfirst.closed⟩
      · obtain ⟨before, after, hsplit, hrun, rfl, hafter⟩ := ih hlater
        -- the run does not begin with the blank behind the first token
        obtain ⟨d, before, rfl⟩ : ∃ d more, before = d :: more := by
          refine List.exists_cons_of_ne_nil ?_
          rintro rfl
          obtain ⟨d, more, rfl, hd⟩ := hrun.kept.exists_cons hrun.nonempty
          obtain ⟨rfl, -⟩ := List.cons.inj hsplit
          cases hd.symm.trans hc
        obtain ⟨rfl, hrest⟩ := List.cons.inj hsplit
        change rest = before ++ token ++ after at hrest
        have hclosed : braceDepth (gap ++ first) = 0 := by
          rw [braceDepth_append hgap.braceDepth_eq, hfirst.closed]
        refine ⟨gap ++ first ++ c :: before, after, ?_,
          hrun.append_left (List.cons_ne_nil _ _) hclosed, ?_, hafter⟩
        · rw [hrest]
          simp only [List.append_assoc, List.cons_append]
        · rw [List.append_assoc, tokenize_blanks_append hgap, tokenize_token_append hfirst hc]
  · rintro ⟨before, after, rfl, hrun, rfl, rfl⟩
    exact hrun.tokenize_eq

/-! ### Nothing is lost -/

/-- A text that consists of tokens with blanks around them.  Behind a token the text ends, or its
braces are closed and a blank follows, so all these blanks stand at depth zero. -/
inductive LaidOut : List Text → Text → Prop
  | blanks {gap : Text} (hgap : AllBlank gap) : LaidOut [] gap
  | last {gap token : Text} (hgap : AllBlank gap) : LaidOut [token] (gap ++ token)
  | token {gap token rest : Text} {c : Char} {tokens : List Text} (hgap : AllBlank gap)
      (hclosed : braceDepth token = 0) (hc : isBlank c = true)
      (hrest : LaidOut tokens (c :: rest)) :
      LaidOut (token :: tokens) (gap ++ (token ++ c :: rest))

/-- A list is that of the tokens of a text exactly if the text consists of them, and each of them
holds nothing but characters of a token. -/
theorem tokenize_eq_iff {t : Text} {tokens : List Text} : tokenize t = tokens ↔
    LaidOut tokens t ∧ ∀ token ∈ tokens, token ≠ [] ∧ AllKept [] token := by
  constructor
  · rintro rfl
    induction t using splitInduction with
    | blanks gap hgap =>
      rw [tokenize_of_allBlank hgap]
      exact ⟨.blanks hgap, nofun⟩
    | last gap token hgap hne hkept =>
      rw [tokenize_blanks_append hgap, tokenize_of_kept hne hkept]
      exact ⟨.last hgap, List.forall_mem_singleton.mpr ⟨hne, hkept⟩⟩
    | token gap token c rest hgap htoken hc ih =>
      rw [tokenize_blanks_append hgap, tokenize_token_append htoken hc]
      exact ⟨.token hgap htoken.closed hc ih.1,
        List.forall_mem_cons.mpr ⟨⟨htoken.nonempty, htoken.kept⟩, ih.2⟩⟩
  · rintro ⟨hlaid, hkept⟩
    induction hlaid with
    | blanks hgap => exact tokenize_of_allBlank hgap
    | last hgap =>
      obtain ⟨hne, htoken⟩ := List.forall_mem_singleton.mp hkept
      rw [tokenize_blanks_append hgap, tokenize_of_kept hne htoken]
    | token hgap hclosed hc hrest ih =>
      obtain ⟨⟨hne, htoken⟩, htokens⟩ := List.forall_mem_cons.mp hkept
      rw [tokenize_blanks_append hgap, tokenize_token_append ⟨hne, htoken, hclosed⟩ hc, ih htokens]

/-- The characters of the runs are the marked ones. -/
lemma Text.flatten_runs (marks : List (Char × Bool)) :
    (runs marks).flatten = (marks.filter Prod.snd).map Prod.fst := by
  have hleading : ∀ marks : List (Char × Bool),
      (leadingRun marks).1 ++ (leadingRun marks).2.flatten =
        (marks.filter Prod.snd).map Prod.fst := by
    intro marks
    induction marks with
    | nil => rfl
    | cons mark marks ih =>
      obtain ⟨c, marked⟩ := mark
      rw [leadingRun, ← List.singleton_append, List.filter_append, List.map_append, ← ih]
      cases marked with
      | true => rfl
      | false => cases hrun : (leadingRun marks).1 <;> simp [hrun]
  rw [← hleading, runs]
  cases hrun : (leadingRun marks).1 <;> simp [hrun]

/-! ### Written tokens -/

/-- Tokens one after another, with any blanks between neighbours. -/
inductive Joined : List Text → Text → Prop
  | none : Joined [] []
  | one (token : Text) : Joined [token] token
  | more {token next gap t : Text} {rest : List Text} (hne : gap ≠ []) (hgap : AllBlank gap)
      (hrest : Joined (next :: rest) t) : Joined (token :: next :: rest) (token ++ gap ++ t)

/-- Joined tokens in parentheses, with any blanks inside and outside of these. -/
inductive Enclosed (tokens : List Text) : Text → Prop
  | mk {outer inner t inner' outer' : Text} (houter : AllBlank outer) (hinner : AllBlank inner)
      (ht : Joined tokens t) (hinner' : AllBlank inner') (houter' : AllBlank outer') :
      Enclosed tokens (outer ++ parenthesised (inner ++ t ++ inner') ++ outer')

/-- Joined tokens begin with the first of them, behind which come blanks if there are more. -/
lemma joined_cons_iff {token t : Text} {rest : List Text} : Joined (token :: rest) t ↔
    rest = [] ∧ t = token ∨ rest ≠ [] ∧ ∃ gap t', gap ≠ [] ∧ AllBlank gap ∧ Joined rest t' ∧
      t = token ++ gap ++ t' := by
  constructor
  · intro h
    cases h with
    | one => exact .inl ⟨rfl, rfl⟩
    | more hne hgap hrest => exact .inr ⟨List.cons_ne_nil _ _, _, _, hne, hgap, hrest, rfl⟩
  · rintro (⟨rfl, rfl⟩ | ⟨hrest, gap, t', hne, hgap, ht', rfl⟩)
    · exact .one _
    · obtain ⟨next, rest, rfl⟩ := List.exists_cons_of_ne_nil hrest
      exact .more hne hgap ht'

/-- A text that consists of tokens is these tokens joined, with blanks around them. -/
lemma LaidOut.exists_joined {tokens : List Text} {t : Text} (h : LaidOut tokens t)
    (htokens : ∀ token ∈ tokens, token ≠ [] ∧ AllKept [] token) :
    ∃ front s back, AllBlank front ∧ AllBlank back ∧ Joined tokens s ∧ t = front ++ s ++ back := by
  induction h with
  | @blanks gap hgap => exact ⟨gap, [], [], hgap, Text.allBlank_nil, .none, by simp⟩
  | @last gap token hgap => exact ⟨gap, token, [], hgap, Text.allBlank_nil, .one token, by simp⟩
  | @token gap token rest c tokens hgap hclosed hc hrest ih =>
    obtain ⟨front, s, back, hfront, hback, hs, hsplit⟩ := ih (List.forall_mem_cons.mp htokens).2
    cases tokens with
    | nil =>
      cases hs
      refine ⟨gap, token, c :: rest, hgap, ?_, .one token, (List.append_assoc _ _ _).symm⟩
      rw [hsplit, List.append_nil]
      exact hfront.append hback
    | cons next tokens =>
      have hne : front ≠ [] := by
        -- the next token does not begin with the blank behind this one
        rintro rfl
        obtain ⟨hnext, hkept⟩ := htokens next (List.mem_cons_of_mem _ List.mem_cons_self)
        obtain ⟨d, more, rfl, hd⟩ := hkept.exists_cons hnext
        have hfirst : c = d := by
          rcases joined_cons_iff.mp hs with ⟨-, rfl⟩ | ⟨-, gap', s', -, -, -, rfl⟩
          · exact (List.cons.inj hsplit).1
          · exact (List.cons.inj hsplit).1
        rw [hfirst, hd] at hc
        cases hc
      refine ⟨gap, token ++ front ++ s, back, hgap, hback, .more hne hfront hs, ?_⟩
      rw [hsplit]
      simp only [List.append_assoc]

/-- The form of a list of tokens: the first is the keyword, which is empty if there is none. -/
def Form.ofTokens (tokens : List Text) : Form := ⟨tokens.head?.getD [], tokens.tail⟩

lemma Form.split_eq (declaration : Text) :
    Form.split declaration = Form.ofTokens (tokenize (stripParens declaration)) := by
  rw [Form.split]
  cases tokenize (stripParens declaration) <;> rfl

/-- Joined tokens are found again, and leave no brace open. -/
lemma Joined.tokenize_eq {tokens : List Text} {t : Text} (h : Joined tokens t)
    (htokens : ∀ token ∈ tokens, WholeToken token) : tokenize t = tokens ∧ braceDepth t = 0 := by
  induction h with
  | none => exact ⟨rfl, rfl⟩
  | one token =>
    have htoken := htokens token (List.mem_singleton_self token)
    exact ⟨tokenize_of_kept htoken.nonempty htoken.kept, htoken.closed⟩
  | @more token next gap t rest hne hgap hrest ih =>
    obtain ⟨htoken, hlater⟩ := List.forall_mem_cons.mp htokens
    obtain ⟨ht, hdepth⟩ := ih hlater
    constructor
    · obtain ⟨c, gap, rfl⟩ := List.exists_cons_of_ne_nil hne
      have hc := hgap c List.mem_cons_self
      rw [List.append_assoc, List.cons_append, tokenize_token_append htoken hc, ← List.cons_append,
        tokenize_blanks_append hgap, ht]
    · rw [List.append_assoc, braceDepth_append htoken.closed, braceDepth_append hgap.braceDepth_eq,
        hdepth]

/-- Blanks around a declaration are trimmed. -/
lemma stripParens_blanks {outer outer' : Text} (houter : AllBlank outer)
    (houter' : AllBlank outer') (s : Text) :
    stripParens (outer ++ parenthesised s ++ outer') = s := by
  have hend : Text.trimEnd (parenthesised s ++ outer') = Text.trimEnd (parenthesised s) := by
    rw [Text.trimEnd, List.reverse_append, List.dropWhile_append_of_pos houter'.reverse,
      Text.trimEnd]
  have hstart : Text.trimStart (outer ++ parenthesised s ++ outer') = parenthesised s ++ outer' := by
    rw [List.append_assoc]
    exact Text.trimStart_append houter (by decide) _
  conv_rhs => rw [← stripParens_parenthesised s]
  rw [stripParens, Text.trim, hstart, hend]
  rfl

/-- Tokens that are written in parentheses are what the declaration is split into. -/
theorem Enclosed.split_eq {tokens : List Text} {declaration : Text}
    (h : Enclosed tokens declaration) (htokens : ∀ token ∈ tokens, WholeToken token) :
    Form.split declaration = Form.ofTokens tokens := by
  cases h with
  | @mk outer inner t inner' outer' houter hinner ht hinner' houter' =>
    obtain ⟨htokenize, hdepth⟩ := ht.tokenize_eq htokens
    rw [Form.split_eq, stripParens_blanks houter houter', List.append_assoc,
      tokenize_blanks_append hinner, tokenize_append_blanks hdepth hinner', htokenize]

/-! ### Trimmed ends -/

namespace Text

/-- In front of a character that is not blank nothing is trimmed at the end. -/
lemma trimEnd_cons {c : Char} (hc : isBlank c = false) (t : Text) :
    trimEnd (c :: t) = c :: trimEnd t := by
  have hlast : [c].dropWhile isBlank = [c] := List.dropWhile_cons_of_neg (by simp [hc])
  rw [trimEnd, List.reverse_cons, List.dropWhile_append, hlast]
  split
  · next h => rw [trimEnd, List.isEmpty_iff.mp h]; rfl
  · rw [List.reverse_append, trimEnd]; rfl

/-- What is trimmed at the end of a text are blanks. -/
lemma exists_append_blanks (t : Text) : ∃ gap, AllBlank gap ∧ t = trimEnd t ++ gap := by
  obtain ⟨gap, hgap, hsplit⟩ := exists_blanks_append t.reverse
  refine ⟨gap.reverse, hgap.reverse, ?_⟩
  rw [trimEnd, ← List.reverse_append, ← trimStart, ← hsplit, List.reverse_reverse]

/-- A text begins alike when its end is trimmed as well. -/
lemma head?_trim (t : Text) : (trim t).head? = (trimStart t).head? := by
  rw [trim]
  rcases trimStart_eq_nil_or_cons t with hstart | ⟨c, rest, hstart, hc⟩
  · rw [hstart]; rfl
  · rw [hstart, trimEnd_cons hc]; rfl

/-- When only the end is trimmed, the blanks at the front stay. -/
lemma exists_trimEnd_eq (t : Text) :
    ∃ gap, AllBlank gap ∧ trimEnd t = gap ++ trim t ∧ (trim t = [] → gap = []) := by
  obtain ⟨gap, hgap, hsplit⟩ := exists_blanks_append t
  rcases trimStart_eq_nil_or_cons t with hstart | ⟨c, rest, hstart, hc⟩
  · have htrim : trim t = [] := by rw [trim, hstart]; rfl
    have hend : trimEnd t = [] := by
      rw [hstart, List.append_nil] at hsplit
      rw [trimEnd, hsplit, List.dropWhile_eq_nil_iff.mpr hgap.reverse]
      rfl
    exact ⟨[], allBlank_nil, by rw [hend, htrim]; rfl, fun _ => rfl⟩
  · have hsome : ∃ d ∈ trimStart t, isBlank d = false := ⟨c, by rw [hstart]; simp, hc⟩
    obtain ⟨hend, hne⟩ := trimEnd_append hsome gap
    rw [← hsplit] at hend
    exact ⟨gap, hgap, hend, fun htrim => absurd htrim hne⟩

/-- A character that is not blank at the end keeps what is in front of it. -/
lemma trim_append_char {c : Char} (hc : isBlank c = false) (t : Text) :
    trim (t ++ [c]) = trimStart t ++ [c] := by
  have hlast : [c].dropWhile isBlank = [c] := List.dropWhile_cons_of_neg (by simp [hc])
  have hstart : trimStart (t ++ [c]) = trimStart t ++ [c] := by
    rw [trimStart, List.dropWhile_append, hlast]
    split
    · next h => rw [trimStart, List.isEmpty_iff.mp h]; rfl
    · rfl
  have hend : trimEnd [c] = [c] := by
    rw [trimEnd_cons hc]
    rfl
  rw [trim, hstart, (trimEnd_append ⟨c, List.mem_singleton_self c, hc⟩ _).1, hend]

end Text

/-! ### Parentheses written or left out -/

/-- A text that is not in parentheses itself, not even on one side. -/
structure Bare (s : Text) : Prop where
  front : (Text.trim s).head? ≠ some '('
  back : (Text.trim s).getLast? ≠ some ')'

namespace Bare

variable {s : Text}

lemma stripParens_eq (h : Bare s) : stripParens s = Text.trim s := by
  rw [stripParens, Text.dropFirstIf, if_neg h.front, Text.dropLastIf, if_neg h.back]

lemma stripParens_opened (h : Bare s) : stripParens ('(' :: s) = Text.trimEnd s := by
  have htrim : Text.trim ('(' :: s) = '(' :: Text.trimEnd s := Text.trimEnd_cons (by decide) s
  have hback : (Text.trimEnd s).getLast? ≠ some ')' := by
    obtain ⟨gap, -, hend, hnil⟩ := Text.exists_trimEnd_eq s
    by_cases hblank : Text.trim s = []
    · rw [hend, hnil hblank, hblank]
      nofun
    · rw [hend, List.getLast?_append_of_ne_nil _ hblank]
      exact h.back
  rw [stripParens, htrim, Text.dropFirstIf, if_pos List.head?_cons, List.tail_cons, Text.dropLastIf,
    if_neg hback]

lemma stripParens_closed (h : Bare s) : stripParens (s ++ [')']) = Text.trimStart s := by
  have hfront : (Text.trimStart s ++ [')']).head? ≠ some '(' := by
    have hstart := h.front
    rw [Text.head?_trim] at hstart
    cases hs : Text.trimStart s with
    | nil => decide
    | cons c rest => rwa [hs] at hstart
  rw [stripParens, Text.trim_append_char (by decide), Text.dropFirstIf, if_neg hfront,
    Text.dropLastIf_append _ _ (List.cons_ne_nil _ _)]
  exact List.append_nil _

/-- Without the closing parenthesis it makes no difference whether the opening one is written. -/
lemma split_opened (h : Bare s) : Form.split ('(' :: s) = Form.split s := by
  obtain ⟨gap, hgap, hend, -⟩ := Text.exists_trimEnd_eq s
  rw [Form.split_eq, Form.split_eq, h.stripParens_opened, h.stripParens_eq, hend,
    tokenize_blanks_append hgap]

lemma split_closed (h : Bare s) : Form.split (s ++ [')']) = Form.ofTokens (tokenize s) := by
  obtain ⟨gap, hgap, hsplit⟩ := Text.exists_blanks_append s
  rw [Form.split_eq, h.stripParens_closed]
  conv_rhs => rw [hsplit, tokenize_blanks_append hgap]

/-- With the closing parenthesis it makes no difference whether the opening one is written. -/
lemma split_parenthesised (h : Bare s) :
    Form.split (parenthesised s) = Form.split (s ++ [')']) := by
  rw [h.split_closed, Form.split_eq, stripParens_parenthesised]

end Bare

/-- A list of tokens has the characters of its form. -/
lemma Form.flatten_ofTokens (tokens : List Text) :
    (Form.ofTokens tokens).keyword ++ (Form.ofTokens tokens).args.flatten = tokens.flatten := by
  cases tokens <;> rfl

/-- Blanks behind an open brace belong to a token. -/
lemma flatten_tokenize_append {s gap : Text} (hs : braceDepth s ≠ 0) (hgap : AllBlank gap) :
    (tokenize (s ++ gap)).flatten = (tokenize s).flatten ++ gap := by
  have hkept : AllKept s gap := by
    rintro seen c rest rfl
    have hseen : AllBlank seen := fun d hd => hgap d (List.mem_append_left _ hd)
    refine .inr ?_
    rw [hseen.braceDepth_append]
    exact Nat.pos_of_ne_zero hs
  have hmarks : (markTokens (braceDepth s) gap).filter Prod.snd = markTokens (braceDepth s) gap :=
    List.filter_eq_self.mpr (allKept_iff.mp hkept)
  rw [tokenize, tokenize, Text.flatten_runs, Text.flatten_runs, markTokens_append, ← braceDepth,
    List.filter_append, List.map_append, hmarks, map_fst_markTokens]

/-- The closing parenthesis makes a difference exactly behind blanks that stand in an open brace. -/
lemma Bare.split_closed_eq_iff {s : Text} (h : Bare s) :
    Form.split (s ++ [')']) = Form.split s ↔ braceDepth s = 0 ∨ Text.trimEnd s = s := by
  obtain ⟨gap, hgap, hsplit⟩ := Text.exists_append_blanks s
  have hdepth : braceDepth (Text.trimEnd s) = braceDepth s := by
    conv_rhs => rw [hsplit, hgap.braceDepth_append]
  rw [h.split_closed, ← h.split_opened, Form.split_eq, h.stripParens_opened]
  constructor
  · intro heq
    refine or_iff_not_imp_left.mpr fun hopen => ?_
    have hflatten : (tokenize s).flatten = (tokenize (Text.trimEnd s)).flatten := by
      rw [← Form.flatten_ofTokens, heq, Form.flatten_ofTokens]
    rw [hsplit, flatten_tokenize_append (hdepth ▸ hopen) hgap, ← hsplit,
      List.append_right_eq_self] at hflatten
    rw [hflatten, List.append_nil] at hsplit
    exact hsplit.symm
  · rintro (hclosed | htrimmed)
    · conv_lhs => rw [hsplit, tokenize_append_blanks (hdepth.trans hclosed) hgap]
    · rw [htrimmed]

instance (s : Text) : Decidable (Bare s) :=
  decidable_of_iff ((Text.trim s).head? ≠ some '(' ∧ (Text.trim s).getLast? ≠ some ')')
    ⟨fun ⟨hfront, hback⟩ => ⟨hfront, hback⟩, fun h => ⟨h.front, h.back⟩⟩

/-- Splitting is exact.  The tokens of a text are its maximal runs of characters that are not blank
or stand inside braces, none of them begins with a blank, and the text is the tokens with blanks at
depth zero around them.  Tokens that are written in parentheses are what the declaration is split
into.  The opening parenthesis can be left out, and so can the closing one unless blanks stand in
front of it behind a brace that is still open. -/
theorem split_exact (t : Text) (tokens : List Text) (declaration s : Text) :
    (tokenize t = tokens ↔
      LaidOut tokens t ∧ ∀ token ∈ tokens, token ≠ [] ∧ AllKept [] token) ∧
    (∀ earlier token later, tokenize t = earlier ++ token :: later ↔
      ∃ before after, t = before ++ token ++ after ∧ MaximalRun before token after ∧
        tokenize before = earlier ∧ tokenize after = later) ∧
    (∀ token ∈ tokenize t, ∃ c rest, token = c :: rest ∧ isBlank c = false) ∧
    ((∀ token ∈ tokens, WholeToken token) → Enclosed tokens declaration →
      Form.split declaration = Form.ofTokens tokens) ∧
    (Bare s → Form.split ('(' :: s) = Form.split s ∧
      Form.split (parenthesised s) = Form.split (s ++ [')']) ∧
      (Form.split (s ++ [')']) = Form.split s ↔ braceDepth s = 0 ∨ Text.trimEnd s = s)) := by
  refine ⟨tokenize_eq_iff, fun earlier token later => tokenize_eq_append_cons_iff,
    fun token htoken => ?_, fun htokens henclosed => henclosed.split_eq htokens,
    fun hs => ⟨hs.split_opened, hs.split_parenthesised, hs.split_closed_eq_iff⟩⟩
  obtain ⟨hne, hkept⟩ := (tokenize_eq_iff.mp rfl).2 token htoken
  exact hkept.exists_cons hne

/-- Arguments over two lines with several kinds of blanks around them, and a key with an open brace
that is found with and without parentheses. -/
theorem split_exact_blanks :
    let tokens : List Text := ["Rest/get", "/users/:id", "\x7b:id\nuserId\x7d"]
    let declaration : Text := "\n( Rest/get\t /users/:id\u2003\x7b:id\nuserId\x7d\n) "
    let s : Text := " Local/get-in \x7ba"
    ((∀ token ∈ tokens, WholeToken token) ∧ Enclosed tokens declaration ∧
        Form.split declaration = Form.ofTokens tokens) ∧
      Bare s ∧ Form.split (s ++ [')']) = Form.split s := by
  intro tokens declaration s
  have htokens : ∀ token ∈ tokens, WholeToken token := by decide +kernel
  have hjoined : Joined tokens ("Rest/get" ++ "\t " ++ ("/users/:id" ++ "\u2003" ++
      "\x7b:id\nuserId\x7d" : Text)) :=
    .more (by decide) (by decide) (.more (by decide) (by decide) (.one _))
  have henclosed : Enclosed tokens declaration := by
    have h : Enclosed tokens (("\n" : Text) ++ parenthesised ((" " : Text) ++ _ ++ ("\n" : Text)) ++
      (" " : Text)) := .mk (by decide) (by decide) hjoined (by decide) (by decide)
    exact h
  have hbare : Bare s := by decide +kernel
  obtain ⟨-, -, -, hsplit, hspellings⟩ := split_exact declaration tokens declaration s
  refine ⟨⟨htokens, henclosed, hsplit htokens henclosed⟩, hbare, ?_⟩
  exact (hspellings hbare).2.2.mpr (.inr (by decide +kernel))

/-- The closing parenthesis makes a difference behind an open brace: the blank in front of it belongs
to the key, and without it that blank is trimmed. -/
theorem not_split_alike_open_brace :
    let s : Text := "Local/get-in \x7ba "
    Bare s ∧ Form.split s = ⟨"Local/get-in", ["\x7ba"]⟩ ∧
      Form.split (parenthesised s) = ⟨"Local/get-in", ["\x7ba "]⟩ ∧
      Form.split (parenthesised s) ≠ Form.split s := by
  refine ⟨by decide +kernel, by decide +kernel, by decide +kernel, by decide +kernel⟩

end Endpoints
