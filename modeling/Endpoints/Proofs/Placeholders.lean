import Endpoints.Proofs.Replacement
import Endpoints.Proofs.Search

/-!
# The places of a placeholder

The validator lists the names of the placeholders of a text, and the resolver searches the text for
one name and replaces it.  Both are compared here with the places at which a placeholder stands
(`PlaceholderIn`), which are told without a search.  The names are listed in the order of their
places (`listsInOrder_placeholders`).  The places of one name cut the text into stretches (`CutAt`),
and a replacement puts the value between them and keeps them as they are
(`CutAt.replaceTokens_eq`).

How often the value is asked for does not show in a result.  `substituteM` is the same search with a
value that is computed again at each place, in whatever monad, and `counted` is a value that counts
how often that happens.
-/

namespace Endpoints

open UrlTemplate

/-! ### Where placeholders stand -/

/-- A placeholder stands in a text, behind `before`: a colon, and directly behind it a word that
nothing continues. -/
def PlaceholderIn (t before name : Text) : Prop :=
  ∃ after, t = before ++ ':' :: (name ++ after) ∧ Text.isWord name = true ∧ endsToken after = true

/-- A placeholder stands at the first character of a text or behind it. -/
lemma placeholderIn_cons {c : Char} {rest before name : Text} :
    PlaceholderIn (c :: rest) before name ↔
      (before = [] ∧ c = ':' ∧ Text.isWord name = true ∧ Text.leadingWord rest = name) ∨
        ∃ front, before = c :: front ∧ PlaceholderIn rest front name := by
  constructor
  · rintro ⟨after, hsplit, hname, hends⟩
    cases before with
    | nil =>
      obtain ⟨rfl, rfl⟩ := List.cons.inj hsplit
      exact .inl ⟨rfl, rfl, hname, Text.leadingWord_append (Text.isWordChar_of_isWord hname) hends⟩
    | cons d front =>
      obtain ⟨rfl, hrest⟩ := List.cons.inj hsplit
      exact .inr ⟨front, rfl, after, hrest, hname, hends⟩
  · rintro (⟨rfl, rfl, hname, rfl⟩ | ⟨front, rfl, after, rfl, hname, hends⟩)
    · refine ⟨Text.afterWord rest, ?_, hname, endsToken_afterWord rest⟩
      rw [Text.leadingWord_append_afterWord, List.nil_append]
    · exact ⟨after, rfl, hname, hends⟩

/-- No placeholder stands in a text without a colon. -/
lemma not_placeholderIn_plain {s before name : Text} (hs : ':' ∉ s) :
    ¬PlaceholderIn s before name := by
  rintro ⟨after, rfl, -⟩
  exact hs (List.mem_append_right before List.mem_cons_self)

/-- Placeholders stand part by part in a text, unless a word reaches over the boundary. -/
lemma placeholderIn_append {s t : Text} (ht : endsToken t = true) {before name : Text} :
    PlaceholderIn (s ++ t) before name ↔
      PlaceholderIn s before name ∨ ∃ front, before = s ++ front ∧ PlaceholderIn t front name := by
  induction s generalizing before with
  | nil => simp [not_placeholderIn_plain]
  | cons c s ih =>
    rw [List.cons_append, placeholderIn_cons, placeholderIn_cons,
      Text.leadingWord_append_of_endsToken s ht]
    constructor
    · rintro (hfirst | ⟨front, rfl, hfront⟩)
      · exact .inl (.inl hfirst)
      · rcases ih.mp hfront with hfront | ⟨behind, rfl, hbehind⟩
        · exact .inl (.inr ⟨front, rfl, hfront⟩)
        · exact .inr ⟨behind, rfl, hbehind⟩
    · rintro ((hfirst | ⟨front, rfl, hfront⟩) | ⟨behind, rfl, hbehind⟩)
      · exact .inl hfirst
      · exact .inr ⟨front, rfl, ih.mpr (.inl hfront)⟩
      · exact .inr ⟨s ++ behind, rfl, ih.mpr (.inr ⟨behind, rfl, hbehind⟩)⟩

/-- What stands in front of a text stands in front of its places. -/
lemma placeholderIn_append_right (s : Text) {t before name : Text} :
    PlaceholderIn (s ++ t) (s ++ before) name ↔ PlaceholderIn t before name :=
  exists_congr fun after => by rw [List.append_assoc, List.append_cancel_left_eq]

/-- In front of what ends it, a token is a placeholder if it has a word. -/
lemma placeholderIn_token {w t : Text} (hw : ∀ c ∈ w, isWordChar c = true)
    (ht : endsToken t = true) {before name : Text} (hname : Text.isWord name = true) :
    PlaceholderIn (':' :: w ++ t) before name ↔
      (before = [] ∧ w = name) ∨
        ∃ front, before = ':' :: w ++ front ∧ PlaceholderIn t front name := by
  have hword : Text.leadingWord w = w := by
    simpa using Text.leadingWord_append hw (rfl : endsToken [] = true)
  have hplain : ∀ front, ¬PlaceholderIn w front name := fun _ =>
    not_placeholderIn_plain (colon_not_mem_of_isWordChar hw)
  rw [placeholderIn_append ht, placeholderIn_cons, hword]
  simp only [hname, hplain, true_and, and_false, exists_false, or_false]

/-! ### The list of the names -/

/-- The placeholder that starts at a place, with what stands in front of it. -/
def placeholderAt? (before : Text) : Text → Option (Text × Text)
  | [] => none
  | c :: rest =>
    if c = ':' && !(Text.leadingWord rest).isEmpty then some (before, Text.leadingWord rest)
    else none

/-- What starts at a place is a placeholder that stands there, and the other way round. -/
lemma placeholderAt?_eq_some_iff {before here : Text} {found : Text × Text} :
    placeholderAt? before here = some found ↔
      found.1 = before ∧ PlaceholderIn (before ++ here) found.1 found.2 := by
  obtain ⟨place, name⟩ := found
  constructor
  · intro h
    cases here with
    | nil => cases h
    | cons c rest =>
      rw [placeholderAt?] at h
      split at h
      · next hstart =>
        cases h
        rw [Bool.and_eq_true, decide_eq_true_eq, Bool.not_eq_true',
          List.isEmpty_eq_false_iff] at hstart
        obtain ⟨rfl, hne⟩ := hstart
        refine ⟨rfl, Text.afterWord rest, ?_, ?_, endsToken_afterWord rest⟩
        · rw [Text.leadingWord_append_afterWord]
        · rw [Text.isWord, Bool.and_eq_true, Bool.not_eq_true', List.isEmpty_eq_false_iff,
            List.all_eq_true]
          exact ⟨hne, Text.isWordChar_of_mem_leadingWord rest⟩
      · cases h
  · rintro ⟨rfl, after, hsplit, hname, hends⟩
    dsimp only at hsplit hname hends
    rw [List.append_cancel_left hsplit, placeholderAt?,
      Text.leadingWord_append (Text.isWordChar_of_isWord hname) hends, if_pos]
    rw [Bool.and_eq_true, Bool.not_eq_true', List.isEmpty_eq_false_iff]
    exact ⟨rfl, Text.ne_nil_of_isWord hname⟩

/-- What starts at some place of a text are its placeholders. -/
lemma mem_findings_placeholderAt? {found : Text × Text} {t : Text} :
    found ∈ findings placeholderAt? [] t ↔ PlaceholderIn t found.1 found.2 := by
  apply mem_findings_iff
  · exact fun _ _ _ => placeholderAt?_eq_some_iff
  · rintro ⟨before, name⟩ t ⟨after, rfl, -, -⟩
    exact ⟨_, List.cons_ne_nil _ _, rfl⟩

/-- The names of a text are those of the placeholders at its places. -/
lemma map_findings_placeholderAt? (before t : Text) :
    (findings placeholderAt? before t).map Prod.snd = namesOf t := by
  induction t generalizing before with
  | nil => rfl
  | cons c rest ih =>
    rw [findings, List.map_append, ih, placeholderAt?, namesOf]
    split <;> rfl

/-- The placeholders of a text are listed in the order in which they first stand there. -/
theorem listsInOrder_placeholders (t : Text) :
    ListsInOrder (PlaceholderIn t) (placeholders t) := by
  have hordered : (findings placeholderAt? [] t).Pairwise fun x y => x.1.length < y.1.length :=
    pairwise_place (fun _ _ _ h => (placeholderAt?_eq_some_iff.mp h).1) t
  rw [placeholders, ← map_findings_placeholderAt? []]
  exact listsInOrder_distinct (fun _ _ => mem_findings_placeholderAt?) hordered

/-- A name is one of a text if a placeholder with it stands there. -/
lemma mem_namesOf_iff {t name : Text} :
    name ∈ namesOf t ↔ ∃ before, PlaceholderIn t before name := by
  rw [← mem_placeholders, (listsInOrder_placeholders t).mem_iff]

/-! ### The stretches between the places -/

/-- The places of a placeholder cut a text into a first stretch and others: the text is the
stretches with the placeholder between neighbours, and the placeholder stands in front of each
stretch but the first, and nowhere else. -/
structure CutAt (name t first : Text) (others : List Text) : Prop where
  text : t = Text.join (':' :: name) (first :: others)
  places : ∀ before, PlaceholderIn t before name ↔
    ∃ earlier stretch later, others = earlier ++ stretch :: later ∧
      before = Text.join (':' :: name) (first :: earlier)

/-- What stands in front of the first of joined stretches stands in front of all. -/
lemma Text.join_append_cons (glue s first : Text) (others : List Text) :
    Text.join glue ((s ++ first) :: others) = s ++ Text.join glue (first :: others) := by
  cases others with
  | nil => simp [Text.join]
  | cons next others => simp [Text.join]

/-- Stretches are joined by the glue. -/
lemma Text.join_cons_cons (glue first next : Text) (others : List Text) :
    Text.join glue (first :: next :: others) =
      first ++ (glue ++ Text.join glue (next :: others)) := by
  simp [Text.join]

/-- The first of joined stretches stands in front. -/
lemma Text.prefix_join (glue first : Text) (others : List Text) :
    first <+: Text.join glue (first :: others) := by
  cases others with
  | nil => simp [Text.join]
  | cons next others =>
    rw [Text.join_cons_cons]
    exact List.prefix_append _ _

/-- A text without the placeholder stays as it is. -/
lemma replaceTokens_of_none {name value t : Text} (hname : Text.isWord name = true)
    (hnone : ∀ before, ¬PlaceholderIn t before name) : replaceTokens (only name value) t = t := by
  refine replaceTokens_eq_self (if_neg fun h => Text.ne_nil_of_isWord hname h.symm) ?_
  intro other hother
  refine if_neg ?_
  rintro rfl
  obtain ⟨before, hbefore⟩ := mem_namesOf_iff.mp hother
  exact hnone before hbefore

namespace CutAt

variable {name t first : Text} {others : List Text}

/-- A text without the placeholder is a single stretch. -/
lemma of_none (hnone : ∀ before, ¬PlaceholderIn t before name) : CutAt name t t [] where
  text := by simp [Text.join]
  places before := by simp [hnone]

/-- What holds no place of the placeholder makes the first stretch longer. -/
lemma append_left (h : CutAt name t first others) {s : Text}
    (hs : ∀ before, PlaceholderIn (s ++ t) before name ↔
      ∃ front, before = s ++ front ∧ PlaceholderIn t front name) :
    CutAt name (s ++ t) (s ++ first) others where
  text := by rw [Text.join_append_cons, ← h.text]
  places before := by
    rw [hs]
    constructor
    · rintro ⟨front, rfl, hfront⟩
      obtain ⟨earlier, stretch, later, hsplit, rfl⟩ := (h.places front).mp hfront
      exact ⟨earlier, stretch, later, hsplit, (Text.join_append_cons _ _ _ _).symm⟩
    · rintro ⟨earlier, stretch, later, hsplit, rfl⟩
      refine ⟨_, Text.join_append_cons _ _ _ _, ?_⟩
      exact (h.places _).mpr ⟨earlier, stretch, later, hsplit, rfl⟩

/-- A placeholder at the front of a text is a place with nothing in front of it. -/
lemma token (h : CutAt name t first others) (hname : Text.isWord name = true)
    (ht : endsToken t = true) : CutAt name (':' :: name ++ t) [] (first :: others) where
  text := by
    rw [Text.join_cons_cons, ← h.text]
    rfl
  places before := by
    rw [placeholderIn_token (Text.isWordChar_of_isWord hname) ht hname]
    constructor
    · rintro (⟨rfl, -⟩ | ⟨front, rfl, hfront⟩)
      · exact ⟨[], first, others, rfl, rfl⟩
      · obtain ⟨earlier, stretch, later, rfl, rfl⟩ := (h.places front).mp hfront
        refine ⟨first :: earlier, stretch, later, rfl, ?_⟩
        rw [Text.join_cons_cons]
        rfl
    · rintro ⟨earlier, stretch, later, hsplit, rfl⟩
      cases earlier with
      | nil => exact .inl ⟨rfl, rfl⟩
      | cons next earlier =>
        obtain ⟨rfl, rfl⟩ := List.cons.inj hsplit
        refine .inr ⟨Text.join (':' :: name) (first :: earlier), ?_, ?_⟩
        · rw [Text.join_cons_cons]
          rfl
        · exact (h.places _).mpr ⟨earlier, stretch, later, rfl, rfl⟩

/-- The first stretch ends where the placeholder stands first, and the others are those of the text
behind it. -/
lemma exists_behind {next : Text} (h : CutAt name t first (next :: others)) :
    ∃ after, t = first ++ (':' :: name ++ after) ∧ endsToken after = true ∧
      (∀ before, ¬PlaceholderIn first before name) ∧ CutAt name after next others := by
  obtain ⟨after, hsplit, -, hends⟩ :=
    (h.places first).mpr ⟨[], next, others, rfl, by simp [Text.join]⟩
  rw [← List.cons_append] at hsplit
  refine ⟨after, hsplit, hends, ?_, ?_, ?_⟩
  · -- every place of the text has the first stretch in front of it
    intro before hin
    have hplace : PlaceholderIn t before name := by
      rw [hsplit]
      exact (placeholderIn_append rfl).mpr (.inl hin)
    obtain ⟨earlier, stretch, later, -, hbefore⟩ := (h.places before).mp hplace
    have hlonger : first.length ≤ before.length :=
      hbefore ▸ (Text.prefix_join (':' :: name) first earlier).length_le
    obtain ⟨behind, hfirst, -⟩ := hin
    have hlength := congrArg List.length hfirst
    simp only [List.length_append, List.length_cons] at hlength
    omega
  · have htext := h.text
    rw [Text.join_cons_cons, hsplit] at htext
    exact List.append_cancel_left (List.append_cancel_left htext)
  · intro before
    rw [← placeholderIn_append_right (':' :: name), ← placeholderIn_append_right first, ← hsplit,
      h.places]
    constructor
    · rintro ⟨earlier, stretch, later, hlist, hbefore⟩
      cases earlier with
      | nil =>
        have hlength := congrArg List.length hbefore
        simp [Text.join] at hlength
      | cons n earlier =>
        obtain ⟨rfl, rfl⟩ := List.cons.inj hlist
        rw [Text.join_cons_cons] at hbefore
        exact ⟨earlier, stretch, later, rfl,
          List.append_cancel_left (List.append_cancel_left hbefore)⟩
    · rintro ⟨earlier, stretch, later, rfl, rfl⟩
      exact ⟨next :: earlier, stretch, later, rfl, (Text.join_cons_cons _ _ _ _).symm⟩

/-- A replacement puts the value between the stretches, whichever they are. -/
lemma replaceTokens_eq (h : CutAt name t first others) (hname : Text.isWord name = true)
    (value : Text) : replaceTokens (only name value) t = Text.join value (first :: others) := by
  induction others generalizing t first with
  | nil =>
    have hnone : ∀ before, ¬PlaceholderIn t before name := by
      intro before hin
      obtain ⟨earlier, stretch, later, hlist, -⟩ := (h.places before).mp hin
      exact absurd hlist.symm (List.append_ne_nil_of_right_ne_nil _ (List.cons_ne_nil _ _))
    rw [replaceTokens_of_none hname hnone, h.text]
    simp [Text.join]
  | cons next others ih =>
    obtain ⟨after, rfl, hends, hnone, hcut⟩ := h.exists_behind
    rw [replaceTokens_append _ _ rfl, replaceTokens_of_none hname hnone, List.cons_append,
      replaceTokens_token _ (Text.isWordChar_of_isWord hname) hends, only, if_pos rfl,
      Option.getD_some, ih hcut, Text.join_cons_cons]

end CutAt

/-- Every text is cut by a placeholder. -/
lemma exists_cutAt {name : Text} (hname : Text.isWord name = true) (t : Text) :
    ∃ first others, CutAt name t first others := by
  induction t using tokenInduction with
  | nil => exact ⟨[], [], .of_none fun _ => not_placeholderIn_plain List.not_mem_nil⟩
  | char c rest hc ih =>
    obtain ⟨first, others, hcut⟩ := ih
    refine ⟨[c] ++ first, others, hcut.append_left (s := [c]) fun before => ?_⟩
    rw [List.singleton_append, placeholderIn_cons]
    simp only [hc, false_and, and_false, false_or, List.singleton_append]
  | token w rest hw hr ih =>
    obtain ⟨first, others, hcut⟩ := ih
    rw [← List.cons_append]
    by_cases hsame : w = name
    · subst hsame
      exact ⟨[], first :: others, hcut.token hname hr⟩
    · refine ⟨':' :: w ++ first, others, hcut.append_left fun before => ?_⟩
      rw [placeholderIn_token hw hr hname]
      simp only [hsame, and_false, false_or]

/-! ### Asking for the value -/

/-- The search and replace of `substitute` with a value that is computed again at each place that
needs it. -/
def substituteM {m : Type → Type} [Monad m] (key : Text) (value : m Text) : Text → m Text
  | [] => pure []
  | c :: rest =>
    if c = ':' && key.isPrefixOf rest then
      if endsToken (rest.drop key.length) then do
        let v ← value
        let tail ← substituteM key value (rest.drop key.length)
        pure (v ++ tail)
      else do
        let tail ← substituteM key value (rest.drop key.length)
        pure (':' :: key ++ tail)
    else do
      let tail ← substituteM key value rest
      pure (c :: tail)
termination_by t => t.length
decreasing_by all_goals simp only [List.length_drop, List.length_cons]; omega

/-- A value that counts how often it is asked for. -/
def counted {ε : Type} (value : Except ε Text) : ExceptT ε (StateM Nat) Text := do
  modify (· + 1)
  ExceptT.mk (pure value)

section Asking

variable {ε : Type}

/-- Without further effects it is the search itself. -/
lemma substituteM_eq_substitute (key : Text) (value : Except ε Text) (t : Text) :
    substituteM key value t = substitute key value t := by
  induction t using substituteM.induct key with
  | case1 =>
    rw [substituteM, substitute]
    rfl
  | case2 c rest hfound hends ih =>
    rw [substituteM, substitute_cons, if_pos hfound, if_pos hfound, if_pos hends, if_pos hends, ih]
    cases value with
    | error e => rfl
    | ok v => cases substitute key (.ok v) (rest.drop key.length) <;> rfl
  | case3 c rest hfound hends ih =>
    rw [substituteM, substitute_cons, if_pos hfound, if_pos hfound, if_neg hends, if_neg hends, ih]
    cases substitute key value (rest.drop key.length) <;> rfl
  | case4 c rest hfound ih =>
    rw [substituteM, substitute_cons, if_neg hfound, if_neg hfound, ih]
    cases substitute key value rest <;> rfl

/-- What is put in front of a result is not counted. -/
lemma run_map {search : ExceptT ε (StateM Nat) Text} {count after : Nat} {result : Except ε Text}
    (h : search.run.run count = (result, after)) (f : Text → Text) :
    (do let tail ← search; pure (f tail) : ExceptT ε (StateM Nat) Text).run.run count =
      (result.map f, after) := by
  rw [ExceptT.run_bind, StateT.run_bind, h]
  cases result <;> rfl

/-- The count does not change the result, and it stays as it was exactly if a search without a value
succeeds. -/
lemma run_substituteM_counted (key : Text) (value : Except ε Text) (t : Text) (count : Nat) :
    ∃ calls, (substituteM key (counted value) t).run.run count =
        (substitute key value t, count + calls) ∧
      (calls ≠ 0 ↔ substitute key (.error () : Except Unit Text) t = .error ()) := by
  induction t using substituteM.induct key generalizing count with
  | case1 =>
    refine ⟨0, ?_, ?_⟩
    · rw [substituteM, substitute]
      rfl
    · rw [substitute]
      simp
  | case2 c rest hfound hends ih =>
    rw [substituteM, substitute_cons, substitute_cons, if_pos hfound, if_pos hfound, if_pos hfound,
      if_pos hends, if_pos hends, if_pos hends]
    cases value with
    | error e => exact ⟨1, rfl, by simp [Except.bind]⟩
    | ok v =>
      obtain ⟨calls, hrun, -⟩ := ih (count + 1)
      refine ⟨1 + calls, ?_, by simp [Except.bind]⟩
      rw [← Nat.add_assoc]
      exact run_map hrun (v ++ ·)
  | case3 c rest hfound hends ih =>
    rw [substituteM, substitute_cons, substitute_cons, if_pos hfound, if_pos hfound, if_pos hfound,
      if_neg hends, if_neg hends, if_neg hends]
    obtain ⟨calls, hrun, hcalls⟩ := ih count
    exact ⟨calls, run_map hrun (':' :: key ++ ·), hcalls.trans map_eq_error_iff.symm⟩
  | case4 c rest hfound ih =>
    rw [substituteM, substitute_cons, substitute_cons, if_neg hfound, if_neg hfound, if_neg hfound]
    obtain ⟨calls, hrun, hcalls⟩ := ih count
    exact ⟨calls, run_map hrun (c :: ·), hcalls.trans map_eq_error_iff.symm⟩

/-- The search fails exactly if it needs a value that is not there. -/
lemma substitute_eq_error_iff {key : Text} (hkey : Text.isWord key = true) {value : Except ε Text}
    {t : Text} {e : ε} :
    substitute key value t = .error e ↔ value = .error e ∧ key ∈ placeholders t := by
  rw [substitute_eq hkey, mem_placeholders]
  split
  · next hname => rw [map_eq_error_iff, and_iff_left hname]
  · next hname => exact iff_of_false nofun fun h => hname h.2

/-- The search for a name agrees with the list of the placeholders: it asks for the value exactly if
the name is in the list, and fails exactly if it then gets none.  Otherwise it keeps the stretches
between the places of the placeholder and puts the value at these places.  The list itself holds the
name of each placeholder once, in the order in which they first stand in the text. -/
theorem substitute_follows_placeholders {key : Text} (hkey : Text.isWord key = true)
    (value : Except ε Text) (t : Text) :
    substituteM key value t = substitute key value t ∧
      (∃ calls, (substituteM key (counted value) t).run.run 0 = (substitute key value t, calls) ∧
        (calls ≠ 0 ↔ key ∈ placeholders t)) ∧
      (∃ first others, CutAt key t first others) ∧
      (∀ first others, CutAt key t first others → ∀ v, value = .ok v ∨ key ∉ placeholders t →
        substitute key value t = .ok (Text.join v (first :: others))) ∧
      (∀ e, substitute key value t = .error e ↔ value = .error e ∧ key ∈ placeholders t) ∧
      ∀ names, ListsInOrder (PlaceholderIn t) names ↔ names = placeholders t := by
  refine ⟨substituteM_eq_substitute key value t, ?_, exists_cutAt hkey t, ?_,
    fun e => substitute_eq_error_iff hkey, ?_⟩
  · obtain ⟨calls, hrun, hcalls⟩ := run_substituteM_counted key value t 0
    rw [Nat.zero_add] at hrun
    exact ⟨calls, hrun, hcalls.trans ((substitute_eq_error_iff hkey).trans (and_iff_right rfl))⟩
  · intro first others hcut v hv
    rw [← hcut.replaceTokens_eq hkey]
    rcases hv with rfl | hname
    · exact substitute_ok hkey v t
    · rw [mem_placeholders] at hname
      have hnone : ∀ before, ¬PlaceholderIn t before key := fun before hplace =>
        hname (mem_namesOf_iff.mpr ⟨before, hplace⟩)
      rw [replaceTokens_of_none hkey hnone, substitute_eq_self hkey value hname]
  · intro names
    constructor
    · exact fun h => h.unique (listsInOrder_placeholders t)
    · rintro rfl
      exact listsInOrder_placeholders t

/-- A longer name with the key in front, a colon behind a colon, two placeholders side by side, and
letters that are no word characters. -/
theorem substitute_follows_placeholders_id :
    let t : Text := "/:idx/::id:id/:idé?:ñ&:page:id"
    Text.isWord "id" = true ∧ ListsInOrder (PlaceholderIn t) ["idx", "id", "page"] ∧
      (∃ first others, CutAt "id" t first others ∧
        Text.join "7" (first :: others) = ("/:idx/:77/7é?:ñ&:page7" : Text)) ∧
      substitute "id" (.error () : Except Unit Text) t = .error () := by
  intro t
  have hkey : Text.isWord "id" = true := by decide
  have hnames : placeholders t = ["idx", "id", "page"] := by decide +kernel
  obtain ⟨-, -, ⟨first, others, hcut⟩, hok, -, hlist⟩ :=
    substitute_follows_placeholders hkey (.ok "7" : Except Unit Text) t
  have hfilled : substitute "id" (.ok "7" : Except Unit Text) t =
      .ok ("/:idx/:77/7é?:ñ&:page7" : Text) := by decide +kernel
  refine ⟨hkey, (hlist _).mpr hnames.symm, ⟨first, others, hcut, ?_⟩, ?_⟩
  · exact Except.ok.inj ((hok first others hcut "7" (.inl rfl)).symm.trans hfilled)
  · obtain ⟨-, -, -, -, herror, -⟩ :=
      substitute_follows_placeholders hkey (.error () : Except Unit Text) t
    exact (herror ()).mpr ⟨rfl, by rw [hnames]; decide⟩

end Asking

end Endpoints
