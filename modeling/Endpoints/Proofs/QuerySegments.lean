import Endpoints.Proofs.Acceptance
import Endpoints.Proofs.Filling

/-!
# The query that is checked and the query that is filled

When a URL is filled its query is everything behind the first question mark.  When it is checked
only the part in front of the next question mark is looked at, so behind a second question mark an
accepted URL may have segments without a placeholder.  `isUrl_iff` says what is checked in the terms
of what is filled, and `segmented_joinQuery_iff` what a question mark does to the segments of a
query: the segment in which it stands begins as before, and those behind it are as they are on their
own.

Hence a URL that passes the check has the segments that it should have exactly if this holds also
behind its second question mark.  In the other direction nothing is missed: a text whose whole query
has such segments passes.
-/

namespace Endpoints

open UrlTemplate

/-- Whether every segment of a query begins with a colon. -/
def Segmented (query : Text) : Prop := ∀ segment ∈ query.splitOn '&', segment.head? = some ':'

/-- Whether every segment of a text but the first begins with a colon. -/
def SegmentedBehind (t : Text) : Prop :=
  ∀ segment ∈ (t.splitOn '&').tail, segment.head? = some ':'

instance : DecidablePred Segmented := fun query =>
  inferInstanceAs (Decidable (∀ segment ∈ query.splitOn '&', segment.head? = some ':'))

instance : DecidablePred SegmentedBehind := fun t =>
  inferInstanceAs (Decidable (∀ segment ∈ (t.splitOn '&').tail, segment.head? = some ':'))

/-! ### Segments -/

/-- The first segment of a text begins as the text does. -/
lemma segmented_iff {t : Text} : Segmented t ↔ t.head? = some ':' ∧ SegmentedBehind t := by
  unfold Segmented SegmentedBehind
  cases t with
  | nil => simp
  | cons c rest =>
    obtain ⟨first, later, hsplit⟩ := List.exists_cons_of_ne_nil (List.splitOn_ne_nil '&' rest)
    rw [List.splitOn_cons_eq_if_modifyHead, hsplit]
    by_cases hc : c = '&'
    · subst hc
      simp
    · simp [hc]

/-- Behind an ampersand a segment begins. -/
lemma segmentedBehind_ampersand (rest : Text) :
    SegmentedBehind ('&' :: rest) ↔ Segmented rest := by
  unfold Segmented SegmentedBehind
  rw [List.splitOn_cons_eq_if_modifyHead, if_pos (beq_self_eq_true '&'), List.tail_cons]

/-- Any other character belongs to the first segment. -/
lemma segmentedBehind_char {c : Char} (hc : c ≠ '&') (rest : Text) :
    SegmentedBehind (c :: rest) ↔ SegmentedBehind rest := by
  unfold SegmentedBehind
  obtain ⟨first, later, hsplit⟩ := List.exists_cons_of_ne_nil (List.splitOn_ne_nil '&' rest)
  rw [List.splitOn_cons_eq_if_modifyHead, if_neg (by simpa using hc), hsplit]
  rfl

/-- A question mark ends no segment, and begins none. -/
lemma segmentedBehind_append_question (s t : Text) :
    SegmentedBehind (s ++ '?' :: t) ↔ SegmentedBehind s ∧ SegmentedBehind t := by
  induction s with
  | nil =>
    rw [List.nil_append, segmentedBehind_char (by decide)]
    exact (and_iff_right (nofun : SegmentedBehind [])).symm
  | cons c s ih =>
    rw [List.cons_append]
    by_cases hc : c = '&'
    · subst hc
      have hhead : (s ++ '?' :: t).head? = some ':' ↔ s.head? = some ':' := by
        cases s <;> simp
      rw [segmentedBehind_ampersand, segmentedBehind_ampersand, segmented_iff, segmented_iff, ih,
        hhead, and_assoc]
    · rw [segmentedBehind_char hc, segmentedBehind_char hc, ih]

/-- The segments of a query are those in front of its first question mark and, but for the one in
which that stands, those behind it. -/
theorem segmented_joinQuery_iff (checked : Text) (later : Option Text) :
    Segmented (joinQuery checked later) ↔
      Segmented checked ∧ ∀ t, later = some t → SegmentedBehind t := by
  cases later with
  | none => exact (and_iff_left nofun).symm
  | some t =>
    have hhead : (checked ++ '?' :: t).head? = some ':' ↔ checked.head? = some ':' := by
      cases checked <;> simp
    rw [joinQuery, segmented_iff, segmented_iff, segmentedBehind_append_question, hhead, and_assoc]
    simp

/-! ### The check -/

/-- Between question marks stand the path and the pieces of the query. -/
lemma splitOn_question (t : Text) :
    t.splitOn '?' =
      (Text.cutAt '?' t).1 :: ((Text.cutAt '?' t).2.map (List.splitOn '?')).getD [] := by
  have hjoin := joinQuery_cutAt t
  have hpath := not_mem_cutAt t
  cases hquery : (Text.cutAt '?' t).2 with
  | none =>
    rw [hquery] at hjoin
    conv_lhs => rw [← hjoin]
    exact List.splitOn_eq_singleton hpath
  | some query =>
    rw [hquery] at hjoin
    conv_lhs => rw [← hjoin]
    exact List.splitOn_append_cons_self_of_not_mem hpath query

/-- What is checked is the slash at the front, and the query up to its own first question mark. -/
theorem isUrl_iff {t : Text} :
    isUrl t = true ↔ t.head? = some '/' ∧
      ∀ query, (Text.cutAt '?' t).2 = some query → Segmented (Text.cutAt '?' query).1 := by
  unfold isUrl
  rw [Bool.and_eq_true, decide_eq_true_eq, splitOn_question t]
  refine and_congr_right fun _ => ?_
  cases (Text.cutAt '?' t).2 with
  | none => simp
  | some query =>
    rw [Option.map_some, Option.getD_some, splitOn_question query]
    simp [Segmented]

/-! ### Accepted declarations -/

/-- The query of an accepted URL, as it is filled, has a colon in front of every segment exactly if
it has one behind the second question mark of the URL as well; and every text that begins with a
slash and has such a query passes the check. -/
theorem segmented_query_iff {declaration : Text} {fields : List Text} {method : Method}
    {facts : Facts} (hfacts : deriveFacts declaration fields = .ok (.rest method, facts)) :
    (∃ url, (Form.split declaration).arg? 0 = some url ∧
      ∀ query, (Text.cutAt '?' url).2 = some query →
        (Segmented query ↔
          ∀ later, (Text.cutAt '?' query).2 = some later → SegmentedBehind later)) ∧
      ∀ t : Text, t.head? = some '/' →
        (∀ query, (Text.cutAt '?' t).2 = some query → Segmented query) → isUrl t = true := by
  constructor
  · cases deriveFacts_eq_ok_iff.mp hfacts with
    | rest hname hbody hmapping harg hurl hbound =>
      refine ⟨_, harg, fun query hquery => ?_⟩
      have hchecked := (isUrl_iff.mp hurl).2 query hquery
      have hjoined := segmented_joinQuery_iff (Text.cutAt '?' query).1 (Text.cutAt '?' query).2
      rw [joinQuery_cutAt] at hjoined
      exact hjoined.trans (and_iff_right hchecked)
    | access hlocal hname hargs => rcases hlocal with h | h <;> cases h
  · intro t hslash hsegmented
    refine isUrl_iff.mpr ⟨hslash, fun query hquery => ?_⟩
    have hjoined := segmented_joinQuery_iff (Text.cutAt '?' query).1 (Text.cutAt '?' query).2
    rw [joinQuery_cutAt] at hjoined
    exact (hjoined.mp (hsegmented query hquery)).1

/-- A second question mark does no harm as long as a colon stands behind the next ampersand. -/
theorem segmented_query_iff_colon :
    let declaration : Text := "(Rest/get /a?:b?c&:d selfMappings)"
    let fields : List Text := ["b", "d"]
    let facts : Facts := ⟨fields, some (Mapping.identity fields), none⟩
    deriveFacts declaration fields = .ok (.rest .get, facts) ∧
      Segmented (":b?c&:d" : Text) ∧ isUrl ("/a?:b?c&:d" : Text) = true := by
  intro declaration fields facts
  have hfacts : deriveFacts declaration fields = .ok (.rest .get, facts) := by decide +kernel
  have hurl : (Form.split declaration).arg? 0 = some ("/a?:b?c&:d" : Text) := by decide +kernel
  have hcut : (Text.cutAt '?' ("/a?:b?c&:d" : Text)).2 = some (":b?c&:d" : Text) := by decide
  obtain ⟨⟨url, harg, hquery⟩, hcheck⟩ := segmented_query_iff hfacts
  cases harg.symm.trans hurl
  have hsegmented : Segmented (":b?c&:d" : Text) := by
    refine (hquery _ hcut).mpr fun later hlater => ?_
    have hlater' : (Text.cutAt '?' (":b?c&:d" : Text)).2 = some ("c&:d" : Text) := by decide
    cases hlater.symm.trans hlater'
    decide
  refine ⟨hfacts, hsegmented, hcheck _ (by decide) fun query hq => ?_⟩
  cases hq.symm.trans hcut
  exact hsegmented

/-- Behind a second question mark a segment without a placeholder is accepted: the query of the URL
`/a?:b?c&d` has the segment `d`, which is sent as it is. -/
theorem not_segmented_second_question :
    let declaration : Text := "(Rest/get /a?:b?c&d selfMappings)"
    let fields : List Text := ["b"]
    let facts : Facts := ⟨fields, some (Mapping.identity fields), none⟩
    deriveFacts declaration fields = .ok (.rest .get, facts) ∧
      (Form.split declaration).arg? 0 = some ("/a?:b?c&d" : Text) ∧
      (Text.cutAt '?' ("/a?:b?c&d" : Text)).2 = some (":b?c&d" : Text) ∧
      ¬ Segmented (":b?c&d" : Text) ∧
      formatUrl "/a?:b?c&d" facts.urlMapping (SortedMap.ofList [("b", .int 1)]) =
        .ok ("/a?b=1?c&d" : Text) := by
  intro declaration fields facts
  refine ⟨by decide +kernel, by decide +kernel, by decide, by decide, by decide +kernel⟩

end Endpoints
