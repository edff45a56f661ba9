import Endpoints.Proofs.Search
import Endpoints.Proofs.Tokens
import Endpoints.Source

/-!
# The request fields of a block

The request fields of a block are defined here by the places at which they stand, without a search:
a field is a maximal run of word characters (`WordRun.In`) behind which come blanks, a question mark
if it is optional, blanks and a colon (`FollowsName`).  A list of fields is the list of a block if
it has exactly these names, an earlier one of them standing in front of all occurrences of a later
one (`ListsFields`).  There is only one such list (`ListsFields.unique`), and `fieldNames` finds it
(`listsFields_fieldNames`).
-/

namespace Endpoints

/-! ### Blanks -/

/-- Whether a text consists of blanks. -/
def Text.AllBlank (t : Text) : Prop := ∀ c ∈ t, isBlank c = true

lemma Text.AllBlank.append {s t : Text} (hs : Text.AllBlank s) (ht : Text.AllBlank t) :
    Text.AllBlank (s ++ t) := by
  intro c hc
  rcases List.mem_append.mp hc with hc | hc
  · exact hs c hc
  · exact ht c hc

lemma Text.AllBlank.reverse {t : Text} (ht : Text.AllBlank t) : Text.AllBlank t.reverse := by
  intro c hc
  exact ht c (List.mem_reverse.mp hc)

/-- Blanks in front of anything else are trimmed. -/
lemma Text.trimStart_append {blanks : Text} (hblanks : Text.AllBlank blanks) {c : Char}
    (hc : isBlank c = false) (rest : Text) :
    Text.trimStart (blanks ++ c :: rest) = c :: rest := by
  unfold Text.trimStart
  rw [List.dropWhile_append_of_pos hblanks, List.dropWhile_cons_of_neg (by simp [hc])]

/-- What is trimmed from the front of a text are blanks. -/
lemma Text.exists_blanks_append (t : Text) :
    ∃ blanks, Text.AllBlank blanks ∧ t = blanks ++ Text.trimStart t := by
  refine ⟨t.takeWhile isBlank, ?_, ?_⟩
  · intro c hc
    have hall : (t.takeWhile isBlank).all isBlank = true := List.all_takeWhile
    exact List.all_eq_true.mp hall c hc
  · exact List.takeWhile_append_dropWhile.symm

/-! ### What follows a name -/

/-- What stands behind the name of a field: blanks, a question mark if the field is optional, blanks
and a colon. -/
def FollowsName (after : Text) : Prop :=
  ∃ blanks mark more rest, Text.AllBlank blanks ∧ (mark = [] ∨ mark = ['?']) ∧
    Text.AllBlank more ∧ after = blanks ++ mark ++ more ++ ':' :: rest

/-- A word names a field exactly if the right things stand behind it. -/
lemma namesField_iff {after : Text} : namesField after = true ↔ FollowsName after := by
  unfold namesField
  rw [decide_eq_true_eq]
  constructor
  · intro h
    obtain ⟨rest, hrest⟩ := List.head?_eq_some_iff.mp h
    obtain ⟨blanks, hblanks, hafter⟩ := Text.exists_blanks_append after
    obtain ⟨more, hmore, hdropped⟩ :=
      Text.exists_blanks_append (Text.dropFirstIf '?' (Text.trimStart after))
    rw [hrest] at hdropped
    by_cases hmark : (Text.trimStart after).head? = some '?'
    · obtain ⟨tail, htail⟩ := List.head?_eq_some_iff.mp hmark
      have htail' : tail = more ++ ':' :: rest := by
        rw [← hdropped, Text.dropFirstIf, if_pos hmark, htail]
        rfl
      refine ⟨blanks, ['?'], more, rest, hblanks, .inr rfl, hmore, ?_⟩
      rw [hafter, htail, htail']
      simp only [List.append_assoc, List.cons_append, List.nil_append]
    · have hsame : Text.trimStart after = more ++ ':' :: rest := by
        rw [← hdropped, Text.dropFirstIf, if_neg hmark]
      refine ⟨blanks, [], more, rest, hblanks, .inl rfl, hmore, ?_⟩
      rw [hafter, hsame]
      simp only [List.append_assoc, List.nil_append]
  · rintro ⟨blanks, mark, more, rest, hblanks, rfl | rfl, hmore, rfl⟩
    · have hboth : Text.trimStart (blanks ++ [] ++ more ++ ':' :: rest) = ':' :: rest := by
        rw [List.append_nil]
        exact Text.trimStart_append (hblanks.append hmore) rfl rest
      rw [hboth]
      rfl
    · have hfirst : Text.trimStart (blanks ++ ['?'] ++ more ++ ':' :: rest) =
          '?' :: (more ++ ':' :: rest) := by
        simp only [List.append_assoc, List.cons_append, List.nil_append]
        exact Text.trimStart_append hblanks rfl _
      have hdropped :
          Text.dropFirstIf '?' ('?' :: (more ++ ':' :: rest)) = more ++ ':' :: rest := rfl
      rw [hfirst, hdropped, Text.trimStart_append hmore rfl]
      rfl

/-! ### Maximal runs of word characters -/

/-- A run of word characters, with what stands in front of it and behind it. -/
structure WordRun where
  before : Text
  word : Text
  after : Text

namespace WordRun

/-- Whether a run is a maximal one of a text: it is a word, and neither neighbour continues it. -/
structure In (run : WordRun) (t : Text) : Prop where
  split : t = run.before ++ run.word ++ run.after
  isWord : Text.isWord run.word = true
  front : ∀ c, run.before.getLast? = some c → isWordChar c = false
  back : ∀ c, run.after.head? = some c → isWordChar c = false

/-- Whether no word that reaches up to a place goes on behind it. -/
def boundary (before : Text) : Bool := !before.getLast?.any isWordChar

/-- The run that starts at a place. -/
def at? (before here : Text) : Option WordRun :=
  if boundary before && !(Text.leadingWord here).isEmpty then
    some ⟨before, Text.leadingWord here, Text.afterWord here⟩
  else none

lemma boundary_iff {before : Text} :
    boundary before = true ↔ ∀ c, before.getLast? = some c → isWordChar c = false := by
  unfold boundary
  cases before.getLast? with
  | none => simp
  | some c => simp

lemma endsToken_iff {after : Text} :
    endsToken after = true ↔ ∀ c, after.head? = some c → isWordChar c = false := by
  cases after with
  | nil => simp [endsToken]
  | cons c rest => simp [endsToken]

/-- A run that starts at a place is a maximal one that is found there, and the other way round. -/
lemma at?_eq_some_iff {before here : Text} {run : WordRun} :
    at? before here = some run ↔ run.before = before ∧ run.In (before ++ here) := by
  unfold at?
  constructor
  · intro h
    split at h
    · next hstart =>
      cases h
      rw [Bool.and_eq_true, Bool.not_eq_true', List.isEmpty_eq_false_iff] at hstart
      obtain ⟨hboundary, hne⟩ := hstart
      have hword : Text.isWord (Text.leadingWord here) = true := by
        rw [Text.isWord, Bool.and_eq_true, Bool.not_eq_true', List.isEmpty_eq_false_iff,
          List.all_eq_true]
        exact ⟨hne, Text.isWordChar_of_mem_leadingWord here⟩
      refine ⟨rfl, ?_, hword, boundary_iff.mp hboundary,
        endsToken_iff.mp (endsToken_afterWord here)⟩
      rw [List.append_assoc, Text.leadingWord_append_afterWord]
    · cases h
  · rintro ⟨rfl, hrun⟩
    have hhere : here = run.word ++ run.after := by
      have hsplit := hrun.split
      rw [List.append_assoc] at hsplit
      exact List.append_cancel_left hsplit
    have hchars := Text.isWordChar_of_isWord hrun.isWord
    have hback := endsToken_iff.mpr hrun.back
    have hstart : (boundary run.before && !(Text.leadingWord here).isEmpty) = true := by
      rw [hhere, Text.leadingWord_append hchars hback, Bool.and_eq_true, Bool.not_eq_true',
        List.isEmpty_eq_false_iff]
      exact ⟨boundary_iff.mpr hrun.front, Text.ne_nil_of_isWord hrun.isWord⟩
    rw [if_pos hstart, hhere, Text.leadingWord_append hchars hback,
      Text.afterWord_append hchars hback]

/-- The maximal runs of a text are those that are found at its places. -/
lemma mem_findings_at? {run : WordRun} {t : Text} : run ∈ findings at? [] t ↔ run.In t := by
  refine mem_findings_iff (fun before here run => at?_eq_some_iff) ?_
  intro run t hrun
  refine ⟨run.word ++ run.after, ?_, ?_⟩
  · intro hnil
    exact Text.ne_nil_of_isWord hrun.isWord (List.append_eq_nil_iff.mp hnil).1
  · rw [← List.append_assoc]
    exact hrun.split

/-- Runs are found in the order in which they stand. -/
lemma pairwise_findings_at? (t : Text) :
    (findings at? [] t).Pairwise fun a b => a.before.length < b.before.length := by
  apply pairwise_place
  intro before here run hfound
  exact (at?_eq_some_iff.mp hfound).1

/-- No run starts inside another one. -/
lemma at?_inside {before seen here : Text} {c : Char} (hc : isWordChar c = true)
    (hseen : ∀ d ∈ seen, isWordChar d = true) : at? (before ++ c :: seen) here = none := by
  have hlast : ∃ d, (before ++ c :: seen).getLast? = some d ∧ isWordChar d = true := by
    obtain ⟨d, hd⟩ : ∃ d, (c :: seen).getLast? = some d :=
      Option.isSome_iff_exists.mp (by rw [List.getLast?_isSome]; exact List.cons_ne_nil c seen)
    refine ⟨d, ?_, ?_⟩
    · rw [List.getLast?_append, hd]
      rfl
    · rcases List.mem_cons.mp (List.mem_of_getLast? hd) with rfl | hmem
      · exact hc
      · exact hseen d hmem
  obtain ⟨d, hd, hword⟩ := hlast
  have hboundary : boundary (before ++ c :: seen) = false := by
    rw [boundary, hd, Option.any_some, hword]
    rfl
  rw [at?, hboundary]
  rfl

/-- The search for runs that goes on behind each run finds the runs at all places. -/
lemma map_findings_at? {before t : Text} (hplace : boundary before = true ∨ endsToken t = true) :
    (findings at? before t).map (fun run => (run.word, run.after)) = Text.wordRuns t := by
  induction t using Text.wordRuns.induct generalizing before with
  | case1 => rw [Text.wordRuns]; rfl
  | case2 c rest hc ih =>
    have hsplit : c :: rest = c :: (Text.leadingWord rest ++ Text.afterWord rest) := by
      rw [Text.leadingWord_append_afterWord]
    have hword : Text.leadingWord (c :: rest) = c :: Text.leadingWord rest :=
      List.takeWhile_cons_of_pos hc
    have hafter : Text.afterWord (c :: rest) = Text.afterWord rest :=
      List.dropWhile_cons_of_pos hc
    have hboundary : boundary before = true := by
      apply hplace.resolve_right
      simp [endsToken, hc]
    have hfound : at? before (c :: (Text.leadingWord rest ++ Text.afterWord rest)) =
        some ⟨before, c :: Text.leadingWord rest, Text.afterWord rest⟩ := by
      rw [← hsplit, at?, hboundary, hword, hafter]
      rfl
    have hskip := findings_cons_of_some hfound fun seen here _ hseen =>
      at?_inside hc fun d hd => Text.isWordChar_of_mem_leadingWord rest d
        (hseen ▸ List.mem_append_left here hd)
    rw [Text.wordRuns, if_pos hc, hsplit, hskip, List.map_cons,
      ih (.inr (endsToken_afterWord rest))]
  | case3 c rest hc ih =>
    have hnone : at? before (c :: rest) = none := by
      have hword : Text.leadingWord (c :: rest) = [] := List.takeWhile_cons_of_neg hc
      rw [at?, hword, Bool.and_comm]
      rfl
    have hboundary : boundary (before ++ [c]) = true := by
      rw [boundary, List.getLast?_concat, Option.any_some, Bool.not_eq_true']
      exact Bool.not_eq_true _ ▸ hc
    rw [Text.wordRuns, if_neg hc, findings, hnone, Option.toList_none, List.nil_append,
      ih (.inl hboundary)]

end WordRun

/-! ### The fields of a block -/

/-- A field stands in a block, behind `before`: a maximal run of word characters with the right
things behind it. -/
def FieldIn (block before name : Text) : Prop :=
  ∃ after, (⟨before, name, after⟩ : WordRun).In block ∧ FollowsName after

/-- The fields of a block, each once, in the order in which they first appear: an earlier one stands
somewhere in front of all occurrences of a later one. -/
structure ListsFields (block : Text) (fields : List Text) : Prop where
  mem_iff : ∀ name, name ∈ fields ↔ ∃ before, FieldIn block before name
  inOrder : fields.Pairwise fun a b =>
    ∃ before, FieldIn block before a ∧ ∀ other, FieldIn block other b → before.length < other.length

/-- The fields of a block are listed by their places. -/
lemma listsFields_iff {block : Text} {fields : List Text} :
    ListsFields block fields ↔ ListsInOrder (FieldIn block) fields :=
  ⟨fun h => ⟨h.mem_iff, h.inOrder⟩, fun h => ⟨h.mem_iff, h.inOrder⟩⟩

/-- A block has only one list of fields. -/
lemma ListsFields.unique {block : Text} {fields fields' : List Text}
    (h : ListsFields block fields) (h' : ListsFields block fields') : fields = fields' :=
  (listsFields_iff.mp h).unique (listsFields_iff.mp h')

/-- The fields of a block are found. -/
theorem listsFields_fieldNames (block : Text) : ListsFields block (fieldNames block) := by
  let found : List (Text × Text) :=
    ((findings WordRun.at? [] block).filter fun run => namesField run.after).map
      fun run => (run.before, run.word)
  have hmem : ∀ before name, (before, name) ∈ found ↔ FieldIn block before name := by
    intro before name
    rw [List.mem_map]
    constructor
    · rintro ⟨run, hrun, heq⟩
      obtain ⟨rfl, rfl⟩ := Prod.mk.inj heq
      obtain ⟨hrun, hfollows⟩ := List.mem_filter.mp hrun
      exact ⟨run.after, WordRun.mem_findings_at?.mp hrun, namesField_iff.mp hfollows⟩
    · rintro ⟨after, hrun, hfollows⟩
      refine ⟨⟨before, name, after⟩, ?_, rfl⟩
      exact List.mem_filter.mpr ⟨WordRun.mem_findings_at?.mpr hrun, namesField_iff.mpr hfollows⟩
  have hruns : (findings WordRun.at? [] block).map (fun run => (run.word, run.after)) =
      Text.wordRuns block := WordRun.map_findings_at? (.inl rfl)
  have hnames : fieldNames block = distinct (found.map Prod.snd) := by
    unfold fieldNames
    rw [← hruns, List.filter_map, List.map_map, List.map_map]
    rfl
  have hordered : found.Pairwise fun x y => x.1.length < y.1.length := by
    rw [List.pairwise_map]
    exact (WordRun.pairwise_findings_at? block).filter _
  rw [listsFields_iff, hnames]
  exact listsInOrder_distinct hmem hordered

end Endpoints
