import Endpoints.Text
import Mathlib.Data.List.Forall2
import Mathlib.Data.List.Perm.Basic

/-!
# Searching a text place by place

A search that goes on behind each thing it has found is a fast way to look at every place of a text.
`findings` is the slow way: it looks at all of them.  A place is given by the text in front of it.
What is found is exactly what is there (`mem_findings`), in the order of the places
(`pairwise_findings`); and a stretch of the text at whose places nothing is found can be skipped
(`findings_cons_of_some`), which is what a search does that goes on behind a finding.

Two more facts about lists of findings are kept here: keeping each name once keeps it where it was
first found (`pairwise_distinct`), so that the names are listed in the order of their places
(`ListsInOrder`), and working on findings one by one ends at the first failure (`mapM_eq_error_iff`).
-/

namespace Endpoints

section Findings

variable {α : Type} {find? : Text → Text → Option α}

/-- What is found at the places of a text, one after another.  The search is told what stands in
front of a place and the text from there on. -/
def findings (find? : Text → Text → Option α) (before : Text) : Text → List α
  | [] => []
  | c :: rest => (find? before (c :: rest)).toList ++ findings find? (before ++ [c]) rest

/-- Something is a finding if it is found at some place. -/
lemma mem_findings {before t : Text} {x : α} :
    x ∈ findings find? before t ↔
      ∃ seen here, here ≠ [] ∧ t = seen ++ here ∧ find? (before ++ seen) here = some x := by
  induction t generalizing before with
  | nil =>
    constructor
    · intro h
      exact absurd h List.not_mem_nil
    · rintro ⟨seen, here, hne, hsplit, -⟩
      exact absurd (List.append_eq_nil_iff.mp hsplit.symm).2 hne
  | cons c rest ih =>
    rw [findings, List.mem_append, Option.mem_toList, ih]
    constructor
    · rintro (hfirst | ⟨seen, here, hne, rfl, hlater⟩)
      · exact ⟨[], c :: rest, List.cons_ne_nil _ _, rfl, by rwa [List.append_nil]⟩
      · refine ⟨c :: seen, here, hne, rfl, ?_⟩
        rwa [List.append_assoc, List.singleton_append] at hlater
    · rintro ⟨seen, here, hne, hsplit, hfound⟩
      cases seen with
      | nil =>
        rw [List.nil_append] at hsplit
        rw [List.append_nil, ← hsplit] at hfound
        exact .inl hfound
      | cons d seen =>
        obtain ⟨rfl, rfl⟩ := List.cons.inj hsplit
        refine .inr ⟨seen, here, hne, rfl, ?_⟩
        rwa [List.append_assoc, List.singleton_append]

/-- Findings are related in their order if those at an earlier and a later place are. -/
lemma pairwise_findings {R : α → α → Prop} {before t : Text}
    (h : ∀ seen more here x y, more ≠ [] → t = seen ++ more ++ here →
      find? (before ++ seen) (more ++ here) = some x →
      find? (before ++ seen ++ more) here = some y → R x y) :
    (findings find? before t).Pairwise R := by
  induction t generalizing before with
  | nil => exact List.Pairwise.nil
  | cons c rest ih =>
    rw [findings, List.pairwise_append]
    refine ⟨?_, ?_, ?_⟩
    · cases find? before (c :: rest) with
      | none => exact List.Pairwise.nil
      | some x => exact List.pairwise_singleton R x
    · apply ih
      intro seen more here x y hmore hsplit hx hy
      apply h (c :: seen) more here x y hmore
      · rw [hsplit, List.cons_append, List.cons_append]
      · rwa [List.append_assoc, List.singleton_append] at hx
      · rwa [List.append_assoc before, List.singleton_append] at hy
    · intro x hx y hy
      rw [Option.mem_toList] at hx
      obtain ⟨seen, here, -, hsplit, hy⟩ := mem_findings.mp hy
      apply h [] (c :: seen) here x y (List.cons_ne_nil _ _)
      · rw [hsplit, List.nil_append, List.cons_append]
      · rw [List.append_nil, List.cons_append, ← hsplit]
        exact hx
      · rwa [List.append_nil, ← List.singleton_append, ← List.append_assoc]

/-- A stretch at whose places nothing is found can be skipped. -/
lemma findings_append_of_none {before skipped rest : Text}
    (h : ∀ seen here, here ≠ [] → skipped = seen ++ here →
      find? (before ++ seen) (here ++ rest) = none) :
    findings find? before (skipped ++ rest) = findings find? (before ++ skipped) rest := by
  induction skipped generalizing before with
  | nil => rw [List.nil_append, List.append_nil]
  | cons c skipped ih =>
    have hfirst : find? before (c :: (skipped ++ rest)) = none := by
      have hhere := h [] (c :: skipped) (List.cons_ne_nil _ _) rfl
      rwa [List.append_nil, List.cons_append] at hhere
    have hlater : findings find? (before ++ [c]) (skipped ++ rest) =
        findings find? (before ++ [c] ++ skipped) rest := by
      apply ih
      intro seen here hne hsplit
      have hhere := h (c :: seen) here hne (by rw [hsplit, List.cons_append])
      rwa [List.append_assoc, List.singleton_append]
    rw [List.cons_append, findings, hfirst, Option.toList_none, List.nil_append, hlater,
      List.append_assoc, List.singleton_append]

/-- Behind a finding the search can go on where nothing inside it is found. -/
lemma findings_cons_of_some {before inside rest : Text} {c : Char} {x : α}
    (hfound : find? before (c :: (inside ++ rest)) = some x)
    (hinside : ∀ seen here, here ≠ [] → inside = seen ++ here →
      find? (before ++ c :: seen) (here ++ rest) = none) :
    findings find? before (c :: (inside ++ rest)) =
      x :: findings find? (before ++ c :: inside) rest := by
  have hskip : findings find? (before ++ [c]) (inside ++ rest) =
      findings find? (before ++ [c] ++ inside) rest := by
    apply findings_append_of_none
    intro seen here hne hsplit
    rw [List.append_assoc, List.singleton_append]
    exact hinside seen here hne hsplit
  rw [findings, hfound, hskip, List.append_assoc, List.singleton_append]
  rfl

/-- Where a search finds something exactly at the place where it stands, the findings are all that
stands in the text. -/
lemma mem_findings_iff {place : α → Text} {In : α → Text → Prop}
    (hfind : ∀ before here x, find? before here = some x ↔ place x = before ∧ In x (before ++ here))
    (hplace : ∀ x t, In x t → ∃ here, here ≠ [] ∧ t = place x ++ here) {t : Text} {x : α} :
    x ∈ findings find? [] t ↔ In x t := by
  rw [mem_findings]
  constructor
  · rintro ⟨seen, here, -, rfl, hfound⟩
    exact ((hfind _ _ _).mp hfound).2
  · intro hx
    obtain ⟨here, hne, rfl⟩ := hplace x t hx
    refine ⟨place x, here, hne, rfl, ?_⟩
    rw [List.nil_append, hfind]
    exact ⟨rfl, hx⟩

/-- Findings that know their place come in the order of their places. -/
lemma pairwise_place {place : α → Text}
    (hfind : ∀ before here x, find? before here = some x → place x = before) (t : Text) :
    (findings find? [] t).Pairwise fun x y => (place x).length < (place y).length := by
  apply pairwise_findings
  intro seen more here x y hmore _ hx hy
  have hpos := List.length_pos_of_ne_nil hmore
  rw [hfind _ _ _ hx, hfind _ _ _ hy]
  simp only [List.length_append]
  omega

end Findings

/-! ### Each name once -/

/-- Names that are kept once stay in the order in which they were first found: an earlier one was
found before every finding of a later one. -/
lemma pairwise_distinct {α : Type} {R : α → α → Prop} {found : List (α × Text)}
    (h : found.Pairwise fun x y => R x.1 y.1) :
    (distinct (found.map Prod.snd)).Pairwise fun a b =>
      ∃ x, (x, a) ∈ found ∧ ∀ y, (y, b) ∈ found → R x y := by
  -- the names behind the first one are those of the findings with another name
  induction hlength : found.length using Nat.strongRecOn generalizing found with
  | ind n ih =>
    cases found with
    | nil => exact List.Pairwise.nil
    | cons first later =>
      obtain ⟨x, a⟩ := first
      obtain ⟨hfirst, hlater⟩ := List.pairwise_cons.mp h
      let others : List (α × Text) := later.filter ((fun b => !b == a) ∘ Prod.snd)
      have hdistinct : distinct (((x, a) :: later).map Prod.snd) =
          a :: distinct (others.map Prod.snd) := by
        unfold distinct
        rw [List.map_cons, List.eraseDups_cons, List.filter_map]
      have hothers : (distinct (others.map Prod.snd)).Pairwise fun a b =>
          ∃ x, (x, a) ∈ others ∧ ∀ y, (y, b) ∈ others → R x y := by
        apply ih others.length _ (hlater.filter _) rfl
        have hle : others.length ≤ later.length := List.length_filter_le _ _
        rw [List.length_cons] at hlength
        omega
      have hne : ∀ b ∈ distinct (others.map Prod.snd), b ≠ a := by
        intro b hb
        obtain ⟨y, hy, rfl⟩ := List.mem_map.mp (List.mem_eraseDups.mp hb)
        simpa using (List.mem_filter.mp hy).2
      rw [hdistinct, List.pairwise_cons]
      constructor
      · intro b hb
        refine ⟨x, List.mem_cons_self, ?_⟩
        intro y hy
        rcases List.mem_cons.mp hy with heq | hy
        · exact absurd (Prod.mk.inj heq).2 (hne b hb)
        · exact hfirst (y, b) hy
      · refine (List.Pairwise.and_mem.mp hothers).imp ?_
        rintro b b' ⟨-, hb', y, hy, hall⟩
        refine ⟨y, List.mem_cons_of_mem _ (List.mem_filter.mp hy).1, ?_⟩
        intro z hz
        rcases List.mem_cons.mp hz with heq | hz
        · exact absurd (Prod.mk.inj heq).2 (hne b' hb')
        · apply hall
          rw [List.mem_filter]
          exact ⟨hz, by simpa using hne b' hb'⟩

/-- The names that stand in a text, each once, in the order in which they first appear: an earlier
one stands somewhere in front of all places of a later one.  A place is given by the text in front
of it. -/
structure ListsInOrder (StandsAt : Text → Text → Prop) (names : List Text) : Prop where
  mem_iff : ∀ name, name ∈ names ↔ ∃ before, StandsAt before name
  inOrder : names.Pairwise fun a b =>
    ∃ before, StandsAt before a ∧ ∀ other, StandsAt other b → before.length < other.length

/-- There is only one such list. -/
lemma ListsInOrder.unique {StandsAt : Text → Text → Prop} {names others : List Text}
    (h : ListsInOrder StandsAt names) (h' : ListsInOrder StandsAt others) : names = others := by
  -- a name does not stand in front of all its own places
  have hirrefl : ∀ a b, (∃ before, StandsAt before a ∧
      ∀ other, StandsAt other b → before.length < other.length) → a ≠ b := by
    rintro a b ⟨before, hname, hall⟩ rfl
    exact Nat.lt_irrefl _ (hall before hname)
  have hperm : names.Perm others := by
    rw [List.perm_ext_iff_of_nodup (h.inOrder.imp (hirrefl _ _)) (h'.inOrder.imp (hirrefl _ _))]
    intro name
    rw [h.mem_iff, h'.mem_iff]
  refine List.Perm.eq_of_pairwise ?_ h.inOrder h'.inOrder hperm
  rintro a b - - ⟨before, ha, hb⟩ ⟨before', hb', ha'⟩
  have hlt := hb before' hb'
  have hgt := ha' before ha
  omega

/-- Names found at their places, one place after another, are listed by keeping each name once. -/
lemma listsInOrder_distinct {StandsAt : Text → Text → Prop} {found : List (Text × Text)}
    (hmem : ∀ before name, (before, name) ∈ found ↔ StandsAt before name)
    (hordered : found.Pairwise fun x y => x.1.length < y.1.length) :
    ListsInOrder StandsAt (distinct (found.map Prod.snd)) := by
  constructor
  · intro name
    unfold distinct
    rw [List.mem_eraseDups, List.mem_map]
    constructor
    · rintro ⟨⟨before, name⟩, hfound, rfl⟩
      exact ⟨before, (hmem before name).mp hfound⟩
    · rintro ⟨before, hname⟩
      exact ⟨(before, name), (hmem before name).mpr hname, rfl⟩
  · refine (pairwise_distinct (R := fun x y : Text => x.length < y.length) hordered).imp ?_
    rintro a b ⟨before, ha, hall⟩
    exact ⟨before, (hmem before a).mp ha, fun other hother =>
      hall other ((hmem other b).mpr hother)⟩

/-! ### The first failure -/

section Collecting

variable {α β ε : Type} {f : α → Except ε β}

/-- Results are collected if there is one for each item. -/
lemma mapM_eq_ok_iff {xs : List α} {ys : List β} :
    xs.mapM f = .ok ys ↔ List.Forall₂ (fun x y => f x = .ok y) xs ys := by
  induction xs generalizing ys with
  | nil =>
    rw [List.mapM_nil, List.forall₂_nil_left_iff]
    constructor
    · intro h
      cases h
      rfl
    · rintro rfl
      rfl
  | cons x xs ih =>
    rw [List.mapM_cons, List.forall₂_cons_left_iff]
    constructor
    · intro h
      cases hx : f x with
      | error e =>
        rw [hx] at h
        cases h
      | ok y =>
        cases hxs : xs.mapM f with
        | error e =>
          rw [hx, hxs] at h
          cases h
        | ok ys' =>
          rw [hx, hxs] at h
          cases h
          exact ⟨y, ys', rfl, ih.mp hxs, rfl⟩
    · rintro ⟨y, ys', hx, hxs, rfl⟩
      rw [hx, ih.mpr hxs]
      rfl

/-- Collecting ends with the failure of the first item that has one. -/
lemma mapM_eq_error_iff {xs : List α} {e : ε} :
    xs.mapM f = .error e ↔
      ∃ before x after, xs = before ++ x :: after ∧ (∀ y ∈ before, ∃ z, f y = .ok z) ∧
        f x = .error e := by
  constructor
  · intro h
    induction xs with
    | nil => cases h
    | cons x xs ih =>
      rw [List.mapM_cons] at h
      cases hx : f x with
      | error e' =>
        rw [hx] at h
        cases h
        exact ⟨[], x, xs, rfl, nofun, hx⟩
      | ok y =>
        have hxs : xs.mapM f = .error e := by
          cases hxs : xs.mapM f with
          | error e' =>
            rw [hx, hxs] at h
            exact h
          | ok ys =>
            rw [hx, hxs] at h
            cases h
        obtain ⟨before, x', after, rfl, hbefore, he⟩ := ih hxs
        refine ⟨x :: before, x', after, rfl, ?_, he⟩
        exact List.forall_mem_cons.mpr ⟨⟨y, hx⟩, hbefore⟩
  · rintro ⟨before, x, after, rfl, hbefore, he⟩
    induction before with
    | nil =>
      rw [List.nil_append, List.mapM_cons, he]
      rfl
    | cons y before ih =>
      obtain ⟨⟨z, hz⟩, hbefore⟩ := List.forall_mem_cons.mp hbefore
      rw [List.cons_append, List.mapM_cons, hz, ih hbefore]
      rfl

end Collecting

end Endpoints
