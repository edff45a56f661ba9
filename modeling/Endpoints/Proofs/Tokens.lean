import Endpoints.Declaration.Syntax
import Endpoints.Request
import Mathlib.Tactic.Common

/-!
# Texts, token by token

A token is a colon together with the word characters behind it, as many as there are; every
other character stands for itself.  Whatever looks for placeholders reads a text in these steps,
so a fact about such a function needs one equation for a plain character, one for a token, and the
induction `tokenInduction` that puts them together.

A token never reaches over a boundary behind which no word character stands (`endsToken`), and
therefore the names of a text are found part by part (`namesOf_append`).
-/

namespace Endpoints

/-! ### Words at the front of a text -/

/-- A word character is not a colon, so a token holds no other colon than its first. -/
lemma ne_colon_of_isWordChar {c : Char} (hc : isWordChar c = true) : c ≠ ':' := by
  rintro rfl
  exact absurd hc (by decide)

/-- A text of word characters holds no colon. -/
lemma colon_not_mem_of_isWordChar {w : Text} (hw : ∀ c ∈ w, isWordChar c = true) : ':' ∉ w :=
  fun h => ne_colon_of_isWordChar (hw _ h) rfl

/-- The characters of a word are word characters. -/
lemma Text.isWordChar_of_isWord {w : Text} (hw : Text.isWord w = true) :
    ∀ c ∈ w, isWordChar c = true := by
  rw [Text.isWord, Bool.and_eq_true, List.all_eq_true] at hw
  exact hw.2

/-- A word is not empty. -/
lemma Text.ne_nil_of_isWord {w : Text} (hw : Text.isWord w = true) : w ≠ [] := by
  rintro rfl
  exact absurd hw (by decide)

/-- The leading word of a text is made of word characters. -/
lemma Text.isWordChar_of_mem_leadingWord (t : Text) :
    ∀ c ∈ Text.leadingWord t, isWordChar c = true := by
  intro c hc
  have hall : (t.takeWhile isWordChar).all isWordChar = true := List.all_takeWhile
  exact List.all_eq_true.mp hall c hc

/-- What follows the leading word does not continue it. -/
lemma endsToken_afterWord (t : Text) : endsToken (Text.afterWord t) = true := by
  induction t with
  | nil => rfl
  | cons c t ih =>
    rw [Text.afterWord, List.dropWhile_cons]
    split
    · exact ih
    · next hc => simp [endsToken, hc]

/-- A text of word characters with nothing behind that continues it is the leading word. -/
lemma Text.leadingWord_append {w rest : Text} (hw : ∀ c ∈ w, isWordChar c = true)
    (hr : endsToken rest = true) : Text.leadingWord (w ++ rest) = w := by
  rw [Text.leadingWord, List.takeWhile_append_of_pos hw]
  cases rest with
  | nil => simp
  | cons c rest =>
    have hc : isWordChar c = false := by simpa [endsToken] using hr
    rw [List.takeWhile_cons_of_neg (by simp [hc]), List.append_nil]

/-- What follows a text of word characters is what follows the leading word. -/
lemma Text.afterWord_append {w rest : Text} (hw : ∀ c ∈ w, isWordChar c = true)
    (hr : endsToken rest = true) : Text.afterWord (w ++ rest) = rest := by
  have h := Text.leadingWord_append_afterWord (w ++ rest)
  rw [Text.leadingWord_append hw hr] at h
  exact List.append_cancel_left h

/-- A non-empty text of word characters continues what stands in front of it. -/
lemma endsToken_word_append {w : Text} (hw : ∀ c ∈ w, isWordChar c = true) (hne : w ≠ [])
    (rest : Text) : endsToken (w ++ rest) = false := by
  cases w with
  | nil => exact absurd rfl hne
  | cons c w => simp [endsToken, hw c List.mem_cons_self]

/-- A word at the front of a text begins the leading word. -/
lemma Text.eq_append_of_prefix {key w rest : Text} (hkey : ∀ c ∈ key, isWordChar c = true)
    (hw : ∀ c ∈ w, isWordChar c = true) (hr : endsToken rest = true)
    (h : key.isPrefixOf (w ++ rest) = true) :
    ∃ more, (∀ c ∈ more, isWordChar c = true) ∧ w = key ++ more := by
  obtain ⟨tail, htail⟩ := List.isPrefixOf_iff_prefix.mp h
  refine ⟨Text.leadingWord tail, Text.isWordChar_of_mem_leadingWord tail, ?_⟩
  rw [← Text.leadingWord_append hw hr, ← htail, Text.leadingWord,
    List.takeWhile_append_of_pos hkey, Text.leadingWord]

/-- A text of which neither part continues a token continues none. -/
lemma endsToken_append {s t : Text} (hs : endsToken s = true) (ht : endsToken t = true) :
    endsToken (s ++ t) = true := by
  cases s with
  | nil => exact ht
  | cons c s => exact hs

/-- What continues no word leaves the leading word as it is. -/
lemma Text.leadingWord_append_of_endsToken (s : Text) {t : Text} (ht : endsToken t = true) :
    Text.leadingWord (s ++ t) = Text.leadingWord s := by
  have hends := endsToken_append (endsToken_afterWord s) ht
  conv_lhs => rw [← Text.leadingWord_append_afterWord s, List.append_assoc]
  exact Text.leadingWord_append (Text.isWordChar_of_mem_leadingWord s) hends

/-- Induction on a text token by token. -/
@[elab_as_elim]
theorem tokenInduction {motive : Text → Prop} (nil : motive [])
    (char : ∀ c rest, c ≠ ':' → motive rest → motive (c :: rest))
    (token : ∀ w rest, (∀ c ∈ w, isWordChar c = true) → endsToken rest = true → motive rest →
      motive (':' :: (w ++ rest)))
    (t : Text) : motive t := by
  -- the rest of a token is shorter than the text, but not its tail
  induction hn : t.length using Nat.strongRecOn generalizing t with
  | ind n ih =>
    cases t with
    | nil => exact nil
    | cons c rest =>
      by_cases hc : c = ':'
      · subst hc
        have hlen := Text.afterWord_length_le rest
        rw [List.length_cons] at hn
        rw [← Text.leadingWord_append_afterWord rest]
        exact token _ _ (Text.isWordChar_of_mem_leadingWord rest) (endsToken_afterWord rest)
          (ih _ (by omega) _ rfl)
      · exact char c rest hc (ih rest.length (by rw [← hn]; simp) rest rfl)

/-! ### The names of a text -/

open UrlTemplate

/-- A plain character names nothing. -/
lemma namesOf_char {c : Char} (hc : c ≠ ':') (rest : Text) :
    namesOf (c :: rest) = namesOf rest := by
  simp [namesOf, hc]

/-- Plain characters in front of a text name nothing. -/
lemma namesOf_plain_append {s : Text} (hs : ':' ∉ s) (rest : Text) :
    namesOf (s ++ rest) = namesOf rest := by
  induction s with
  | nil => rfl
  | cons c s ih =>
    rw [List.mem_cons, not_or] at hs
    rw [List.cons_append, namesOf_char (Ne.symm hs.1), ih hs.2]

/-- Word characters in front of a text name nothing. -/
lemma namesOf_word_append {w : Text} (hw : ∀ c ∈ w, isWordChar c = true) (rest : Text) :
    namesOf (w ++ rest) = namesOf rest :=
  namesOf_plain_append (colon_not_mem_of_isWordChar hw) rest

/-- A token names its word, if it has one. -/
lemma namesOf_token {w rest : Text} (hw : ∀ c ∈ w, isWordChar c = true)
    (hr : endsToken rest = true) :
    namesOf (':' :: (w ++ rest)) = if w = [] then namesOf rest else w :: namesOf rest := by
  rw [namesOf, Text.leadingWord_append hw hr, namesOf_word_append hw]
  by_cases hnil : w = []
  · simp [hnil]
  · simp [hnil]

/-- A token on its own names its word, if it has one. -/
lemma namesOf_single_token {w : Text} (hw : ∀ c ∈ w, isWordChar c = true) :
    namesOf (':' :: w) = if w = [] then [] else [w] := by
  simpa [namesOf] using namesOf_token hw (rfl : endsToken [] = true)

/-- The names of a text are found part by part, unless a word reaches over the boundary. -/
lemma namesOf_append (s : Text) {t : Text} (ht : endsToken t = true) :
    namesOf (s ++ t) = namesOf s ++ namesOf t := by
  induction s using tokenInduction with
  | nil => rfl
  | char c rest hc ih => rw [List.cons_append, namesOf_char hc, namesOf_char hc, ih]
  | token w rest hw hr ih =>
    rw [List.cons_append, List.append_assoc, namesOf_token hw (endsToken_append hr ht),
      namesOf_token hw hr, ih]
    split <;> rfl

/-- The placeholders of a text are its names, each once. -/
lemma mem_placeholders {t name : Text} : name ∈ placeholders t ↔ name ∈ namesOf t :=
  List.mem_eraseDups

end Endpoints
