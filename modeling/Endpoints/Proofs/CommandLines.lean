import Endpoints.Command.Options
import Mathlib.Tactic.Common

/-!
# What a command line consists of

A command line is a sequence of arguments: flags, options together with their values, and words
(`Argument`).  It is read text by text, so a text behind an option is its value whatever it looks
like.  The texts that are read without a fault are exactly those in which such a sequence is
written, and what is read is what its arguments set one after another
(`Options.parseFrom_eq_ok_iff`).

A sequence can be told from its texts (`Argument.textsOf_injective`).  One may therefore speak of
the arguments of a command line, and say of a text whether it is a flag or a value.
-/

namespace Endpoints

/-! ### Arguments -/

/-- The flags. -/
inductive Flag where
  | help
  | verbose
  | version
deriving DecidableEq

/-- A flag as it is written, in its short or its long form. -/
def Flag.text : Flag → Bool → Text
  | .help, false => "-h"
  | .help, true => "--help"
  | .verbose, false => "-v"
  | .verbose, true => "--verbose"
  | .version, false => "-V"
  | .version, true => "--version"

/-- What a flag sets. -/
def Flag.set : Flag → Options → Options
  | .help, o => { o with command := .help }
  | .verbose, o => { o with verbose := true }
  | .version, o => { o with showVersion := true }

/-- The options that take a value. -/
inductive Setting where
  | root
  | extension
  | out
  | cache
deriving DecidableEq

/-- An option as it is written. -/
def Setting.text : Setting → Text
  | .root => "--root"
  | .extension => "--ext"
  | .out => "--out"
  | .cache => "--cache"

/-- What an option sets to its value; extensions are collected. -/
def Setting.set : Setting → Options → Text → Options
  | .root, o, value => { o with root := some value }
  | .extension, o, value => { o with extensions := o.extensions ++ [value] }
  | .out, o, value => { o with out := some value }
  | .cache, o, value => { o with cache := some value }

/-- The arguments of a command line: flags, options with their values, and words, which do not start
with a dash. -/
inductive Argument where
  | flag (flag : Flag) (long : Bool)
  | setting (setting : Setting) (value : Text)
  | word (word : Text) (plain : word.head? ≠ some '-')
deriving DecidableEq

namespace Argument

/-- The texts in which an argument is written. -/
def texts : Argument → List Text
  | .flag f long => [f.text long]
  | .setting s value => [s.text, value]
  | .word w _ => [w]

/-- The texts in which arguments are written. -/
def textsOf (arguments : List Argument) : List Text := arguments.flatMap texts

/-- What an argument sets. -/
def set (o : Options) : Argument → Options
  | .flag f _ => f.set o
  | .setting s value => s.set o value
  | .word w _ => o.addWord w

/-- What arguments set one after another. -/
def setAll (o : Options) (arguments : List Argument) : Options := arguments.foldl set o

end Argument

/-- No word names the command for help. -/
lemma Command.ofWord?_ne_help (word : Text) : Command.ofWord? word ≠ some .help := by
  unfold Command.ofWord?
  split
  · nofun
  · split
    · nofun
    · split <;> nofun

/-! ### Reading -/

namespace Options

variable {word : Text}

/-- A word is none of the texts that start with a dash, as flags and options do. -/
lemma ne_cons_of_word (h : word.head? ≠ some '-') (rest : Text) : word ≠ '-' :: rest := by
  rintro rfl
  exact h rfl

/-- A word is no flag. -/
lemma flag?_word (h : word.head? ≠ some '-') : flag? word = none := by
  simp [flag?, ne_cons_of_word h]

/-- A word is no option. -/
lemma setter?_word (h : word.head? ≠ some '-') : setter? word = none := by
  simp [setter?, ne_cons_of_word h]

/-- A word is added to what was read so far. -/
lemma parseFrom_word (h : word.head? ≠ some '-') (o : Options) (rest : List Text) :
    parseFrom o (word :: rest) = parseFrom (o.addWord word) rest := by
  rw [parseFrom, flag?_word h]
  dsimp only
  rw [setter?_word h]
  dsimp only
  rw [if_neg h]

/-- The texts that are read as flags are the flags. -/
lemma flag?_eq_some_iff {text : Text} {set : Options → Options} :
    flag? text = some set ↔
      ∃ (flag : Flag) (long : Bool), text = flag.text long ∧ set = flag.set := by
  constructor
  · intro h
    simp only [flag?, Bool.or_eq_true, decide_eq_true_eq] at h
    split at h
    · next htext =>
      cases h
      exact htext.elim (fun h => ⟨.help, false, h, rfl⟩) fun h => ⟨.help, true, h, rfl⟩
    · split at h
      · next htext =>
        cases h
        exact htext.elim (fun h => ⟨.version, false, h, rfl⟩) fun h => ⟨.version, true, h, rfl⟩
      · split at h
        · next htext =>
          cases h
          exact htext.elim (fun h => ⟨.verbose, false, h, rfl⟩) fun h => ⟨.verbose, true, h, rfl⟩
        · cases h
  · rintro ⟨flag, long, rfl, rfl⟩
    cases flag <;> cases long <;> rfl

/-- The texts that are read as options are the options. -/
lemma setter?_eq_some_iff {text : Text} {set : Options → Text → Options} :
    setter? text = some set ↔ ∃ setting : Setting, text = setting.text ∧ set = setting.set := by
  constructor
  · intro h
    unfold setter? at h
    split at h
    · next htext => exact ⟨.root, htext, (Option.some.inj h).symm⟩
    · split at h
      · next htext => exact ⟨.extension, htext, (Option.some.inj h).symm⟩
      · split at h
        · next htext => exact ⟨.out, htext, (Option.some.inj h).symm⟩
        · split at h
          · next htext => exact ⟨.cache, htext, (Option.some.inj h).symm⟩
          · cases h
  · rintro ⟨setting, rfl, rfl⟩
    cases setting <;> rfl

/-- No option is read as a flag. -/
lemma flag?_setting (setting : Setting) : flag? setting.text = none := by
  cases setting <;> rfl

/-- An argument is read whole, and sets what it sets. -/
lemma parseFrom_texts (o : Options) (argument : Argument) (rest : List Text) :
    parseFrom o (argument.texts ++ rest) = parseFrom (argument.set o) rest := by
  cases argument with
  | flag flag long =>
    have hflag : flag? (flag.text long) = some flag.set := flag?_eq_some_iff.mpr ⟨_, _, rfl, rfl⟩
    rw [Argument.texts, List.singleton_append, parseFrom, hflag]
    rfl
  | setting setting value =>
    have hsetter : setter? setting.text = some setting.set :=
      setter?_eq_some_iff.mpr ⟨_, rfl, rfl⟩
    rw [Argument.texts, List.cons_append, List.singleton_append, parseFrom, flag?_setting]
    dsimp only
    rw [hsetter]
    rfl
  | word word plain => exact parseFrom_word plain o rest

/-- The texts that are read without a fault are those of arguments, and what is read is what these
set. -/
lemma parseFrom_eq_ok_iff {o options : Options} {args : List Text} :
    parseFrom o args = .ok options ↔
      ∃ arguments, Argument.textsOf arguments = args ∧ Argument.setAll o arguments = options := by
  constructor
  · intro h
    fun_induction parseFrom o args with
    | case1 o =>
      cases h
      exact ⟨[], rfl, rfl⟩
    | case2 o arg rest set hflag ih =>
      obtain ⟨arguments, rfl, hset⟩ := ih h
      obtain ⟨flag, long, rfl, rfl⟩ := flag?_eq_some_iff.mp hflag
      exact ⟨.flag flag long :: arguments, rfl, hset⟩
    | case3 => cases h
    | case4 o arg hflag set hsetter value rest ih =>
      obtain ⟨arguments, rfl, hset⟩ := ih h
      obtain ⟨setting, rfl, rfl⟩ := setter?_eq_some_iff.mp hsetter
      exact ⟨.setting setting value :: arguments, rfl, hset⟩
    | case5 => cases h
    | case6 o arg rest hflag hsetter hplain ih =>
      obtain ⟨arguments, rfl, hset⟩ := ih h
      exact ⟨.word arg hplain :: arguments, rfl, hset⟩
  · rintro ⟨arguments, rfl, rfl⟩
    induction arguments generalizing o with
    | nil => rfl
    | cons argument rest ih =>
      rw [Argument.textsOf, List.flatMap_cons, parseFrom_texts]
      exact ih

end Options

/-! ### Telling arguments from their texts -/

/-- A flag is written with a dash in front. -/
lemma Flag.head?_text (flag : Flag) (long : Bool) : (flag.text long).head? = some '-' := by
  cases flag <;> cases long <;> rfl

/-- An option is written with a dash in front. -/
lemma Setting.head?_text (setting : Setting) : setting.text.head? = some '-' := by
  cases setting <;> rfl

/-- A flag and its form can be told from its text. -/
lemma Flag.text_inj {flag other : Flag} {long otherLong : Bool}
    (h : flag.text long = other.text otherLong) : flag = other ∧ long = otherLong := by
  revert h
  cases flag <;> cases long <;> cases other <;> cases otherLong <;> decide

/-- An option can be told from its text. -/
lemma Setting.text_inj {setting other : Setting} (h : setting.text = other.text) :
    setting = other := by
  revert h
  cases setting <;> cases other <;> decide

/-- No option is written like a flag. -/
lemma Flag.text_ne_setting (flag : Flag) (long : Bool) (setting : Setting) :
    flag.text long ≠ setting.text := by
  cases flag <;> cases long <;> cases setting <;> decide

namespace Argument

/-- The first argument and the texts behind it can be told from all the texts. -/
lemma texts_append_inj {argument other : Argument} {rest behind : List Text}
    (h : argument.texts ++ rest = other.texts ++ behind) : argument = other ∧ rest = behind := by
  cases argument with
  | flag f long =>
    cases other with
    | flag g otherLong =>
      obtain ⟨htext, hrest⟩ := List.cons.inj h
      obtain ⟨rfl, rfl⟩ := Flag.text_inj htext
      exact ⟨rfl, hrest⟩
    | setting s value => exact absurd (List.cons.inj h).1 (f.text_ne_setting long s)
    | word w plain => exact absurd ((List.cons.inj h).1 ▸ f.head?_text long) plain
  | setting s value =>
    cases other with
    | flag g long => exact absurd (List.cons.inj h).1.symm (g.text_ne_setting long s)
    | setting t otherValue =>
      obtain ⟨htext, hvalue⟩ := List.cons.inj h
      obtain ⟨rfl, hrest⟩ := List.cons.inj hvalue
      obtain rfl := Setting.text_inj htext
      exact ⟨rfl, hrest⟩
    | word w plain => exact absurd ((List.cons.inj h).1 ▸ s.head?_text) plain
  | word w plain =>
    cases other with
    | flag g long => exact absurd ((List.cons.inj h).1 ▸ g.head?_text long) plain
    | setting s value => exact absurd ((List.cons.inj h).1 ▸ s.head?_text) plain
    | word v otherPlain =>
      obtain ⟨rfl, hrest⟩ := List.cons.inj h
      exact ⟨rfl, hrest⟩

/-- An argument is written in at least one text. -/
lemma texts_ne_nil (argument : Argument) : argument.texts ≠ [] := by
  cases argument <;> exact List.cons_ne_nil _ _

/-- The arguments of a command line can be told from its texts. -/
theorem textsOf_injective : Function.Injective textsOf := by
  intro arguments
  induction arguments with
  | nil =>
    intro others h
    cases others with
    | nil => rfl
    | cons other behind =>
      rw [textsOf, textsOf, List.flatMap_cons] at h
      exact absurd (List.append_eq_nil_iff.mp h.symm).1 other.texts_ne_nil
  | cons argument rest ih =>
    intro others h
    cases others with
    | nil =>
      rw [textsOf, textsOf, List.flatMap_cons] at h
      exact absurd (List.append_eq_nil_iff.mp h).1 argument.texts_ne_nil
    | cons other behind =>
      rw [textsOf, textsOf, List.flatMap_cons, List.flatMap_cons] at h
      obtain ⟨rfl, hrest⟩ := texts_append_inj h
      rw [ih hrest]

end Argument

end Endpoints
