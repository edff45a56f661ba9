import Endpoints.Proofs.CommandLines
import Mathlib.Data.List.Induction

/-!
# Options may stand anywhere

Without a flag for help, the arguments of a command line are read as if they came sorted: the words
by themselves, the values of each option by themselves, and the flags as a set
(`Options.requested`).  Where they stand among each other does not show in what is read, and nor
does what a value looks like.

Each argument that is read adds to one of these lists only, at its end, and what is requested
changes as the argument sets it (`Argument.set_requestedBy`); so it is followed from the last
argument backwards.  Only a word depends on what was read before it, and there only on the words
(`Options.addWord_requested`).
-/

namespace Endpoints

/-! ### Sorting the arguments -/

namespace Argument

/-- The word that an argument is. -/
def word? : Argument → Option Text
  | .word w _ => some w
  | .flag _ _ | .setting _ _ => none

/-- The value that an argument gives to an option. -/
def value? (setting : Setting) : Argument → Option Text
  | .setting s value => if s = setting then some value else none
  | .flag _ _ | .word _ _ => none

/-- The flag that an argument is, in its short or its long form. -/
def flag? : Argument → Option Flag
  | .flag f _ => some f
  | .setting _ _ | .word _ _ => none

/-- The words among arguments, in their order. -/
def wordsOf (arguments : List Argument) : List Text := arguments.filterMap word?

/-- The values that arguments give to an option, in their order. -/
def valuesOf (setting : Setting) (arguments : List Argument) : List Text :=
  arguments.filterMap (value? setting)

/-- The flags among arguments. -/
def flagsOf (arguments : List Argument) : List Flag := arguments.filterMap flag?

end Argument

/-! ### What is requested -/

/-- What words, values and flags request: the first word that names a command is the command and all
other words are positional; the extensions are collected, and of the values of any other option the
last one counts. -/
def Options.requested (words : List Text) (values : Setting → List Text) (flags : List Flag) :
    Options where
  command := (words.findSome? Command.ofWord?).getD .help
  root := (values .root).getLast?
  extensions := values .extension
  out := (values .out).getLast?
  cache := (values .cache).getLast?
  positional := words.eraseP fun word => (Command.ofWord? word).isSome
  verbose := decide (.verbose ∈ flags)
  showVersion := decide (.version ∈ flags)

/-- What arguments request. -/
def Argument.requestedBy (arguments : List Argument) : Options :=
  .requested (wordsOf arguments) (fun setting => valuesOf setting arguments) (flagsOf arguments)

namespace Options

variable {o : Options} {word : Text}

/-- While no command is set, a word that names one sets it. -/
lemma addWord_of_command {command : Command} (hcommand : o.command = .help)
    (hword : Command.ofWord? word = some command) : o.addWord word = { o with command } := by
  rw [addWord, hcommand, hword]

/-- Any other word is positional. -/
lemma addWord_of_positional (h : o.command = .help → Command.ofWord? word = none) :
    o.addWord word = { o with positional := o.positional ++ [word] } := by
  unfold addWord
  split
  · next command hcommand hword =>
    rw [h hcommand] at hword
    cases hword
  · rfl

/-- A word that is read is one more word. -/
lemma addWord_requested (words : List Text) (values : Setting → List Text) (flags : List Flag)
    (word : Text) :
    (requested words values flags).addWord word = requested (words ++ [word]) values flags := by
  cases hfound : words.findSome? Command.ofWord? with
  | none =>
    have hcommand : (requested words values flags).command = .help := by
      rw [requested, hfound, Option.getD_none]
    have hnone : ∀ w ∈ words, ¬(Command.ofWord? w).isSome = true := by
      intro w hw
      rw [List.findSome?_eq_none_iff.mp hfound w hw]
      exact Bool.false_ne_true
    cases hword : Command.ofWord? word with
    | none =>
      rw [addWord_of_positional fun _ => hword]
      simp [requested, List.findSome?_append, List.eraseP_append_right _ hnone,
        List.eraseP_of_forall_not hnone, hword]
    | some command =>
      rw [addWord_of_command hcommand hword]
      simp [requested, List.findSome?_append, List.eraseP_append_right _ hnone,
        List.eraseP_of_forall_not hnone, hfound, hword]
  | some command =>
    obtain ⟨w, hw, hnames⟩ := List.exists_of_findSome?_eq_some hfound
    have hcommand : (requested words values flags).command ≠ .help := by
      rw [requested, hfound, Option.getD_some]
      rintro rfl
      exact Command.ofWord?_ne_help w hnames
    have hsome : (Command.ofWord? w).isSome = true := by rw [hnames, Option.isSome_some]
    rw [addWord_of_positional fun h => absurd h hcommand]
    simp [requested, List.findSome?_append, hfound,
      List.eraseP_append_left (p := fun w => (Command.ofWord? w).isSome) hsome [word] hw]

end Options

/-- A flag that is read is one more flag, but for the flag for help. -/
lemma Flag.set_requested {flag : Flag} (hhelp : flag ≠ .help) (words : List Text)
    (values : Setting → List Text) (flags : List Flag) :
    flag.set (.requested words values flags) = .requested words values (flags ++ [flag]) := by
  cases flag with
  | help => exact absurd rfl hhelp
  | verbose => simp [set, Options.requested]
  | version => simp [set, Options.requested]

/-- A value that is read is one more value of its option. -/
lemma Setting.set_requested (setting : Setting) (words : List Text)
    (values : Setting → List Text) (flags : List Flag) (value : Text) :
    setting.set (.requested words values flags) value =
      .requested words (fun s => values s ++ (if setting = s then some value else none).toList)
        flags := by
  cases setting <;> simp [set, Options.requested]

namespace Argument

/-- What arguments request once there is one more: it adds to its own list. -/
lemma requestedBy_append_singleton (arguments : List Argument) (argument : Argument) :
    requestedBy (arguments ++ [argument]) =
      .requested (wordsOf arguments ++ argument.word?.toList)
        (fun setting => valuesOf setting arguments ++ (argument.value? setting).toList)
        (flagsOf arguments ++ argument.flag?.toList) := by
  have hsingle : ∀ {α : Type} (kind? : Argument → Option α),
      [argument].filterMap kind? = (kind? argument).toList := by
    intro α kind?
    rw [List.filterMap_cons]
    cases kind? argument <;> rfl
  simp only [requestedBy, wordsOf, valuesOf, flagsOf, List.filterMap_append, hsingle]

/-- An argument that is read is one more argument. -/
lemma set_requestedBy {arguments : List Argument} {argument : Argument}
    (hhelp : argument.flag? ≠ some .help) :
    argument.set (requestedBy arguments) = requestedBy (arguments ++ [argument]) := by
  rw [requestedBy_append_singleton]
  cases argument with
  | flag flag long =>
    have hflag : flag ≠ .help := fun h => hhelp (congrArg some h)
    rw [set, requestedBy, flag.set_requested hflag]
    simp [word?, value?, flag?]
  | setting setting value =>
    rw [set, requestedBy, setting.set_requested]
    simp [word?, value?, flag?]
  | word word plain =>
    rw [set, requestedBy, Options.addWord_requested]
    simp [word?, value?, flag?]

/-- Arguments set what they request. -/
lemma setAll_eq_requestedBy {arguments : List Argument} (hhelp : .help ∉ flagsOf arguments) :
    setAll {} arguments = requestedBy arguments := by
  induction arguments using List.reverseRecOn with
  | nil => rfl
  | append_singleton arguments argument ih =>
    rw [flagsOf, List.filterMap_append, List.mem_append, not_or] at hhelp
    have hlast : argument.flag? ≠ some .help := by
      intro hflag
      exact hhelp.2 (List.mem_filterMap.mpr ⟨argument, List.mem_singleton_self _, hflag⟩)
    rw [setAll, List.foldl_append]
    change argument.set (setAll {} arguments) = _
    rw [ih hhelp.1, set_requestedBy hlast]

end Argument

/-- A command line without a flag for help is read whatever its arguments are, and what is read are
the words by themselves, the values of each option by themselves, and the set of the flags.  Two
command lines with the same words, the same values of each option and the same flags are therefore
read alike, wherever their options stand and whatever the values look like. -/
theorem parse_any_order {arguments : List Argument} (hhelp : .help ∉ Argument.flagsOf arguments) :
    Options.parse (Argument.textsOf arguments) =
        .ok (.requested (Argument.wordsOf arguments)
          (fun setting => Argument.valuesOf setting arguments) (Argument.flagsOf arguments)) ∧
      ∀ others : List Argument,
        Argument.wordsOf others = Argument.wordsOf arguments →
        (∀ setting, Argument.valuesOf setting others = Argument.valuesOf setting arguments) →
        (∀ flag, flag ∈ Argument.flagsOf others ↔ flag ∈ Argument.flagsOf arguments) →
        Options.parse (Argument.textsOf others) = Options.parse (Argument.textsOf arguments) := by
  have hparse : ∀ arguments : List Argument, .help ∉ Argument.flagsOf arguments →
      Options.parse (Argument.textsOf arguments) = .ok (Argument.requestedBy arguments) :=
    fun arguments hhelp => Options.parseFrom_eq_ok_iff.mpr
      ⟨arguments, rfl, Argument.setAll_eq_requestedBy hhelp⟩
  refine ⟨hparse arguments hhelp, fun others hwords hvalues hflags => ?_⟩
  rw [hparse arguments hhelp, hparse others (mt (hflags .help).mp hhelp), Argument.requestedBy,
    Argument.requestedBy, hwords, funext hvalues]
  simp only [Options.requested, hflags]

/-- Values that look like a command, a flag and an option, a second command word, an empty word, and
a flag that is repeated in its other form. -/
theorem parse_any_order_values :
    let args : List Text := ["--out", "check", "-v", "resolve", "--ext", "-h", "compile", "--out",
      "--ext", "", "--ext", "ts"]
    let others : List Text := ["--verbose", "--ext", "-h", "resolve", "--out", "check", "compile",
      "--out", "--ext", "-v", "--ext", "ts", ""]
    Options.parse args = .ok {
        command := .resolve, extensions := ["-h", "ts"], out := some "--ext"
        positional := ["compile", ""], verbose := true } ∧
      Options.parse others = Options.parse args := by
  intro args others
  have hhelp : .help ∉ Argument.flagsOf [.setting .out "check", .flag .verbose false,
      .word "resolve" (by decide), .setting .extension "-h", .word "compile" (by decide),
      .setting .out "--ext", .word "" (by decide), .setting .extension "ts"] := by decide
  obtain ⟨hparse, hsame⟩ := parse_any_order hhelp
  refine ⟨hparse.trans (by decide +kernel), ?_⟩
  refine hsame [.flag .verbose true, .setting .extension "-h", .word "resolve" (by decide),
    .setting .out "check", .word "compile" (by decide), .setting .out "--ext",
    .flag .verbose false, .setting .extension "ts", .word "" (by decide)] rfl ?_ ?_
  · intro setting
    cases setting <;> rfl
  · intro flag
    cases flag <;> decide

end Endpoints
