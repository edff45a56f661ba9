import Endpoints.Proofs.CheckPrediction
import Endpoints.Proofs.CommandLines

/-!
# When the flag for help is obeyed

The flag for help takes back the command in front of it, and it leaves the command line as if no
command had been given.  A word behind it that names a command is therefore taken as the command.
So a command line shows the help text exactly if one of its flags for help has no such word behind
it (`HelpStands`); by then nothing has been read or written, and otherwise a command is run.

What is read is followed argument by argument (`command_setAll_iff`).  That a command never shows
what looks like the help text is seen from the first character of its output
(`head?_output_ne_of_command`).
-/

namespace Endpoints

/-! ### The command of a command line -/

/-- The command that an argument names. -/
def Argument.command? : Argument → Option Command
  | .word w _ => Command.ofWord? w
  | .flag _ _ | .setting _ _ => none

/-- No argument names a command. -/
def Commandless (arguments : List Argument) : Prop :=
  ∀ argument ∈ arguments, argument.command? = none

instance : DecidablePred Commandless := fun arguments =>
  inferInstanceAs (Decidable (∀ argument ∈ arguments, argument.command? = none))

lemma commandless_cons {argument : Argument} {rest : List Argument} :
    Commandless (argument :: rest) ↔ argument.command? = none ∧ Commandless rest :=
  List.forall_mem_cons

/-- A flag for help stands if no argument behind it names a command. -/
def HelpStands (arguments : List Argument) : Prop :=
  ∃ before long after, arguments = before ++ .flag .help long :: after ∧ Commandless after

/-- A flag for help stands in front of the other arguments or among them. -/
lemma helpStands_cons {argument : Argument} {rest : List Argument} :
    HelpStands (argument :: rest) ↔
      (∃ long, argument = .flag .help long) ∧ Commandless rest ∨ HelpStands rest := by
  constructor
  · rintro ⟨before, long, after, hsplit, hafter⟩
    rcases List.cons_eq_append_iff.mp hsplit with ⟨rfl, hcons⟩ | ⟨before, rfl, hrest⟩
    · obtain ⟨rfl, rfl⟩ := List.cons.inj hcons
      exact .inl ⟨⟨long, rfl⟩, hafter⟩
    · exact .inr ⟨before, long, after, hrest, hafter⟩
  · rintro (⟨⟨long, rfl⟩, hrest⟩ | ⟨before, long, after, rfl, hafter⟩)
    · exact ⟨[], long, rest, rfl, hrest⟩
    · exact ⟨argument :: before, long, after, rfl, hafter⟩

/-- Behind a word no command is set if none was before and the word names none. -/
lemma Options.command_addWord_iff (o : Options) (word : Text) :
    (o.addWord word).command = .help ↔ o.command = .help ∧ Command.ofWord? word = none := by
  unfold Options.addWord
  split
  · next command hhelp hword =>
    rw [hword]
    refine iff_of_false ?_ nofun
    rintro rfl
    exact Command.ofWord?_ne_help word hword
  · next hnot =>
    refine (and_iff_left_of_imp fun hhelp => ?_).symm
    exact Option.eq_none_iff_forall_ne_some.mpr fun command => hnot command hhelp

/-- Behind an argument no command is set if it is a flag for help, or if none was before and the
argument names none. -/
lemma command_set_iff (o : Options) (argument : Argument) :
    (argument.set o).command = .help ↔
      (∃ long, argument = .flag .help long) ∨ o.command = .help ∧ argument.command? = none := by
  cases argument with
  | flag flag long => cases flag <;> simp [Argument.set, Flag.set, Argument.command?]
  | setting setting value => cases setting <;> simp [Argument.set, Setting.set, Argument.command?]
  | word word plain =>
    rw [Argument.set, Options.command_addWord_iff]
    simp [Argument.command?]

/-- Behind arguments no command is set exactly if a flag for help stands, or if none was set before
and none of them names one. -/
lemma command_setAll_iff (arguments : List Argument) (o : Options) :
    (Argument.setAll o arguments).command = .help ↔
      HelpStands arguments ∨ o.command = .help ∧ Commandless arguments := by
  induction arguments generalizing o with
  | nil => simp [Argument.setAll, HelpStands, Commandless]
  | cons argument rest ih =>
    have hstep := ih (argument.set o)
    rw [command_set_iff] at hstep
    rw [helpStands_cons, commandless_cons]
    refine hstep.trans ?_
    tauto

/-- The version is asked for if it was before, or if one of the arguments is the flag for it. -/
lemma showVersion_setAll_iff (arguments : List Argument) (o : Options) :
    (Argument.setAll o arguments).showVersion = true ↔
      o.showVersion = true ∨ ∃ long, .flag .version long ∈ arguments := by
  induction arguments generalizing o with
  | nil => simp [Argument.setAll]
  | cons argument rest ih =>
    have hstep : (argument.set o).showVersion = true ↔
        o.showVersion = true ∨ ∃ long, argument = .flag .version long := by
      cases argument with
      | flag flag long => cases flag <;> simp [Argument.set, Flag.set]
      | setting setting value => cases setting <;> simp [Argument.set, Setting.set]
      | word word plain =>
        rw [Argument.set, Options.addWord]
        split <;> simp
    refine (ih (argument.set o)).trans ?_
    rw [hstep, or_assoc]
    simp only [List.mem_cons, exists_or, eq_comm]

/-! ### What commands show -/

/-- How a command ends that shows the help text: it leaves the files as they are. -/
def Outcome.help (tree : FileTree) : Outcome := ⟨unlines helpLines, none, 0, tree⟩

/-- The line of a declaration in a check begins in colour. -/
lemma head?_checkLine (path : Text) (found : Extracted) :
    (checkLine path found).head? = some '\x1b' := by
  unfold checkLine
  split <;> rfl

/-- A check shows a line in colour first, or else an empty line. -/
lemma head?_runCheck {config : Config} {tree : FileTree} {report : Report}
    (h : runCheck config tree = .ok report) : report.output.head? ≠ some 'd' := by
  unfold runCheck at h
  split at h
  · cases h
  · next units hread =>
    cases h
    dsimp only
    cases declarationsOf units with
    | nil => nofun
    | cons found rest =>
      rw [List.map_cons, List.cons_append, unlines, List.flatMap_cons, List.append_assoc,
        List.head?_append, head?_checkLine]
      nofun

/-- A compilation tells first that it has compiled. -/
lemma head?_runCompile {o : Options} {config : Config} {tree : FileTree} {report : Report}
    (h : runCompile o config tree = .ok report) : report.output.head? ≠ some 'd' := by
  unfold runCompile at h
  split at h
  · cases h
  · split at h
    · cases h
    · split at h
      · cases h
      · cases h
        nofun

/-- A request is shown as an object. -/
lemma head?_runResolve {o : Options} {tree : FileTree} {report : Report}
    (h : runResolve o tree = .ok report) : report.output.head? ≠ some 'd' := by
  unfold runResolve at h
  split at h
  · cases h
  · split at h
    · cases h
    · split at h
      · cases h
      · split at h
        · cases h
        · split at h
          · cases h
          · next request hdescribe =>
            cases h
            cases request <;> nofun

/-- The output of a command does not begin as the help text does. -/
lemma head?_output_ne_of_command {o : Options} {environment : Environment} {tree : FileTree}
    {report : Report} (hversion : o.showVersion = false) (hcommand : o.command ≠ .help)
    (h : runOptions o environment tree = .ok report) : report.output.head? ≠ some 'd' := by
  rw [runOptions, hversion, if_neg Bool.false_ne_true] at h
  cases hname : o.command with
  | help => exact absurd hname hcommand
  | check => exact head?_runCheck (hname ▸ h)
  | compile => exact head?_runCompile (hname ▸ h)
  | resolve => exact head?_runResolve (hname ▸ h)

/-- A command line that was read without a flag for the version shows the help text exactly if it
sets no command. -/
lemma run_eq_help_iff {args : List Text} {options : Options}
    (hparse : Options.parse args = .ok options) (hversion : options.showVersion = false)
    (environment : Environment) (tree : FileTree) :
    run args environment tree = .help tree ↔ options.command = .help := by
  constructor
  · intro hrun
    by_contra hcommand
    have houtput : (run args environment tree).output.head? ≠ some 'd' := by
      rw [run, hparse]
      dsimp only
      cases hreport : runOptions options environment tree with
      | error fault => rintro ⟨⟩
      | ok report => exact head?_output_ne_of_command hversion hcommand hreport
    rw [hrun] at houtput
    exact houtput rfl
  · intro hcommand
    rw [run, hparse]
    dsimp only
    rw [runOptions, hversion, if_neg Bool.false_ne_true, hcommand]
    rfl

/-- A command line that asks for help, and not for the version, shows the help text and neither
reads nor writes a file exactly if one of its flags for help has no word behind it that names a
command.  The arguments are those of the command line, so a value of an option is no flag and no
such word. -/
theorem shows_help_iff {args : List Text} {options : Options}
    (hparse : Options.parse args = .ok options) :
    ∃ arguments : List Argument,
      (∀ others, Argument.textsOf others = args ↔ others = arguments) ∧
        ((∃ long, .flag .help long ∈ arguments) → (∀ long, .flag .version long ∉ arguments) →
          ∀ environment tree, run args environment tree = .help tree ↔ HelpStands arguments) := by
  obtain ⟨arguments, htexts, hset⟩ := Options.parseFrom_eq_ok_iff.mp hparse
  refine ⟨arguments, fun others => htexts ▸ Argument.textsOf_injective.eq_iff, ?_⟩
  rintro ⟨long, hhelp⟩ hnoVersion environment tree
  have hversion : options.showVersion = false := by
    rw [← hset, Bool.eq_false_iff, Ne, showVersion_setAll_iff]
    rintro (hstart | ⟨long, hmem⟩)
    · cases hstart
    · exact hnoVersion long hmem
  rw [run_eq_help_iff hparse hversion, ← hset, command_setAll_iff]
  refine or_iff_left_of_imp fun ⟨_, hcommandless⟩ => ?_
  obtain ⟨before, after, rfl⟩ := List.append_of_mem hhelp
  refine ⟨before, long, after, rfl, fun argument hmem => hcommandless argument ?_⟩
  exact List.mem_append_right _ (List.mem_cons_of_mem _ hmem)

/-- The flag stands behind the command, behind a value that looks like it, and in front of a value
that names a command. -/
theorem shows_help_iff_behind_command :
    let args : List Text := ["compile", "--out", "-h", "--help", "note", "--cache", "check"]
    let options : Options :=
      { command := .help, out := some "-h", cache := some "check", positional := ["note"] }
    Options.parse args = .ok options ∧
      ∀ environment tree, run args environment tree = .help tree := by
  intro args options
  have hparse : Options.parse args = .ok options := by decide +kernel
  refine ⟨hparse, fun environment tree => ?_⟩
  obtain ⟨arguments, hunique, hiff⟩ := shows_help_iff hparse
  obtain rfl := (hunique [.word "compile" (by decide), .setting .out "-h", .flag .help true,
    .word "note" (by decide), .setting .cache "check"]).mp rfl
  have hhelp : HelpStands [.word "compile" (by decide), .setting .out "-h", .flag .help true,
      .word "note" (by decide), .setting .cache "check"] :=
    ⟨[.word "compile" (by decide), .setting .out "-h"], true, _, rfl, by decide +kernel⟩
  exact (hiff ⟨true, by decide⟩ (by decide) environment tree).mpr hhelp

/-- A flag for help in front of a command does not stand: the command is run, and a file is
written. -/
theorem not_help_in_front_of_command :
    let source : Text := "\"(Local/get-in k)\": \x7breq: \x7bid: number\x7d\x7d"
    let entries : List (Text × Node) := [("a.ts", .file (Utf8.encode source))]
    let tree : FileTree := ⟨.folder [("data", .folder [("api", .folder entries)])], []⟩
    let args : List Text := ["-h", "compile", "--out", "facts.json"]
    let after := run args {} tree
    Argument.textsOf [.flag .help false, .word "compile" (by decide), .setting .out "facts.json"] =
        args ∧
      after ≠ .help tree ∧
      after.output = unlines ["compiled 1 declarations into facts.json"] ∧
      (tree.read "facts.json").toOption = none ∧
      ((after.tree.read "facts.json").toOption.bind Utf8.decode?).bind Cache.ofText? =
        some (SortedMap.ofList [("(Local/get-in k)", [("id" : Text)])]) := by
  intro source entries tree args after
  have houtput : after.output = unlines ["compiled 1 declarations into facts.json"] := by
    decide +kernel
  refine ⟨rfl, fun hhelp => ?_, houtput, by decide +kernel, by decide +kernel⟩
  rw [hhelp] at houtput
  exact absurd houtput (by decide +kernel)

end Endpoints
