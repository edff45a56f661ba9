import Endpoints.Command.Run
import Endpoints.Proofs.BulkLoad

/-!
# What a check foretells

A check and the setup of an engine go over the same files.  The check reports on every declaration
and counts those that are rejected; the setup ends at the first one and does not get to the rest.
`Foretells` sets the two side by side, one constructor for each way in which they end together: the
files cannot be read, a declaration is rejected, or everything is accepted.  That they always end in
one of these ways (`foretells_setup`) follows from the endings of a load.

The output of a check is described without its loop.  The declarations of the files are cut at the
first rejected one (`FirstRejected`).  Those in front of it are shown as accepted (`acceptedLine`);
it is shown with its place and the message (`rejectedLines`), and the failure of the setup carries
just these.
-/

namespace Endpoints

variable {σ : Type}

/-! ### The lines of a check -/

/-- The line of an accepted declaration. -/
def acceptedLine (declaration : Text) : Text := coloured 32 "✓" ++ " " ++ declaration

/-- The lines of a rejected declaration: its place and its text, and the message below. -/
def rejectedLines (path : Text) (line : Nat) (declaration message : Text) : Text :=
  coloured 31 "✗" ++ " " ++ path ++ ":" ++ Text.ofNat line ++ " " ++ declaration ++
    "\n    " ++ message

section Lines

variable {found : Extracted}

lemma checkLine_of_accepted (path : Text) (h : found.entry.accepted = true) :
    checkLine path found = acceptedLine found.declaration := by
  obtain ⟨derived, hderived⟩ := Entry.accepted_iff.mp h
  have haccepted : (compile found.declaration found.fields).fault = none := by
    rw [compile]
    dsimp only
    rw [hderived]
  delta checkLine
  rw [haccepted]
  rfl

lemma checkLine_of_rejected (path : Text) {fault : CompileFault}
    (h : deriveFacts found.declaration found.fields = .error fault) :
    checkLine path found = rejectedLines path found.line found.declaration fault.message := by
  have hrejected : (compile found.declaration found.fields).fault = some fault := by
    rw [compile, h]
  delta checkLine
  rw [hrejected]
  rfl

end Lines

/-- The declarations of source files without the paths. -/
lemma map_snd_declarationsOf (units : List SourceUnit) :
    (declarationsOf units).map Prod.snd = units.flatMap SourceUnit.declarations := by
  rw [declarationsOf, List.map_flatMap]
  refine List.flatMap_congr fun unit _ => ?_
  rw [List.map_map]
  exact List.map_id _

/-- The number of declarations of source files. -/
def declarationCount (units : List SourceUnit) : Nat :=
  (units.flatMap SourceUnit.declarations).length

/-- The number of declarations of source files that are rejected. -/
def rejectionCount (units : List SourceUnit) : Nat :=
  (units.flatMap SourceUnit.declarations).countP fun found => !found.entry.accepted

lemma length_declarationsOf (units : List SourceUnit) :
    (declarationsOf units).length = declarationCount units := by
  rw [declarationCount, ← map_snd_declarationsOf, List.length_map]

lemma rejectedCount_declarationsOf (units : List SourceUnit) :
    rejectedCount (declarationsOf units) = rejectionCount units := by
  rw [rejectionCount, ← map_snd_declarationsOf, List.countP_map]
  rfl

/-- A declaration of a file whose declarations are all accepted. -/
lemma accepted_of_mem_unit {unit : SourceUnit} (h : allAccepted unit.entries = true)
    {found : Extracted} (hfound : found ∈ unit.declarations) : found.entry.accepted = true :=
  List.all_eq_true.mp h found.entry (List.mem_map_of_mem hfound)

/-- Nothing is rejected if the declarations of all files are accepted. -/
lemma rejectionCount_eq_zero {units : List SourceUnit}
    (h : ∀ unit ∈ units, allAccepted unit.entries = true) : rejectionCount units = 0 := by
  rw [rejectionCount, List.countP_eq_zero]
  intro found hfound
  obtain ⟨unit, hunit, hmem⟩ := List.mem_flatMap.mp hfound
  simp [accepted_of_mem_unit (h unit hunit) hmem]

/-! ### The first rejected declaration -/

/-- The declarations of source files, cut at the first one that is rejected: it is found in the file
at `path`, those of `front` are accepted, and a setup does not get to those of `back`. -/
structure FirstRejected (units : List SourceUnit) (front : List (Text × Extracted)) (path : Text)
    (found : Extracted) (fault : CompileFault) (back : List (Text × Extracted)) : Prop where
  declarations : declarationsOf units = front ++ (path, found) :: back
  accepted : ∀ d ∈ front, d.2.entry.accepted = true
  rejected : deriveFacts found.declaration found.fields = .error fault

namespace FirstRejected

/-- The first rejected declaration of a file, behind files whose declarations are all accepted. -/
lemma of_unit {before : List SourceUnit} (after : List SourceUnit) {unit : SourceUnit}
    {earlier later : List Extracted} {found : Extracted} {fault : CompileFault}
    (hbefore : ∀ other ∈ before, allAccepted other.entries = true)
    (hdeclarations : unit.declarations = earlier ++ found :: later)
    (hearlier : ∀ other ∈ earlier, other.entry.accepted = true)
    (hfault : deriveFacts found.declaration found.fields = .error fault) :
    FirstRejected (before ++ unit :: after) (declarationsOf before ++ earlier.map (unit.path, ·))
      unit.path found fault (later.map (unit.path, ·) ++ declarationsOf after) where
  declarations := by simp [declarationsOf, hdeclarations]
  accepted := by
    intro d hd
    rcases List.mem_append.mp hd with hd | hd
    · obtain ⟨other, hother, hmem⟩ := List.mem_flatMap.mp hd
      obtain ⟨declared, hdeclared, rfl⟩ := List.mem_map.mp hmem
      exact accepted_of_mem_unit (hbefore other hother) hdeclared
    · obtain ⟨declared, hdeclared, rfl⟩ := List.mem_map.mp hd
      exact hearlier declared hdeclared
  rejected := hfault

variable {units : List SourceUnit} {front back : List (Text × Extracted)} {path : Text}
  {found : Extracted} {fault : CompileFault}

/-- With a rejected declaration the number of rejections is not zero. -/
lemma rejectionCount_ne_zero (h : FirstRejected units front path found fault back) :
    rejectionCount units ≠ 0 := by
  have hrejected : ¬ found.entry.accepted = true := by
    rw [Extracted.entry, Entry.accepted_iff, h.rejected]
    nofun
  have hmem : found ∈ units.flatMap SourceUnit.declarations := by
    rw [← map_snd_declarationsOf, h.declarations]
    exact List.mem_map_of_mem (List.mem_append_right front List.mem_cons_self)
  rw [rejectionCount, Ne, List.countP_eq_zero]
  intro hnone
  apply hnone found hmem
  simpa using hrejected

/-- The lines of a check: in front of those for the first rejected declaration stand only lines of
accepted ones. -/
lemma map_checkLine (h : FirstRejected units front path found fault back) :
    (declarationsOf units).map (fun d => checkLine d.1 d.2) =
      front.map (fun d => acceptedLine d.2.declaration) ++
        rejectedLines path found.line found.declaration fault.message ::
          back.map (fun d => checkLine d.1 d.2) := by
  have hfront : front.map (fun d => checkLine d.1 d.2) =
      front.map fun d => acceptedLine d.2.declaration :=
    List.map_congr_left fun d hd => checkLine_of_accepted d.1 (h.accepted d hd)
  rw [h.declarations, List.map_append, List.map_cons, hfront, checkLine_of_rejected path h.rejected]

end FirstRejected

/-! ### What a check prints -/

/-- A check of files that could be read reports on each of their declarations and counts them. -/
lemma runCheck_of_read {config : Config} {tree : FileTree} {units : List SourceUnit}
    (h : readUnits tree config.sourceRoot config.extensions = .ok units) :
    runCheck config tree = .ok {
      output := unlines ((declarationsOf units).map (fun d => checkLine d.1 d.2) ++
        [[], summaryLine (declarationCount units) (rejectionCount units)])
      success := rejectionCount units = 0
      tree } := by
  rw [runCheck, h]
  dsimp only
  rw [length_declarationsOf, rejectedCount_declarationsOf]

/-- A check of files that could not be read ends with the failure to read them. -/
lemma runCheck_of_unread {config : Config} {tree : FileTree} {failure : Failure}
    (h : readUnits tree config.sourceRoot config.extensions = .error failure) :
    runCheck config tree = .error (.failed failure) := by
  rw [runCheck, h]

/-! ### Check and setup side by side -/

/-- How a check ends beside the setup of an engine with the same configuration. -/
inductive Foretells (config : Config) (tree : FileTree) : Except Failure (Engine σ) → Prop
  /-- The files cannot be read, which is no rejection; both end with the failure to read them. -/
  | unread {failure : Failure}
      (hread : readUnits tree config.sourceRoot config.extensions = .error failure)
      (hcause : ∀ declaration message, failure.cause ≠ .rejected declaration message)
      (hcheck : runCheck config tree = .error (.failed failure)) :
      Foretells config tree (.error failure)
  /-- A declaration is rejected; the setup ends at the first one, and the check goes on. -/
  | rejected {units : List SourceUnit} {front back : List (Text × Extracted)} {path : Text}
      {found : Extracted} {fault : CompileFault} {report : Report}
      (hread : readUnits tree config.sourceRoot config.extensions = .ok units)
      (hfirst : FirstRejected units front path found fault back)
      (hcheck : runCheck config tree = .ok report) (hsuccess : report.success = false) :
      Foretells config tree
        (.error ⟨.rejected found.declaration fault.message, some ⟨some path, some found.line⟩⟩)
  /-- All declarations are accepted. -/
  | passed {units : List SourceUnit} {report : Report} {engine : Engine σ}
      (hread : readUnits tree config.sourceRoot config.extensions = .ok units)
      (hcheck : runCheck config tree = .ok report) (hsuccess : report.success = true) :
      Foretells config tree (.ok engine)

/-- With a rejected declaration a check ends without success. -/
lemma Foretells.of_firstRejected {config : Config} {tree : FileTree} {units : List SourceUnit}
    {front back : List (Text × Extracted)} {path : Text} {found : Extracted} {fault : CompileFault}
    (hread : readUnits tree config.sourceRoot config.extensions = .ok units)
    (hfirst : FirstRejected units front path found fault back) :
    Foretells config tree (.error ⟨.rejected found.declaration fault.message,
      some ⟨some path, some found.line⟩⟩ : Except Failure (Engine σ)) :=
  .rejected hread hfirst (runCheck_of_read hread) (decide_eq_false hfirst.rejectionCount_ne_zero)

/-- A file that cannot be read is no rejection. -/
lemma SourceFile.Unreadable.cause_ne_rejected {file : SourceFile} {failure : Failure}
    (h : file.Unreadable failure) (declaration message : Text) :
    failure.cause ≠ .rejected declaration message := by
  cases h <;> exact Cause.noConfusion

section Setup

variable (transport : Transport σ) (storage : Storage σ) (state : σ) (config : Config)
  (tree : FileTree)

/-- A setup loads all source files into an engine without declarations. -/
lemma setup_eq :
    Engine.setup transport storage config state tree =
      let loaded := Engine.compileAll ⟨config, SortedMap.empty, transport, storage, state⟩ tree
      loaded.1.map fun _ => loaded.2 := by
  rw [Engine.setup]
  dsimp only [Engine.assemble, bind, Except.bind]
  split
  · next loaded => rw [loaded]; rfl
  · next failed => rw [failed]; rfl

/-- A check foretells how the setup ends. -/
theorem foretells_setup :
    Foretells config tree (Engine.setup transport storage config state tree) := by
  obtain ⟨answer, recorded, hloads⟩ := exists_loads config tree
  let start : Engine σ := ⟨config, SortedMap.empty, transport, storage, state⟩
  have hall : start.compileAll tree =
      (answer, { start with cache := start.cache.insertAll recorded }) := hloads.compileAll_eq
  rw [setup_eq]
  dsimp only
  rw [hall]
  cases hloads with
  | noRoot hroot =>
    have hread := readUnits_of_noRoot hroot
    exact .unread hread (fun _ _ => Cause.noConfusion) (runCheck_of_unread hread)
  | fileAtRoot hroot =>
    have hread := readUnits_of_fileAtRoot hroot
    exact .unread hread (fun _ _ => Cause.noConfusion) (runCheck_of_unread hread)
  | unreadable hscanned hbefore hfile =>
    have hread := readUnits_eq_error hscanned hbefore hfile
    exact .unread hread hfile.cause_ne_rejected (runCheck_of_unread hread)
  | rejected hscanned hforall hbefore hdeclarations hearlier hfault =>
    have hread := readUnits_eq_ok hscanned hforall
    exact .of_firstRejected hread (.of_unit _ hbefore hdeclarations hearlier hfault)
  | loaded hscanned hforall haccepted =>
    have hread := readUnits_eq_ok hscanned hforall
    exact .passed hread (runCheck_of_read hread) (decide_eq_true (rejectionCount_eq_zero haccepted))

end Setup

/-- A load of all files counts the declarations that were read. -/
lemma declarations_of_compileAll {engine : Engine σ} {tree : FileTree} {report : LoadReport}
    {units : List SourceUnit} (hload : (engine.compileAll tree).1 = .ok report)
    (hread : readUnits tree engine.config.sourceRoot engine.config.extensions = .ok units) :
    report.declarations = declarationCount units := by
  obtain ⟨answer, recorded, hloads⟩ := exists_loads engine.config tree
  rw [hloads.compileAll_eq] at hload
  dsimp only at hload
  subst hload
  cases hloads with
  | loaded hscanned hforall haccepted =>
    have hunits := (readUnits_eq_ok hscanned hforall).symm.trans hread
    cases hunits
    rfl

/-- Arguments that ask for a check run it with their configuration. -/
lemma run_check {args : List Text} {options : Options} (hparse : Options.parse args = .ok options)
    (hversion : options.showVersion = false) (hcommand : options.command = .check)
    (environment : Environment) (tree : FileTree) :
    ((run args environment tree).code = 0 ↔
        ∃ report, runCheck (options.config environment) tree = .ok report ∧
          report.success = true) ∧
      ((run args environment tree).error = none ↔
        ∃ report, runCheck (options.config environment) tree = .ok report) ∧
      ∀ report, runCheck (options.config environment) tree = .ok report →
        (run args environment tree).output = report.output := by
  have hoptions : runOptions options environment tree =
      runCheck (options.config environment) tree := by
    rw [runOptions, hversion, hcommand]
    rfl
  rw [run, hparse]
  dsimp only
  rw [hoptions]
  cases runCheck (options.config environment) tree with
  | error fault => simp
  | ok report => simp

/-! ### Prediction -/

namespace Foretells

variable {config : Config} {tree : FileTree} {setup : Except Failure (Engine σ)}

lemma success_iff (h : Foretells config tree setup) :
    (∃ report, runCheck config tree = .ok report ∧ report.success = true) ↔
      ∃ engine, setup = .ok engine := by
  cases h with
  | unread hread hcause hcheck => simp [hcheck]
  | rejected hread hfirst hcheck hsuccess => simp [hcheck, hsuccess]
  | passed hread hcheck hsuccess => simp [hcheck, hsuccess]

lemma error_iff (h : Foretells config tree setup) :
    (∃ fault, runCheck config tree = .error fault) ↔
      ∃ failure, readUnits tree config.sourceRoot config.extensions = .error failure := by
  cases h with
  | unread hread hcause hcheck => simp [hread, hcheck]
  | rejected hread hfirst hcheck => simp [hread, hcheck]
  | passed hread hcheck => simp [hread, hcheck]

lemma failure_iff (h : Foretells config tree setup) :
    (∃ report, runCheck config tree = .ok report ∧ report.success = false) ↔
      ∃ declaration message place, setup = .error ⟨.rejected declaration message, place⟩ := by
  cases h with
  | unread hread hcause hcheck =>
    constructor
    · rintro ⟨report, hreport, -⟩
      rw [hcheck] at hreport
      cases hreport
    · rintro ⟨declaration, message, place, hfailure⟩
      cases hfailure
      exact absurd rfl (hcause declaration message)
  | rejected hread hfirst hcheck hsuccess => simp [hcheck, hsuccess]
  | passed hread hcheck hsuccess => simp [hcheck, hsuccess]

lemma error_eq (h : Foretells config tree setup) {failure : Failure}
    (hfailure : readUnits tree config.sourceRoot config.extensions = .error failure) :
    runCheck config tree = .error (.failed failure) ∧ setup = .error failure := by
  cases h with
  | unread hread hcause hcheck =>
    cases hread.symm.trans hfailure
    exact ⟨hcheck, rfl⟩
  | rejected hread | passed hread => cases hread.symm.trans hfailure

/-- A check without success shows the first rejected declaration behind accepted ones only, with
the place and the message with which the setup fails. -/
lemma failure_eq (h : Foretells config tree setup) {report : Report}
    (hreport : runCheck config tree = .ok report) (hfailed : report.success = false) :
    ∃ units front path found fault back,
      readUnits tree config.sourceRoot config.extensions = .ok units ∧
      FirstRejected units front path found fault back ∧
      report.output = unlines (front.map (fun d => acceptedLine d.2.declaration) ++
        rejectedLines path found.line found.declaration fault.message ::
          (back.map (fun d => checkLine d.1 d.2) ++
            [[], summaryLine (declarationCount units) (rejectionCount units)])) ∧
      setup = .error
        ⟨.rejected found.declaration fault.message, some ⟨some path, some found.line⟩⟩ := by
  cases h with
  | unread hread hcause hcheck => cases hcheck.symm.trans hreport
  | rejected hread hfirst hcheck hsuccess =>
    cases (runCheck_of_read hread).symm.trans hreport
    refine ⟨_, _, _, _, _, _, hread, hfirst, ?_, rfl⟩
    dsimp only
    rw [hfirst.map_checkLine, List.append_assoc, List.cons_append]
  | passed hread hcheck hsuccess =>
    cases hcheck.symm.trans hreport
    exact absurd hsuccess (Bool.eq_false_iff.mp hfailed)

end Foretells

/-- A check that runs to its end has read the files; it shows all their declarations and counts
them. -/
lemma exists_units_of_runCheck {config : Config} {tree : FileTree} {report : Report}
    (h : runCheck config tree = .ok report) :
    ∃ units, readUnits tree config.sourceRoot config.extensions = .ok units ∧
      report.output = unlines ((declarationsOf units).map (fun d => checkLine d.1 d.2) ++
        [[], summaryLine (declarationCount units) (rejectionCount units)]) := by
  cases hread : readUnits tree config.sourceRoot config.extensions with
  | error failure => cases (runCheck_of_unread hread).symm.trans h
  | ok units =>
    cases (runCheck_of_read hread).symm.trans h
    exact ⟨units, rfl, rfl⟩

/-- A check runs to its end exactly if the files can be read. -/
lemma exists_report_iff {config : Config} {tree : FileTree} :
    (∃ report, runCheck config tree = .ok report) ↔
      ∃ units, readUnits tree config.sourceRoot config.extensions = .ok units := by
  cases hread : readUnits tree config.sourceRoot config.extensions with
  | error failure => simp [runCheck_of_unread hread]
  | ok units => simp [runCheck_of_read hread]

/-- What a check foretells of the setup of an engine with the same configuration. -/
structure CheckPredicts (config : Config) (tree : FileTree) (setup : Except Failure (Engine σ)) :
    Prop where
  /-- The check succeeds exactly if the setup does. -/
  success_iff : (∃ report, runCheck config tree = .ok report ∧ report.success = true) ↔
    ∃ engine, setup = .ok engine
  /-- The check ends with an error exactly if the files cannot be read. -/
  error_iff : (∃ fault, runCheck config tree = .error fault) ↔
    ∃ failure, readUnits tree config.sourceRoot config.extensions = .error failure
  /-- In that case check and setup fail in the same way. -/
  error_eq : ∀ failure, readUnits tree config.sourceRoot config.extensions = .error failure →
    runCheck config tree = .error (.failed failure) ∧ setup = .error failure
  /-- The check runs to its end without success exactly if the setup rejects a declaration. -/
  failure_iff : (∃ report, runCheck config tree = .ok report ∧ report.success = false) ↔
    ∃ declaration message place, setup = .error ⟨.rejected declaration message, place⟩
  /-- In that case the check shows the first rejected declaration behind accepted ones only, with
  the place and the message with which the setup fails. -/
  failure_eq : ∀ report, runCheck config tree = .ok report → report.success = false →
    ∃ units front path found fault back,
      readUnits tree config.sourceRoot config.extensions = .ok units ∧
      FirstRejected units front path found fault back ∧
      report.output = unlines (front.map (fun d => acceptedLine d.2.declaration) ++
        rejectedLines path found.line found.declaration fault.message ::
          (back.map (fun d => checkLine d.1 d.2) ++
            [[], summaryLine (declarationCount units) (rejectionCount units)])) ∧
      setup = .error
        ⟨.rejected found.declaration fault.message, some ⟨some path, some found.line⟩⟩
  /-- The last line of a check shows the number of all declarations and of those rejected, and the
  lines in front of it are those of the declarations. -/
  counts : ∀ report, runCheck config tree = .ok report →
    ∃ units, readUnits tree config.sourceRoot config.extensions = .ok units ∧
      report.output = unlines ((declarationsOf units).map (fun d => checkLine d.1 d.2) ++
        [[], summaryLine (declarationCount units) (rejectionCount units)])
  /-- A load of all files that succeeds counts all declarations too. -/
  loaded : ∀ (engine : Engine σ) report units, engine.config = config →
    (engine.compileAll tree).1 = .ok report →
      readUnits tree config.sourceRoot config.extensions = .ok units →
        report.declarations = declarationCount units
  /-- On the command line a check has the exit code zero exactly if the setup succeeds, and prints
  an error exactly if the files cannot be read; otherwise it prints what it shows. -/
  command : ∀ args options environment, Options.parse args = .ok options →
    options.showVersion = false → options.command = .check → options.config environment = config →
      ((run args environment tree).code = 0 ↔ ∃ engine, setup = .ok engine) ∧
        ((run args environment tree).error = none ↔
          ∃ units, readUnits tree config.sourceRoot config.extensions = .ok units) ∧
        ∀ report, runCheck config tree = .ok report →
          (run args environment tree).output = report.output

/-- A check foretells how the setup of an engine ends, whatever its collaborators are: its verdict,
its failure and the number of its declarations. -/
theorem check_predicts_setup (transport : Transport σ) (storage : Storage σ) (state : σ)
    (config : Config) (tree : FileTree) :
    CheckPredicts config tree (Engine.setup transport storage config state tree) := by
  have hforetells := foretells_setup transport storage state config tree
  refine ⟨hforetells.success_iff, hforetells.error_iff, ?_, hforetells.failure_iff, ?_, ?_, ?_, ?_⟩
  · intro failure hfailure
    exact hforetells.error_eq hfailure
  · intro report hreport hfailed
    exact hforetells.failure_eq hreport hfailed
  · intro report hreport
    exact exists_units_of_runCheck hreport
  · rintro engine report units rfl hload hread
    exact declarations_of_compileAll hload hread
  · rintro args options environment hparse hversion hcommand rfl
    obtain ⟨hcode, herror, houtput⟩ := run_check hparse hversion hcommand environment tree
    exact ⟨hcode.trans hforetells.success_iff, herror.trans exists_report_iff, houtput⟩

end Endpoints
