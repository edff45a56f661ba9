import Endpoints.Proofs.EngineRuns
import Endpoints.Proofs.Extraction

/-!
# Loading all source files

How a load of all source files ends is described by `Loads`, one constructor for each ending: the
source root leads nowhere or is a file, a scanned file does not give its declarations, a declaration
is rejected, or everything is loaded.  An ending goes with the entries that it records: none as long
as files are read, those of all files in front of the one with the first rejected declaration, and
those of all files.

The load does two things one after the other, each for all files.  It first reads them
(`readUnits_eq_mapM`); then it records them file by file.  A file whose declarations are accepted is
one step of the second part (`Cache.loadUnits_cons_of_accepted`), from which follows what any number
of such files do (`Cache.loadUnits_append_of_accepted`).  Every ending is that of the load
(`Loads.compileAll_eq`), and every load has an ending (`exists_loads`), so the endings describe the
load completely.
-/

namespace Endpoints

/-! ### The scanned files -/

/-- The files that a load scans: those below the folder at the source root that have one of the
extensions, in the order of their paths. -/
structure Scanned (config : Config) (tree : FileTree) (files : List SourceFile) : Prop where
  collected : collectSources tree config.sourceRoot config.extensions = .ok files
  inPathOrder : ∃ (folder : Node) (found : List (List Text × Bytes)),
    tree.open? config.sourceRoot = .ok folder ∧
    found.Perm ((folder.files config.sourceRoot).filter fun f => isSource config.extensions f.1) ∧
    found.Pairwise (fun a b => ¬ b.1 < a.1) ∧
    files = found.map fun f => ⟨pathBelow config.sourceRoot f.1, f.2⟩

/-- Files below a folder are taken in the order of their paths. -/
lemma pairwise_sourcesBelow (path : Text) (folder : Node) (extensions : List Text) :
    (sourcesBelow path folder extensions).Pairwise fun a b => ¬ b.1 < a.1 := by
  let inOrder : List Text × Bytes → List Text × Bytes → Bool := fun a b => !decide (b.1 < a.1)
  have horder : ∀ a b, inOrder a b = true ↔ ¬ b.1 < a.1 := by
    intro a b
    simp only [inOrder, Bool.not_eq_true', decide_eq_false_iff_not]
  have htrans : ∀ a b c, inOrder a b = true → inOrder b c = true → inOrder a c = true := by
    intro a b c hab hbc
    rw [horder] at hab hbc ⊢
    exact List.not_lt.mpr (List.le_trans (List.not_lt.mp hab) (List.not_lt.mp hbc))
  have htotal : ∀ a b, (inOrder a b || inOrder b a) = true := by
    intro a b
    rw [Bool.or_eq_true, horder, horder]
    by_cases hlt : b.1 < a.1
    · exact .inr (List.lt_asymm hlt)
    · exact .inl hlt
  refine (List.pairwise_mergeSort htrans htotal _).imp ?_
  intro a b hab
  exact (horder a b).mp hab

/-- The files below a folder at the source root are scanned. -/
lemma scanned_of_folder {config : Config} {tree : FileTree} {entries : List (Text × Node)}
    (h : tree.open? config.sourceRoot = .ok (.folder entries)) :
    Scanned config tree
      ((sourcesBelow config.sourceRoot (.folder entries) config.extensions).map fun f =>
        ⟨pathBelow config.sourceRoot f.1, f.2⟩) := by
  refine ⟨?_, .folder entries, _, h, List.mergeSort_perm _ _, pairwise_sourcesBelow _ _ _, rfl⟩
  rw [collectSources, h]

/-- The scanned files are read one after another. -/
lemma readUnits_eq_mapM {config : Config} {tree : FileTree} {files : List SourceFile}
    (h : Scanned config tree files) :
    readUnits tree config.sourceRoot config.extensions = files.mapM SourceFile.readUnit := by
  rw [readUnits, h.collected]
  rfl

/-! ### Reading a file -/

/-- A file gives its declarations if it can be opened, holds a text and has no malformed site. -/
structure SourceFile.Gives (file : SourceFile) (unit : SourceUnit) : Prop where
  shortPath : isLongPath file.path = false
  path : unit.path = file.path
  declarations : ∃ source, Utf8.decode? file.content = some source ∧
    extract source = .ok unit.declarations

/-- Why a file does not give its declarations, with the failure that says so: its path is too long,
it does not hold a text, or the first malformed site of the text stands on some line. -/
inductive SourceFile.Unreadable (file : SourceFile) : Failure → Prop where
  | longPath (hpath : isLongPath file.path = true) :
      file.Unreadable (ioFailure "read file" file.path .nameTooLong)
  | notText (hpath : isLongPath file.path = false) (htext : Utf8.decode? file.content = none) :
      file.Unreadable (ioFailure "read file" file.path .notUtf8)
  | malformed {source site : Text} {line : Nat} (hpath : isLongPath file.path = false)
      (htext : Utf8.decode? file.content = some source)
      (hsite : extract source = .error (malformed site line)) :
      file.Unreadable ⟨.malformedDeclaration site, some ⟨some file.path, some line⟩⟩

/-- Extraction fails for a malformed site only. -/
lemma exists_malformed_of_extract {source : Text} {failure : Failure}
    (h : extract source = .error failure) : ∃ site line, failure = malformed site line := by
  rw [extract, extractFrom_eq_mapM 1 source [] rfl, mapM_eq_error_iff] at h
  obtain ⟨-, site, -, -, -, hsite⟩ := h
  exact ⟨site.text, site.line, (Occurrence.extract_eq_error_iff.mp hsite).2⟩

lemma SourceFile.readUnit_eq_ok_iff {file : SourceFile} {unit : SourceUnit} :
    file.readUnit = .ok unit ↔ file.Gives unit := by
  unfold SourceFile.readUnit
  constructor
  · intro h
    split at h
    · cases h
    · next hpath =>
      split at h
      · cases h
      · next source htext =>
        split at h
        · next declarations hextract =>
          cases h
          exact ⟨Bool.not_eq_true _ ▸ hpath, rfl, source, htext, hextract⟩
        · cases h
  · rintro ⟨hpath, hunit, source, htext, hextract⟩
    rw [if_neg (Bool.not_eq_true _ ▸ hpath), htext]
    dsimp only
    rw [hextract, ← hunit]

lemma SourceFile.readUnit_eq_error_iff {file : SourceFile} {failure : Failure} :
    file.readUnit = .error failure ↔ file.Unreadable failure := by
  unfold SourceFile.readUnit
  constructor
  · intro h
    split at h
    · next hpath =>
      cases h
      exact .longPath hpath
    · next hpath =>
      have hpath : isLongPath file.path = false := Bool.not_eq_true _ ▸ hpath
      split at h
      · next htext =>
        cases h
        exact .notText hpath htext
      · next source htext =>
        split at h
        · cases h
        · next failure hextract =>
          obtain ⟨site, line, rfl⟩ := exists_malformed_of_extract hextract
          cases h
          exact .malformed hpath htext hextract
  · intro h
    cases h with
    | longPath hpath => rw [if_pos hpath]
    | notText hpath htext => rw [if_neg (Bool.not_eq_true _ ▸ hpath), htext]
    | malformed hpath htext hsite =>
      rw [if_neg (Bool.not_eq_true _ ▸ hpath), htext]
      dsimp only
      rw [hsite]
      rfl

/-! ### Recording file by file -/

/-- A report after further files whose declarations were recorded. -/
def LoadReport.after (report : LoadReport) (units : List SourceUnit) : LoadReport where
  files := report.files
  declarations := report.declarations + (units.flatMap SourceUnit.declarations).length
  emptyFiles := report.emptyFiles ++
    (units.filter fun unit => unit.declarations.isEmpty).map SourceUnit.path

@[simp] lemma LoadReport.after_nil (report : LoadReport) : report.after [] = report := by
  simp [LoadReport.after]

lemma LoadReport.after_append (report : LoadReport) (before after : List SourceUnit) :
    (report.after before).after after = report.after (before ++ after) := by
  simp [LoadReport.after, Nat.add_assoc]

namespace Cache

/-- A file whose declarations are accepted is recorded, and the load goes on behind it. -/
lemma loadUnits_cons_of_accepted (cache : Cache) (report : LoadReport) {unit : SourceUnit}
    (h : allAccepted unit.entries = true) (rest : List SourceUnit) :
    cache.loadUnits report (unit :: rest) =
      (cache.insertAll unit.entries).loadUnits (report.after [unit]) rest := by
  rw [loadUnits]
  by_cases hempty : unit.declarations.isEmpty = true
  · have hdeclarations := List.isEmpty_iff.mp hempty
    have hentries : unit.entries = [] := by
      rw [SourceUnit.entries, hdeclarations, List.map_nil]
    have hreport : report.after [unit] =
        { report with emptyFiles := report.emptyFiles ++ [unit.path] } := by
      simp [LoadReport.after, hdeclarations]
    rw [if_pos hempty, hentries, hreport]
    rfl
  · have hreport : report.after [unit] =
        { report with declarations := report.declarations + unit.declarations.length } := by
      simp [LoadReport.after, hempty]
    rw [if_neg hempty, SourceUnit.compileAll,
      SourceUnit.findSome?_failureOf?_eq_none_iff.mpr h, hreport]
    dsimp only
    rw [recordAll_unit cache h, List.length_map]

/-- Files whose declarations are accepted are recorded one after another, and the load goes on
behind them. -/
theorem loadUnits_append_of_accepted (cache : Cache) (report : LoadReport)
    {before : List SourceUnit} (h : ∀ unit ∈ before, allAccepted unit.entries = true)
    (rest : List SourceUnit) :
    cache.loadUnits report (before ++ rest) =
      (cache.insertAll (before.flatMap SourceUnit.entries)).loadUnits (report.after before)
        rest := by
  induction before generalizing cache report with
  | nil =>
    rw [report.after_nil]
    rfl
  | cons unit before ih =>
    obtain ⟨hunit, hbefore⟩ := List.forall_mem_cons.mp h
    rw [List.cons_append, loadUnits_cons_of_accepted cache report hunit, ih _ _ hbefore,
      report.after_append, List.singleton_append, List.flatMap_cons, insertAll_append]

/-- A file with a rejected declaration ends the load with the failure of the first one. -/
lemma loadUnits_cons_of_rejected (cache : Cache) (report : LoadReport) {unit : SourceUnit}
    {earlier later : List Extracted} {found : Extracted} {fault : CompileFault}
    (hdeclarations : unit.declarations = earlier ++ found :: later)
    (hearlier : ∀ other ∈ earlier, other.entry.accepted = true)
    (hfault : deriveFacts found.declaration found.fields = .error fault) (rest : List SourceUnit) :
    cache.loadUnits report (unit :: rest) =
      (.error ⟨.rejected found.declaration fault.message, some ⟨some unit.path, some found.line⟩⟩,
        cache) := by
  have hnone : ∀ other ∈ earlier, unit.failureOf? other = none := by
    intro other hother
    rw [SourceUnit.failureOf?, Option.map_eq_none_iff]
    exact other.entry.failure?_eq_none_iff.mpr (hearlier other hother)
  have hsome : unit.failureOf? found =
      some ⟨.rejected found.declaration fault.message,
        some ⟨some unit.path, some found.line⟩⟩ := by
    rw [SourceUnit.failureOf?, Compilation.failure?, compile]
    dsimp only
    rw [hfault]
    rfl
  have hempty : ¬ unit.declarations.isEmpty = true := by
    simp [hdeclarations]
  rw [loadUnits, if_neg hempty, SourceUnit.compileAll, hdeclarations, List.findSome?_append,
    List.findSome?_eq_none_iff.mpr hnone, Option.none_or, List.findSome?_cons, hsome]

end Cache

/-! ### The endings of a load -/

/-- How a load of all source files can end: its answer, and the entries that it records in their
order. -/
inductive Loads (config : Config) (tree : FileTree) :
    Except Failure LoadReport → List Entry → Prop where
  /-- The source root leads nowhere. -/
  | noRoot {fault : FileFault} (hroot : tree.open? config.sourceRoot = .error fault) :
      Loads config tree (.error (Cause.sourceNotFound config.sourceRoot)) []
  /-- The source root is a file. -/
  | fileAtRoot {content : Bytes} (hroot : tree.open? config.sourceRoot = .ok (.file content)) :
      Loads config tree (.error (ioFailure "read directory" config.sourceRoot .notADirectory)) []
  /-- A scanned file does not give its declarations, and those in front of it do. -/
  | unreadable {before after : List SourceFile} {file : SourceFile} {failure : Failure}
      (hscanned : Scanned config tree (before ++ file :: after))
      (hbefore : ∀ other ∈ before, ∃ unit, other.Gives unit)
      (hfile : file.Unreadable failure) :
      Loads config tree (.error failure) []
  /-- All scanned files give their declarations, one of which is rejected; those in front of it are
  accepted. -/
  | rejected {files : List SourceFile} {before after : List SourceUnit} {unit : SourceUnit}
      {earlier later : List Extracted} {found : Extracted} {fault : CompileFault}
      (hscanned : Scanned config tree files)
      (hread : List.Forall₂ SourceFile.Gives files (before ++ unit :: after))
      (hbefore : ∀ other ∈ before, allAccepted other.entries = true)
      (hdeclarations : unit.declarations = earlier ++ found :: later)
      (hearlier : ∀ other ∈ earlier, other.entry.accepted = true)
      (hfault : deriveFacts found.declaration found.fields = .error fault) :
      Loads config tree
        (.error ⟨.rejected found.declaration fault.message,
          some ⟨some unit.path, some found.line⟩⟩)
        (before.flatMap SourceUnit.entries)
  /-- All scanned files give their declarations, and all of these are accepted. -/
  | loaded {files : List SourceFile} {units : List SourceUnit}
      (hscanned : Scanned config tree files)
      (hread : List.Forall₂ SourceFile.Gives files units)
      (haccepted : ∀ unit ∈ units, allAccepted unit.entries = true) :
      Loads config tree
        (.ok {
          files := files.length
          declarations := (units.flatMap SourceUnit.declarations).length
          emptyFiles := (units.filter fun unit => unit.declarations.isEmpty).map SourceUnit.path })
        (units.flatMap SourceUnit.entries)

section Reading

variable {config : Config} {tree : FileTree}

/-- Nothing is read if the source root leads nowhere. -/
lemma readUnits_of_noRoot {fault : FileFault}
    (hroot : tree.open? config.sourceRoot = .error fault) :
    readUnits tree config.sourceRoot config.extensions =
      .error (Cause.sourceNotFound config.sourceRoot) := by
  rw [readUnits, collectSources, hroot]
  rfl

/-- Nothing is read if the source root is a file. -/
lemma readUnits_of_fileAtRoot {content : Bytes}
    (hroot : tree.open? config.sourceRoot = .ok (.file content)) :
    readUnits tree config.sourceRoot config.extensions =
      .error (ioFailure "read directory" config.sourceRoot .notADirectory) := by
  rw [readUnits, collectSources, hroot]
  rfl

/-- If all scanned files give their declarations, these are read. -/
lemma readUnits_eq_ok {files : List SourceFile} {units : List SourceUnit}
    (hscanned : Scanned config tree files) (hread : List.Forall₂ SourceFile.Gives files units) :
    readUnits tree config.sourceRoot config.extensions = .ok units := by
  rw [readUnits_eq_mapM hscanned, mapM_eq_ok_iff]
  simpa only [SourceFile.readUnit_eq_ok_iff] using hread

/-- The first scanned file that does not give its declarations decides the failure. -/
lemma readUnits_eq_error {before after : List SourceFile} {file : SourceFile} {failure : Failure}
    (hscanned : Scanned config tree (before ++ file :: after))
    (hbefore : ∀ other ∈ before, ∃ unit, other.Gives unit) (hfile : file.Unreadable failure) :
    readUnits tree config.sourceRoot config.extensions = .error failure := by
  rw [readUnits_eq_mapM hscanned, mapM_eq_error_iff]
  simp only [SourceFile.readUnit_eq_ok_iff, SourceFile.readUnit_eq_error_iff]
  exact ⟨before, file, after, rfl, hbefore, hfile⟩

end Reading

/-- Every ending is that of the load. -/
theorem Loads.compileAll_eq {σ : Type} {engine : Engine σ} {tree : FileTree}
    {answer : Except Failure LoadReport} {recorded : List Entry}
    (h : Loads engine.config tree answer recorded) :
    engine.compileAll tree =
      (answer, { engine with cache := engine.cache.insertAll recorded }) := by
  unfold Engine.compileAll
  cases h with
  | noRoot hroot =>
    rw [readUnits_of_noRoot hroot]
    rfl
  | fileAtRoot hroot =>
    rw [readUnits_of_fileAtRoot hroot]
    rfl
  | unreadable hscanned hbefore hfile =>
    rw [readUnits_eq_error hscanned hbefore hfile]
    rfl
  | @rejected files before after unit earlier later found fault hscanned hread hbefore
      hdeclarations hearlier hfault =>
    rw [readUnits_eq_ok hscanned hread]
    dsimp only
    rw [Cache.loadUnits_append_of_accepted _ _ hbefore,
      Cache.loadUnits_cons_of_rejected _ _ hdeclarations hearlier hfault]
  | @loaded files units hscanned hread haccepted =>
    have hload := Cache.loadUnits_append_of_accepted engine.cache ⟨units.length, 0, []⟩ haccepted []
    rw [List.append_nil] at hload
    rw [readUnits_eq_ok hscanned hread]
    dsimp only
    rw [hload, hread.length_eq]
    simp only [Cache.loadUnits, LoadReport.after, Nat.zero_add, List.nil_append]

/-- Every load has an ending. -/
theorem exists_loads (config : Config) (tree : FileTree) :
    ∃ answer recorded, Loads config tree answer recorded := by
  cases hroot : tree.open? config.sourceRoot with
  | error fault => exact ⟨_, _, .noRoot hroot⟩
  | ok root =>
    cases root with
    | file content => exact ⟨_, _, .fileAtRoot hroot⟩
    | folder entries =>
      have hscanned := scanned_of_folder hroot
      cases hread : readUnits tree config.sourceRoot config.extensions with
      | error failure =>
        rw [readUnits_eq_mapM hscanned, mapM_eq_error_iff] at hread
        simp only [SourceFile.readUnit_eq_ok_iff, SourceFile.readUnit_eq_error_iff] at hread
        obtain ⟨before, file, after, hfiles, hbefore, hfile⟩ := hread
        rw [hfiles] at hscanned
        exact ⟨_, _, .unreadable hscanned hbefore hfile⟩
      | ok units =>
        rw [readUnits_eq_mapM hscanned, mapM_eq_ok_iff] at hread
        simp only [SourceFile.readUnit_eq_ok_iff] at hread
        by_cases haccepted : ∀ unit ∈ units, allAccepted unit.entries = true
        · exact ⟨_, _, .loaded hscanned hread haccepted⟩
        · obtain ⟨before, unit, after, rfl, hunit, hbefore⟩ := exists_first_not units haccepted
          have hsome : ¬ ∀ found ∈ unit.declarations, found.entry.accepted = true := by
            intro hall
            apply hunit
            rw [SourceUnit.entries, allAccepted, List.all_map, List.all_eq_true]
            exact hall
          obtain ⟨earlier, found, later, hdeclarations, hfound, hearlier⟩ :=
            exists_first_not unit.declarations hsome
          cases hfault : deriveFacts found.declaration found.fields with
          | ok derived => exact absurd (Entry.accepted_iff.mpr ⟨derived, hfault⟩) hfound
          | error fault =>
            exact ⟨_, _, .rejected hscanned hread hbefore hdeclarations hearlier hfault⟩

/-- A load of all source files ends in one of the ways that `Loads` lists.  It inserts what that
ending records into the cache and changes nothing else, so that a look-up afterwards finds the entry
of a declaration that was recorded last, or else what was there before. -/
theorem Engine.compileAll_eq_iff {σ : Type} (engine after : Engine σ) (tree : FileTree)
    (answer : Except Failure LoadReport) :
    engine.compileAll tree = (answer, after) ↔
      ∃ recorded, Loads engine.config tree answer recorded ∧
        after = { engine with cache := engine.cache.insertAll recorded } ∧
        ∀ declaration, after.cache.get? declaration =
          (latest? recorded declaration).or (engine.cache.get? declaration) := by
  constructor
  · intro h
    obtain ⟨answer', recorded, hloads⟩ := exists_loads engine.config tree
    obtain ⟨rfl, rfl⟩ := Prod.mk.inj (hloads.compileAll_eq.symm.trans h)
    exact ⟨recorded, hloads, rfl, engine.cache.get?_insertAll recorded⟩
  · rintro ⟨recorded, hloads, rfl, -⟩
    exact hloads.compileAll_eq

end Endpoints
