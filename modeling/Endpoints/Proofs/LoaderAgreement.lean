import Endpoints.Proofs.BulkLoad
import Endpoints.Proofs.CacheGrowth

/-!
# Three ways to load a text

A source text can be validated, which loads nothing and reports on every declaration; it can be
loaded as it is; and it can be loaded from a file, among all files below the source root.  If the
text is the only one that is scanned, the three have one outcome (`TextOutcome`): both loaders
refuse the text for its culprit, which is what validation finds wrong first (`Culprit`), or both
load it and validation finds nothing wrong.  Every text has an outcome (`textOutcome`).

The two loaders therefore succeed on the same texts, which are those whose validation finds nothing
wrong, and leave the same cache; and where they fail, both leave the cache alone and name the same
culprit, the first one of the validation.
-/

namespace Endpoints

variable {σ : Type}

/-- A source root below which one file is scanned, which can be read and holds the given text. -/
structure HoldsOnly (config : Config) (tree : FileTree) (file : SourceFile) (source : Text) :
    Prop where
  scanned : Scanned config tree [file]
  shortPath : isLongPath file.path = false
  text : Utf8.decode? file.content = some source

/-! ### The outcomes -/

/-- What validation finds wrong first with a text, and the failure that says so. -/
inductive Culprit (source : Text) : Failure → Prop
  /-- A malformed site stops validation. -/
  | malformed {site : Text} {line : Nat}
      (hvalidate : validateSource source = .error (malformed site line)) :
      Culprit source (malformed site line)
  /-- A declaration is rejected, and those in front of it are accepted. -/
  | rejected {earlier later : List Compilation} {result : Compilation} {fault : CompileFault}
      (hvalidate : validateSource source = .ok (earlier ++ result :: later))
      (hearlier : ∀ other ∈ earlier, other.isOk = true) (hfault : result.fault = some fault) :
      Culprit source (Cause.rejected result.declaration fault.message)

/-- A text with a culprit is not valid. -/
lemma Culprit.not_valid {source : Text} {failure : Failure} (h : Culprit source failure) :
    ¬ ∃ results, validateSource source = .ok results ∧ ∀ result ∈ results, result.isOk = true := by
  rintro ⟨results, hvalidate, hresults⟩
  cases h with
  | malformed hmalformed =>
    rw [hmalformed] at hvalidate
    cases hvalidate
  | @rejected earlier later result fault hrejected hearlier hfault =>
    rw [hrejected] at hvalidate
    cases hvalidate
    have hok := hresults result (List.mem_append_right _ List.mem_cons_self)
    rw [Compilation.isOk, hfault] at hok
    cases hok

/-- What becomes of a text in the file at a path.  Either both loaders refuse it for its culprit,
or both load it. -/
inductive TextOutcome (engine : Engine σ) (tree : FileTree) (path source : Text) : Prop
  | refused {failure : Failure} {line : Nat} (hculprit : Culprit source failure)
      (htext : engine.compileSource source = (.error failure, engine))
      (hfile : engine.compileAll tree =
        (.error ⟨failure.cause, some ⟨some path, some line⟩⟩, engine))
  | loaded {results : List Compilation} {report : LoadReport} {cache : Cache}
      (hvalidate : validateSource source = .ok results)
      (hresults : ∀ result ∈ results, result.isOk = true)
      (htext : engine.compileSource source = (.ok results.length, { engine with cache }))
      (hfile : engine.compileAll tree = (.ok report, { engine with cache }))
      (hcount : report.declarations = results.length)

/-- Validation reports on the declarations that are found. -/
lemma validateSource_of_extract {source : Text} {found : List Extracted}
    (h : extract source = .ok found) :
    validateSource source = .ok (found.map fun d => compile d.declaration d.fields) := by
  rw [validateSource, h]
  rfl

/-- A text with a malformed site is refused because of the first one. -/
lemma textOutcome_of_malformed (engine : Engine σ) {tree : FileTree} {file : SourceFile}
    {source : Text} (h : HoldsOnly engine.config tree file source) {failure : Failure}
    (hextract : extract source = .error failure) :
    TextOutcome engine tree file.path source := by
  obtain ⟨site, line, rfl⟩ := exists_malformed_of_extract hextract
  have hscanned : Scanned engine.config tree ([] ++ file :: []) := h.scanned
  have hvalidate : validateSource source = .error (malformed site line) := by
    rw [validateSource, hextract]
    rfl
  have hloads := Loads.unreadable hscanned (List.forall_mem_nil _)
    (.malformed h.shortPath h.text hextract)
  exact .refused (.malformed hvalidate) (engine.compileSource_of_malformed hextract)
    hloads.compileAll_eq

section Found

variable (engine : Engine σ) {tree : FileTree} {file : SourceFile} {source : Text}
  {found : List Extracted}

/-- The only file gives the declarations of its text. -/
lemma HoldsOnly.gives {config : Config} (h : HoldsOnly config tree file source)
    (hextract : extract source = .ok found) :
    List.Forall₂ SourceFile.Gives [file] [⟨file.path, found⟩] :=
  .cons ⟨h.shortPath, rfl, source, h.text, hextract⟩ .nil

/-- A text whose declarations are all accepted is loaded. -/
lemma textOutcome_of_accepted (h : HoldsOnly engine.config tree file source)
    (hextract : extract source = .ok found)
    (haccepted : ∀ d ∈ found, d.entry.accepted = true) :
    TextOutcome engine tree file.path source := by
  have hentries : ∀ entry ∈ found.map Extracted.entry, entry.accepted = true :=
    List.forall_mem_map.mpr haccepted
  have hunits : ∀ unit ∈ [SourceUnit.mk file.path found], allAccepted unit.entries = true :=
    List.forall_mem_singleton.mpr (List.all_eq_true.mpr hentries)
  have hfile := (Loads.loaded h.scanned (h.gives hextract) hunits).compileAll_eq
  rw [List.flatMap_singleton, List.flatMap_singleton] at hfile
  have htext : engine.compileSource source =
      (.ok (found.map fun d => compile d.declaration d.fields).length,
        { engine with cache := engine.cache.insertAll (found.map Extracted.entry) }) := by
    rw [engine.compileSource_of_extract hextract, engine.loadEntries_of_accepted hentries,
      List.length_map, List.length_map]
  refine .loaded (validateSource_of_extract hextract) ?_ htext hfile ?_
  · exact List.forall_mem_map.mpr haccepted
  · exact (List.length_map _).symm

/-- A text with a rejected declaration is refused because of the first one. -/
lemma textOutcome_of_rejected {earlier later : List Extracted} {d : Extracted}
    {fault : CompileFault} (h : HoldsOnly engine.config tree file source)
    (hextract : extract source = .ok (earlier ++ d :: later))
    (hearlier : ∀ other ∈ earlier, other.entry.accepted = true)
    (hfault : deriveFacts d.declaration d.fields = .error fault) :
    TextOutcome engine tree file.path source := by
  have hvalidate := validateSource_of_extract hextract
  rw [List.map_append, List.map_cons] at hvalidate
  have hentries : ∀ entry ∈ earlier.map Extracted.entry, entry.accepted = true :=
    List.forall_mem_map.mpr hearlier
  have htext : engine.compileSource source =
      (.error (Cause.rejected d.declaration fault.message), engine) := by
    rw [engine.compileSource_of_extract hextract, List.map_append, List.map_cons]
    exact engine.loadEntries_of_rejected hentries hfault
  have hread : List.Forall₂ SourceFile.Gives [file]
      ([] ++ SourceUnit.mk file.path (earlier ++ d :: later) :: []) := h.gives hextract
  have hfile := (Loads.rejected h.scanned hread (List.forall_mem_nil _) rfl hearlier hfault).compileAll_eq
  have hresult : (compile d.declaration d.fields).fault = some fault := by
    rw [compile, hfault]
  exact .refused (.rejected hvalidate (List.forall_mem_map.mpr hearlier) hresult) htext hfile

end Found

/-- Every text has an outcome. -/
theorem textOutcome (engine : Engine σ) {tree : FileTree} {file : SourceFile} {source : Text}
    (h : HoldsOnly engine.config tree file source) : TextOutcome engine tree file.path source := by
  cases hextract : extract source with
  | error failure => exact textOutcome_of_malformed engine h hextract
  | ok found =>
    by_cases haccepted : ∀ d ∈ found, d.entry.accepted = true
    · exact textOutcome_of_accepted engine h hextract haccepted
    · obtain ⟨earlier, d, later, rfl, hd, hearlier⟩ := exists_first_not found haccepted
      cases hfault : deriveFacts d.declaration d.fields with
      | ok derived => exact absurd (Entry.accepted_iff.mpr ⟨derived, hfault⟩) hd
      | error fault => exact textOutcome_of_rejected engine h hextract hearlier hfault

/-! ### Agreement -/

/-- In what the three ways to load a text agree. -/
structure LoadersAgree (engine : Engine σ) (tree : FileTree) (path source : Text) : Prop where
  /-- The text is loaded exactly if its validation finds nothing wrong. -/
  loaded_iff_valid : (∃ count, (engine.compileSource source).1 = .ok count) ↔
    ∃ results, validateSource source = .ok results ∧ ∀ result ∈ results, result.isOk = true
  /-- The text is loaded as it is exactly if it is loaded from its file. -/
  loaded_iff_loadedFile : (∃ count, (engine.compileSource source).1 = .ok count) ↔
    ∃ report, (engine.compileAll tree).1 = .ok report
  /-- If the text is loaded, both loaders leave the same engine and count the declarations that
  validation reports on. -/
  success : ∀ count report, (engine.compileSource source).1 = .ok count →
    (engine.compileAll tree).1 = .ok report →
      (engine.compileSource source).2 = (engine.compileAll tree).2 ∧ report.declarations = count ∧
        ∃ results, validateSource source = .ok results ∧ results.length = count
  /-- If the text is not loaded, both loaders leave everything as it is and fail for the same
  cause, which loading from a file also places there. -/
  failure : ∀ failure, (engine.compileSource source).1 = .error failure →
    (engine.compileSource source).2 = engine ∧ (engine.compileAll tree).2 = engine ∧
      ∃ line, (engine.compileAll tree).1 =
        .error ⟨failure.cause, some ⟨some path, some line⟩⟩
  /-- That cause is what validation finds wrong first. -/
  culprit : ∀ failure, (engine.compileSource source).1 = .error failure → Culprit source failure

/-- The three ways to load a text agree on every text, from every cache. -/
theorem loaders_agree (engine : Engine σ) {tree : FileTree} {file : SourceFile} {source : Text}
    (h : HoldsOnly engine.config tree file source) :
    LoadersAgree engine tree file.path source := by
  cases textOutcome engine h with
  | @refused cause line hculprit htext hfile =>
    have hnotLoaded : ¬ ∃ count, (engine.compileSource source).1 = .ok count := by
      rw [htext]
      nofun
    have hnotLoadedFile : ¬ ∃ report, (engine.compileAll tree).1 = .ok report := by
      rw [hfile]
      nofun
    refine ⟨iff_of_false hnotLoaded hculprit.not_valid, iff_of_false hnotLoaded hnotLoadedFile,
      ?_, ?_, ?_⟩
    · intro count report hcount
      exact absurd ⟨count, hcount⟩ hnotLoaded
    · intro failure hfailure
      rw [htext] at hfailure ⊢
      cases hfailure
      rw [hfile]
      exact ⟨rfl, rfl, line, rfl⟩
    · intro failure hfailure
      rw [htext] at hfailure
      cases hfailure
      exact hculprit
  | @loaded results report cache hvalidate hresults htext hfile hcount =>
    have hloaded : ∃ count, (engine.compileSource source).1 = .ok count := by
      rw [htext]
      exact ⟨_, rfl⟩
    have hloadedFile : ∃ report, (engine.compileAll tree).1 = .ok report := by
      rw [hfile]
      exact ⟨_, rfl⟩
    have hnotRefused : ∀ failure, (engine.compileSource source).1 ≠ .error failure := by
      rw [htext]
      nofun
    refine ⟨iff_of_true hloaded ⟨results, hvalidate, hresults⟩, iff_of_true hloaded hloadedFile,
      ?_, ?_, ?_⟩
    · intro count found hcount' hreport
      rw [htext] at hcount' ⊢
      rw [hfile] at hreport ⊢
      cases hcount'
      cases hreport
      exact ⟨rfl, hcount, results, hvalidate, rfl⟩
    · intro failure hfailure
      exact absurd hfailure (hnotRefused failure)
    · intro failure hfailure
      exact absurd hfailure (hnotRefused failure)

/-- A text with an unknown keyword in its second line, in a folder with other files. -/
theorem loaders_agree_unknown :
    let source : Text :=
      "\"(Local/get-in k)\": \x7breq: \x7b\x7d\x7d\n\"(Nope)\": \x7breq: \x7b\x7d\x7d"
    let file : SourceFile := ⟨"data/api/keys.ts", Utf8.encode source⟩
    let entries : List (Text × Node) :=
      [("notes.md", .file []), ("keys.ts", .file (Utf8.encode source))]
    let tree : FileTree := ⟨.folder [("data", .folder [("api", .folder entries)])], []⟩
    let engine : Engine Slots :=
      ⟨Config.default, SortedMap.empty, Transport.echo Slots, Storage.memory, SortedMap.empty⟩
    HoldsOnly engine.config tree file source ∧ LoadersAgree engine tree file.path source := by
  intro source file entries tree engine
  have hroot : tree.open? engine.config.sourceRoot = .ok (.folder entries) := rfl
  have hfiles : (sourcesBelow engine.config.sourceRoot (.folder entries)
      engine.config.extensions).map (fun f => ⟨pathBelow engine.config.sourceRoot f.1, f.2⟩) =
        [file] := by
    decide +kernel
  have hscanned : Scanned engine.config tree [file] := hfiles ▸ scanned_of_folder hroot
  have hholds : HoldsOnly engine.config tree file source :=
    ⟨hscanned, by decide +kernel, Utf8.decode?_encode source⟩
  exact ⟨hholds, loaders_agree engine hholds⟩

end Endpoints
