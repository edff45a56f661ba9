import Endpoints.Proofs.BulkLoad
import Endpoints.Proofs.FolderListings
import Mathlib.Data.List.Sort

/-!
# Source files are taken in the order of their paths

A scan takes every file below the root directory that has one of the extensions, and it takes them
in the order of their paths.  Paths are compared by their components: one that leads through a
folder `a` comes before one that leads through a folder `a-b`, although a slash comes after a dash
as a character.

The scan compares the names that lead to a file and not its path, and the components of the path
are those of the root directory and then these names (`Path.components_pathBelow`).  So the paths
ascend, no path is taken twice, and the files are determined by which files there are
(`List.Pairwise.eq_of_mem_iff`), in whatever order the folders list them.
-/

namespace Endpoints

/-! ### The components of a path -/

namespace Path

/-- The segments of a path that lead to another folder or to an entry: the empty ones and the single
dots are left out.  A slash or a dot at the start of a path is left out with them, as paths below
one directory start alike. -/
def components (path : Text) : List Text :=
  (segments path).filter fun segment => Step.ofSegment segment != .stay

/-- A slash ends a component. -/
lemma components_append_slash (front behind : Text) :
    components (front ++ '/' :: behind) = components front ++ components behind := by
  have hsegments : segments (front ++ '/' :: behind) = segments front ++ segments behind :=
    List.splitOnP_append_cons front behind (beq_self_eq_true '/')
  rw [components, hsegments, List.filter_append]
  rfl

/-- The name of an entry is one component. -/
lemma components_name {name : Text} (h : IsEntryName name) : components name = [name] := by
  obtain ⟨hdown, hslash⟩ := h
  rw [components, segments, List.splitOn_eq_singleton hslash, List.filter_cons_of_pos,
    List.filter_nil]
  rw [hdown]
  rfl

/-- The path of an entry has the components of its directory and its name, whether the path of the
directory ends with a slash or not. -/
lemma components_join (directory : Text) {name : Text} (h : IsEntryName name) :
    components (join directory name) = components directory ++ [name] := by
  have hempty : components [] = [] := rfl
  unfold join
  split
  · next hjoin =>
    rw [Bool.or_eq_true, List.isEmpty_iff, decide_eq_true_iff] at hjoin
    rcases hjoin with rfl | hlast
    · exact components_name h
    · obtain ⟨front, rfl⟩ := List.getLast?_eq_some_iff.mp hlast
      rw [List.append_assoc, List.singleton_append, components_append_slash,
        components_append_slash, hempty, List.append_nil, components_name h]
  · rw [components_append_slash, components_name h]

/-- A path below a directory has the components of the directory and then the names that lead on. -/
theorem components_pathBelow (directory : Text) {names : List Text}
    (h : ∀ name ∈ names, IsEntryName name) :
    components (pathBelow directory names) = components directory ++ names := by
  induction names generalizing directory with
  | nil => rw [List.append_nil]; rfl
  | cons name rest ih =>
    obtain ⟨hname, hrest⟩ := List.forall_mem_cons.mp h
    rw [pathBelow, List.foldl_cons, ← pathBelow, ih _ hrest, components_join _ hname,
      List.append_assoc, List.singleton_append]

end Path

/-- The path of a file comes before that of another one, by their components. -/
def SourceFile.Before (a b : SourceFile) : Prop :=
  Path.components a.path < Path.components b.path

namespace SourceFile

instance : DecidableRel Before := fun a b =>
  inferInstanceAs (Decidable (Path.components a.path < Path.components b.path))

instance : Std.Irrefl Before := ⟨fun _ => List.lt_irrefl _⟩

instance : Std.Antisymm Before := ⟨fun _ _ h h' => absurd h' (List.lt_asymm h)⟩

example : Before ⟨("api/a/x.ts" : Text), []⟩ ⟨("api/a-b/x.ts" : Text), []⟩ ∧
    ("api/a-b/x.ts" : Text) < ("api/a/x.ts" : Text) := by decide

end SourceFile

/-! ### Extensions -/

/-- A file name ends in one of the extensions behind its last dot, which is not its first
character. -/
def EndsIn (extensions : List Text) (name : Text) : Prop :=
  ∃ stem extension, name = stem ++ '.' :: extension ∧ stem ≠ [] ∧ '.' ∉ extension ∧
    extension ∈ extensions

/-- The extension is what stands behind the last dot. -/
lemma Path.extension?_eq_some_iff {name extension : Text} :
    Path.extension? name = some extension ↔
      ∃ stem, name = stem ++ '.' :: extension ∧ stem ≠ [] ∧ '.' ∉ extension := by
  unfold Path.extension?
  dsimp only
  constructor
  · intro h
    split at h
    · next hlength =>
      cases h
      have hlt : (name.reverse.takeWhile (· != '.')).length < name.reverse.length := by
        rw [List.length_reverse] at hlength ⊢
        omega
      obtain ⟨hdot, stem, hname⟩ := takeWhile_ne_iff.mp ⟨hlt, rfl⟩
      have hstem : stem ≠ [] := by
        rintro rfl
        have hwhole := congrArg List.length hname
        rw [List.length_append, List.length_singleton, List.length_reverse] at hwhole
        rw [List.length_reverse] at hlength
        omega
      refine ⟨stem.reverse, ?_, List.reverse_ne_nil_iff.mpr hstem, ?_⟩
      · have hsplit := List.reverse_eq_iff.mp hname
        rwa [List.reverse_append, List.reverse_cons, List.append_assoc,
          List.singleton_append] at hsplit
      · rwa [List.mem_reverse]
    · cases h
  · rintro ⟨stem, rfl, hstem, hdot⟩
    have hreverse : (stem ++ '.' :: extension).reverse =
        extension.reverse ++ '.' :: stem.reverse := by
      rw [List.reverse_append, List.reverse_cons, List.append_assoc, List.singleton_append]
    obtain ⟨-, htake⟩ :=
      takeWhile_ne_iff.mpr ⟨mt List.mem_reverse.mp hdot, stem.reverse, hreverse⟩
    have hpos := List.length_pos_iff.mpr hstem
    rw [htake, List.reverse_reverse, if_pos]
    rw [List.length_append, List.length_cons]
    omega

/-- A file has one of the extensions exactly if its name ends in it. -/
lemma hasExtension_iff {extensions : List Text} {name : Text} :
    hasExtension extensions name = true ↔ EndsIn extensions name := by
  unfold hasExtension EndsIn
  constructor
  · intro h
    split at h
    · cases h
    · next extension hextension =>
      obtain ⟨stem, hname, hstem, hdot⟩ := Path.extension?_eq_some_iff.mp hextension
      exact ⟨stem, extension, hname, hstem, hdot, List.contains_iff_mem.mp h⟩
  · rintro ⟨stem, extension, hname, hstem, hdot, hmem⟩
    rw [Path.extension?_eq_some_iff.mpr ⟨stem, hname, hstem, hdot⟩]
    exact List.contains_iff_mem.mpr hmem

/-! ### Scanning -/

/-- The source files below the folder at a root directory: those at a place below it, whose name
ends in one of the extensions. -/
def Node.HasSource (folder : Node) (root : Text) (extensions : List Text) (file : SourceFile) :
    Prop :=
  ∃ names name, folder.at? (names ++ [name]) = some (.file file.content) ∧
    EndsIn extensions name ∧ file.path = pathBelow root (names ++ [name])

/-- The last of the names that lead to a source file ends in one of the extensions. -/
lemma isSource_iff {extensions names : List Text} :
    isSource extensions names = true ↔
      ∃ front name, names = front ++ [name] ∧ EndsIn extensions name := by
  unfold isSource
  constructor
  · intro h
    split at h
    · cases h
    · next name hlast =>
      obtain ⟨front, hnames⟩ := List.getLast?_eq_some_iff.mp hlast
      exact ⟨front, name, hnames, hasExtension_iff.mp h⟩
  · rintro ⟨front, name, rfl, hname⟩
    rw [List.getLast?_append, List.getLast?_singleton, Option.some_or]
    exact hasExtension_iff.mpr hname

/-- The source files below a folder are the same in whatever order the folders list their
entries. -/
lemma Node.Relisted.hasSource_iff {folder folder' : Node} (h : folder.Relisted folder')
    (hproper : folder.Proper) {root : Text} {extensions : List Text} {file : SourceFile} :
    folder'.HasSource root extensions file ↔ folder.HasSource root extensions file := by
  simp only [Node.HasSource, h.at?_eq_file_iff hproper]

/-- The source files below the folder at a root directory, in the order in which they are taken. -/
def scan (root : Text) (folder : Node) (extensions : List Text) : List SourceFile :=
  (sourcesBelow root folder extensions).map fun f => ⟨pathBelow root f.1, f.2⟩

/-- A root that is a directory is scanned. -/
lemma collectSources_eq {tree : FileTree} {root : Text} {entries : List (Text × Node)}
    (hroot : tree.open? root = .ok (.folder entries)) (extensions : List Text) :
    collectSources tree root extensions = .ok (scan root (.folder entries) extensions) := by
  rw [collectSources, hroot]
  rfl

section Scan

variable {root : Text} {entries : List (Text × Node)} {extensions : List Text}
  (hproper : (Node.folder entries).Proper) (hreadable : Node.Readable root (.folder entries))

include hproper hreadable

/-- The files that are found are those at the places below the folder whose last name has one of
the extensions. -/
lemma mem_sourcesBelow_iff {names : List Text} {content : Bytes} :
    (names, content) ∈ sourcesBelow root (.folder entries) extensions ↔
      (Node.folder entries).at? names = some (.file content) ∧
        isSource extensions names = true := by
  rw [sourcesBelow, List.mem_mergeSort, List.mem_filter, Node.mem_files_iff hproper hreadable]

/-- The names that lead to the files that are found ascend. -/
lemma ascending_sourcesBelow :
    (sourcesBelow root (.folder entries) extensions).Pairwise fun a b => a.1 < b.1 := by
  have hnodup : (sourcesBelow root (.folder entries) extensions).Nodup :=
    (List.mergeSort_perm _ _).nodup_iff.mpr ((Node.nodup_files hproper root).filter _)
  refine ((pairwise_sourcesBelow root _ extensions).and hnodup).imp_of_mem ?_
  rintro ⟨names, content⟩ ⟨names', content'⟩ hfile hfile' ⟨hle, hne⟩
  rcases List.le_iff_lt_or_eq.mp (List.not_lt.mp hle) with hlt | rfl
  · exact hlt
  · have hplace := ((mem_sourcesBelow_iff hproper hreadable).mp hfile).1
    rw [((mem_sourcesBelow_iff hproper hreadable).mp hfile').1] at hplace
    cases hplace
    exact absurd rfl hne

/-- The source files below the folder are taken. -/
lemma mem_scan_iff {file : SourceFile} :
    file ∈ scan root (.folder entries) extensions ↔
      (Node.folder entries).HasSource root extensions file := by
  rw [scan, List.mem_map]
  constructor
  · rintro ⟨⟨names, content⟩, hfile, rfl⟩
    obtain ⟨hplace, hsource⟩ := (mem_sourcesBelow_iff hproper hreadable).mp hfile
    obtain ⟨front, name, rfl, hname⟩ := isSource_iff.mp hsource
    exact ⟨front, name, hplace, hname, rfl⟩
  · rintro ⟨front, name, hplace, hname, hpath⟩
    refine ⟨(front ++ [name], file.content), ?_, ?_⟩
    · exact (mem_sourcesBelow_iff hproper hreadable).mpr
        ⟨hplace, isSource_iff.mpr ⟨front, name, rfl, hname⟩⟩
    · rw [← hpath]

/-- The paths of the files that are taken ascend. -/
lemma pairwise_scan : (scan root (.folder entries) extensions).Pairwise SourceFile.Before := by
  refine List.pairwise_map.mpr ((ascending_sourcesBelow hproper hreadable).imp_of_mem ?_)
  rintro ⟨names, content⟩ ⟨names', content'⟩ hfile hfile' hlt
  have hnames := (hproper.at? ((mem_sourcesBelow_iff hproper hreadable).mp hfile).1).2
  have hnames' := (hproper.at? ((mem_sourcesBelow_iff hproper hreadable).mp hfile').1).2
  rw [SourceFile.Before, Path.components_pathBelow root hnames,
    Path.components_pathBelow root hnames']
  exact List.append_left_lt hlt

/-- The path of a folder is not the path of a file that is taken. -/
lemma pathBelow_not_mem_scan {names : List Text} {below : List (Text × Node)}
    (hfolder : (Node.folder entries).at? names = some (.folder below)) :
    pathBelow root names ∉ (scan root (.folder entries) extensions).map (·.path) := by
  intro hmem
  obtain ⟨file, hfile, hpath⟩ := List.mem_map.mp hmem
  obtain ⟨front, name, hplace, -, hfilePath⟩ := (mem_scan_iff hproper hreadable).mp hfile
  have hcomponents := congrArg Path.components (hfilePath.symm.trans hpath)
  rw [Path.components_pathBelow root (hproper.at? hplace).2,
    Path.components_pathBelow root (hproper.at? hfolder).2] at hcomponents
  rw [List.append_cancel_left hcomponents, hfolder] at hplace
  cases hplace

end Scan

/-- A source scan takes every file below the root directory whose name ends in one of the
extensions, and nothing else: no folder, whatever its name.  Each path is taken once, the paths
ascend component by component, and a tree whose folders list their entries in another order gives
the same files. -/
theorem sources_in_path_order {tree : FileTree} {root : Text} {entries : List (Text × Node)}
    (hroot : tree.open? root = .ok (.folder entries)) (hproper : tree.root.Proper)
    (hreadable : Node.Readable root (.folder entries)) (extensions : List Text) :
    ∃ files, collectSources tree root extensions = .ok files ∧
      (∀ file, file ∈ files ↔ (Node.folder entries).HasSource root extensions file) ∧
      (∀ names below, (Node.folder entries).at? names = some (.folder below) →
        pathBelow root names ∉ files.map (·.path)) ∧
      (files.map (·.path)).Nodup ∧ files.Pairwise SourceFile.Before ∧
      ∀ other, tree.Relisted other → collectSources other root extensions = .ok files := by
  have hproperFolder : (Node.folder entries).Proper := by
    obtain ⟨-, place, -, hplace⟩ := FileTree.exists_place_of_open? hroot
    exact (hproper.at? hplace).1
  have hascending : (scan root (.folder entries) extensions).Pairwise SourceFile.Before :=
    pairwise_scan hproperFolder hreadable
  refine ⟨scan root (.folder entries) extensions, collectSources_eq hroot extensions, ?_, ?_, ?_,
    hascending, ?_⟩
  · exact fun file => mem_scan_iff hproperFolder hreadable
  · exact fun names below => pathBelow_not_mem_scan hproperFolder hreadable
  · refine List.pairwise_map.mpr (hascending.imp ?_)
    intro a b hbefore hpath
    rw [SourceFile.Before, hpath] at hbefore
    exact List.lt_irrefl _ hbefore
  · intro other hother
    obtain ⟨folder, hopen, hrelisted⟩ := hother.open? hproper hroot
    cases folder with
    | file content => cases hrelisted.isFolder
    | folder entries' =>
      have hproper' := hrelisted.proper hproperFolder
      have hreadable' := hrelisted.readable hreadable
      rw [collectSources_eq hopen extensions]
      refine congrArg _ ((pairwise_scan hproper' hreadable').eq_of_mem_iff hascending ?_)
      intro file
      rw [mem_scan_iff hproper' hreadable', mem_scan_iff hproperFolder hreadable,
        hrelisted.hasSource_iff hproperFolder]

/-- A folder whose name looks like that of a source is entered, a hidden file has no extension, and
the folder `a` comes before `a-b` although it is listed behind it. -/
theorem sources_in_path_order_backwards :
    let only (name : Text) : Node := .folder [(name, .file [])]
    let listing : List (Text × Node) :=
      [(".ts", .file []), ("a", only "x.ts"), ("a-b", only "x.ts"), ("dir.ts", only "y.d.ts")]
    let tree : FileTree := ⟨.folder listing, []⟩
    let other : FileTree := ⟨.folder listing.reverse, []⟩
    let files : List SourceFile :=
      ["/a/x.ts", "/a-b/x.ts", "/dir.ts/y.d.ts"].map fun path : String => ⟨path, []⟩
    tree.open? "/" = .ok (.folder listing) ∧ tree.root.Proper ∧
      Node.Readable "/" (.folder listing) ∧ tree.Relisted other ∧
        collectSources other "/" ["ts"] = .ok files := by
  intro only listing tree other files
  have hroot : tree.open? "/" = .ok (.folder listing) := by with_unfolding_all rfl
  have honly : ∀ name, IsEntryName name → (only name).Proper := fun name hname =>
    .folder (List.nodup_singleton _) (List.forall_mem_singleton.mpr hname)
      (List.forall_mem_singleton.mpr (.file []))
  have hopen : ∀ path name, isLongPath path = false → Node.Readable path (only name) :=
    fun path name hshort => .folder hshort (List.forall_mem_singleton.mpr (.file _ []))
  have hproper : tree.root.Proper := by
    refine .folder (by decide) (by decide) ?_
    rw [List.forall_mem_cons, List.forall_mem_cons, List.forall_mem_cons, List.forall_mem_singleton]
    exact ⟨.file [], honly _ (by decide), honly _ (by decide), honly _ (by decide)⟩
  have hreadable : Node.Readable "/" (.folder listing) := by
    refine .folder (by decide) ?_
    rw [List.forall_mem_cons, List.forall_mem_cons, List.forall_mem_cons, List.forall_mem_singleton]
    exact ⟨.file _ [], hopen _ _ (by decide), hopen _ _ (by decide), hopen _ _ (by decide)⟩
  have hrelisted : tree.Relisted other := ⟨.reorder listing.reverse_perm.symm, rfl⟩
  obtain ⟨scanned, hscanned, -, -, -, -, hsame⟩ :=
    sources_in_path_order hroot hproper hreadable ["ts"]
  refine ⟨hroot, hproper, hreadable, hrelisted, ?_⟩
  rw [hsame other hrelisted, ← hscanned, collectSources_eq hroot, scan, sourcesBelow,
    List.mergeSort_of_pairwise (by decide)]
  with_unfolding_all rfl

end Endpoints
