import Endpoints.Proofs.WrittenFiles
import Mathlib.Data.List.Nodup

/-!
# Folders that list their entries in any order

A folder lists its entries in whatever order they were made, and that order should not be seen.  As
long as no two entries of a folder have the same name (`Node.Proper`), the files below a folder are
those at the places below it, each once (`Node.mem_files_iff`, `Node.nodup_files`).  Two trees whose
folders list the same entries in different orders (`Node.Relisted`) have the same files and folders
at the same places, and paths lead to the same place in both
(`Node.Relisted.at?`, `FileTree.Relisted.open?`).
-/

namespace Endpoints

/-- A name that an entry of a folder can have: as a segment of a path it leads down. -/
def IsEntryName (name : Text) : Prop := Step.ofSegment name = .down name ∧ '/' ∉ name

instance : DecidablePred IsEntryName := fun name =>
  inferInstanceAs (Decidable (Step.ofSegment name = .down name ∧ '/' ∉ name))

namespace Node

/-- In no folder of a tree do two entries have the same name, and every name can stand in a path. -/
inductive Proper : Node → Prop
  | file (content : Bytes) : Proper (.file content)
  | folder {entries : List (Text × Node)} (hdistinct : (entries.map Prod.fst).Nodup)
      (hnames : ∀ entry ∈ entries, IsEntryName entry.1)
      (hchildren : ∀ entry ∈ entries, Proper entry.2) : Proper (.folder entries)

/-- Every folder of the tree at a path can be entered: its path is not too long. -/
inductive Readable : Text → Node → Prop
  | file (path : Text) (content : Bytes) : Readable path (.file content)
  | folder {path : Text} {entries : List (Text × Node)} (hshort : isLongPath path = false)
      (hchildren : ∀ entry ∈ entries, Readable (Path.join path entry.1) entry.2) :
      Readable path (.folder entries)

/-- In a proper folder an entry is found under its name. -/
lemma mem_iff_child? {entries : List (Text × Node)} (h : (folder entries).Proper) {name : Text}
    {child : Node} : (name, child) ∈ entries ↔ (folder entries).child? name = some child := by
  cases h with
  | folder hdistinct hnames hchildren => exact mem_iff_lookup hdistinct

/-- What is found below a proper node is proper, and names lead there. -/
lemma Proper.at? {node place : Node} {names : List Text} (hproper : node.Proper)
    (h : node.at? names = some place) : place.Proper ∧ ∀ name ∈ names, IsEntryName name := by
  induction names generalizing node with
  | nil =>
    cases h
    exact ⟨hproper, nofun⟩
  | cons name rest ih =>
    obtain ⟨entries, child, rfl, hchild, hrest⟩ := exists_child_of_at?_cons h
    have hentry := (mem_iff_child? hproper).mpr hchild
    cases hproper with
    | folder hdistinct hnames hchildren =>
      obtain ⟨hplace, hnamesRest⟩ := ih (hchildren _ hentry) hrest
      exact ⟨hplace, List.forall_mem_cons.mpr ⟨hnames _ hentry, hnamesRest⟩⟩

/-! ### The files below a folder -/

lemma filesOfEntries_eq_flatMap (path : Text) (entries : List (Text × Node)) :
    filesOfEntries path entries = entries.flatMap (filesOfEntry path) := by
  induction entries with
  | nil => rfl
  | cons entry rest ih => rw [filesOfEntries, ih, List.flatMap_cons]

/-- A file below an entry of a folder has the name of the entry in front of the names that lead to
it from there. -/
lemma mem_filesOfEntry {path : Text} {entry : Text × Node} {file : List Text × Bytes} :
    file ∈ filesOfEntry path entry ↔
      ∃ names, file.1 = entry.1 :: names ∧
        (names, file.2) ∈ entry.2.files (Path.join path entry.1) := by
  obtain ⟨name, node⟩ := entry
  obtain ⟨places, content⟩ := file
  rw [filesOfEntry, List.mem_map]
  constructor
  · rintro ⟨⟨names, content⟩, hfile, h⟩
    cases h
    exact ⟨names, rfl, hfile⟩
  · rintro ⟨names, rfl, hfile⟩
    exact ⟨(names, content), hfile, rfl⟩

/-- The files below a folder that can be entered are those below its entries. -/
lemma mem_files_folder {path : Text} (hshort : isLongPath path = false)
    {entries : List (Text × Node)} {file : List Text × Bytes} :
    file ∈ (folder entries).files path ↔
      ∃ entry ∈ entries, ∃ names, file.1 = entry.1 :: names ∧
        (names, file.2) ∈ entry.2.files (Path.join path entry.1) := by
  rw [files, if_neg (Bool.not_eq_true _ ▸ hshort), filesOfEntries_eq_flatMap, List.mem_flatMap]
  simp only [mem_filesOfEntry]

/-- The files below a node are those at the places below it. -/
theorem mem_files_iff {node : Node} {path : Text} (hproper : node.Proper)
    (hreadable : Readable path node) {names : List Text} {content : Bytes} :
    (names, content) ∈ node.files path ↔ node.at? names = some (.file content) := by
  induction names generalizing node path with
  | nil =>
    cases hreadable with
    | file path old =>
      rw [files, List.mem_singleton, Node.at?, Prod.mk.injEq, Option.some.injEq, file.injEq]
      exact ⟨fun h => h.2.symm, fun h => ⟨rfl, h.symm⟩⟩
    | folder hshort hchildren =>
      refine ⟨fun hfile => ?_, nofun⟩
      obtain ⟨entry, -, names, hnames, -⟩ := (mem_files_folder hshort).mp hfile
      cases hnames
  | cons name rest ih =>
    cases hreadable with
    | file path old =>
      refine ⟨fun hfile => ?_, nofun⟩
      rw [files, List.mem_singleton] at hfile
      cases hfile
    | @folder path entries hshort hchildren =>
      have hbelow : ∀ child, (name, child) ∈ entries →
          ((rest, content) ∈ child.files (Path.join path name) ↔
            child.at? rest = some (.file content)) := by
        intro child hentry
        refine ih ?_ (hchildren _ hentry)
        cases hproper with
        | folder hdistinct hnames hproper => exact hproper _ hentry
      rw [mem_files_folder hshort, at?_cons, Option.bind_eq_some_iff]
      constructor
      · rintro ⟨⟨k, child⟩, hentry, names, hnames, hfile⟩
        cases hnames
        exact ⟨child, (mem_iff_child? hproper).mp hentry, (hbelow child hentry).mp hfile⟩
      · rintro ⟨child, hchild, hfile⟩
        have hentry := (mem_iff_child? hproper).mpr hchild
        exact ⟨(name, child), hentry, rest, rfl, (hbelow child hentry).mpr hfile⟩

/-- No file below a node is taken twice.  Files below different entries are told apart by their
first name. -/
theorem nodup_files {node : Node} (hproper : node.Proper) (path : Text) :
    (node.files path).Nodup := by
  induction hproper generalizing path with
  | file content => exact List.nodup_singleton _
  | folder hdistinct hnames hchildren ih =>
    rw [files]
    split
    · exact List.nodup_singleton _
    · rw [filesOfEntries_eq_flatMap, List.nodup_flatMap]
      constructor
      · rintro ⟨name, child⟩ hentry
        refine (ih _ hentry (Path.join path name)).map ?_
        rintro ⟨names, content⟩ ⟨names', content'⟩ h
        cases h
        rfl
      · refine (List.pairwise_map.mp hdistinct).imp ?_
        intro a b hne
        refine List.disjoint_left.mpr fun file hfile hfile' => ?_
        obtain ⟨names, hnames, -⟩ := mem_filesOfEntry.mp hfile
        obtain ⟨names', hnames', -⟩ := mem_filesOfEntry.mp hfile'
        exact hne (List.cons.inj (hnames.symm.trans hnames')).1

/-! ### Other orders -/

/-- The same files and folders, with the entries of any of the folders listed in any order. -/
inductive Relisted : Node → Node → Prop
  | refl (node : Node) : Relisted node node
  | reorder {entries entries' : List (Text × Node)} (h : entries.Perm entries') :
      Relisted (.folder entries) (.folder entries')
  | within {before after : List (Text × Node)} {name : Text} {child child' : Node}
      (h : Relisted child child') :
      Relisted (.folder (before ++ (name, child) :: after))
        (.folder (before ++ (name, child') :: after))
  | trans {node between node' : Node} (h : Relisted node between) (h' : Relisted between node') :
      Relisted node node'

namespace Relisted

variable {node node' : Node}

/-- The entries can be listed in their former order again. -/
lemma symm (h : Relisted node node') : Relisted node' node := by
  induction h with
  | refl node => exact .refl node
  | reorder h => exact .reorder h.symm
  | within h ih => exact .within ih
  | trans h h' ih ih' => exact ih'.trans ih

/-- A folder is relisted as a folder. -/
lemma isFolder (h : Relisted node node') : node'.isFolder = node.isFolder := by
  induction h with
  | refl node => rfl
  | reorder h | within h ih => rfl
  | trans h h' ih ih' => exact ih'.trans ih

/-- A file is relisted as itself. -/
lemma eq_of_isFolder (h : Relisted node node') (hfile : node.isFolder = false) : node' = node := by
  induction h with
  | refl node => rfl
  | reorder h | within h ih => cases hfile
  | trans h h' ih ih' => exact (ih' (h.isFolder.trans hfile)).trans (ih hfile)

/-- The entries of proper folders have distinct names in any order. -/
lemma proper (h : Relisted node node') (hproper : node.Proper) : node'.Proper := by
  induction h with
  | refl node => exact hproper
  | trans h h' ih ih' => exact ih' (ih hproper)
  | reorder h =>
    cases hproper with
    | folder hdistinct hnames hchildren =>
      refine .folder ((h.map Prod.fst).nodup_iff.mp hdistinct) ?_ ?_
      · exact fun entry hentry => hnames entry (h.mem_iff.mpr hentry)
      · exact fun entry hentry => hchildren entry (h.mem_iff.mpr hentry)
  | within h ih =>
    cases hproper with
    | folder hdistinct hnames hchildren =>
      rw [List.map_append, List.map_cons] at hdistinct
      rw [List.forall_mem_append, List.forall_mem_cons] at hnames hchildren
      refine .folder ?_ ?_ ?_
      · rwa [List.map_append, List.map_cons]
      · rwa [List.forall_mem_append, List.forall_mem_cons]
      · rw [List.forall_mem_append, List.forall_mem_cons]
        exact ⟨hchildren.1, ih hchildren.2.1, hchildren.2.2⟩

/-- Folders can be entered in any order. -/
lemma readable (h : Relisted node node') {path : Text} (hreadable : Readable path node) :
    Readable path node' := by
  induction h generalizing path with
  | refl node => exact hreadable
  | trans h h' ih ih' => exact ih' (ih hreadable)
  | reorder h =>
    cases hreadable with
    | folder hshort hchildren =>
      exact .folder hshort fun entry hentry => hchildren entry (h.mem_iff.mpr hentry)
  | within h ih =>
    cases hreadable with
    | folder hshort hchildren =>
      rw [List.forall_mem_append, List.forall_mem_cons] at hchildren
      refine .folder hshort ?_
      rw [List.forall_mem_append, List.forall_mem_cons]
      exact ⟨hchildren.1, ih hchildren.2.1, hchildren.2.2⟩

/-- What is found under a name is relisted with the folder. -/
lemma child? (h : Relisted node node') (hproper : node.Proper) {name : Text} {child : Node}
    (hchild : node.child? name = some child) :
    ∃ child', node'.child? name = some child' ∧ Relisted child child' := by
  induction h generalizing child with
  | refl node => exact ⟨child, hchild, .refl child⟩
  | trans h h' ih ih' =>
    obtain ⟨between, hbetween, hrelisted⟩ := ih hproper hchild
    obtain ⟨child', hchild', hrelisted'⟩ := ih' (h.proper hproper) hbetween
    exact ⟨child', hchild', hrelisted.trans hrelisted'⟩
  | reorder h =>
    have hentry := h.mem_iff.mp ((mem_iff_child? hproper).mpr hchild)
    exact ⟨child, (mem_iff_child? ((reorder h).proper hproper)).mp hentry, .refl child⟩
  | @within before after k old new h ih =>
    have hentry := (mem_iff_child? hproper).mpr hchild
    rw [List.mem_append, List.mem_cons, Prod.mk.injEq] at hentry
    have hfound : ∀ entry ∈ before ++ (k, new) :: after,
        (folder (before ++ (k, new) :: after)).child? entry.1 = some entry.2 :=
      fun entry hentry => (mem_iff_child? ((within h).proper hproper)).mp hentry
    rw [List.forall_mem_append, List.forall_mem_cons] at hfound
    rcases hentry with hbefore | ⟨rfl, rfl⟩ | hafter
    · exact ⟨child, hfound.1 _ hbefore, .refl child⟩
    · exact ⟨new, hfound.2.1, h⟩
    · exact ⟨child, hfound.2.2 _ hafter, .refl child⟩

/-- What is found at a place is relisted with the tree. -/
theorem at? (h : Relisted node node') (hproper : node.Proper) {names : List Text} {place : Node}
    (hplace : node.at? names = some place) :
    ∃ place', node'.at? names = some place' ∧ Relisted place place' := by
  induction names generalizing node node' with
  | nil =>
    cases hplace
    exact ⟨node', rfl, h⟩
  | cons name rest ih =>
    rw [at?_cons] at hplace
    obtain ⟨child, hchild, hrest⟩ := Option.bind_eq_some_iff.mp hplace
    obtain ⟨child', hchild', hrelisted⟩ := h.child? hproper hchild
    have hone : node.at? [name] = some child := by
      rw [at?_cons, hchild]
      rfl
    obtain ⟨place', hplace', hbelow⟩ := ih hrelisted (hproper.at? hone).1 hrest
    refine ⟨place', ?_, hbelow⟩
    rw [at?_cons, hchild']
    exact hplace'

/-- The same files are at the same places. -/
theorem at?_eq_file_iff (h : Relisted node node') (hproper : node.Proper) {names : List Text}
    {content : Bytes} :
    node'.at? names = some (.file content) ↔ node.at? names = some (.file content) := by
  have hsame : ∀ {a b : Node}, Relisted a b → a.Proper → a.at? names = some (.file content) →
      b.at? names = some (.file content) := by
    intro a b hrelisted hproper hfile
    obtain ⟨place, hplace, hsame⟩ := hrelisted.at? hproper hfile
    rw [hplace, hsame.eq_of_isFolder rfl]
  exact ⟨hsame h.symm (h.proper hproper), hsame h hproper⟩

end Relisted

end Node

/-! ### Paths in relisted trees -/

namespace FileTree

/-- The same tree and working directory, with the entries of folders listed in any order. -/
structure Relisted (tree other : FileTree) : Prop where
  root : tree.root.Relisted other.root
  workingDirectory : other.workingDirectory = tree.workingDirectory

/-- A path that leads to a node is followed to its place. -/
lemma exists_place_of_open? {tree : FileTree} {path : Text} {node : Node}
    (h : tree.open? path = .ok node) :
    pathFault? path = none ∧ ∃ place,
      tree.follow (tree.startOf path) ((Path.segments path).map Step.ofSegment) = .ok place ∧
        tree.at? place = some node := by
  unfold open? at h
  split at h
  · cases h
  · next hpath =>
    dsimp only [bind, Except.bind] at h
    split at h
    · cases h
    · next place hfollow =>
      split at h
      · next found hnode =>
        cases h
        exact ⟨hpath, place, hfollow, hnode⟩
      · cases h

/-- A path leads to the same node of a relisted tree, which is relisted as well. -/
theorem Relisted.open? {tree other : FileTree} (h : tree.Relisted other)
    (hproper : tree.root.Proper) {path : Text} {node : Node} (hopen : tree.open? path = .ok node) :
    ∃ node', other.open? path = .ok node' ∧ node.Relisted node' := by
  obtain ⟨hpath, place, hfollow, hnode⟩ := exists_place_of_open? hopen
  have hextends : other.Extends tree := by
    intro place kind hkind
    obtain ⟨found, hfound, rfl⟩ := Option.map_eq_some_iff.mp hkind
    obtain ⟨found', hfound', hrelisted⟩ := h.root.at? hproper hfound
    exact Option.map_eq_some_iff.mpr ⟨found', hfound', hrelisted.isFolder⟩
  have hstart : other.startOf path = tree.startOf path := by
    rw [startOf, startOf, h.workingDirectory]
  obtain ⟨node', hnode', hrelisted⟩ := h.root.at? hproper hnode
  exact ⟨node', open?_of_follow hpath (hstart ▸ hextends.follow hfollow) hnode', hrelisted⟩

end FileTree

end Endpoints
