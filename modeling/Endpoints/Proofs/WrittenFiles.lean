import Endpoints.Files
import Endpoints.SortedMap
import Mathlib.Data.List.Basic

/-!
# A written file is read back

A path that was written leads to what was written.  That needs an argument because the path is
followed again, in the tree with the file: a step back up and down again could lead through the
place at which the file now stands.  Writing a file turns no folder into a file and no file into a
folder and removes neither (`Node.kind?_put`), and nothing else decides where a path leads
(`FileTree.Extends.follow`).
-/

namespace Endpoints

/-- A changed key is found with its new value, and the other keys with their old ones. -/
lemma lookup_alterEntry {α : Type} (key name : Text) (change : Option α → α)
    (entries : List (Text × α)) :
    (alterEntry key change entries).lookup name =
      if name = key then some (change (entries.lookup key)) else entries.lookup name := by
  induction entries with
  | nil =>
    rw [alterEntry, lookup_cons]
    rfl
  | cons entry rest ih =>
    obtain ⟨k, v⟩ := entry
    rw [alterEntry]
    split
    · next hkey =>
      subst hkey
      rw [lookup_cons, lookup_cons, lookup_cons, if_pos rfl]
      split <;> rfl
    · next hkey =>
      rw [lookup_cons, ih, lookup_cons, lookup_cons, if_neg (Ne.symm hkey)]
      by_cases hname : name = k
      · rw [if_pos hname, if_neg (hname ▸ hkey), if_pos hname]
      · rw [if_neg hname, if_neg hname]

namespace Node

/-- Whether there is a node at a list of names, and whether it is a folder. -/
def kind? (node : Node) (names : List Text) : Option Bool := (node.at? names).map isFolder

lemma at?_cons (node : Node) (name : Text) (rest : List Text) :
    node.at? (name :: rest) = (node.child? name).bind (·.at? rest) := rfl

lemma kind?_cons (node : Node) (name : Text) (rest : List Text) :
    node.kind? (name :: rest) = (node.child? name).bind (·.kind? rest) := by
  rw [kind?, at?_cons, Option.map_bind]
  rfl

/-- A folder after a change of one entry. -/
lemma child?_alterEntry (entries : List (Text × Node)) (key name : Text)
    (change : Option Node → Node) :
    (folder (alterEntry key change entries)).child? name =
      if name = key then some (change ((folder entries).child? key))
      else (folder entries).child? name :=
  lookup_alterEntry key name change entries

/-- What is put at a place is there. -/
theorem at?_put (node : Node) (names : List Text) (new : Node) :
    (node.put names new).at? names = some new := by
  induction names generalizing node with
  | nil => rfl
  | cons name rest ih =>
    cases node with
    | file content =>
      rw [put, at?_cons, child?, List.lookup_cons, beq_self_eq_true]
      exact ih _
    | folder entries =>
      rw [put, at?_cons, child?_alterEntry, if_pos rfl]
      exact ih _

/-- A place below a node lies in an entry of it. -/
lemma exists_child_of_at?_cons {node place : Node} {name : Text} {rest : List Text}
    (h : node.at? (name :: rest) = some place) :
    ∃ entries child, node = .folder entries ∧ (folder entries).child? name = some child ∧
      child.at? rest = some place := by
  cases node with
  | file content => cases h
  | folder entries =>
    obtain ⟨child, hchild, hrest⟩ := Option.bind_eq_some_iff.mp h
    exact ⟨entries, child, rfl, hchild, hrest⟩

/-- In place of a node that is no folder a file changes no kind, as nothing is below either. -/
lemma kind?_file {node : Node} (hfile : node.kind? [] ≠ some true) {place : List Text} {kind : Bool}
    (h : node.kind? place = some kind) (content : Bytes) :
    (file content).kind? place = some kind := by
  cases node with
  | folder entries => exact absurd rfl hfile
  | file old =>
    cases place with
    | nil => exact h
    | cons name rest => cases h

/-- A change of an entry that keeps the kinds of what is in it keeps the kinds of the folder. -/
lemma kind?_alterEntry {entries : List (Text × Node)} {key : Text} {change : Option Node → Node}
    (hchange : ∀ child, (folder entries).child? key = some child →
      ∀ place kind, child.kind? place = some kind →
        (change (some child)).kind? place = some kind)
    {place : List Text} {kind : Bool} (h : (folder entries).kind? place = some kind) :
    (folder (alterEntry key change entries)).kind? place = some kind := by
  cases place with
  | nil => exact h
  | cons name rest =>
    rw [kind?_cons] at h
    rw [kind?_cons, child?_alterEntry]
    split
    · next hname =>
      subst hname
      obtain ⟨child, hchild, hkind⟩ := Option.bind_eq_some_iff.mp h
      rw [hchild]
      exact hchange child hchild rest kind hkind
    · exact h

/-- Writing a file into a folder, in place of no folder, leaves every folder a folder and every file
a file. -/
theorem kind?_put {node : Node} {parent : List Text} {entries : List (Text × Node)} {name : Text}
    (hparent : node.at? parent = some (.folder entries))
    (hfile : node.kind? (parent ++ [name]) ≠ some true) (content : Bytes) {place : List Text}
    {kind : Bool} (h : node.kind? place = some kind) :
    (node.put (parent ++ [name]) (.file content)).kind? place = some kind := by
  induction parent generalizing node place kind with
  | nil =>
    cases hparent
    refine kind?_alterEntry ?_ h
    intro child hchild place kind hkind
    rw [List.nil_append, kind?_cons, hchild] at hfile
    exact kind?_file hfile hkind content
  | cons first rest ih =>
    obtain ⟨siblings, child, rfl, hchild, hrest⟩ := exists_child_of_at?_cons hparent
    refine kind?_alterEntry ?_ h
    intro other hother place kind hkind
    obtain rfl : child = other := Option.some.inj (hchild.symm.trans hother)
    rw [List.cons_append, kind?_cons, hchild] at hfile
    exact ih hrest hfile hkind

end Node

namespace FileTree

/-! ### Following paths -/

/-- Where one step leads from a folder. -/
inductive Goes (tree : FileTree) (place : List Text) : Step → List Text → Prop
  | stay (hfolder : tree.root.kind? place = some true) : Goes tree place .stay place
  | up (hfolder : tree.root.kind? place = some true) : Goes tree place .up place.dropLast
  | down {name : Text} {kind : Bool} (hfolder : tree.root.kind? place = some true)
      (hshort : isLongName name = false)
      (hentry : tree.root.kind? (place ++ [name]) = some kind) :
      Goes tree place (.down name) (place ++ [name])

/-- A folder is there and is a folder. -/
lemma kind?_eq_true_iff {tree : FileTree} {place : List Text} :
    tree.root.kind? place = some true ↔ ∃ entries, tree.at? place = some (.folder entries) := by
  rw [Node.kind?, Option.map_eq_some_iff]
  constructor
  · rintro ⟨node, hnode, hfolder⟩
    cases node with
    | file content => cases hfolder
    | folder entries => exact ⟨entries, hnode⟩
  · rintro ⟨entries, hnode⟩
    exact ⟨_, hnode, rfl⟩

/-- What is no folder is nothing or a file. -/
lemma kind?_ne_true {tree : FileTree} {place : List Text}
    (h : ¬ ((tree.at? place).map Node.isFolder).getD false = true) :
    tree.root.kind? place ≠ some true := by
  intro hfolder
  apply h
  rw [show (tree.at? place).map Node.isFolder = some true from hfolder]
  rfl

lemma isSome_at?_iff {tree : FileTree} {place : List Text} :
    (tree.at? place).isSome = true ↔ ∃ kind, tree.root.kind? place = some kind := by
  rw [← Option.isSome_iff_exists, Node.kind?, Option.isSome_map]
  rfl

/-- Steps are followed one after another. -/
theorem follow_cons_eq_ok_iff {tree : FileTree} {place target : List Text} {step : Step}
    {rest : List Step} :
    tree.follow place (step :: rest) = .ok target ↔
      ∃ next, tree.Goes place step next ∧ tree.follow next rest = .ok target := by
  rw [follow.eq_def]
  dsimp only
  constructor
  · intro h
    split at h
    · cases h
    · cases h
    · next entries hnode =>
      have hfolder := kind?_eq_true_iff.mpr ⟨entries, hnode⟩
      cases step with
      | stay => exact ⟨_, .stay hfolder, h⟩
      | up => exact ⟨_, .up hfolder, h⟩
      | down name =>
        dsimp only at h
        split at h
        · cases h
        · next hlong =>
          split at h
          · next hsome =>
            obtain ⟨kind, hentry⟩ := isSome_at?_iff.mp hsome
            exact ⟨_, .down hfolder (Bool.not_eq_true _ ▸ hlong) hentry, h⟩
          · cases h
  · rintro ⟨next, hgoes, h⟩
    cases hgoes with
    | stay hfolder | up hfolder =>
      obtain ⟨entries, hnode⟩ := kind?_eq_true_iff.mp hfolder
      rw [hnode]
      exact h
    | down hfolder hshort hentry =>
      obtain ⟨entries, hnode⟩ := kind?_eq_true_iff.mp hfolder
      rw [hnode]
      dsimp only
      rw [if_neg (Bool.not_eq_true _ ▸ hshort), if_pos (isSome_at?_iff.mpr ⟨_, hentry⟩)]
      exact h

/-- A path is followed in two parts. -/
lemma follow_append_eq_ok {tree : FileTree} {place between target : List Text}
    {steps more : List Step} (hsteps : tree.follow place steps = .ok between)
    (hmore : tree.follow between more = .ok target) :
    tree.follow place (steps ++ more) = .ok target := by
  induction steps generalizing place with
  | nil =>
    cases hsteps
    exact hmore
  | cons step steps ih =>
    obtain ⟨next, hgoes, hrest⟩ := follow_cons_eq_ok_iff.mp hsteps
    exact follow_cons_eq_ok_iff.mpr ⟨next, hgoes, ih hrest⟩

/-- A path that can be followed leads to the node at its place. -/
lemma open?_of_follow {tree : FileTree} {path : Text} {place : List Text} {node : Node}
    (hpath : pathFault? path = none)
    (hfollow : tree.follow (tree.startOf path) ((Path.segments path).map Step.ofSegment) =
      .ok place)
    (hnode : tree.at? place = some node) : tree.open? path = .ok node := by
  rw [open?, hpath]
  dsimp only [bind, Except.bind]
  rw [hfollow]
  dsimp only
  rw [hnode]

/-- A tree in which every folder of another one is a folder and every file of it a file. -/
def Extends (after before : FileTree) : Prop :=
  ∀ place kind, before.root.kind? place = some kind → after.root.kind? place = some kind

namespace Extends

variable {before after : FileTree} {place target : List Text}

/-- A step leads where it led before. -/
lemma goes (h : after.Extends before) {step : Step} (hgoes : before.Goes place step target) :
    after.Goes place step target := by
  cases hgoes with
  | stay hfolder => exact .stay (h _ _ hfolder)
  | up hfolder => exact .up (h _ _ hfolder)
  | down hfolder hshort hentry => exact .down (h _ _ hfolder) hshort (h _ _ hentry)

/-- A path leads where it led before. -/
theorem follow (h : after.Extends before) {steps : List Step}
    (hfollow : before.follow place steps = .ok target) :
    after.follow place steps = .ok target := by
  induction steps generalizing place with
  | nil => exact hfollow
  | cons step steps ih =>
    obtain ⟨next, hgoes, hrest⟩ := follow_cons_eq_ok_iff.mp hfollow
    exact follow_cons_eq_ok_iff.mpr ⟨next, h.goes hgoes, ih hrest⟩

end Extends

/-! ### Writing -/

/-- What is needed to write a file: its path leads to a folder with its last segment left out, and
that segment is a name for a new file or one to be replaced. -/
inductive Creates (tree : FileTree) (path : Text) (content : Bytes) : FileTree → Prop
  | intro {front : List Text} {last name : Text} {place : List Text}
      {entries : List (Text × Node)} (hpath : pathFault? path = none)
      (hsegments : Path.segments path = front ++ [last]) (hlast : Step.ofSegment last = .down name)
      (hfollow : tree.follow (tree.startOf path) (front.map Step.ofSegment) = .ok place)
      (hfolder : tree.at? place = some (.folder entries)) (hshort : isLongName name = false)
      (hfile : tree.root.kind? (place ++ [name]) ≠ some true) :
      Creates tree path content
        { tree with root := tree.root.put (place ++ [name]) (.file content) }

/-- A list of texts from which nothing is cut at its end. -/
lemma reverse_dropWhile_reverse {segments : List Text}
    (h : segments.length = (segments.reverse.dropWhile (·.isEmpty)).reverse.length) :
    (segments.reverse.dropWhile (·.isEmpty)).reverse = segments := by
  have hsuffix : segments.reverse.dropWhile (·.isEmpty) <:+ segments.reverse :=
    List.dropWhile_suffix _
  rw [List.length_reverse, ← List.length_reverse] at h
  rw [hsuffix.eq_of_length h.symm, List.reverse_reverse]

/-- A file is written only if all that is needed is there. -/
theorem creates_of_create {tree after : FileTree} {path : Text} {content : Bytes}
    (h : tree.create path content = .ok after) : tree.Creates path content after := by
  unfold create at h
  split at h
  · cases h
  · next hpath =>
    dsimp only [bind, Except.bind] at h
    split at h
    · next name hname =>
      split at h
      · cases h
      · next place hfollow =>
        split at h
        · next entries hfolder =>
          split at h
          · cases h
          · next hlength =>
            split at h
            · cases h
            · next hlong =>
              split at h
              · cases h
              · next hfile =>
                cases h
                rw [reverse_dropWhile_reverse (not_not.mp hlength)] at hname hfollow
                obtain ⟨last, hlast, hstep⟩ := Option.map_eq_some_iff.mp hname
                exact .intro hpath (List.dropLast_append_getLast? last hlast).symm hstep hfollow
                  hfolder (Bool.not_eq_true _ ▸ hlong) (kind?_ne_true hfile)
        · cases h
        · cases h
    · split at h
      · cases h
      · cases h

/-- The tree with a new file extends the one without it. -/
lemma Creates.extends {tree after : FileTree} {path : Text} {content : Bytes}
    (h : tree.Creates path content after) : after.Extends tree := by
  cases h with
  | intro hpath hsegments hlast hfollow hfolder hshort hfile =>
    intro place kind hkind
    exact Node.kind?_put hfolder hfile content hkind

/-- A path that was written leads to the file with what was written. -/
theorem open?_of_create {tree after : FileTree} {path : Text} {content : Bytes}
    (h : tree.create path content = .ok after) : after.open? path = .ok (.file content) := by
  have hcreates := creates_of_create h
  have hextends := hcreates.extends
  cases hcreates with
  | @intro front last name place entries hpath hsegments hlast hfollow hfolder hshort hfile =>
    let after : FileTree :=
      { tree with root := tree.root.put (place ++ [name]) (.file content) }
    have hwritten : after.at? (place ++ [name]) = some (.file content) :=
      Node.at?_put tree.root (place ++ [name]) (.file content)
    have hentry : after.root.kind? (place ++ [name]) = some false :=
      congrArg (Option.map Node.isFolder) hwritten
    have hplace : after.root.kind? place = some true :=
      hextends _ _ (kind?_eq_true_iff.mpr ⟨entries, hfolder⟩)
    have hdown : after.follow place [Step.down name] = .ok (place ++ [name]) :=
      follow_cons_eq_ok_iff.mpr ⟨_, .down hplace hshort hentry, rfl⟩
    have hpathFollow : after.follow (tree.startOf path) ((Path.segments path).map Step.ofSegment) =
        .ok (place ++ [name]) := by
      rw [hsegments, List.map_append, List.map_singleton, hlast]
      exact follow_append_eq_ok (hextends.follow hfollow) hdown
    exact open?_of_follow hpath hpathFollow hwritten

end FileTree

end Endpoints
