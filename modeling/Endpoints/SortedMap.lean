import Endpoints.Text

/-!
# Maps sorted by key

A `SortedMap` keeps its entries strictly ascending by key, in the order of code points, so two
maps with the same entries are equal and every listing of one is in the same order.  The fact
cache, request payloads and stored values are such maps.

The insertion works on bare lists first, because a JSON object nests and carries its members as a
list; `SortedMap` then adds the order as a proof field.
-/

namespace Endpoints

theorem Text.eq_of_not_lt {a b : Text} (h : ¬ a < b) (h' : ¬ b < a) : a = b :=
  List.le_antisymm (List.not_lt.1 h') (List.not_lt.1 h)

/-- Puts an entry into a list ascending by key, in place of one with the same key. -/
def insertSorted {α : Type} (key : Text) (value : α) : List (Text × α) → List (Text × α)
  | [] => [(key, value)]
  | (k, v) :: rest =>
    if key < k then (key, value) :: (k, v) :: rest
    else if k < key then (k, v) :: insertSorted key value rest
    else (key, value) :: rest

/-- The value that an entry put into a list ascending by key replaces.  The search for its place
ends at the first key that is not below the new one. -/
def replaced? {α : Type} (key : Text) : List (Text × α) → Option α
  | [] => none
  | (k, v) :: rest =>
    if key < k then none
    else if k < key then replaced? key rest
    else some v

/-- The entries in ascending order; of entries with one key the last stays. -/
def sortEntries {α : Type} (entries : List (Text × α)) : List (Text × α) :=
  entries.foldl (fun sorted (k, v) => insertSorted k v sorted) []

/-- Strictly ascending keys. -/
abbrev Ascending {α : Type} (entries : List (Text × α)) : Prop :=
  entries.Pairwise fun a b => a.1 < b.1

theorem mem_insertSorted {α : Type} {key : Text} {value : α} {entries : List (Text × α)}
    {e : Text × α} (h : e ∈ insertSorted key value entries) : e = (key, value) ∨ e ∈ entries := by
  induction entries with
  | nil => simpa [insertSorted] using h
  | cons first rest ih =>
    obtain ⟨k, v⟩ := first
    rw [insertSorted] at h
    split at h
    · simpa using h
    · split at h
      · rcases List.mem_cons.1 h with h | h
        · exact .inr (h ▸ List.mem_cons_self)
        · exact (ih h).imp_right (List.mem_cons_of_mem _)
      · rcases List.mem_cons.1 h with h | h
        · exact .inl h
        · exact .inr (List.mem_cons_of_mem _ h)

theorem ascending_insertSorted {α : Type} (key : Text) (value : α) {entries : List (Text × α)}
    (h : Ascending entries) : Ascending (insertSorted key value entries) := by
  induction entries with
  | nil => simp [insertSorted]
  | cons first rest ih =>
    obtain ⟨k, v⟩ := first
    have hrest := List.pairwise_cons.1 h
    rw [insertSorted]
    split
    · next hlt =>
      refine List.pairwise_cons.2 ⟨fun e he => ?_, h⟩
      rcases List.mem_cons.1 he with rfl | he
      · exact hlt
      · exact List.lt_trans hlt (hrest.1 e he)
    · next hge =>
      split
      · next hgt =>
        refine List.pairwise_cons.2 ⟨fun e he => ?_, ih hrest.2⟩
        rcases mem_insertSorted he with rfl | he
        · exact hgt
        · exact hrest.1 e he
      · next hle =>
        have : key = k := Text.eq_of_not_lt hge hle
        subst this
        exact List.pairwise_cons.2 ⟨hrest.1, hrest.2⟩

theorem ascending_sortEntries {α : Type} (entries : List (Text × α)) :
    Ascending (sortEntries entries) := by
  have step : ∀ (es sorted : List (Text × α)), Ascending sorted →
      Ascending (es.foldl (fun sorted (k, v) => insertSorted k v sorted) sorted) := by
    intro es
    induction es with
    | nil => exact fun _ h => h
    | cons e rest ih => exact fun _ h => ih _ (ascending_insertSorted _ _ h)
  exact step entries [] List.Pairwise.nil

theorem lookup_cons {α : Type} (key k : Text) (v : α) (rest : List (Text × α)) :
    List.lookup key ((k, v) :: rest) = if key = k then some v else rest.lookup key := by
  rw [List.lookup_cons]
  by_cases h : key = k
  · simp [h]
  · rw [if_neg h, beq_eq_false_iff_ne.2 h]

/-- Among entries with distinct keys every entry is the one that is found under its key. -/
theorem mem_iff_lookup {κ α : Type} [BEq κ] [LawfulBEq κ] {entries : List (κ × α)}
    (h : (entries.map Prod.fst).Nodup) {key : κ} {value : α} :
    (key, value) ∈ entries ↔ entries.lookup key = some value := by
  rw [List.lookup_eq_some_iff]
  constructor
  · intro hmem
    obtain ⟨before, after, rfl⟩ := List.append_of_mem hmem
    rw [List.map_append, List.map_cons] at h
    refine ⟨before, after, rfl, fun entry hentry => bne_iff_ne.2 ?_⟩
    exact (List.nodup_append.1 h).2.2 entry.1 (List.mem_map_of_mem hentry) key
      List.mem_cons_self |>.symm
  · rintro ⟨before, after, rfl, -⟩
    exact List.mem_append_right _ List.mem_cons_self

/-- Looking up after an insertion: the inserted key has the new value, all others keep theirs. -/
theorem lookup_insertSorted {α : Type} (key key' : Text) (value : α) (entries : List (Text × α)) :
    (insertSorted key value entries).lookup key' =
      if key' = key then some value else entries.lookup key' := by
  induction entries with
  | nil => rw [insertSorted, lookup_cons]
  | cons first rest ih =>
    obtain ⟨k, v⟩ := first
    rw [insertSorted]
    split
    · rw [lookup_cons]
    · next hge =>
      split
      · next hgt =>
        have hne : k ≠ key := fun e => List.lt_irrefl _ (e ▸ hgt)
        rw [lookup_cons, lookup_cons, ih]
        by_cases hk : key' = k
        · simp [hk, hne]
        · simp [hk]
      · next hle =>
        have : key = k := Text.eq_of_not_lt hge hle
        subst this
        rw [lookup_cons, lookup_cons]
        by_cases hk : key' = key
        · simp [hk]
        · simp [hk]

/-- A finite map from texts, held as its entries in strictly ascending order of keys. -/
structure SortedMap (α : Type) where
  entries : List (Text × α)
  ascending : Ascending entries

namespace SortedMap

variable {α : Type}

@[ext] theorem ext {m n : SortedMap α} (h : m.entries = n.entries) : m = n := by
  cases m; cases n; cases h; rfl

instance [DecidableEq α] : DecidableEq (SortedMap α) := fun m n =>
  decidable_of_iff (m.entries = n.entries) ⟨ext, fun h => h ▸ rfl⟩

/-- The map without entries. -/
def empty : SortedMap α := ⟨[], List.Pairwise.nil⟩

instance : Inhabited (SortedMap α) := ⟨empty⟩

/-- The map with `key` at `value`, whatever it held there. -/
def insert (m : SortedMap α) (key : Text) (value : α) : SortedMap α :=
  ⟨insertSorted key value m.entries, ascending_insertSorted key value m.ascending⟩

/-- The map with `key` at `value`, together with the value that was there before. -/
def exchange (m : SortedMap α) (key : Text) (value : α) : Option α × SortedMap α :=
  (replaced? key m.entries, m.insert key value)

/-- The map of a list of entries; of entries with one key the last stays. -/
def ofList (entries : List (Text × α)) : SortedMap α :=
  ⟨sortEntries entries, ascending_sortEntries entries⟩

/-- The value at a key. -/
def get? (m : SortedMap α) (key : Text) : Option α := m.entries.lookup key

/-- Whether a key has a value. -/
def contains (m : SortedMap α) (key : Text) : Bool := (m.get? key).isSome

/-- The number of keys. -/
def size (m : SortedMap α) : Nat := m.entries.length

/-- Whether there is no entry. -/
def isEmpty (m : SortedMap α) : Bool := m.entries.isEmpty

@[simp] theorem get?_empty (key : Text) : (empty : SortedMap α).get? key = none := rfl

@[simp] theorem get?_insert (m : SortedMap α) (key key' : Text) (value : α) :
    (m.insert key value).get? key' = if key' = key then some value else m.get? key' :=
  lookup_insertSorted key key' value m.entries

end SortedMap

end Endpoints
