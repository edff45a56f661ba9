import Endpoints.SortedMap
import Mathlib.Tactic.Common

/-!
# Reading back what was written

A reader takes one thing off the front of its input and gives it together with the rest.  That it
undoes a writer is stated for whatever follows the written part (`Reads`), so the laws of the parts
of a format compose: each reader is handed exactly what the readers in front of it have left.

The last step of reading a map is the same in every format: entries that were listed in ascending
order are put back one by one, and the map is as it was (`SortedMap.ofList_entries`).
-/

namespace Endpoints

/-- A reader takes `written` off the front of its input as `value`, whatever follows. -/
def Reads {τ α : Type} (reader : List τ → Option (α × List τ)) (written : List τ) (value : α) :
    Prop :=
  ∀ rest, reader (written ++ rest) = some (value, rest)

/-! ### Maps from their entries -/

/-- An entry whose key is above all others goes last. -/
lemma insertSorted_eq_append {α : Type} {key : Text} {value : α} {entries : List (Text × α)}
    (h : ∀ entry ∈ entries, entry.1 < key) :
    insertSorted key value entries = entries ++ [(key, value)] := by
  induction entries with
  | nil => rfl
  | cons first rest ih =>
    obtain ⟨k, v⟩ := first
    have hlt : k < key := h (k, v) List.mem_cons_self
    have hrest : insertSorted key value rest = rest ++ [(key, value)] := by
      apply ih
      intro entry hentry
      exact h entry (List.mem_cons_of_mem _ hentry)
    rw [insertSorted, if_neg (List.lt_asymm hlt), if_pos hlt, hrest, List.cons_append]

/-- Ascending entries are sorted already. -/
lemma sortEntries_eq_self {α : Type} {entries : List (Text × α)} (h : Ascending entries) :
    sortEntries entries = entries := by
  -- the entries that were put back so far stand in front of those that are still to come
  have step : ∀ later sorted : List (Text × α), Ascending (sorted ++ later) →
      later.foldl (fun sorted entry => insertSorted entry.1 entry.2 sorted) sorted =
        sorted ++ later := by
    intro later
    induction later with
    | nil =>
      intro sorted _
      rw [List.foldl_nil, List.append_nil]
    | cons entry rest ih =>
      intro sorted hsorted
      obtain ⟨key, value⟩ := entry
      have hbelow : ∀ other ∈ sorted, other.1 < key := by
        intro other hother
        exact (List.pairwise_append.mp hsorted).2.2 other hother (key, value) List.mem_cons_self
      have hmoved : Ascending ((sorted ++ [(key, value)]) ++ rest) := by
        rwa [List.append_assoc, List.singleton_append]
      change rest.foldl _ (insertSorted key value sorted) = _
      rw [insertSorted_eq_append hbelow, ih _ hmoved, List.append_assoc, List.singleton_append]
  exact step entries [] h

/-- A map is the map of its entries. -/
@[simp] lemma SortedMap.ofList_entries {α : Type} (m : SortedMap α) :
    SortedMap.ofList m.entries = m := by
  apply SortedMap.ext
  exact sortEntries_eq_self m.ascending

end Endpoints
