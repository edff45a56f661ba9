import Endpoints.Mapping
import Endpoints.SortedMap
import Mathlib.Data.List.Induction
import Mathlib.Tactic.Common

/-!
# Mappings, insertion by insertion

A mapping is a list of pairs in which every insertion searches for its key.  What one insertion does
is said by what is found afterwards (`Mapping.get?_insert`) and by the keys (`Mapping.keys_insert`).
From there a mapping is followed from its last pair backwards (`Mapping.ofList_append_singleton`):
its keys are those of the pairs, each at its first place (`Mapping.keys_ofList`), and a key has the
target of its last pair (`Mapping.get?_ofList`).  Nothing else of the pairs is left, and a mapping
is itself built from its own pairs (`Mapping.ofList_pairs`).
-/

namespace Endpoints

/-! ### One insertion -/

lemma lookup_insertPair (key target name : Text) (pairs : List (Text × Text)) :
    (insertPair key target pairs).lookup name =
      if name = key then some target else pairs.lookup name := by
  induction pairs with
  | nil => rw [insertPair, lookup_cons]
  | cons first rest ih =>
    obtain ⟨k, t⟩ := first
    rw [insertPair]
    split
    · next hk =>
      rw [lookup_cons, lookup_cons, hk]
      split <;> rfl
    · next hk =>
      rw [lookup_cons, lookup_cons, ih]
      by_cases hname : name = k
      · simp [hname, hk]
      · simp [hname]

/-- A pair with a new key goes last. -/
lemma insertPair_of_not_mem {key target : Text} {pairs : List (Text × Text)}
    (h : key ∉ pairs.map Prod.fst) : insertPair key target pairs = pairs ++ [(key, target)] := by
  induction pairs with
  | nil => rfl
  | cons pair pairs ih =>
    rw [List.map_cons, List.mem_cons, not_or] at h
    rw [insertPair, if_neg (Ne.symm h.1), ih h.2, List.cons_append]

/-- A pair that is found is put where it stands already. -/
lemma insertPair_of_lookup {key target : Text} {pairs : List (Text × Text)}
    (h : pairs.lookup key = some target) : insertPair key target pairs = pairs := by
  induction pairs with
  | nil => cases h
  | cons first rest ih =>
    obtain ⟨k, t⟩ := first
    rw [lookup_cons] at h
    rw [insertPair]
    by_cases hkey : key = k
    · rw [if_pos hkey] at h
      rw [if_pos hkey.symm, hkey, Option.some.inj h]
    · rw [if_neg hkey] at h
      rw [if_neg (Ne.symm hkey), ih h]

/-- Inserting adds no other pair. -/
lemma mem_insertPair {key target : Text} {pairs : List (Text × Text)} {pair : Text × Text}
    (h : pair ∈ insertPair key target pairs) : pair = (key, target) ∨ pair ∈ pairs := by
  induction pairs with
  | nil => exact .inl (List.mem_singleton.mp h)
  | cons first rest ih =>
    rw [insertPair] at h
    split at h
    · exact (List.mem_cons.mp h).imp_right (List.mem_cons_of_mem _)
    · rcases List.mem_cons.mp h with rfl | h
      · exact .inr List.mem_cons_self
      · exact (ih h).imp_right (List.mem_cons_of_mem _)

namespace Mapping

variable {pairs : List (Text × Text)}

/-- After an insertion a key has the new target, and all others have theirs. -/
@[simp] lemma get?_insert (m : Mapping) (key target name : Text) :
    (m.insert key target).get? name = if name = key then some target else m.get? name :=
  lookup_insertPair key target name m.pairs

/-- An insertion changes nothing exactly if the key has the target already. -/
lemma insert_eq_self_iff {m : Mapping} {key target : Text} :
    m.insert key target = m ↔ m.get? key = some target := by
  constructor
  · intro h
    rw [← h, get?_insert, if_pos rfl]
  · exact fun h => ext (insertPair_of_lookup h)

/-! ### Insertions one after another -/

lemma ofList_append (pairs more : List (Text × Text)) :
    ofList (pairs ++ more) = more.foldl (fun m pair => m.insert pair.1 pair.2) (ofList pairs) := by
  rw [ofList, List.foldl_append]
  rfl

lemma ofList_append_singleton (pairs : List (Text × Text)) (pair : Text × Text) :
    ofList (pairs ++ [pair]) = (ofList pairs).insert pair.1 pair.2 :=
  ofList_append pairs [pair]

/-- The keys of a mapping are those of its pairs, each at its first place. -/
lemma keys_ofList (pairs : List (Text × Text)) :
    (ofList pairs).keys = distinct (pairs.map Prod.fst) := by
  induction pairs using List.reverseRecOn with
  | nil => rfl
  | append_singleton pairs pair ih =>
    have hsingle : [pair.1].eraseDups = [pair.1] := by
      rw [List.eraseDups_cons]
      rfl
    rw [ofList_append_singleton, keys_insert, ih, distinct, distinct, List.map_append,
      List.map_singleton, List.eraseDups_append]
    by_cases hkey : pair.1 ∈ pairs.map Prod.fst
    · rw [if_pos (List.mem_eraseDups.mpr hkey)]
      simp [List.removeAll, hkey]
    · rw [if_neg (mt List.mem_eraseDups.mp hkey)]
      simp [List.removeAll, hkey, hsingle]

/-- The keys of a mapping are those that it was built from. -/
lemma mem_keys_ofList {key : Text} : key ∈ (ofList pairs).keys ↔ key ∈ pairs.map Prod.fst := by
  rw [keys_ofList, distinct, List.mem_eraseDups]

/-- The last pair of a key gives its target. -/
lemma get?_ofList (pairs : List (Text × Text)) (name : Text) :
    (ofList pairs).get? name = pairs.reverse.lookup name := by
  induction pairs using List.reverseRecOn with
  | nil => rfl
  | append_singleton pairs pair ih =>
    rw [ofList_append_singleton, get?_insert, ih, List.reverse_append, List.reverse_singleton,
      List.singleton_append, lookup_cons]

/-- A key that differs from the key of every pair is none of their keys. -/
lemma bne_keys_iff {key : Text} :
    (∀ pair ∈ pairs, (key != pair.1) = true) ↔ key ∉ pairs.map Prod.fst := by
  simp only [bne_iff_ne, List.mem_map, not_exists, not_and]
  exact forall₂_congr fun pair _ => ne_comm

/-- A target is found if a pair gives it behind which the key does not occur again. -/
lemma get?_ofList_eq_some_iff {key target : Text} :
    (ofList pairs).get? key = some target ↔
      ∃ before after, pairs = before ++ (key, target) :: after ∧ key ∉ after.map Prod.fst := by
  rw [get?_ofList, List.lookup_eq_some_iff]
  simp only [bne_keys_iff]
  constructor
  · rintro ⟨after, before, hsplit, hafter⟩
    refine ⟨before.reverse, after.reverse, ?_, ?_⟩
    · rw [← List.reverse_reverse pairs, hsplit]
      simp
    · rwa [List.map_reverse, List.mem_reverse]
  · rintro ⟨before, after, rfl, hafter⟩
    refine ⟨after.reverse, before.reverse, by simp, ?_⟩
    rwa [List.map_reverse, List.mem_reverse]

/-- Nothing is found under what is no key. -/
lemma get?_eq_none_iff {m : Mapping} {key : Text} : m.get? key = none ↔ key ∉ m.keys :=
  List.lookup_eq_none_iff.trans bne_keys_iff

/-- A mapping has only pairs that were inserted. -/
lemma mem_of_mem_ofList {pair : Text × Text} (h : pair ∈ (ofList pairs).pairs) : pair ∈ pairs := by
  induction pairs using List.reverseRecOn with
  | nil => exact h
  | append_singleton pairs last ih =>
    rw [ofList_append_singleton] at h
    rcases mem_insertPair h with rfl | h
    · exact List.mem_append_right _ (List.mem_singleton_self _)
    · exact List.mem_append_left _ (ih h)

/-- Pairs with different keys are the pairs of their mapping. -/
lemma pairs_ofList (h : (pairs.map Prod.fst).Nodup) : (ofList pairs).pairs = pairs := by
  induction pairs using List.reverseRecOn with
  | nil => rfl
  | append_singleton pairs pair ih =>
    rw [List.map_append, List.nodup_append] at h
    obtain ⟨hfront, -, hnew⟩ := h
    have hkey : pair.1 ∉ pairs.map Prod.fst := fun hmem =>
      hnew _ hmem _ (List.mem_singleton_self pair.1) rfl
    rw [ofList_append_singleton]
    change insertPair pair.1 pair.2 (ofList pairs).pairs = _
    rw [ih hfront]
    exact insertPair_of_not_mem hkey

/-- A mapping is the mapping of its pairs. -/
@[simp] lemma ofList_pairs (m : Mapping) : ofList m.pairs = m := ext (pairs_ofList m.keys_nodup)

/-! ### The identity -/

/-- The keys of the identity are its fields, each at its first place. -/
lemma keys_identity (fields : List Text) : (identity fields).keys = distinct fields := by
  rw [identity, keys_ofList, List.map_map]
  exact congrArg distinct (List.map_id fields)

lemma mem_keys_identity {fields : List Text} {name : Text} :
    name ∈ (identity fields).keys ↔ name ∈ fields := by
  rw [keys_identity, distinct, List.mem_eraseDups]

/-- The identity knows its fields and nothing else. -/
lemma get?_identity (fields : List Text) (name : Text) :
    (identity fields).get? name = if name ∈ fields then some name else none := by
  split
  · next hname =>
    cases hget : (identity fields).get? name with
    | none => exact absurd (mem_keys_identity.mpr hname) (get?_eq_none_iff.mp hget)
    | some target =>
      obtain ⟨before, after, hsplit, -⟩ := get?_ofList_eq_some_iff.mp hget
      have hpair : (name, target) ∈ fields.map fun f => (f, f) :=
        hsplit ▸ List.mem_append_right before List.mem_cons_self
      obtain ⟨f, -, heq⟩ := List.mem_map.mp hpair
      obtain ⟨rfl, rfl⟩ := Prod.mk.inj heq
      rfl
  · next hname => exact get?_eq_none_iff.mpr (mt mem_keys_identity.mp hname)

/-! ### First places and last targets -/

/-- A mapping of pairs has their keys in the order in which they first occur, and under each key the
target of its last pair.  Pairs that are inserted into a mapping come behind its own, the identity
sends each of its fields to itself, and inserting a pair that is there already changes nothing. -/
theorem first_places_last_targets :
    (∀ pairs : List (Text × Text),
      (ofList pairs).keys = distinct (pairs.map Prod.fst) ∧
        (ofList pairs).size = (distinct (pairs.map Prod.fst)).length ∧
        ∀ key,
          (∀ target, (ofList pairs).get? key = some target ↔
            ∃ before after, pairs = before ++ (key, target) :: after ∧
              key ∉ after.map Prod.fst) ∧
          ((ofList pairs).get? key = none ↔ key ∉ pairs.map Prod.fst)) ∧
      (∀ (m : Mapping) (pairs : List (Text × Text)),
        pairs.foldl (fun m pair => m.insert pair.1 pair.2) m = ofList (m.pairs ++ pairs)) ∧
      (∀ fields : List Text, (identity fields).keys = distinct fields ∧
        ∀ name, (identity fields).get? name = if name ∈ fields then some name else none) ∧
      ∀ (m : Mapping) (key target : Text),
        m.insert key target = m ↔ m.get? key = some target := by
  refine ⟨fun pairs => ⟨keys_ofList pairs, ?_, fun key => ⟨fun target => ?_, ?_⟩⟩, ?_, ?_, ?_⟩
  · rw [← keys_ofList, keys, List.length_map]
    rfl
  · exact get?_ofList_eq_some_iff
  · rw [get?_eq_none_iff, mem_keys_ofList]
  · intro m pairs
    rw [ofList_append, ofList_pairs]
  · exact fun fields => ⟨keys_identity fields, get?_identity fields⟩
  · exact fun m key target => insert_eq_self_iff

end Mapping

end Endpoints
