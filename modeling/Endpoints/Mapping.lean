import Endpoints.Text.Quoted

/-!
# Mappings

A mapping directive of a declaration sends placeholder names and body keys to request fields.
A `Mapping` holds its pairs in the order in which their keys were first inserted, each key once:
a repeated key keeps its place and takes the new target.  The order is visible, because URL
placeholders are filled key by key.
-/

namespace Endpoints

/-- Pairs of keys and targets; a key of the list keeps its place and takes the new target. -/
def insertPair (key target : Text) : List (Text × Text) → List (Text × Text)
  | [] => [(key, target)]
  | (k, t) :: rest =>
    if k = key then (key, target) :: rest else (k, t) :: insertPair key target rest

/-- Inserting a pair appends its key, or changes no key at all. -/
theorem keys_insertPair (key target : Text) (pairs : List (Text × Text)) :
    (insertPair key target pairs).map Prod.fst =
      if key ∈ pairs.map Prod.fst then pairs.map Prod.fst else pairs.map Prod.fst ++ [key] := by
  induction pairs with
  | nil => rfl
  | cons first rest ih =>
    obtain ⟨k, t⟩ := first
    rw [insertPair]
    split
    · next h => simp [h]
    · next h =>
      have hne : key ≠ k := fun e => h e.symm
      simp only [List.map_cons, ih, List.mem_cons, hne, false_or]
      split <;> simp

theorem nodup_insertPair (key target : Text) {pairs : List (Text × Text)}
    (h : (pairs.map Prod.fst).Nodup) : ((insertPair key target pairs).map Prod.fst).Nodup := by
  rw [keys_insertPair]
  split
  · exact h
  · next hnew =>
    refine List.nodup_append.2 ⟨h, by simp, ?_⟩
    intro a ha b hb e
    rw [List.mem_singleton] at hb
    exact hnew (hb ▸ e ▸ ha)

/-- Targets by key, in the order of first insertion, each key once. -/
structure Mapping where
  pairs : List (Text × Text)
  keys_nodup : (pairs.map Prod.fst).Nodup

namespace Mapping

@[ext] theorem ext {m n : Mapping} (h : m.pairs = n.pairs) : m = n := by
  cases m; cases n; cases h; rfl

instance : DecidableEq Mapping := fun m n =>
  decidable_of_iff (m.pairs = n.pairs) ⟨ext, fun h => h ▸ rfl⟩

/-- The mapping without pairs. -/
def empty : Mapping := ⟨[], List.Pairwise.nil⟩

instance : Inhabited Mapping := ⟨empty⟩

/-- Inserts a pair: a new key goes last, a known key keeps its place and takes the target. -/
def insert (m : Mapping) (key target : Text) : Mapping :=
  ⟨insertPair key target m.pairs, nodup_insertPair key target m.keys_nodup⟩

/-- The mapping built by inserting the pairs one after another. -/
def ofList (pairs : List (Text × Text)) : Mapping :=
  pairs.foldl (fun m (key, target) => m.insert key target) empty

/-- The mapping that sends each of the fields to itself. -/
def identity (fields : List Text) : Mapping := ofList (fields.map fun f => (f, f))

/-- The target of a key. -/
def get? (m : Mapping) (key : Text) : Option Text := m.pairs.lookup key

/-- Whether a key has a target. -/
def contains (m : Mapping) (key : Text) : Bool := (m.get? key).isSome

/-- The keys in insertion order. -/
def keys (m : Mapping) : List Text := m.pairs.map Prod.fst

/-- The number of keys. -/
def size (m : Mapping) : Nat := m.pairs.length

/-- Whether there is no pair. -/
def isEmpty (m : Mapping) : Bool := m.pairs.isEmpty

/-- The mapping as a map literal of a declaration. -/
def display (m : Mapping) : Text :=
  "\x7b" ++ Text.join " " (m.pairs.map fun (key, target) => ":" ++ key ++ " " ++ target) ++ "\x7d"

/-- The mapping as it is shown to a developer. -/
def debug (m : Mapping) : Text :=
  "\x7b" ++
    Text.join ", " (m.pairs.map fun (key, target) =>
      Text.quote key ++ ": " ++ Text.quote target) ++ "\x7d"

@[simp] theorem keys_insert (m : Mapping) (key target : Text) :
    (m.insert key target).keys = if key ∈ m.keys then m.keys else m.keys ++ [key] :=
  keys_insertPair key target m.pairs

end Mapping

end Endpoints
