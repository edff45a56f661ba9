import Endpoints.Proofs.BinaryCache
import Endpoints.Proofs.JsonCache
import Endpoints.Proofs.RequestBodies

/-!
# Caches with the same last writes

A cache that is filled by insertions and by recording results of compilations depends on its history
only through the last write of each declaration.  The calls are brought down to one kind first: a
call writes an entry or nothing (`Cache.Write.entry?`), and a history is what inserting the entries
that it writes does (`Cache.writeAll_eq`).  What is found in such a cache is the last entry of a
declaration, and a cache is determined by what is found in it.

That the files of two caches are the same exactly if the caches are is the other half.  It follows
from reading them back: a reader that undoes a writer takes the same input off as one value only
(`Reads.eq`).
-/

namespace Endpoints

/-! ### Values that are replaced -/

/-- What an insertion replaces is what was found before.  The search for the place may end early
because the keys behind it are above the new one. -/
lemma replaced?_eq_lookup {α : Type} (key : Text) {entries : List (Text × α)}
    (h : Ascending entries) : replaced? key entries = entries.lookup key := by
  induction entries with
  | nil => rfl
  | cons first rest ih =>
    obtain ⟨k, v⟩ := first
    obtain ⟨hbelow, hrest⟩ := List.pairwise_cons.mp h
    rw [replaced?, lookup_cons]
    split
    · next hlt =>
      have hnone : rest.lookup key = none := SortedMap.lookup_eq_none_of_lt fun entry hentry =>
        List.lt_trans hlt (hbelow entry hentry)
      rw [if_neg fun heq => List.lt_irrefl _ (heq ▸ hlt), hnone]
    · next hge =>
      split
      · next hgt => rw [if_neg fun heq => List.lt_irrefl _ (heq ▸ hgt), ih hrest]
      · next hle => rw [if_pos (Text.eq_of_not_lt hge hle)]

/-- An exchange hands back what was found before, and inserts. -/
lemma SortedMap.exchange_eq {α : Type} (m : SortedMap α) (key : Text) (value : α) :
    m.exchange key value = (m.get? key, m.insert key value) := by
  rw [SortedMap.exchange, replaced?_eq_lookup key m.ascending]
  rfl

/-! ### Histories of a cache -/

namespace Cache

/-- The calls that write into a cache. -/
inductive Write where
  | insert (declaration : Text) (fields : List Text)
  | record (result : Compilation)

/-- The entry that a call writes; of results only the accepted ones are written. -/
def Write.entry? : Write → Option Entry
  | .insert declaration fields => some (declaration, fields)
  | .record result => if result.isOk then some (result.declaration, result.fields) else none

/-- The entries that calls write, in their order. -/
def written (writes : List Write) : List Entry := writes.filterMap Write.entry?

/-- What a call answers, and the cache behind it: an insertion hands back the fields that it
replaces, and recording a result answers nothing. -/
def perform (cache : Cache) : Write → Option (List Text) × Cache
  | .insert declaration fields => cache.exchange declaration fields
  | .record result => (none, cache.record result)

/-- The cache behind calls that follow one another. -/
def writeAll (cache : Cache) (writes : List Write) : Cache :=
  writes.foldl (fun cache write => (cache.perform write).2) cache

/-- A call inserts the entry that it writes. -/
lemma perform_snd (cache : Cache) (write : Write) :
    (cache.perform write).2 = cache.insertAll write.entry?.toList := by
  cases write with
  | insert declaration fields => rfl
  | record result =>
    rw [perform, record, Write.entry?]
    split <;> rfl

/-- Calls insert the entries that they write. -/
lemma writeAll_eq (cache : Cache) (writes : List Write) :
    cache.writeAll writes = cache.insertAll (written writes) := by
  induction writes generalizing cache with
  | nil => rfl
  | cons write rest ih =>
    have hsplit : written (write :: rest) = write.entry?.toList ++ written rest := by
      rw [written, List.filterMap_cons]
      cases write.entry? <;> rfl
    rw [hsplit, insertAll_append, ← perform_snd]
    exact ih (cache.perform write).2

/-- Behind calls on an empty cache the last entry of a declaration is found. -/
lemma get?_writeAll (writes : List Write) (declaration : Text) :
    (writeAll SortedMap.empty writes).get? declaration =
      latest? (written writes) declaration := by
  rw [writeAll_eq, get?_insertAll, SortedMap.get?_empty, Option.or_none]

end Cache

/-! ### The entries of a map -/

/-- The distinct names are the keys of a mapping, which holds each key once. -/
lemma nodup_distinct (names : List Text) : (distinct names).Nodup := by
  rw [← Mapping.keys_identity]
  exact (Mapping.identity names).keys_nodup

namespace SortedMap

variable {α : Type} (m : SortedMap α)

/-- The keys of a map in its order. -/
def keys : List Text := m.entries.map Prod.fst

/-- The keys of a map ascend. -/
lemma pairwise_keys : m.keys.Pairwise (· < ·) := List.pairwise_map.mpr m.ascending

/-- No key of a map occurs twice. -/
lemma nodup_keys : m.keys.Nodup := by
  refine m.pairwise_keys.imp ?_
  rintro key _ hlt rfl
  exact List.lt_irrefl key hlt

/-- The entries of a map are those that are found. -/
lemma mem_entries_iff {key : Text} {value : α} :
    (key, value) ∈ m.entries ↔ m.get? key = some value := mem_iff_lookup m.nodup_keys

/-- A key of a map is one under which something is found. -/
lemma mem_keys_iff {key : Text} : key ∈ m.keys ↔ ∃ value, m.get? key = some value := by
  simp only [← mem_entries_iff]
  constructor
  · intro hkey
    obtain ⟨entry, hentry, rfl⟩ := List.mem_map.mp hkey
    exact ⟨entry.2, hentry⟩
  · rintro ⟨value, hentry⟩
    exact List.mem_map_of_mem hentry

/-- The keys of a map are distinct names if they are the same names. -/
lemma keys_perm_distinct {names : List Text} (h : ∀ key, key ∈ m.keys ↔ key ∈ names) :
    m.keys.Perm (distinct names) := by
  rw [List.perm_ext_iff_of_nodup m.nodup_keys (nodup_distinct names)]
  intro key
  rw [h, distinct, List.mem_eraseDups]

end SortedMap

/-! ### Files of caches -/

/-- What was written for two values is the same only if the values are. -/
lemma Reads.eq {τ α : Type} {reader : List τ → Option (α × List τ)} {written : List τ} {a b : α}
    (ha : Reads reader written a) (hb : Reads reader written b) : a = b := by
  have h := (ha []).symm.trans (hb [])
  exact congrArg Prod.fst (Option.some.inj h)

namespace Cache

/-- Two caches have the same JSON text only if they are the same. -/
lemma toText_inj {cache other : Cache} : cache.toText = other.toText ↔ cache = other := by
  refine ⟨fun h => SortedMap.ext ?_, congrArg toText⟩
  exact (reads_toText cache).eq (h ▸ reads_toText other)

/-- Two caches that have a binary form have the same one only if they are the same. -/
lemma toBytes_inj {cache other : Cache} (hcache : cache.Encodable) (hother : other.Encodable) :
    cache.toBytes = other.toBytes ↔ cache = other := by
  refine ⟨fun h => SortedMap.ext ?_, congrArg toBytes⟩
  exact (reads_toBytes hcache).eq (h ▸ reads_toBytes hother)

end Cache

/-! ### Canonical caches -/

namespace Cache

/-- Calls agree on their last writes if the last entry of every declaration is the same. -/
def SameLastWrites (writes others : List Write) : Prop :=
  ∀ declaration, latest? (written writes) declaration = latest? (written others) declaration

/-- A cache shows the last writes of its history, in ascending order, and nothing else of it. -/
structure Shows (cache : Cache) (writes : List Write) : Prop where
  /-- The declarations ascend, each once. -/
  ascending : cache.keys.Pairwise (· < ·)
  /-- The entries are the last ones of the declarations that were written. -/
  entries : ∀ declaration fields, (declaration, fields) ∈ cache.entries ↔
    latest? (written writes) declaration = some fields
  /-- A declaration is found with its last entry, and not at all if it was never written. -/
  get : ∀ declaration, cache.get? declaration = latest? (written writes) declaration
  /-- The size counts the distinct declarations that were written. -/
  size : cache.size = (distinct ((written writes).map Prod.fst)).length
  /-- The next insertion hands back what was found just before it. -/
  insert : ∀ declaration fields, cache.perform (.insert declaration fields) =
    (cache.get? declaration, cache.insert declaration fields)
  /-- A rejected result changes nothing. -/
  record : ∀ result : Compilation, result.isOk = false →
    cache.perform (.record result) = (none, cache)

/-- A declaration is a key behind calls on an empty cache if one of them wrote it. -/
lemma mem_keys_writeAll {writes : List Write} {declaration : Text} :
    declaration ∈ (writeAll SortedMap.empty writes).keys ↔
      declaration ∈ (written writes).map Prod.fst := by
  rw [SortedMap.mem_keys_iff, get?_writeAll, List.mem_map]
  constructor
  · rintro ⟨fields, hlatest⟩
    exact ⟨_, mem_of_latest? hlatest, rfl⟩
  · rintro ⟨entry, hentry, rfl⟩
    apply Option.ne_none_iff_exists'.mp
    rw [Ne, latest?_eq_none_iff]
    exact fun hnever => hnever entry.2 hentry

/-- Behind calls on an empty cache the cache shows their last writes. -/
lemma shows_writeAll (writes : List Write) : (writeAll SortedMap.empty writes).Shows writes := by
  refine ⟨SortedMap.pairwise_keys _, ?_, get?_writeAll writes, ?_, ?_, ?_⟩
  · intro declaration fields
    rw [SortedMap.mem_entries_iff, get?_writeAll]
  · rw [SortedMap.size, ← List.length_map Prod.fst]
    exact (SortedMap.keys_perm_distinct _ fun _ => mem_keys_writeAll).length_eq
  · intro declaration fields
    exact SortedMap.exchange_eq _ declaration fields
  · intro result hrejected
    rw [perform, record, hrejected, if_neg Bool.false_ne_true]

/-- Calls on an empty cache lead to the same cache exactly if they agree on their last writes. -/
lemma writeAll_eq_iff {writes others : List Write} :
    writeAll SortedMap.empty writes = writeAll SortedMap.empty others ↔
      SameLastWrites writes others := by
  constructor
  · intro h declaration
    rw [← get?_writeAll, ← get?_writeAll, h]
  · intro h
    apply SortedMap.ext_get?
    intro declaration
    rw [get?_writeAll, get?_writeAll, h]

/-- A cache that was filled from an empty one is canonical: it shows the last writes of its history
in ascending order, and any other history leads to the same cache, the same JSON text and the same
bytes if it agrees on the last writes.  The text never shows more than that, nor do the bytes of
caches that have a binary form. -/
theorem writes_canonical (writes others : List Write) :
    let cache := writeAll SortedMap.empty writes
    let other := writeAll SortedMap.empty others
    cache.Shows writes ∧
      (cache = other ↔ SameLastWrites writes others) ∧
      (cache.toText = other.toText ↔ SameLastWrites writes others) ∧
      (SameLastWrites writes others → cache.toBytes = other.toBytes) ∧
      (cache.Encodable → other.Encodable →
        (cache.toBytes = other.toBytes ↔ SameLastWrites writes others)) := by
  intro cache other
  have hsame : cache = other ↔ SameLastWrites writes others := writeAll_eq_iff
  refine ⟨shows_writeAll writes, hsame, toText_inj.trans hsame, ?_, ?_⟩
  · intro hlast
    exact congrArg toBytes (hsame.mpr hlast)
  · intro hcache hother
    exact (toBytes_inj hcache hother).trans hsame

/-- The fields of an overwritten entry, the order of the calls and a rejected result do not show. -/
example :
    let writes : List Write :=
      [.insert "(Local/get-in b)" ["old"], .insert "(Local/get-in a)" [],
        .record (compile "(Local/get-in b)" ["id"])]
    let others : List Write :=
      [.insert "(Local/get-in b)" ["id"], .record (compile "(Local/get-in)" []),
        .insert "(Local/get-in a)" []]
    (writeAll SortedMap.empty writes).toBytes = (writeAll SortedMap.empty others).toBytes ∧
      (writeAll SortedMap.empty writes).size = 2 := by
  decide +kernel

end Cache

end Endpoints
