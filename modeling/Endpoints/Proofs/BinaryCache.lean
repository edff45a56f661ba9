import Endpoints.Cache
import Endpoints.Proofs.Reading

/-!
# The binary form of a cache loses nothing

A cache that was written as bytes is read back from them, whatever bytes follow.  The only
condition is that every count in it has a header (`Cache.Encodable`): counts below `2 ^ 32`, where
the count of a text is that of its UTF-8 bytes.

Each layer has one law.  A number that fits its width is what its big-endian bytes spell; the
headers of one kind are told apart by their first byte, so reading finds the width that writing
chose (`Header.reads_write`); and a header announces exactly the bytes, items or entries behind it
(`reads_writeText`, `reads_readMany`).
-/

namespace Endpoints.MessagePack

/-! ### Numbers -/

/-- The highest byte stands in front of the others. -/
lemma bigEndian_succ (width n : Nat) :
    bigEndian (width + 1) n = UInt8.ofNat (n / Nat.pow 256 width) :: bigEndian width n := by
  unfold bigEndian
  rw [List.range_succ, List.reverse_append, List.reverse_singleton, List.singleton_append,
    List.map_cons]

@[simp] lemma length_bigEndian (width n : Nat) : (bigEndian width n).length = width := by
  unfold bigEndian
  rw [List.length_map, List.length_reverse, List.length_range]

/-- Big-endian bytes continue a number that was read so far. -/
lemma foldl_bigEndian (width n start : Nat) :
    (bigEndian width n).foldl (fun n b => n * 256 + b.toNat) start =
      start * Nat.pow 256 width + n % Nat.pow 256 width := by
  induction width generalizing start with
  | zero =>
    change start = start * 1 + n % 1
    omega
  | succ width ih =>
    have hdigit : (UInt8.ofNat (n / Nat.pow 256 width)).toNat = n / Nat.pow 256 width % 256 :=
      UInt8.toNat_ofNat'
    have hsplit : n % Nat.pow 256 (width + 1) =
        n % Nat.pow 256 width + Nat.pow 256 width * (n / Nat.pow 256 width % 256) :=
      Nat.mod_pow_succ
    rw [bigEndian_succ, List.foldl_cons, ih, hdigit, hsplit, Nat.add_mul, Nat.mul_assoc,
      Nat.mul_comm 256, Nat.mul_comm (n / Nat.pow 256 width % 256)]
    change _ = start * (Nat.pow 256 width * 256) + _
    omega

/-- A number that fits its width is the one that its bytes spell. -/
lemma ofBigEndian_bigEndian {width n : Nat} (h : n < Nat.pow 256 width) :
    ofBigEndian (bigEndian width n) = n := by
  unfold ofBigEndian
  rw [foldl_bigEndian, Nat.zero_mul, Nat.zero_add, Nat.mod_eq_of_lt h]

/-! ### Headers -/

namespace Header

/-- Headers that are told apart by their first byte: the short ones end below all tags, and no tag
is used twice. -/
structure Distinct (header : Header) : Prop where
  short : header.base + header.limit ≤ 256
  above : ∀ tag ∈ header.tags, header.base + header.limit ≤ tag.1.toNat
  nodup : (header.tags.map Prod.fst).Nodup

/-- Whether there is a header for a count. -/
def Holds (header : Header) (count : Nat) : Prop :=
  count < header.limit ∨ ∃ tag ∈ header.tags, count < Nat.pow 256 tag.2

lemma distinct_mapHeader : mapHeader.Distinct := by
  constructor <;> decide

lemma distinct_arrayHeader : arrayHeader.Distinct := by
  constructor <;> decide

lemma distinct_textHeader : textHeader.Distinct := by
  constructor <;> decide

/-- The header of a count is read back. -/
theorem reads_write {header : Header} (hdistinct : header.Distinct) {count : Nat}
    (hholds : header.Holds count) : Reads header.read (header.write count) count := by
  intro rest
  by_cases hshort : count < header.limit
  · have hbyte : (UInt8.ofNat (header.base + count)).toNat = header.base + count := by
      have hlimit := hdistinct.short
      rw [UInt8.toNat_ofNat']
      omega
    rw [write, if_pos hshort, List.singleton_append, read, hbyte, if_pos (by omega),
      Nat.add_sub_cancel_left]
  · rw [write, if_neg hshort]
    split
    · next tag width hfind =>
      have hmem := List.mem_of_find?_eq_some hfind
      have hfits : count < Nat.pow 256 width := by
        have hfound := List.find?_some hfind
        exact of_decide_eq_true hfound
      have habove := hdistinct.above _ hmem
      have hlong : ¬ (header.base ≤ tag.toNat ∧ tag.toNat < header.base + header.limit) := by
        dsimp only at habove
        omega
      have hwidth : width ≤ (bigEndian width count ++ rest).length := by
        rw [List.length_append, length_bigEndian]
        omega
      rw [List.cons_append, read, if_neg hlong, (mem_iff_lookup hdistinct.nodup).mp hmem]
      dsimp only
      rw [if_pos hwidth, List.take_left' (length_bigEndian width count),
        List.drop_left' (length_bigEndian width count), ofBigEndian_bigEndian hfits]
    · next hnone =>
      obtain ⟨tag, hmem, hlt⟩ := hholds.resolve_left hshort
      exact absurd (decide_eq_true hlt) (List.find?_eq_none.mp hnone tag hmem)

end Header

/-! ### Texts and sequences -/

/-- Whether a count, of bytes, items or entries, has 32 bits at most. -/
def Fits (count : Nat) : Prop := count < UInt32.size

instance : DecidablePred Fits := fun count => inferInstanceAs (Decidable (count < UInt32.size))

lemma holds_mapHeader {count : Nat} (h : Fits count) : mapHeader.Holds count :=
  .inr ⟨(0xdf, 4), by decide, h⟩

lemma holds_arrayHeader {count : Nat} (h : Fits count) : arrayHeader.Holds count :=
  .inr ⟨(0xdd, 4), by decide, h⟩

lemma holds_textHeader {count : Nat} (h : Fits count) : textHeader.Holds count :=
  .inr ⟨(0xdb, 4), by decide, h⟩

/-- A text is read back, whatever characters it has. -/
theorem reads_writeText {t : Text} (h : Fits (Utf8.encode t).length) :
    Reads readText (writeText t) t := by
  intro rest
  have hheader := Header.reads_write Header.distinct_textHeader (holds_textHeader h)
    (Utf8.encode t ++ rest)
  have hcount : (Utf8.encode t).length ≤ (Utf8.encode t ++ rest).length := by
    rw [List.length_append]
    omega
  unfold readText writeText
  rw [List.append_assoc, hheader, Option.some_or]
  simp only [Option.bind_eq_bind, Option.bind_some]
  rw [if_pos hcount, List.take_left, List.drop_left, Utf8.decode?_encode, Option.bind_some]

/-- Items are read back one after another if each of them is. -/
theorem reads_readMany {α : Type} {item : Reader α} {write : α → Bytes} {items : List α}
    (h : ∀ x ∈ items, Reads item (write x) x) :
    Reads (readMany item items.length) (items.flatMap write) items := by
  intro rest
  induction items with
  | nil => rfl
  | cons x items ih =>
    have hfirst := h x List.mem_cons_self (items.flatMap write ++ rest)
    have hlater := ih fun y hy => h y (List.mem_cons_of_mem _ hy)
    rw [List.flatMap_cons, List.append_assoc, List.length_cons, readMany, hfirst]
    simp only [Option.bind_eq_bind, Option.bind_some]
    rw [hlater, Option.bind_some]

end Endpoints.MessagePack

namespace Endpoints.Cache

open MessagePack

/-- Whether an entry has a binary form: its declaration, its fields and their number fit. -/
structure EncodableEntry (entry : Text × List Text) : Prop where
  declaration : Fits (Utf8.encode entry.1).length
  fields : Fits entry.2.length
  field : ∀ field ∈ entry.2, Fits (Utf8.encode field).length

/-- Whether a cache has a binary form: all its entries have one, and their number fits. -/
structure Encodable (cache : Cache) : Prop where
  entries : Fits cache.entries.length
  entry : ∀ entry ∈ cache.entries, EncodableEntry entry

instance : DecidablePred EncodableEntry := fun entry =>
  decidable_of_iff (Fits (Utf8.encode entry.1).length ∧ Fits entry.2.length ∧
      ∀ field ∈ entry.2, Fits (Utf8.encode field).length)
    ⟨fun ⟨h₁, h₂, h₃⟩ => ⟨h₁, h₂, h₃⟩, fun ⟨h₁, h₂, h₃⟩ => ⟨h₁, h₂, h₃⟩⟩

instance : DecidablePred Encodable := fun cache =>
  decidable_of_iff (Fits cache.entries.length ∧ ∀ entry ∈ cache.entries, EncodableEntry entry)
    ⟨fun ⟨h₁, h₂⟩ => ⟨h₁, h₂⟩, fun ⟨h₁, h₂⟩ => ⟨h₁, h₂⟩⟩

/-- The fields of an entry are read back. -/
lemma reads_writeFields {fields : List Text} (hcount : Fits fields.length)
    (hfields : ∀ field ∈ fields, Fits (Utf8.encode field).length) :
    Reads readFieldArray (writeFields fields) fields := by
  intro rest
  have hheader := Header.reads_write Header.distinct_arrayHeader (holds_arrayHeader hcount)
    (fields.flatMap writeText ++ rest)
  have hitems : Reads (readMany readText fields.length) (fields.flatMap writeText) fields := by
    apply reads_readMany
    intro field hfield
    exact reads_writeText (hfields field hfield)
  unfold readFieldArray writeFields
  rw [List.append_assoc, hheader]
  exact hitems rest

/-- An entry is read back. -/
lemma reads_writeEntry {entry : Text × List Text} (h : EncodableEntry entry) :
    Reads readEntry (writeEntry entry) entry := by
  intro rest
  have hdeclaration := reads_writeText h.declaration (writeFields entry.2 ++ rest)
  have hfields := reads_writeFields h.fields h.field rest
  unfold readEntry writeEntry
  rw [List.append_assoc, hdeclaration]
  simp only [Option.bind_eq_bind, Option.bind_some]
  rw [hfields, Option.bind_some]

/-- The entries of a cache are read back. -/
lemma reads_toBytes {cache : Cache} (h : cache.Encodable) :
    Reads readMap cache.toBytes cache.entries := by
  intro rest
  have hheader := Header.reads_write Header.distinct_mapHeader (holds_mapHeader h.entries)
    (cache.entries.flatMap writeEntry ++ rest)
  have hentries : Reads (readMany readEntry cache.entries.length)
      (cache.entries.flatMap writeEntry) cache.entries := by
    apply reads_readMany
    intro entry hentry
    exact reads_writeEntry (h.entry entry hentry)
  unfold readMap toBytes
  rw [List.append_assoc, hheader]
  exact hentries rest

/-- A cache is read back from its bytes, and what follows them does not matter. -/
theorem ofBytes?_toBytes_append {cache : Cache} (h : cache.Encodable) (rest : Bytes) :
    ofBytes? (cache.toBytes ++ rest) = some cache := by
  unfold ofBytes?
  rw [reads_toBytes h rest, Option.map_some]
  dsimp only
  rw [SortedMap.ofList_entries]

/-- Sixteen letters of two bytes each need the header of a longer text, and seventeen fields the one
of a longer array. -/
theorem ofBytes?_toBytes_append_long :
    let cache : Cache := SortedMap.ofList
      [(List.replicate 16 'é', List.replicate 17 "\x00"), ("(Local/get-in k)", [])]
    cache.Encodable ∧ ofBytes? (cache.toBytes ++ [0xc1, 0x80]) = some cache := by
  intro cache
  have hencodable : cache.Encodable := by decide +kernel
  exact ⟨hencodable, ofBytes?_toBytes_append hencodable [0xc1, 0x80]⟩

end Endpoints.Cache
