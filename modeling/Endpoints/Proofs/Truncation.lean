import Endpoints.Cache
import Endpoints.Proofs.BinaryCache
import Endpoints.Proofs.JsonCache

/-!
# Cache files that were cut off

A cache file is written from its beginning, so an interrupted write leaves a beginning of it.  No
beginning but the whole is read as a cache, in either form of the file.

The reason is the same for both forms.  A reader is `Stable` if it takes the same off the front of
its input whatever comes to stand behind it, and all readers of the two forms are.  A stable reader
that takes off all of what was written refuses every shorter beginning
(`Stable.eq_none_of_prefix`): what it made of the beginning it would also make of the whole, and
leave something over.  The file of a JSON text holds bytes, and may be cut inside a character; a
beginning of it that is a text at all is a beginning of the written text
(`Utf8.prefix_of_encode_prefix`).
-/

namespace Endpoints

/-- A reader that takes a value off the front of its input takes the same off when more follows. -/
def Stable {τ α : Type} (reader : List τ → Option (α × List τ)) : Prop :=
  ∀ ⦃input value rest⦄, reader input = some (value, rest) →
    ∀ more, reader (input ++ more) = some (value, rest ++ more)

/-- What a stable reader takes off as a whole, it refuses as long as the end is missing. -/
theorem Stable.eq_none_of_prefix {τ α : Type} {reader : List τ → Option (α × List τ)}
    (hstable : Stable reader) {written : List τ} {value : α} (hreads : Reads reader written value)
    {cut : List τ} (hcut : cut <+: written) (hne : cut ≠ written) : reader cut = none := by
  obtain ⟨missing, rfl⟩ := hcut
  cases hresult : reader cut with
  | none => rfl
  | some result =>
    obtain ⟨early, rest⟩ := result
    have hwhole := hreads []
    rw [List.append_nil, hstable hresult missing] at hwhole
    have hover : rest ++ missing = [] := congrArg Prod.snd (Option.some.inj hwhole)
    have hmissing : missing = [] := (List.append_eq_nil_iff.mp hover).2
    rw [hmissing, List.append_nil] at hne
    exact absurd rfl hne

namespace MessagePack

/-! ### Bytes -/

/-- A header is read from its own bytes alone. -/
lemma Header.stable_read (header : Header) : Stable header.read := by
  intro input count rest h more
  cases input with
  | nil => cases h
  | cons first tail =>
    rw [List.cons_append, Header.read]
    rw [Header.read] at h
    split at h
    · next hshort =>
      cases h
      rw [if_pos hshort]
    · next hlong =>
      rw [if_neg hlong]
      split at h
      · cases h
      · next width _ =>
        split at h
        · next hfits =>
          cases h
          have hfits' : width ≤ (tail ++ more).length := by
            rw [List.length_append]
            omega
          rw [if_pos hfits', List.take_append_of_le_length hfits,
            List.drop_append_of_le_length hfits]
        · cases h

/-- A binary header begins with one of three bytes. -/
lemma exists_of_read_binaryHeader {input : Bytes} {result : Nat × Bytes}
    (h : binaryHeader.read input = some result) :
    ∃ first tail, input = first :: tail ∧ (first = 0xc4 ∨ first = 0xc5 ∨ first = 0xc6) := by
  cases input with
  | nil => cases h
  | cons first tail =>
    refine ⟨first, tail, rfl, ?_⟩
    by_contra hother
    have hlookup : binaryHeader.tags.lookup first = none := by
      rw [List.lookup_eq_none_iff]
      simpa [binaryHeader] using hother
    have hshort : ¬ (binaryHeader.base ≤ first.toNat ∧
        first.toNat < binaryHeader.base + binaryHeader.limit) := by
      simp [binaryHeader]
    rw [Header.read, if_neg hshort, hlookup] at h
    cases h

/-- Where there is a binary header there is none of a string, whatever follows. -/
lemma read_textHeader_of_binary {input : Bytes} {result : Nat × Bytes}
    (h : binaryHeader.read input = some result) (more : Bytes) :
    textHeader.read (input ++ more) = none := by
  obtain ⟨first, tail, rfl, hfirst⟩ := exists_of_read_binaryHeader h
  rcases hfirst with rfl | rfl | rfl <;> rfl

/-- Where there is a binary header there is none of an array, whatever follows. -/
lemma read_arrayHeader_of_binary {input : Bytes} {result : Nat × Bytes}
    (h : binaryHeader.read input = some result) (more : Bytes) :
    arrayHeader.read (input ++ more) = none := by
  obtain ⟨first, tail, rfl, hfirst⟩ := exists_of_read_binaryHeader h
  rcases hfirst with rfl | rfl | rfl <;> rfl

/-- The header of a text, as a string or as a binary value, is read from its own bytes alone. -/
lemma stable_textHeader :
    Stable fun input => (textHeader.read input).or (binaryHeader.read input) := by
  intro input count rest h more
  dsimp only at h ⊢
  rcases Option.or_eq_some_iff.mp h with htext | ⟨-, hbinary⟩
  · rw [textHeader.stable_read htext, Option.some_or]
  · rw [read_textHeader_of_binary hbinary, Option.none_or, binaryHeader.stable_read hbinary]

lemma stable_readText : Stable readText := by
  intro input t rest h more
  simp only [readText, Option.bind_eq_bind, Option.bind_eq_some_iff] at h
  obtain ⟨⟨count, tail⟩, hheader, h⟩ := h
  dsimp only at h
  split at h
  · next hfits =>
    obtain ⟨decoded, hdecoded, h⟩ := Option.bind_eq_some_iff.mp h
    cases h
    have hheader' := stable_textHeader hheader more
    have hfits' : count ≤ (tail ++ more).length := by
      rw [List.length_append]
      omega
    dsimp only at hheader'
    unfold readText
    rw [hheader']
    simp only [Option.bind_eq_bind, Option.bind_some]
    rw [if_pos hfits', List.take_append_of_le_length hfits, List.drop_append_of_le_length hfits,
      hdecoded, Option.bind_some]
  · cases h

lemma stable_readMany {α : Type} {item : Reader α} (hitem : Stable item) (count : Nat) :
    Stable (readMany item count) := by
  induction count with
  | zero =>
    intro input items rest h more
    cases h
    rfl
  | succ count ih =>
    intro input items rest h more
    simp only [readMany, Option.bind_eq_bind, Option.bind_eq_some_iff] at h
    obtain ⟨⟨x, tail⟩, hx, ⟨xs, last⟩, hxs, h⟩ := h
    cases h
    rw [readMany, hitem hx]
    simp only [Option.bind_eq_bind, Option.bind_some]
    rw [ih hxs, Option.bind_some]

end MessagePack

namespace Cache

open MessagePack

lemma stable_readFieldArray : Stable readFieldArray := by
  intro input fields rest h more
  unfold readFieldArray at h ⊢
  split at h
  · next count tail harray =>
    rw [arrayHeader.stable_read harray]
    exact stable_readMany stable_readText count h more
  · next tail hnone hbinary =>
    cases h
    rw [read_arrayHeader_of_binary hbinary, binaryHeader.stable_read hbinary]
    rfl
  · cases h

lemma stable_readEntry : Stable readEntry := by
  intro input entry rest h more
  simp only [readEntry, Option.bind_eq_bind, Option.bind_eq_some_iff] at h
  obtain ⟨⟨declaration, tail⟩, hdeclaration, ⟨fields, last⟩, hfields, h⟩ := h
  cases h
  unfold readEntry
  rw [stable_readText hdeclaration]
  simp only [Option.bind_eq_bind, Option.bind_some]
  rw [stable_readFieldArray hfields, Option.bind_some]

lemma stable_readMap : Stable readMap := by
  intro input entries rest h more
  simp only [readMap, Option.bind_eq_bind, Option.bind_eq_some_iff] at h
  obtain ⟨⟨count, tail⟩, hcount, h⟩ := h
  unfold readMap
  rw [mapHeader.stable_read hcount]
  exact stable_readMany stable_readEntry count h more

end Cache

namespace Json

/-! ### Characters and strings -/

/-- Blanks are skipped alike whatever follows, unless there is nothing behind them. -/
lemma skipBlanks_append_of_cons {input rest : Text} {c : Char} (h : skipBlanks input = c :: rest)
    (more : Text) : skipBlanks (input ++ more) = c :: (rest ++ more) := by
  unfold skipBlanks at h ⊢
  rw [List.dropWhile_append, h]
  rfl

lemma stable_readHexFour : Stable readHexFour := by
  intro input n rest h more
  unfold readHexFour at h
  split at h
  · simp only [Option.bind_eq_bind, Option.bind_eq_some_iff] at h
    obtain ⟨a, ha, b, hb, c, hc, d, hd, h⟩ := h
    cases h
    simp only [List.cons_append, readHexFour, ha, hb, hc, hd, Option.bind_eq_bind, Option.bind_some]
  · cases h

lemma stable_readUnicodeEscape : Stable readUnicodeEscape := by
  intro input c rest h more
  simp only [readUnicodeEscape, Option.bind_eq_bind, Option.bind_eq_some_iff] at h
  obtain ⟨⟨unit, tail⟩, hunit, h⟩ := h
  simp only [readUnicodeEscape, stable_readHexFour hunit more, Option.bind_eq_bind,
    Option.bind_some]
  dsimp only at h
  split at h
  · next hhigh =>
    rw [if_pos hhigh]
    split at h
    · next second =>
      obtain ⟨⟨low, last⟩, hlow, h⟩ := Option.bind_eq_some_iff.mp h
      simp only [List.cons_append, stable_readHexFour hlow more, Option.bind_some]
      dsimp only at h
      split at h
      · next hpair =>
        obtain ⟨rfl, rfl⟩ := Prod.mk.inj (Option.some.inj h)
        rw [if_pos hpair]
      · cases h
    · cases h
  · next hhigh =>
    rw [if_neg hhigh]
    split at h
    · cases h
    · next hlow =>
      cases h
      rw [if_neg hlow]

lemma stable_readCharacter : Stable readCharacter := by
  intro input c rest h more
  unfold readCharacter at h
  split at h
  · exact stable_readUnicodeEscape h more
  · next letter tail hletter =>
    split at h
    all_goals cases h
    all_goals rfl
  · split at h
    · cases h
    · next hplain =>
      cases h
      simp only [Bool.or_eq_true, decide_eq_true_eq, not_or] at hplain
      exact readCharacter_plain hplain.1 hplain.2 (rest ++ more)
  · cases h

lemma stable_readCharacters : Stable readCharacters := by
  intro input t rest h more
  induction input using readCharacters.induct generalizing t rest with
  | case1 tail =>
    rw [readCharacters.eq_1] at h
    cases h
    rw [List.cons_append, readCharacters.eq_1]
  | case2 input hopen hnone =>
    rw [readCharacters.eq_2 input hopen] at h
    split at h
    · cases h
    · next hsome =>
      rw [hnone] at hsome
      cases hsome
  | case3 input hopen c tail hsome ih =>
    cases input with
    | nil => cases hsome
    | cons d input =>
      have hquote : ∀ t : Text, (d :: t).head? ≠ some '"' := by
        intro t hhead
        cases hhead
        exact hopen input rfl
      rw [readCharacters_of_readCharacter (hquote input) hsome] at h
      obtain ⟨⟨cs, last⟩, hcs, h⟩ := Option.map_eq_some_iff.mp h
      cases h
      rw [List.cons_append, readCharacters_of_readCharacter (hquote (input ++ more))
        (stable_readCharacter hsome more), ih hcs]
      rfl

lemma stable_readString : Stable readString := by
  intro input t rest h more
  unfold readString at h
  split at h
  · exact stable_readCharacters h more
  · cases h

/-- A reader that needs something to read is stable behind blanks as well. -/
lemma stable_behindBlanks {α : Type} {reader : Reader α} (hstable : Stable reader)
    (hnil : reader [] = none) : Stable fun t => reader (skipBlanks t) := by
  intro input value rest h more
  dsimp only at h ⊢
  cases hskip : Json.skipBlanks input with
  | nil =>
    rw [hskip, hnil] at h
    cases h
  | cons c tail =>
    rw [hskip] at h
    rw [skipBlanks_append_of_cons hskip more]
    exact hstable h more

/-- A string is read from its own characters alone, also behind blanks. -/
lemma stable_spacedString : Stable fun t => readString (skipBlanks t) :=
  stable_behindBlanks stable_readString rfl

/-! ### Containers -/

section Containers

variable {α : Type} {item : Reader α} {closing : Char}

lemma stable_readItems (hitem : Stable item) : Stable (readItems item closing) := by
  intro input items rest h more
  induction input using readItems.induct item closing generalizing items rest with
  | case1 input hnone =>
    rw [readItems, hnone] at h
    cases h
  | case2 input x tail hx hend =>
    rw [readItems, hx] at h
    dsimp only at h
    rw [hend] at h
    cases h
  | case3 input x tail hx later hlater =>
    rw [readItems, hx] at h
    dsimp only at h
    rw [hlater] at h
    dsimp only at h
    rw [if_pos rfl] at h
    cases h
    rw [readItems, hitem hx more]
    dsimp only
    rw [skipBlanks_append_of_cons hlater more]
    dsimp only
    rw [if_pos rfl]
  | case4 input x tail hx c later hlater hclosing hcomma ih =>
    rw [readItems, hx] at h
    dsimp only at h
    rw [hlater] at h
    dsimp only at h
    rw [if_neg hclosing, if_pos hcomma] at h
    obtain ⟨⟨xs, last⟩, hxs, h⟩ := Option.map_eq_some_iff.mp h
    cases h
    have hcomma' : c = ',' ∧ (later ++ more).length < (input ++ more).length := by
      rw [List.length_append, List.length_append]
      exact ⟨hcomma.1, Nat.add_lt_add_right hcomma.2 more.length⟩
    rw [readItems, hitem hx more]
    dsimp only
    rw [skipBlanks_append_of_cons hlater more]
    dsimp only
    rw [if_neg hclosing, if_pos hcomma', ih hxs]
    rfl
  | case5 input x tail hx c later hlater hclosing hcomma =>
    rw [readItems, hx] at h
    dsimp only at h
    rw [hlater] at h
    dsimp only at h
    rw [if_neg hclosing, if_neg hcomma] at h
    cases h

lemma stable_readSequence (hitem : Stable item) : Stable (readSequence item closing) := by
  intro input items rest h more
  unfold readSequence at h ⊢
  split at h
  · cases h
  · next c tail hskip =>
    rw [skipBlanks_append_of_cons hskip more]
    dsimp only
    split at h
    · next hclosing =>
      cases h
      rw [if_pos hclosing]
    · next hclosing =>
      rw [if_neg hclosing]
      exact stable_readItems hitem h more

lemma stable_readMember {value : Reader α} (hvalue : Stable value) : Stable (readMember value) := by
  intro input member rest h more
  obtain ⟨⟨name, tail⟩, hname, h⟩ := Option.bind_eq_some_iff.mp h
  have hname' := stable_spacedString hname more
  dsimp only at h hname'
  unfold readMember
  rw [hname']
  simp only [Option.bind_eq_bind, Option.bind_some]
  split at h
  · next later hcolon =>
    obtain ⟨⟨v, last⟩, hv, h⟩ := Option.bind_eq_some_iff.mp h
    cases h
    rw [skipBlanks_append_of_cons hcolon more]
    change (value (later ++ more)).bind _ = _
    rw [hvalue hv more]
    rfl
  · cases h

end Containers

end Json

namespace Cache

open Json

lemma stable_readFields : Stable readFields := by
  intro input fields rest h more
  unfold readFields at h
  split at h
  · next tail hbracket =>
    unfold readFields
    rw [skipBlanks_append_of_cons hbracket more]
    exact stable_readSequence stable_spacedString h more
  · cases h

lemma stable_readEntries : Stable readEntries := by
  intro input entries rest h more
  unfold readEntries at h
  split at h
  · next tail hbrace =>
    unfold readEntries
    rw [skipBlanks_append_of_cons hbrace more]
    exact stable_readSequence (stable_readMember stable_readFields) h more
  · cases h

end Cache

/-! ### Beginnings of a file -/

namespace Utf8

/-- Bytes that are read as a text are the encoding of that text. -/
lemma encode_of_decode? {bytes : Bytes} {t : Text} (h : decode? bytes = some t) :
    encode t = bytes := by
  obtain ⟨s, hs, rfl⟩ := Option.map_eq_some_iff.mp h
  unfold String.fromUTF8? at hs
  split at hs
  · next hvalid =>
    cases hs
    have hbytes : (String.ofList (String.fromUTF8 bytes.toByteArray hvalid).toList).toByteArray =
        bytes.toByteArray := by
      rw [String.ofList_toList]
      rfl
    rw [String.toByteArray_ofList] at hbytes
    exact List.toByteArray_inj.mp hbytes
  · cases hs

/-- The first character of an encoding is the one that was encoded first. -/
lemma decodeFirst_encode_cons (c : Char) (t : Text) (rest : Bytes) :
    (encode (c :: t) ++ rest).toByteArray.utf8DecodeChar? 0 = some c := by
  have hsplit : encode (c :: t) ++ rest = String.utf8EncodeChar c ++ (encode t ++ rest) := by
    unfold encode
    rw [List.flatMap_cons, List.append_assoc]
  rw [hsplit, List.toByteArray_append]
  exact ByteArray.utf8DecodeChar?_utf8EncodeChar_append

/-- A text whose encoding begins another encoding begins the other text. -/
lemma prefix_of_encode_prefix {s t : Text} (h : encode s <+: encode t) : s <+: t := by
  induction s generalizing t with
  | nil => exact List.nil_prefix
  | cons c s ih =>
    cases t with
    | nil =>
      have hnil : encode (c :: s) = [] := List.prefix_nil.mp h
      have hfirst := (List.append_eq_nil_iff.mp hnil).1
      exact absurd hfirst String.utf8EncodeChar_ne_nil
    | cons d t =>
      have hsame : c = d := by
        obtain ⟨missing, hmissing⟩ := h
        have hc := decodeFirst_encode_cons c s missing
        have hd := decodeFirst_encode_cons d t []
        rw [List.append_nil, ← hmissing, hc] at hd
        exact Option.some.inj hd
      subst hsame
      exact List.cons_prefix_cons.mpr ⟨rfl, ih ((List.prefix_append_right_inj _).mp h)⟩

end Utf8

namespace Cache

/-- The bytes of a cache are refused as long as the end is missing. -/
lemma ofBytes?_of_prefix {cache : Cache} (h : cache.Encodable) {cut : Bytes}
    (hcut : cut <+: cache.toBytes) (hne : cut ≠ cache.toBytes) : ofBytes? cut = none := by
  unfold ofBytes?
  rw [stable_readMap.eq_none_of_prefix (reads_toBytes h) hcut hne, Option.map_none]

/-- The JSON text of a cache is refused as long as the end is missing. -/
lemma ofText?_of_prefix {cache : Cache} {cut : Text} (hcut : cut <+: cache.toText)
    (hne : cut ≠ cache.toText) : ofText? cut = none := by
  unfold ofText? Json.readWhole
  rw [stable_readEntries.eq_none_of_prefix (reads_toText cache) hcut hne]
  rfl

/-- The content of a cache file is refused as long as the end is missing. -/
lemma ofFileContent_of_prefix {cache : Cache} (h : cache.Encodable) {path : Text} {cut : Bytes}
    (hcut : cut <+: cache.fileContent path) (hne : cut ≠ cache.fileContent path) :
    ofFileContent path cut = .error noCache := by
  unfold fileContent at hcut hne
  unfold ofFileContent
  by_cases hjson : isJsonPath path = true
  · rw [if_pos hjson] at hcut hne
    have hnone : (Utf8.decode? cut).bind ofText? = none := by
      cases hdecoded : Utf8.decode? cut with
      | none => rfl
      | some t =>
        -- the cut is between two characters, so that a beginning of the text is left
        obtain rfl := Utf8.encode_of_decode? hdecoded
        have hshorter : t ≠ cache.toText := fun heq => hne (congrArg Utf8.encode heq)
        exact ofText?_of_prefix (Utf8.prefix_of_encode_prefix hcut) hshorter
    rw [if_pos hjson, hnone]
  · rw [if_neg hjson] at hcut hne
    rw [if_neg hjson, ofBytes?_of_prefix h hcut hne]

/-- A cache that was cut off anywhere in front of its end is refused: as bytes, as JSON text, and as
a file of either form that an interrupted write has left. -/
theorem refused_of_cut {cache : Cache} (h : cache.Encodable) :
    (∀ cut : Bytes, cut <+: cache.toBytes → cut ≠ cache.toBytes → ofBytes? cut = none) ∧
      (∀ cut : Text, cut <+: cache.toText → cut ≠ cache.toText → ofText? cut = none) ∧
      ∀ (path : Text) (tree : FileTree) (cut : Bytes), tree.open? path = .ok (.file cut) →
        cut <+: cache.fileContent path → cut ≠ cache.fileContent path →
          load path tree = .error noCache := by
  refine ⟨fun cut => ofBytes?_of_prefix h, fun cut => ofText?_of_prefix, ?_⟩
  intro path tree cut hfile hcut hne
  unfold load
  rw [hfile]
  exact ofFileContent_of_prefix h hcut hne

/-- A write that ends inside a letter of two bytes, or in front of the last character. -/
theorem refused_of_cut_letter :
    let cache : Cache := SortedMap.ofList [("(Local/get-in é)", ["id"])]
    let content : Bytes := (cache.fileContent "facts.json").take 20
    let tree : FileTree := { root := .folder [("facts.json", .file content)], workingDirectory := [] }
    cache.Encodable ∧ ofBytes? cache.toBytes.dropLast = none ∧
      ofText? cache.toText.dropLast = none ∧ load "facts.json" tree = .error noCache := by
  intro cache content tree
  have hencodable : cache.Encodable := by decide +kernel
  obtain ⟨hbytes, htext, hload⟩ := refused_of_cut hencodable
  refine ⟨hencodable, ?_, ?_, ?_⟩
  · exact hbytes _ (List.dropLast_prefix _) (by decide +kernel)
  · exact htext _ (List.dropLast_prefix _) (by decide +kernel)
  · exact hload _ _ _ rfl (List.take_prefix _ _) (by decide +kernel)

end Cache

end Endpoints
