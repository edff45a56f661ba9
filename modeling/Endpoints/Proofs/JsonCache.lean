import Endpoints.Cache
import Endpoints.Proofs.Reading

/-!
# The JSON form of a cache loses nothing

A cache that was written as indented JSON text is read back from it, whatever characters its
declarations and fields have and however many entries and fields there are.

The laws follow the grammar.  Every escaped character is read back as itself, hence so is every
string (`reads_quoteString`).  Items and members are read one after another because each of them is
read whatever blanks stand in front of it (`ReadsSpaced`): the indentation of the printer is nothing
but blanks to the reader (`reads_readSequence`).
-/

namespace Endpoints.Json

/-! ### Blanks -/

/-- Whether a text consists of blanks. -/
def AllBlank (t : Text) : Prop := ∀ c ∈ t, isJsonBlank c = true

lemma allBlank_nil : AllBlank [] := nofun

/-- The line break of the printer, with its indentation, is made of blanks. -/
lemma allBlank_newline (depth : Nat) : AllBlank (newline depth) := by
  intro c hc
  unfold newline at hc
  rcases List.mem_cons.mp hc with rfl | hc
  · rfl
  · rw [List.eq_of_mem_replicate hc]
    rfl

/-- Blanks in front of anything else are skipped. -/
lemma skipBlanks_append {blanks : Text} (hblanks : AllBlank blanks) {c : Char}
    (hc : isJsonBlank c = false) (rest : Text) :
    skipBlanks (blanks ++ c :: rest) = c :: rest := by
  unfold skipBlanks
  rw [List.dropWhile_append_of_pos hblanks, List.dropWhile_cons_of_neg (by simp [hc])]

/-- A reader takes `written` off the front of its input as `value`, whatever blanks stand before it
and whatever follows. -/
def ReadsSpaced {α : Type} (reader : Reader α) (written : Text) (value : α) : Prop :=
  ∀ blanks, AllBlank blanks → Reads reader (blanks ++ written) value

/-! ### Strings -/

/-- The digits of a control character. -/
lemma hexFour_eq : ∀ n < 0x20,
    hexFour n = ['0', '0', Nat.digitChar (n / 16), Nat.digitChar (n % 16)] := by
  decide

lemma hexDigit?_digitChar : ∀ n < 16, hexDigit? (Nat.digitChar n) = some n := by
  decide

/-- The code of a control character is read back. -/
lemma readUnicodeEscape_hexFour {c : Char} (hc : c.toNat < 0x20) (rest : Text) :
    readUnicodeEscape (hexFour c.toNat ++ rest) = some (c, rest) := by
  have hhigh : hexDigit? (Nat.digitChar (c.toNat / 16)) = some (c.toNat / 16) :=
    hexDigit?_digitChar _ (by omega)
  have hlow : hexDigit? (Nat.digitChar (c.toNat % 16)) = some (c.toNat % 16) :=
    hexDigit?_digitChar _ (by omega)
  have hzero : hexDigit? '0' = some 0 := rfl
  have hcode : ((0 * 16 + 0) * 16 + c.toNat / 16) * 16 + c.toNat % 16 = c.toNat := by omega
  have hfour : readHexFour (hexFour c.toNat ++ rest) = some (c.toNat, rest) := by
    rw [hexFour_eq c.toNat hc]
    simp only [List.cons_append, List.nil_append, readHexFour, hhigh, hlow, hzero,
      Option.bind_eq_bind, Option.bind_some, hcode]
  -- a control character is far below the surrogates
  have hplain : isHighSurrogate c.toNat = false ∧ isLowSurrogate c.toNat = false := by
    unfold isHighSurrogate isLowSurrogate
    simp only [Bool.and_eq_false_iff, decide_eq_false_iff_not]
    omega
  unfold readUnicodeEscape
  rw [hfour]
  simp only [Option.bind_eq_bind, Option.bind_some, hplain.1, hplain.2, Bool.false_eq_true,
    if_false, Char.ofNat_toNat]

/-- A character that needs no escape is read as it is. -/
lemma readCharacter_plain {c : Char} (hbackslash : c ≠ '\\') (hprintable : ¬ c.toNat < 0x20)
    (rest : Text) : readCharacter (c :: rest) = some (c, rest) := by
  unfold readCharacter
  split
  · next h => exact absurd (List.cons.inj h).1 hbackslash
  · next h => exact absurd (List.cons.inj h).1 hbackslash
  · next h =>
    obtain ⟨rfl, rfl⟩ := List.cons.inj h
    rw [if_neg (by simp [hbackslash, hprintable])]
  · next h => cases h

/-- A character that is not the closing quote comes first in what is read. -/
lemma readCharacters_of_readCharacter {t rest : Text} {c : Char} (hquote : t.head? ≠ some '"')
    (h : readCharacter t = some (c, rest)) :
    readCharacters t = (readCharacters rest).map fun (cs, rest) => (c :: cs, rest) := by
  have hopen : ∀ more, t = '"' :: more → False := by
    rintro more rfl
    exact hquote rfl
  rw [readCharacters.eq_2 t hopen]
  split
  · next hnone =>
    rw [h] at hnone
    cases hnone
  · next hsome =>
    rw [h] at hsome
    cases hsome
    rfl

/-- An escaped character is read back. -/
lemma readCharacters_escapeChar (c : Char) (rest : Text) :
    readCharacters (escapeChar c ++ rest) =
      (readCharacters rest).map fun (cs, rest) => (c :: cs, rest) := by
  unfold escapeChar
  -- seven characters have an escape of one letter
  iterate 7
    split
    · next h => exact h ▸ readCharacters_of_readCharacter (by simp) rfl
  split
  · next h =>
    apply readCharacters_of_readCharacter
    · simp
    · exact readUnicodeEscape_hexFour h rest
  · next hquote hbackslash _ _ _ _ _ hprintable =>
    apply readCharacters_of_readCharacter
    · simpa using hquote
    · exact readCharacter_plain hbackslash hprintable rest

/-- A string is read back, whatever characters it has. -/
theorem reads_quoteString (t : Text) : Reads readString (quoteString t) t := by
  intro rest
  change readCharacters (t.flatMap escapeChar ++ ['"'] ++ rest) = some (t, rest)
  induction t with
  | nil => exact readCharacters.eq_1 rest
  | cons c t ih =>
    rw [List.flatMap_cons, List.append_assoc, List.append_assoc, readCharacters_escapeChar,
      ← List.append_assoc, ih]
    rfl

/-- A string is read back behind blanks. -/
lemma readsSpaced_quoteString (t : Text) :
    ReadsSpaced (fun t => readString (skipBlanks t)) (quoteString t) t := by
  intro blanks hblanks rest
  have hskip : skipBlanks (blanks ++ quoteString t ++ rest) = quoteString t ++ rest := by
    rw [List.append_assoc]
    exact skipBlanks_append hblanks rfl _
  dsimp only
  rw [hskip]
  exact reads_quoteString t rest

/-! ### Sequences -/

section Sequences

variable {α : Type} {item : Reader α} {write : α → Text} {closing : Char} {gap last : Text}

/-- Items behind blanks and with commas between them are read up to the closing character. -/
lemma reads_readItems (hcomma : ',' ≠ closing) (hclosing : isJsonBlank closing = false)
    (hgap : AllBlank gap) (hlast : AllBlank last) {x : α} {items : List α}
    (h : ∀ y ∈ x :: items, ReadsSpaced item (write y) y) {blanks : Text}
    (hblanks : AllBlank blanks) :
    Reads (readItems item closing)
      (blanks ++ write x ++ (items.flatMap fun y => ',' :: (gap ++ write y)) ++
        (last ++ [closing])) (x :: items) := by
  intro rest
  induction items generalizing x blanks with
  | nil =>
    have hitem := h x List.mem_cons_self blanks hblanks (last ++ [closing] ++ rest)
    have hend : skipBlanks (last ++ [closing] ++ rest) = closing :: rest := by
      rw [List.append_assoc]
      exact skipBlanks_append hlast hclosing rest
    rw [List.flatMap_nil, List.append_nil, List.append_assoc, readItems, hitem]
    dsimp only
    rw [hend]
    dsimp only
    rw [if_pos rfl]
  | cons y items ih =>
    -- what stands behind the comma is again an item and those after it
    obtain ⟨later, hlater⟩ : ∃ later, later = gap ++ write y ++
        (items.flatMap fun y => ',' :: (gap ++ write y)) ++ (last ++ [closing]) ++ rest := ⟨_, rfl⟩
    have hsplit : blanks ++ write x ++
        ((y :: items).flatMap fun y => ',' :: (gap ++ write y)) ++ (last ++ [closing]) ++ rest =
          blanks ++ write x ++ ',' :: later := by
      rw [hlater]
      simp only [List.flatMap_cons, List.cons_append, List.append_assoc]
    have hitem := h x List.mem_cons_self blanks hblanks (',' :: later)
    have hitems : readItems item closing later = some (y :: items, rest) := by
      rw [hlater]
      apply ih
      · intro z hz
        exact h z (List.mem_cons_of_mem _ hz)
      · exact hgap
    have hshorter : later.length < (blanks ++ write x ++ ',' :: later).length := by
      rw [List.length_append, List.length_cons]
      omega
    have hskip : skipBlanks (',' :: later) = ',' :: later := rfl
    rw [hsplit, readItems, hitem]
    dsimp only
    rw [hskip]
    dsimp only
    rw [if_neg hcomma, if_pos ⟨rfl, hshorter⟩, hitems]
    rfl

/-- What the printer writes behind the opening character of a container: each item on a line of its
own, with commas between them, and the closing character after the last line break.  An empty
container is closed at once. -/
def containerText (gap last : Text) (closing : Char) (write : α → Text) : List α → Text
  | [] => [closing]
  | x :: items =>
    gap ++ write x ++ (items.flatMap fun y => ',' :: (gap ++ write y)) ++ (last ++ [closing])

/-- The items of a container are read back if each of them begins with a quote. -/
theorem reads_readSequence (hcomma : ',' ≠ closing) (hquote : '"' ≠ closing)
    (hclosing : isJsonBlank closing = false) (hgap : AllBlank gap) (hlast : AllBlank last)
    {items : List α} (h : ∀ y ∈ items, ReadsSpaced item (write y) y)
    (hstart : ∀ y, (write y).head? = some '"') :
    Reads (readSequence item closing) (containerText gap last closing write items) items := by
  intro rest
  unfold readSequence
  cases items with
  | nil =>
    have hskip : skipBlanks ([closing] ++ rest) = closing :: rest :=
      skipBlanks_append allBlank_nil hclosing rest
    rw [containerText, hskip]
    dsimp only
    rw [if_pos rfl]
  | cons x items =>
    have hitems := reads_readItems hcomma hclosing hgap hlast h allBlank_nil rest
    obtain ⟨tail, htail⟩ := List.head?_eq_some_iff.mp (hstart x)
    rw [containerText, htail]
    rw [htail] at hitems
    simp only [List.nil_append, List.append_assoc, List.cons_append] at hitems ⊢
    rw [skipBlanks_append hgap rfl]
    dsimp only
    rw [if_neg hquote]
    exact hitems

end Sequences

/-- A member is read back if its value is. -/
lemma readsSpaced_readMember {α : Type} {value : Reader α} {written : Text} {v : α} (name : Text)
    (h : ReadsSpaced value written v) :
    ReadsSpaced (readMember value) (quoteString name ++ ':' :: ' ' :: written) (name, v) := by
  intro blanks hblanks rest
  have hname := readsSpaced_quoteString name blanks hblanks (':' :: ' ' :: written ++ rest)
  have hcolon : skipBlanks (':' :: ' ' :: written ++ rest) = ':' :: ' ' :: written ++ rest := rfl
  have hvalue : value (' ' :: written ++ rest) = some (v, rest) := by
    have hblank : AllBlank [' '] := by
      intro c hc
      rw [List.mem_singleton.mp hc]
      rfl
    exact h [' '] hblank rest
  have hsplit : blanks ++ (quoteString name ++ ':' :: ' ' :: written) ++ rest =
      blanks ++ quoteString name ++ (':' :: ' ' :: written ++ rest) := by
    simp only [List.append_assoc, List.cons_append]
  dsimp only at hname
  unfold readMember
  rw [hsplit, hname]
  simp only [Option.bind_eq_bind, Option.bind_some]
  rw [hcolon]
  change (value (' ' :: written ++ rest)).bind _ = _
  rw [hvalue]
  rfl

/-! ### Containers as they are printed -/

/-- The first item stands on a line of its own, and each of the others behind a comma and a line
break. -/
lemma indentedItems_cons (depth : Nat) (x : Json) (items : List Json) :
    indentedItems depth (x :: items) =
      newline depth ++ x.indented depth ++
        items.flatMap fun y => ',' :: (newline depth ++ y.indented depth) := by
  induction items generalizing x with
  | nil =>
    rw [List.flatMap_nil, List.append_nil]
    rfl
  | cons y items ih =>
    change newline depth ++ x.indented depth ++ ',' :: indentedItems depth (y :: items) = _
    rw [ih, List.flatMap_cons, List.cons_append]

/-- The first member stands on a line of its own, and each of the others behind a comma and a line
break. -/
lemma indentedMembers_cons (depth : Nat) (x : Text × Json) (members : List (Text × Json)) :
    indentedMembers depth (x :: members) =
      newline depth ++ indentedMember depth x ++
        members.flatMap fun y => ',' :: (newline depth ++ indentedMember depth y) := by
  induction members generalizing x with
  | nil =>
    rw [List.flatMap_nil, List.append_nil]
    rfl
  | cons y members ih =>
    change newline depth ++ indentedMember depth x ++
      ',' :: indentedMembers depth (y :: members) = _
    rw [ih, List.flatMap_cons, List.cons_append]

/-- An array of texts as it is printed. -/
lemma indented_ofTexts (depth : Nat) (ts : List Text) :
    (Json.ofTexts ts).indented depth =
      '[' :: containerText (newline (depth + 1)) (newline depth) ']' quoteString ts := by
  cases ts with
  | nil => rfl
  | cons t ts =>
    change '[' :: indentedItems (depth + 1) (.string t :: ts.map .string) ++ newline depth ++ [']']
      = _
    rw [indentedItems_cons, List.flatMap_map, List.append_assoc]
    rfl

/-- An object as it is printed. -/
lemma indented_object {α : Type} (depth : Nat) (member : α → Text × Json) (entries : List α) :
    (Json.object (entries.map member)).indented depth =
      '\x7b' :: containerText (newline (depth + 1)) (newline depth) '\x7d'
        (fun entry => indentedMember (depth + 1) (member entry)) entries := by
  cases entries with
  | nil => rfl
  | cons entry entries =>
    change '\x7b' :: indentedMembers (depth + 1) (member entry :: entries.map member) ++
      newline depth ++ ['\x7d'] = _
    rw [indentedMembers_cons, List.flatMap_map, List.append_assoc]
    rfl

end Endpoints.Json

namespace Endpoints.Cache

open Json

/-- Fields are read behind blanks and an opening bracket. -/
lemma readFields_append {blanks : Text} (hblanks : AllBlank blanks) (t : Text) :
    readFields (blanks ++ '[' :: t) =
      readSequence (fun t => readString (skipBlanks t)) ']' t := by
  unfold readFields
  rw [skipBlanks_append hblanks rfl]
  rfl

/-- Entries are read behind an opening brace. -/
lemma readEntries_cons (t : Text) :
    readEntries ('\x7b' :: t) = readSequence (readMember readFields) '\x7d' t := rfl

/-- The fields of an entry are read back. -/
lemma readsSpaced_fields (depth : Nat) (fields : List Text) :
    ReadsSpaced readFields ((Json.ofTexts fields).indented depth) fields := by
  intro blanks hblanks rest
  rw [indented_ofTexts, List.append_assoc, List.cons_append, readFields_append hblanks]
  apply reads_readSequence
  · decide
  · decide
  · rfl
  · exact allBlank_newline _
  · exact allBlank_newline _
  · intro field _
    exact readsSpaced_quoteString field
  · intro field
    rfl

/-- The entries of a cache are read back. -/
lemma reads_toText (cache : Cache) : Reads readEntries cache.toText cache.entries := by
  intro rest
  unfold toText Json.pretty toJson
  rw [indented_object, List.cons_append, readEntries_cons]
  apply reads_readSequence
  · decide
  · decide
  · rfl
  · exact allBlank_newline _
  · exact allBlank_newline _
  · intro entry _
    exact readsSpaced_readMember entry.1 (readsSpaced_fields _ entry.2)
  · intro entry
    rfl

/-- A cache is read back from its JSON text. -/
theorem ofText?_toText (cache : Cache) : ofText? cache.toText = some cache := by
  have hread := reads_toText cache []
  rw [List.append_nil] at hread
  unfold ofText? readWhole
  rw [hread]
  change (some cache.entries).map SortedMap.ofList = some cache
  rw [Option.map_some, SortedMap.ofList_entries]

end Endpoints.Cache
