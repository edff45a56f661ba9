import Endpoints.Json

/-!
# Reading JSON

A reader takes one thing off the front of a text and gives it together with the rest, or refuses.
Readers for strings and for comma-separated sequences are separate from the reader of values, so
that a format with a fixed shape can be read without going through `Json`.

Reading is strict: blanks are the space, the tab and the two line ends, only the defined escapes
are known, a surrogate escape counts only as half of a pair, control characters must be escaped,
numbers have no superfluous zeros, and a number beyond the range of doubles is refused.  Objects
come out sorted by name, the last of repeated names staying.
-/

namespace Endpoints.Json

/-- Takes an `α` off the front of a text. -/
abbrev Reader (α : Type) := Text → Option (α × Text)

/-- The four blanks of the format. -/
def isJsonBlank (c : Char) : Bool := c == ' ' || c == '\t' || c == '\n' || c == '\r'

/-- The text from its first character that is not a blank of the format. -/
def skipBlanks (t : Text) : Text := t.dropWhile isJsonBlank

/-! ### Strings -/

/-- The value of a hexadecimal digit. -/
def hexDigit? (c : Char) : Option Nat :=
  if '0' ≤ c ∧ c ≤ '9' then some (c.toNat - '0'.toNat)
  else if 'a' ≤ c ∧ c ≤ 'f' then some (c.toNat - 'a'.toNat + 10)
  else if 'A' ≤ c ∧ c ≤ 'F' then some (c.toNat - 'A'.toNat + 10)
  else none

/-- The number written by four hexadecimal digits at the front. -/
def readHexFour : Reader Nat
  | a :: b :: c :: d :: rest => do
    let a ← hexDigit? a
    let b ← hexDigit? b
    let c ← hexDigit? c
    let d ← hexDigit? d
    some (((a * 16 + b) * 16 + c) * 16 + d, rest)
  | _ => none

/-- Whether a code unit is the first of a surrogate pair. -/
def isHighSurrogate (n : Nat) : Bool := 0xD800 ≤ n && n ≤ 0xDBFF

/-- Whether a code unit is the second of a surrogate pair. -/
def isLowSurrogate (n : Nat) : Bool := 0xDC00 ≤ n && n ≤ 0xDFFF

/-- The character behind a backslash and the letter `u`: one code unit, or a surrogate pair. -/
def readUnicodeEscape : Reader Char := fun t => do
  let (unit, rest) ← readHexFour t
  if isHighSurrogate unit then
    match rest with
    | '\\' :: 'u' :: more =>
      let (second, rest) ← readHexFour more
      if isLowSurrogate second then
        some (Char.ofNat (0x10000 + (unit - 0xD800) * 0x400 + (second - 0xDC00)), rest)
      else none
    | _ => none
  else if isLowSurrogate unit then none
  else some (Char.ofNat unit, rest)

/-- One character of a string, escaped or plain. -/
def readCharacter : Reader Char
  | '\\' :: 'u' :: rest => readUnicodeEscape rest
  | '\\' :: c :: rest =>
    match c with
    | '"' => some ('"', rest)
    | '\\' => some ('\\', rest)
    | '/' => some ('/', rest)
    | 'b' => some ('\x08', rest)
    | 'f' => some ('\x0c', rest)
    | 'n' => some ('\n', rest)
    | 'r' => some ('\r', rest)
    | 't' => some ('\t', rest)
    | _ => none
  | c :: rest => if c = '\\' || c.toNat < 0x20 then none else some (c, rest)
  | [] => none

theorem readHexFour_length {t rest : Text} {n : Nat} (h : readHexFour t = some (n, rest)) :
    rest.length < t.length := by
  unfold readHexFour at h
  split at h
  · simp only [Option.bind_eq_bind, Option.bind_eq_some_iff, Option.some.injEq,
      Prod.mk.injEq] at h
    obtain ⟨_, _, _, _, _, _, _, _, _, rfl⟩ := h
    simp only [List.length_cons]
    omega
  · simp at h

theorem readUnicodeEscape_length {t rest : Text} {c : Char}
    (h : readUnicodeEscape t = some (c, rest)) : rest.length < t.length := by
  simp only [readUnicodeEscape, Option.bind_eq_bind, Option.bind_eq_some_iff] at h
  obtain ⟨⟨unit, mid⟩, hu, h⟩ := h
  have hmid := readHexFour_length hu
  dsimp only at h
  split at h
  · split at h
    · next more =>
      simp only [Option.bind_eq_some_iff] at h
      obtain ⟨⟨second, last⟩, hs, h⟩ := h
      have hlast := readHexFour_length hs
      split at h
      · simp only [Option.some.injEq, Prod.mk.injEq] at h
        obtain ⟨_, rfl⟩ := h
        simp only [List.length_cons] at hmid
        omega
      · simp at h
    · simp at h
  · split at h
    · simp at h
    · simp only [Option.some.injEq, Prod.mk.injEq] at h
      obtain ⟨_, rfl⟩ := h
      exact hmid

theorem readCharacter_length {t rest : Text} {c : Char} (h : readCharacter t = some (c, rest)) :
    rest.length < t.length := by
  unfold readCharacter at h
  split at h
  · have := readUnicodeEscape_length h
    simp only [List.length_cons]
    omega
  · split at h <;> first
      | (simp only [Option.some.injEq, Prod.mk.injEq] at h
         obtain ⟨_, rfl⟩ := h
         simp only [List.length_cons]
         omega)
      | simp at h
  · split at h
    · simp at h
    · simp only [Option.some.injEq, Prod.mk.injEq] at h
      obtain ⟨_, rfl⟩ := h
      simp
  · simp at h

/-- The characters of a string up to and including its closing quote. -/
def readCharacters (t : Text) : Option (Text × Text) :=
  match t with
  | '"' :: rest => some ([], rest)
  | t =>
    match _h : readCharacter t with
    | none => none
    | some (c, rest) => (readCharacters rest).map fun (cs, rest) => (c :: cs, rest)
termination_by t.length
decreasing_by exact readCharacter_length _h

/-- A string with its quotes. -/
def readString : Reader Text
  | '"' :: rest => readCharacters rest
  | _ => none

/-! ### Sequences -/

/-- At least one item, with commas between them, up to and including the closing character.
An item that takes nothing off the text ends the reading. -/
def readItems {α : Type} (item : Reader α) (closing : Char) (t : Text) : Option (List α × Text) :=
  match item t with
  | none => none
  | some (x, rest) =>
    match skipBlanks rest with
    | [] => none
    | c :: more =>
      if c = closing then some ([x], more)
      else if c = ',' ∧ more.length < t.length then
        (readItems item closing more).map fun (xs, rest) => (x :: xs, rest)
      else none
termination_by t.length

/-- Items with commas between them, behind the opening character. -/
def readSequence {α : Type} (item : Reader α) (closing : Char) : Reader (List α) := fun t =>
  match skipBlanks t with
  | [] => none
  | c :: rest => if c = closing then some ([], rest) else readItems item closing (c :: rest)

/-- A member of an object: a string, a colon and a value, with blanks around them. -/
def readMember {α : Type} (value : Reader α) : Reader (Text × α) := fun t => do
  let (name, rest) ← readString (skipBlanks t)
  match skipBlanks rest with
  | ':' :: rest =>
    let (v, rest) ← value rest
    some ((name, v), rest)
  | _ => none

/-! ### Numbers -/

/-- Decimal digits. -/
def isDigit (c : Char) : Bool := '0' ≤ c && c ≤ '9'

/-- The value of a decimal digit. -/
def digitValue (c : Char) : Nat := c.toNat - '0'.toNat

/-- The number written by decimal digits. -/
def digitsValue (digits : Text) : Nat := digits.foldl (fun n c => n * 10 + digitValue c) 0

/-- At least one decimal digit at the front. -/
def readDigits : Reader Text := fun t =>
  let digits := t.takeWhile isDigit
  if digits.isEmpty then none else some (digits, t.dropWhile isDigit)

/-- The digits behind the point, if there is a point. -/
def readFraction : Reader (Option Text)
  | '.' :: rest => (readDigits rest).map fun (digits, rest) => (some digits, rest)
  | t => some (none, t)

/-- The exponent, if there is one. -/
def readExponent : Reader (Option Int)
  | c :: rest =>
    if c = 'e' || c = 'E' then
      match rest with
      | '-' :: rest =>
        (readDigits rest).map fun (ds, rest) => (some (-(digitsValue ds : Int)), rest)
      | '+' :: rest => (readDigits rest).map fun (ds, rest) => (some (digitsValue ds : Int), rest)
      | rest => (readDigits rest).map fun (ds, rest) => (some (digitsValue ds : Int), rest)
    else some (none, c :: rest)
  | [] => some (none, [])

/-- Appends decimal digits to a number as long as it stays below `2 ^ 64`; the digits that are left
start with the first one that did not fit. -/
def appendDigits (n : Nat) : Text → Nat × Text
  | [] => (n, [])
  | d :: rest =>
    let extended := n * 10 + digitValue d
    if extended < Nat.pow 2 64 then appendDigits extended rest else (n, d :: rest)

/-- The value of a number literal: an integer if it has neither fraction nor exponent, is not a
negative zero and fits 64 bits, signed or unsigned; else a double.  Digits that do not fit 64 bits
do not count: left ones of the whole part raise the power of ten, left ones of the fraction are
dropped. -/
def numberValue (negative : Bool) (whole : Text) (fraction : Option Text) (exponent : Option Int) :
    Option Json :=
  let (n, leftWhole) := appendDigits 0 whole
  let fits := leftWhole.isEmpty && (!negative || (0 < n && n ≤ Nat.pow 2 63))
  if fraction.isNone && exponent.isNone && fits then
    some (.int (if negative then -(n : Int) else n))
  else
    let places := fraction.getD []
    let (digits, leftPlaces) := appendDigits n places
    let shift : Int := leftWhole.length - (places.length - leftPlaces.length)
    (Binary64.ofDecimal? negative digits (exponent.getD 0 + shift)).map .double

/-- A number. -/
def readNumber : Reader Json := fun t => do
  let negative := t.head? = some '-'
  let (whole, rest) ← readDigits (if negative then t.tail else t)
  if whole.head? = some '0' && whole.length ≠ 1 then none
  else
    let (fraction, rest) ← readFraction rest
    let (exponent, rest) ← readExponent rest
    let value ← numberValue negative whole fraction exponent
    some (value, rest)

/-! ### Values -/

/-- A value that may hold arrays and objects nested up to `depth` deep. -/
def readValue (depth : Nat) : Reader Json := fun t =>
  match skipBlanks t with
  | '"' :: rest => (readCharacters rest).map fun (s, rest) => (.string s, rest)
  | '[' :: rest =>
    match depth with
    | 0 => none
    | depth + 1 =>
      (readSequence (readValue depth) ']' rest).map fun (items, rest) => (.array items, rest)
  | '\x7b' :: rest =>
    match depth with
    | 0 => none
    | depth + 1 =>
      (readSequence (readMember (readValue depth)) '\x7d' rest).map fun (members, rest) =>
        (.object (sortEntries members), rest)
  | 'n' :: 'u' :: 'l' :: 'l' :: rest => some (.null, rest)
  | 't' :: 'r' :: 'u' :: 'e' :: rest => some (.bool true, rest)
  | 'f' :: 'a' :: 'l' :: 's' :: 'e' :: rest => some (.bool false, rest)
  | t => readNumber t
termination_by structural depth

/-- A whole text read by a reader: nothing but blanks may follow. -/
def readWhole {α : Type} (reader : Reader α) (t : Text) : Option α := do
  let (value, rest) ← reader t
  if (skipBlanks rest).isEmpty then some value else none

/-- How deep arrays and objects may nest. -/
def maxDepth : Nat := 127

/-- The value of a JSON text. -/
def parse? (t : Text) : Option Json := readWhole (readValue maxDepth) t

/-- The payload of a JSON text that holds an object. -/
def parsePayload? (t : Text) : Option Payload :=
  match parse? t with
  | some (.object members) => some (SortedMap.ofList members)
  | _ => none

end Endpoints.Json
