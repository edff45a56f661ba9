/-!
# Texts

Declarations, sources, URLs, field names and JSON strings are all texts: lists of characters, so
that every function on them is a recursion on a list.  This module holds the type, the coercion
that lets a fixed wording be written as a string literal, and what the other layers share: the few
cuts and joins, the two classes of characters by which texts are cut (blanks and word characters),
the maximal runs into which they are cut, and the bytes as which they stand in files.
-/

namespace Endpoints

/-! ### Cuts and joins -/

/-- A text is the list of its characters. -/
abbrev Text := List Char

instance : Coe String Text := ⟨String.toList⟩

namespace Text

/-- The decimal digits of a number. -/
def ofNat (n : Nat) : Text := Nat.toDigits 10 n

/-- Cuts a text at the first `sep`: what stands before it, and what follows it if there is one. -/
def cutAt (sep : Char) (t : Text) : Text × Option Text :=
  (t.takeWhile (· != sep), (t.dropWhile (· != sep)).tail?)

/-- The pieces one after another with `glue` between neighbours. -/
def join (glue : Text) (pieces : List Text) : Text := glue.intercalate pieces

/-- The text without the last character if that is `c`, and unchanged otherwise. -/
def dropLastIf (c : Char) (t : Text) : Text :=
  if t.getLast? = some c then t.dropLast else t

/-- The text without the first character if that is `c`, and unchanged otherwise. -/
def dropFirstIf (c : Char) (t : Text) : Text :=
  if t.head? = some c then t.tail else t

end Text

/-- The distinct members of a list, each at the place of its first occurrence. -/
def distinct (ts : List Text) : List Text := ts.eraseDups

/-! ### Blank characters

A character is blank when it has the Unicode property `White_Space`.  Blanks separate tokens,
may stand around the punctuation of a declaration site, and are trimmed from the ends of a
declaration and of a listed extension.
-/

/-- Code points with the property `White_Space`, as inclusive ranges. -/
def blankRanges : List (Nat × Nat) :=
  [(0x09, 0x0D), (0x20, 0x20), (0x85, 0x85), (0xA0, 0xA0), (0x1680, 0x1680), (0x2000, 0x200A),
    (0x2028, 0x2029), (0x202F, 0x202F), (0x205F, 0x205F), (0x3000, 0x3000)]

/-- Whether a character has the property `White_Space`. -/
def isBlank (c : Char) : Bool :=
  blankRanges.any fun (first, last) => first ≤ c.toNat && c.toNat ≤ last

namespace Text

/-- The text from its first character that is not blank. -/
def trimStart (t : Text) : Text := t.dropWhile isBlank

/-- The text up to its last character that is not blank. -/
def trimEnd (t : Text) : Text := (t.reverse.dropWhile isBlank).reverse

/-- The text without the blanks at its two ends. -/
def trim (t : Text) : Text := trimEnd (trimStart t)

end Text

/-! ### Words

Placeholder names, keys and targets of a map literal and request fields are words: non-empty
runs of ASCII letters, digits and underscores.  The class is ASCII by the definition of the
declaration language; letters outside ASCII end a word.
-/

/-- ASCII letters, digits and the underscore. -/
def isWordChar (c : Char) : Bool := c.isAlphanum || c == '_'

namespace Text

/-- The word characters at the start of a text. -/
def leadingWord (t : Text) : Text := t.takeWhile isWordChar

/-- What follows the word characters at the start of a text. -/
def afterWord (t : Text) : Text := t.dropWhile isWordChar

/-- A word is a non-empty text of word characters. -/
def isWord (t : Text) : Bool := !t.isEmpty && t.all isWordChar

@[simp] theorem leadingWord_append_afterWord (t : Text) : t.leadingWord ++ t.afterWord = t :=
  List.takeWhile_append_dropWhile

theorem afterWord_length_le (t : Text) : t.afterWord.length ≤ t.length := by
  have h := congrArg List.length (leadingWord_append_afterWord t)
  simp only [List.length_append] at h
  omega

/-- The maximal word runs of a text in order, each with the text that follows it. -/
def wordRuns : Text → List (Text × Text)
  | [] => []
  | c :: rest =>
    if isWordChar c then (c :: leadingWord rest, afterWord rest) :: wordRuns (afterWord rest)
    else wordRuns rest
termination_by t => t.length
decreasing_by
  · have := afterWord_length_le rest
    simp only [List.length_cons]
    omega
  · simp

end Text

/-! ### Maximal runs of marked characters

Tokens are cut out of a text in two steps: every character is marked as belonging to a token or
as a separator, and the tokens are the maximal runs of marked characters.  What a mark depends on
(the character alone, or also the brace depth at which it stands) is decided by the caller.
-/

namespace Text

/-- The run of marked characters at the very start, and the maximal runs after it. -/
def leadingRun : List (Char × Bool) → Text × List Text
  | [] => ([], [])
  | (c, marked) :: rest =>
    match leadingRun rest with
    | (run, later) =>
      if marked then (c :: run, later)
      else ([], if run.isEmpty then later else run :: later)

/-- The maximal runs of marked characters, in order. -/
def runs (marks : List (Char × Bool)) : List Text :=
  match leadingRun marks with
  | (run, later) => if run.isEmpty then later else run :: later

/-- The maximal runs of characters that are not blank. -/
def words (t : Text) : List Text := runs (t.map fun c => (c, !isBlank c))

end Text

/-! ### Texts as bytes

Files hold bytes.  `Utf8.encode` writes a text as UTF-8 and `Utf8.decode?` reads it back, refusing
every byte sequence that is not the encoding of a text; the one law needed elsewhere is that a
written text is read back unchanged.
-/

/-- A file's content. -/
abbrev Bytes := List UInt8

namespace Utf8

/-- The UTF-8 encoding of a text. -/
def encode (t : Text) : Bytes := t.flatMap String.utf8EncodeChar

/-- The text whose UTF-8 encoding is given, if there is one. -/
def decode? (bytes : Bytes) : Option Text :=
  (String.fromUTF8? bytes.toByteArray).map String.toList

@[simp] theorem decode?_encode (t : Text) : decode? (encode t) = some t := by
  have valid : (List.utf8Encode t).IsValidUTF8 := ⟨t, rfl⟩
  have h : String.fromUTF8 (List.utf8Encode t) valid = String.ofList t := by
    rw [← String.toByteArray_inj, String.toByteArray_ofList]
    rfl
  have e : (encode t).toByteArray = List.utf8Encode t := rfl
  simp [decode?, e, String.fromUTF8?, valid, h]

end Utf8

end Endpoints
