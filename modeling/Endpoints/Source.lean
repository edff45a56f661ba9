import Endpoints.Failure
import Endpoints.Files

/-!
# Declaration sources

Declarations live as quoted keys in source text, each followed by a block that lists its request
fields:

    "(Rest/get /users/:id selfMappings)": { req: { id: number }, res: User }

Their files are found by scanning a directory.
-/

namespace Endpoints

/-! ### Declaration sites

A site is the quoted text, the colon, the opening brace and `req:`, with blanks between them.
Nothing else of the host language is known.  A site whose quoted text does not close its
parenthesis, or that no `{ ... }` block follows, is malformed.
-/

/-- A declaration found in a source, with its request fields and its line, counted from one. -/
structure Extracted where
  declaration : Text
  fields : List Text
  line : Nat
deriving DecidableEq

/-- A declaration site at the front of a text: the quoted text, and what follows the site. -/
structure Site where
  declaration : Text
  rest : Text
deriving DecidableEq

/-- What follows a fixed wording at the front of a text. -/
def expect (wording t : Text) : Option Text := wording.isPrefixOf? t

/-- What follows a fixed wording that may stand behind blanks. -/
def expectSpaced (wording t : Text) : Option Text := expect wording (Text.trimStart t)

/-- The characters that may stand between the quotes of a site. -/
def isQuotable (c : Char) : Bool := c != '"' && c != '\n'

/-- The site at the very front of a text. -/
def Site.at? (t : Text) : Option Site := do
  let t ← expect "\"(" t
  let rest ← expect "\"" (t.dropWhile isQuotable)
  let rest ← expectSpaced ":" rest
  let rest ← expectSpaced "\x7b" rest
  let rest ← expectSpaced "req" rest
  let rest ← expectSpaced ":" rest
  some ⟨'(' :: t.takeWhile isQuotable, rest⟩

/-- The text of the site at the front of `t`. -/
def Site.text (t : Text) (site : Site) : Text := t.take (t.length - site.rest.length)

/-- The number of line ends in a text. -/
def lineEnds (t : Text) : Nat := t.count '\n'

/-- What is expected stands at the front of the text. -/
theorem append_of_expect {wording t rest : Text} (h : expect wording t = some rest) :
    wording ++ rest = t := by
  induction wording generalizing t with
  | nil => exact Option.some.inj h.symm
  | cons a wording ih =>
    cases t with
    | nil => exact nomatch h
    | cons b t =>
      change (if a == b then expect wording t else none) = some rest at h
      split at h
      · next same => rw [List.cons_append, ih h, eq_of_beq same]
      · exact nomatch h

theorem expect_length {wording t rest : Text} (h : expect wording t = some rest) :
    rest.length + wording.length = t.length := by
  rw [← append_of_expect h, List.length_append]
  omega

theorem Text.length_dropWhile_le (p : Char → Bool) (t : Text) :
    (t.dropWhile p).length ≤ t.length := (List.dropWhile_suffix p).length_le

theorem expectSpaced_length {wording t rest : Text} (h : expectSpaced wording t = some rest) :
    rest.length + wording.length ≤ t.length := by
  have := expect_length h
  have := Text.length_dropWhile_le isBlank t
  unfold Text.trimStart at *
  omega

theorem Site.at?_length {t : Text} {site : Site} (h : Site.at? t = some site) :
    site.rest.length < t.length := by
  simp only [Site.at?, Option.bind_eq_bind, Option.bind_eq_some_iff, Option.some.injEq] at h
  obtain ⟨a, ha, b, hb, c, hc, d, hd, e, he, f, hf, rfl⟩ := h
  have h1 := expect_length ha
  have h2 := expect_length hb
  have h3 := Text.length_dropWhile_le isQuotable a
  have h4 := expectSpaced_length hc
  have h5 := expectSpaced_length hd
  have h6 := expectSpaced_length he
  have h7 := expectSpaced_length hf
  have h8 : ("\"(" : String).toList.length = 2 := rfl
  dsimp only
  omega

/-! ### Request fields -/

/-- Whether a word is the name of a field, by what follows it: blanks, a question mark if the field
is optional, blanks and a colon. -/
def namesField (following : Text) : Bool :=
  (Text.trimStart (Text.dropFirstIf '?' (Text.trimStart following))).head? = some ':'

/-- The field names of a block, each once, in order of first appearance. -/
def fieldNames (block : Text) : List Text :=
  distinct <| ((Text.wordRuns block).filter fun (_, following) => namesField following).map Prod.fst

/-- The inside of the block `{ ... }` that a text starts with, blanks aside. -/
def block? (t : Text) : Option Text := do
  let rest ← expectSpaced "\x7b" t
  let content := rest.takeWhile (· != '\x7d')
  if content.length < rest.length then some content else none

/-! ### Extraction -/

/-- The failure for a site whose parts cannot be told apart. -/
def malformed (site : Text) (line : Nat) : Failure :=
  ⟨.malformedDeclaration site, some { line := some line }⟩

/-- The declaration of the site at the front of `t`, which stands on the given line. -/
def Site.extract (t : Text) (site : Site) (line : Nat) : Except Failure Extracted :=
  if (Text.trimEnd site.declaration).getLast? = some ')' then
    match block? site.rest with
    | some block => .ok { declaration := site.declaration, fields := fieldNames block, line }
    | none => .error (malformed (site.text t) line)
  else .error (malformed (site.text t) line)

/-- The declarations of a text whose first character stands on the given line.  Behind a site the
search goes on where the site ends. -/
def extractFrom (line : Nat) (t : Text) : Except Failure (List Extracted) :=
  match t with
  | [] => .ok []
  | c :: rest =>
    match _h : Site.at? (c :: rest) with
    | none => extractFrom (line + lineEnds [c]) rest
    | some site => do
      let found ← site.extract (c :: rest) line
      let later ← extractFrom (line + lineEnds (site.text (c :: rest))) site.rest
      .ok (found :: later)
termination_by t.length
decreasing_by
  · simp
  · exact Site.at?_length _h

/-- The declarations of a source text, in order; the first malformed site is an error. -/
def extract (source : Text) : Except Failure (List Extracted) := extractFrom 1 source

/-! ### Scanning a source directory

All files below a root directory whose extension is one of those asked for are source files.  They
are taken in the order of their paths, compared name by name and not as plain texts, so the order
in which folders list their entries makes no difference.
-/

/-- A source file: its path as it is shown, and its content. -/
structure SourceFile where
  path : Text
  content : Bytes
deriving DecidableEq

/-- The declarations of one source file. -/
structure SourceUnit where
  path : Text
  declarations : List Extracted
deriving DecidableEq

/-- Whether a file name has one of the extensions. -/
def hasExtension (extensions : List Text) (name : Text) : Bool :=
  match Path.extension? name with
  | none => false
  | some extension => extensions.contains extension

/-- Whether the file at a list of names has one of the extensions. -/
def isSource (extensions : List Text) (names : List Text) : Bool :=
  match names.getLast? with
  | none => false
  | some name => hasExtension extensions name

/-- The path of a list of names below a directory. -/
def pathBelow (directory : Text) (names : List Text) : Text := names.foldl Path.join directory

/-- The source files below the folder at a path with the names that lead to them, in path order. -/
def sourcesBelow (path : Text) (folder : Node) (extensions : List Text) :
    List (List Text × Bytes) :=
  ((folder.files path).filter fun (names, _) => isSource extensions names).mergeSort
    fun a b => !decide (b.1 < a.1)

/-- The failure of an access to a file or directory, with what was attempted. -/
def ioFailure (attempt path : Text) (fault : FileFault) : Failure :=
  Cause.io ("failed to " ++ attempt ++ " '" ++ path ++ "': " ++ fault.message)

/-- The source files below a root directory, in path order. -/
def collectSources (tree : FileTree) (root : Text) (extensions : List Text) :
    Except Failure (List SourceFile) :=
  match tree.open? root with
  | .error _ => .error (Cause.sourceNotFound root)
  | .ok (.file _) => .error (ioFailure "read directory" root .notADirectory)
  | .ok (.folder entries) =>
    .ok ((sourcesBelow root (.folder entries) extensions).map fun (names, content) =>
      { path := pathBelow root names, content })

/-- The declarations of a source file. -/
def SourceFile.readUnit (file : SourceFile) : Except Failure SourceUnit :=
  if isLongPath file.path then .error (ioFailure "read file" file.path .nameTooLong)
  else
    match Utf8.decode? file.content with
    | none => .error (ioFailure "read file" file.path .notUtf8)
    | some source =>
      match extract source with
      | .ok declarations => .ok { path := file.path, declarations }
      | .error failure => .error (failure.inSource file.path)

/-- The declarations of all source files below a root directory, in path order; the first file
that cannot be read or holds a malformed site is an error. -/
def readUnits (tree : FileTree) (root : Text) (extensions : List Text) :
    Except Failure (List SourceUnit) := do
  (← collectSources tree root extensions).mapM SourceFile.readUnit

end Endpoints
