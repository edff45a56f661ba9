import Endpoints.Mapping

/-!
# The syntax of declarations

A declaration such as `(Rest/get /users/:id {:id userId} (a description))` is a keyword followed
by arguments.  The keyword fixes what the declaration does and what its arguments must be: a URL
template, a map literal, a mapping directive or a word.
-/

namespace Endpoints

/-! ### Split declarations

Blanks separate the keyword and the arguments, except inside braces, so that a map literal is one
argument.  The outer parentheses are optional and need not match: a missing closing one is
tolerated, and whatever follows the last argument of the grammar is kept as further arguments.
-/

/-- A declaration split into its keyword, empty if there is none, and its arguments. -/
structure Form where
  keyword : Text
  args : List Text
deriving DecidableEq

/-- The brace depth behind a character, never below zero. -/
def depthAfter (depth : Nat) (c : Char) : Nat :=
  if c = '\x7b' then depth + 1 else if c = '\x7d' then depth - 1 else depth

/-- Marks the characters of tokens: all but the blanks at depth zero. -/
def markTokens (depth : Nat) : Text → List (Char × Bool)
  | [] => []
  | c :: rest => (c, !isBlank c || 0 < depth) :: markTokens (depthAfter depth c) rest

/-- The tokens of a text: its maximal runs of characters that are not blank or stand inside
braces. -/
def tokenize (t : Text) : List Text := Text.runs (markTokens 0 t)

/-- The declaration without the blanks around it, one opening and one closing parenthesis. -/
def stripParens (declaration : Text) : Text :=
  Text.dropLastIf ')' (Text.dropFirstIf '(' (Text.trim declaration))

namespace Form

/-- Splits a declaration into keyword and arguments. -/
def split (declaration : Text) : Form :=
  match tokenize (stripParens declaration) with
  | [] => ⟨[], []⟩
  | keyword :: args => ⟨keyword, args⟩

/-- The argument at a position. -/
def arg? (form : Form) (position : Nat) : Option Text := form.args[position]?

end Form

/-! ### Keywords and their grammars

The keyword at the head of a declaration fixes what it does and what its arguments must be.
A grammar gives, for each position, the category to which the argument belongs or a choice of
categories that are tried in order.
-/

/-- The method of a REST request. -/
inductive Method where
  | get | post | put | patch | delete
deriving DecidableEq

namespace Method

/-- The name of a method, as it is written in requests and in keywords. -/
def name : Method → Text
  | .get => "get"
  | .post => "post"
  | .put => "put"
  | .patch => "patch"
  | .delete => "delete"

/-- Whether requests with this method have a body. -/
def hasBody (m : Method) : Bool := m != .get

/-- All methods. -/
def all : List Method := [.get, .post, .put, .patch, .delete]

/-- The method of a name. -/
def ofName? (name : Text) : Option Method := all.find? (·.name = name)

end Method

/-- What an argument can be. -/
inductive Category where
  /-- A URL template. -/
  | url
  /-- Any argument that is present. -/
  | string
  /-- A map literal. -/
  | map
  /-- The token `selfMappings`. -/
  | selfMappings
  /-- The token `asBody`. -/
  | asBody
deriving DecidableEq

namespace Category

/-- The name of a category, as messages show it. -/
def name : Category → Text
  | .url => "type/url"
  | .string => "type/string"
  | .map => "type/map"
  | .selfMappings => "fn/selfMappings"
  | .asBody => "fn/asBody"

/-- All categories. -/
def all : List Category := [.url, .string, .map, .selfMappings, .asBody]

/-- The category of a name. -/
def ofName? (name : Text) : Option Category := all.find? (·.name = name)

end Category

/-- What the argument at one position must be. -/
inductive ArgSpec where
  | one (category : Category)
  | oneOf (categories : List Category)
deriving DecidableEq

/-- How a position of a grammar is shown. -/
def ArgSpec.display : ArgSpec → Text
  | .one category => "(" ++ category.name ++ ")"
  | .oneOf categories => "(one-of" ++ categories.flatMap (fun c => ' ' :: c.name) ++ ")"

/-- What a declaration does: a REST request with a method, or a read or write of the local
storage. -/
inductive Keyword where
  | rest (method : Method)
  | readLocal
  | writeLocal
deriving DecidableEq

namespace Keyword

/-- The keyword as it is written in declarations. -/
def name : Keyword → Text
  | .rest method => "Rest/" ++ method.name
  | .readLocal => "Local/get-in"
  | .writeLocal => "Local/set-in"

/-- All keywords. -/
def all : List Keyword := Method.all.map .rest ++ [.readLocal, .writeLocal]

/-- The keyword with exactly the given name. -/
def ofName? (name : Text) : Option Keyword := all.find? (·.name = name)

/-- The arguments a keyword takes: a URL and its mapping, for requests with a body also the
mapping of the body; for the local storage a key. -/
def grammar : Keyword → List ArgSpec
  | .rest method =>
    [.one .url, .oneOf [.map, .selfMappings]] ++
      (if method.hasBody then [.oneOf [.map, .asBody]] else [])
  | .readLocal | .writeLocal => [.one .string]

/-- The method of a REST keyword. -/
def method? : Keyword → Option Method
  | .rest method => some method
  | .readLocal | .writeLocal => none

end Keyword

/-! ### Map literals

A map literal such as `{:id userId  :page page}` holds between its braces any number of pairs,
each a colon and a key, blanks, and a target, with blanks between the pairs.  Keys and targets
are words.  Since every blank outside a word separates, the inside is read as its blank-separated
words taken two at a time.
-/

namespace MapLiteral

/-- What stands between the braces of a text that starts and ends with one. -/
def inside? : Text → Option Text
  | '\x7b' :: rest => if rest.getLast? = some '\x7d' then some rest.dropLast else none
  | _ => none

/-- The key of a colon followed by a word. -/
def key? : Text → Option Text
  | ':' :: key => if Text.isWord key then some key else none
  | _ => none

/-- Reads words two at a time as a key behind its colon and a target. -/
def pairUp : List Text → Option (List (Text × Text))
  | [] => some []
  | [_] => none
  | first :: target :: rest => do
    let key ← key? first
    let pairs ← pairUp rest
    if Text.isWord target then some ((key, target) :: pairs) else none

/-- The pairs of a map literal in the order written. -/
def pairs? (t : Text) : Option (List (Text × Text)) := do
  let content ← inside? t
  pairUp (Text.words content)

/-- The mapping of a map literal: its pairs inserted one after another. -/
def parse? (t : Text) : Option Mapping := (pairs? t).map Mapping.ofList

end MapLiteral

/-! ### URL templates

A URL template is a path with placeholders such as `:id`, and may have a query whose segments are
placeholders.  A placeholder is a colon followed by a word; the word is taken as long as possible.
-/

namespace UrlTemplate

/-- Whether a text is a URL template: it starts with a slash, and every segment of the query,
between the first question mark and the next one, starts with a colon. -/
def isUrl (t : Text) : Bool :=
  t.head? = some '/' &&
    match (t.splitOn '?')[1]? with
    | none => true
    | some query => (query.splitOn '&').all (·.head? = some ':')

/-- The words that directly follow a colon, in order and with repetitions. -/
def namesOf : Text → List Text
  | [] => []
  | c :: rest =>
    if c = ':' && !(Text.leadingWord rest).isEmpty then Text.leadingWord rest :: namesOf rest
    else namesOf rest

/-- The placeholder names of a text, each once, in order of first occurrence. -/
def placeholders (t : Text) : List Text := distinct (namesOf t)

end UrlTemplate

end Endpoints
