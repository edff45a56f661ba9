import Endpoints.Decimal
import Endpoints.SortedMap

/-!
# JSON values

Request payloads, responses and stored data are JSON values.  An integer literal within the range
of 64-bit integers, signed or unsigned, is an integer; every other number is a double.
The members of an object are kept as a list; values that were read have them in ascending order
of keys, descriptions made by the library in the order in which they are meant to be shown.
-/

namespace Endpoints

/-! ### Values -/

/-- A JSON value. -/
inductive Json where
  | null
  | bool (value : Bool)
  | int (value : Int)
  | double (value : Binary64)
  | string (value : Text)
  | array (items : List Json)
  | object (members : List (Text × Json))

instance : Inhabited Json := ⟨.null⟩

/-- The data given with an evaluation: values by name. -/
abbrev Payload := SortedMap Json

namespace Json

/-- An object with the entries of a payload. -/
def ofPayload (payload : Payload) : Json := .object payload.entries

/-- A text, or null where there is none. -/
def ofOption : Option Text → Json
  | none => .null
  | some t => .string t

/-- An array of texts. -/
def ofTexts (ts : List Text) : Json := .array (ts.map .string)

end Json

/-! ### Writing JSON

The compact form has no blanks.  The indented form puts every item and member on a line of its
own, two spaces deeper than its container, and writes empty containers closed up.  Strings escape
the quote, the backslash and the control characters below the space, and nothing else.
-/

namespace Json

/-- Doubles are written plainly from `0.00001` up to sixteen digits before the point. -/
def numberLayout : DecimalLayout := ⟨-5, 15⟩

/-- A code point as four lower case hexadecimal digits. -/
def hexFour (n : Nat) : Text :=
  let digits := Nat.toDigits 16 n
  List.replicate (4 - digits.length) '0' ++ digits

/-- A character inside a string. -/
def escapeChar (c : Char) : Text :=
  if c = '"' then "\\\""
  else if c = '\\' then "\\\\"
  else if c = '\x08' then "\\b"
  else if c = '\t' then "\\t"
  else if c = '\n' then "\\n"
  else if c = '\x0c' then "\\f"
  else if c = '\r' then "\\r"
  else if c.toNat < 0x20 then "\\u" ++ hexFour c.toNat
  else [c]

/-- A string with its quotes. -/
def quoteString (t : Text) : Text := '"' :: t.flatMap escapeChar ++ ['"']

/-- An integer in decimal digits. -/
def intText (n : Int) : Text :=
  if n < 0 then '-' :: Text.ofNat n.natAbs else Text.ofNat n.natAbs

/-- A value that is neither an array nor an object; those are left to the two printers. -/
def scalarText : Json → Text
  | .null => "null"
  | .bool true => "true"
  | .bool false => "false"
  | .int n => intText n
  | .double x => numberLayout.write x
  | .string t => quoteString t
  | .array _ | .object _ => []

mutual

/-- The text of a value without blanks. -/
def compact : Json → Text
  | .array items => '[' :: compactItems items ++ [']']
  | .object members => '\x7b' :: compactMembers members ++ ['\x7d']
  | value => scalarText value
termination_by structural value => value

/-- The items of an array with commas between them. -/
def compactItems : List Json → Text
  | [] => []
  | [item] => item.compact
  | item :: rest => item.compact ++ ',' :: compactItems rest
termination_by structural items => items

/-- The members of an object with commas between them. -/
def compactMembers : List (Text × Json) → Text
  | [] => []
  | [member] => compactMember member
  | member :: rest => compactMember member ++ ',' :: compactMembers rest
termination_by structural members => members

/-- A member of an object: its name, a colon and its value. -/
def compactMember : Text × Json → Text
  | (name, value) => quoteString name ++ ':' :: value.compact
termination_by structural member => member

end

/-- A line break, followed by the blanks of an indentation depth. -/
def newline (depth : Nat) : Text := '\n' :: List.replicate (2 * depth) ' '

mutual

/-- The text of a value with one item or member a line; `depth` is that of its first line. -/
def indented (depth : Nat) : Json → Text
  | .array [] => "[]"
  | .array items => '[' :: indentedItems (depth + 1) items ++ newline depth ++ [']']
  | .object [] => "\x7b\x7d"
  | .object members =>
    '\x7b' :: indentedMembers (depth + 1) members ++ newline depth ++ ['\x7d']
  | value => scalarText value
termination_by structural value => value

/-- The items of an array, each on a line of its own. -/
def indentedItems (depth : Nat) : List Json → Text
  | [] => []
  | [item] => newline depth ++ item.indented depth
  | item :: rest => newline depth ++ item.indented depth ++ ',' :: indentedItems depth rest
termination_by structural items => items

/-- The members of an object, each on a line of its own. -/
def indentedMembers (depth : Nat) : List (Text × Json) → Text
  | [] => []
  | [member] => newline depth ++ indentedMember depth member
  | member :: rest =>
    newline depth ++ indentedMember depth member ++ ',' :: indentedMembers depth rest
termination_by structural members => members

/-- A member of an object: its name, a colon, a blank and its value. -/
def indentedMember (depth : Nat) : Text × Json → Text
  | (name, value) => quoteString name ++ ':' :: ' ' :: value.indented depth
termination_by structural member => member

end

/-- The indented text of a value. -/
def pretty (value : Json) : Text := value.indented 0

/-- A value as it appears in a URL: a string as it is, anything else in its compact form. -/
def render : Json → Text
  | .string t => t
  | value => value.compact

end Json

end Endpoints
