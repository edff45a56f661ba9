import Endpoints.Declaration.Syntax
import Endpoints.Failure
import Endpoints.Json

/-!
# Compilation of declarations

A declaration is compiled against its request fields: its keyword must be known, and its
arguments must pass the grammar of the keyword.  The positions are checked from the last to the
first, because the mapping directives stand behind the URL that they describe and have to be
known when it is checked.  The first position that fails in this order decides the error.
-/

namespace Endpoints

/-! ### Facts of a declaration

The facts are what the validation of a declaration needs and finds out: the request fields it is
compiled against, and the mappings that its directives establish.  Only the fields of a compiled
declaration are kept; the mappings are derived again when it is used.
-/

/-- The known request fields and the mappings established so far. -/
structure Facts where
  fields : List Text
  urlMapping : Option Mapping := none
  bodyMapping : Option Mapping := none
deriving DecidableEq

namespace Facts

/-- Whether a request field is known. -/
def knows (facts : Facts) (field : Text) : Bool := facts.fields.contains field

/-- The mapping of every request field to itself. -/
def identity (facts : Facts) : Mapping := Mapping.identity facts.fields

end Facts

/-! ### Validation of arguments

A validator looks at one argument, present or absent, and at the facts established so far.  A
mapping directive establishes mappings; a URL is checked against the mapping that is there.  Each
validator answers with its verdict and with the facts as it leaves them, so that what a failing
one leaves behind can be spoken about.
-/

/-- Why an argument was refused. -/
inductive SyntaxFault where
  | notUrl
  | notString
  | notMap
  | notSelfMappings
  | notAsBody
  /-- A placeholder of the URL has no mapping. -/
  | unmapped (placeholder : Text)
  /-- A placeholder is mapped to a field that the request does not have. -/
  | unknownTarget (target : Text)
  /-- No category of a choice fits. -/
  | noneOf (categories : List Category)
deriving DecidableEq

/-- The wording of a refusal. -/
def SyntaxFault.message : SyntaxFault → Text
  | .notUrl => "The syntax should be a url"
  | .notString => "The syntax should be type/string"
  | .notMap => "The syntax should be a map in clojure way."
  | .notSelfMappings => "The syntax should be the keyword: selfMappings"
  | .notAsBody => "The syntax should be the keyword: asBody"
  | .unmapped placeholder => "The keyword '" ++ placeholder ++ "' is not mapping"
  | .unknownTarget target =>
    "The mapping '" ++ target ++ "' should be exists in the request data."
  | .noneOf categories =>
    "The syntax should be one of " ++ Text.join "," (categories.map Category.name)

/-- A verdict on an argument, and the facts behind it. -/
abbrev Verdict := Except SyntaxFault Unit × Facts

/-- What is wrong with a placeholder: it is not mapped, or mapped to an unknown field. -/
def placeholderFault? (facts : Facts) (placeholder : Text) : Option SyntaxFault :=
  match facts.urlMapping.bind (·.get? placeholder) with
  | none => some (.unmapped placeholder)
  | some target => if facts.knows target then none else some (.unknownTarget target)

/-- Checks a URL: its shape first, then its placeholders in order. -/
def checkUrl (candidate : Option Text) (facts : Facts) : Except SyntaxFault Unit :=
  match candidate.filter UrlTemplate.isUrl with
  | none => .error .notUrl
  | some url =>
    match (UrlTemplate.placeholders url).findSome? (placeholderFault? facts) with
    | some fault => .error fault
    | none => .ok ()

/-- Checks an argument against one category.  A map literal establishes the mappings of the URL and
of the body, `selfMappings` that of the URL and `asBody` that of the body. -/
def Category.validate (category : Category) (candidate : Option Text) (facts : Facts) : Verdict :=
  match category with
  | .url => (checkUrl candidate facts, facts)
  | .string => (if candidate.isSome then .ok () else .error .notString, facts)
  | .map =>
    match candidate.bind MapLiteral.parse? with
    | some mapping =>
      (.ok (), { facts with urlMapping := some mapping, bodyMapping := some mapping })
    | none => (.error .notMap, facts)
  | .selfMappings =>
    if candidate = some ("selfMappings" : Text) then
      (.ok (), { facts with urlMapping := some facts.identity })
    else (.error .notSelfMappings, facts)
  | .asBody =>
    if candidate = some ("asBody" : Text) then
      (.ok (), { facts with bodyMapping := some facts.identity })
    else (.error .notAsBody, facts)

/-- Tries categories one after another, on the facts that the ones before leave, until one fits. -/
def tryEach (candidate : Option Text) : List Category → Facts → Bool × Facts
  | [], facts => (false, facts)
  | category :: rest, facts =>
    match category.validate candidate facts with
    | (.ok (), facts) => (true, facts)
    | (.error _, facts) => tryEach candidate rest facts

/-- Checks an argument against a position of a grammar. -/
def ArgSpec.validate (spec : ArgSpec) (candidate : Option Text) (facts : Facts) : Verdict :=
  match spec with
  | .one category => category.validate candidate facts
  | .oneOf categories =>
    match tryEach candidate categories facts with
    | (true, facts) => (.ok (), facts)
    | (false, facts) => (.error (.noneOf categories), facts)

/-! ### Compilation -/

/-- Why a declaration was rejected. -/
inductive CompileFault where
  /-- The keyword is none of the known ones. -/
  | invalidKeyword
  /-- The argument at a position, counted from zero, was refused. -/
  | argument (position : Nat) (fault : SyntaxFault)
deriving DecidableEq

/-- The wording of a rejection; positions are shown counted from one. -/
def CompileFault.message : CompileFault → Text
  | .invalidKeyword => "Invalid keyword."
  | .argument position fault =>
    "Error on the " ++ Text.ofNat (position + 1) ++ "st argument: " ++ fault.message

namespace Form

/-- Checks the positions of a grammar from the last one down to `position`, which is that of its
first entry. -/
def checkFrom (form : Form) (position : Nat) :
    List ArgSpec → Facts → Except CompileFault Unit × Facts
  | [], facts => (.ok (), facts)
  | spec :: later, facts =>
    match checkFrom form (position + 1) later facts with
    | (.error fault, facts) => (.error fault, facts)
    | (.ok (), facts) =>
      match spec.validate (form.arg? position) facts with
      | (.ok (), facts) => (.ok (), facts)
      | (.error fault, facts) => (.error (.argument position fault), facts)

/-- Checks a split declaration, starting from given facts. -/
def check (form : Form) (facts : Facts) : Except CompileFault Keyword × Facts :=
  match Keyword.ofName? form.keyword with
  | none => (.error .invalidKeyword, facts)
  | some keyword =>
    match form.checkFrom 0 keyword.grammar facts with
    | (.ok (), facts) => (.ok keyword, facts)
    | (.error fault, facts) => (.error fault, facts)

end Form

/-- Compiles a declaration: its keyword, and the facts that it establishes. -/
def deriveFacts (declaration : Text) (fields : List Text) :
    Except CompileFault (Keyword × Facts) :=
  match (Form.split declaration).check { fields } with
  | (.ok keyword, facts) => .ok (keyword, facts)
  | (.error fault, _) => .error fault

/-- The outcome of compiling one declaration. -/
structure Compilation where
  declaration : Text
  fields : List Text
  fault : Option CompileFault
deriving DecidableEq

namespace Compilation

/-- Whether the declaration was accepted. -/
def isOk (c : Compilation) : Bool := c.fault.isNone

/-- The failure of a rejected declaration. -/
def failure? (c : Compilation) : Option Failure :=
  c.fault.map fun fault => Cause.rejected c.declaration fault.message

/-- The outcome for an accepted declaration, its failure for a rejected one. -/
def toExcept (c : Compilation) : Except Failure Compilation :=
  match c.failure? with
  | none => .ok c
  | some failure => .error failure

/-- The outcome as it is reported: the message of the rejection, or null. -/
def toJson (c : Compilation) : Json :=
  .object [("declaration", .string c.declaration), ("requestFields", Json.ofTexts c.fields),
    ("error", Json.ofOption (c.fault.map CompileFault.message))]

end Compilation

/-- Compiles a declaration against its request fields. -/
def compile (declaration : Text) (fields : List Text) : Compilation :=
  { declaration, fields
    fault := match deriveFacts declaration fields with
      | .ok _ => none
      | .error fault => some fault }

/-- Compiles declarations in the order given; rejected ones do not stop the others. -/
def compileBatch (entries : List (Text × List Text)) : List Compilation :=
  entries.map fun (declaration, fields) => compile declaration fields

/-- The first rejected declaration of a batch. -/
def firstRejected? (results : List Compilation) : Option Compilation :=
  results.find? (!·.isOk)

end Endpoints
