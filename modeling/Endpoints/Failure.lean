import Endpoints.Text

/-!
# Failures

Whatever goes wrong outside the grammar of one declaration is a `Failure`: a cause, and the place
in a source where it arose if one is known.  The causes carry what the caller needs to act on
them; their wording is given once, by `Cause.message`.
-/

namespace Endpoints

/-- Why an operation failed. -/
inductive Cause where
  /-- A declaration was rejected by the compiler, with its message. -/
  | rejected (declaration message : Text)
  /-- A declaration was used without having been compiled. -/
  | notCompiled (declaration : Text)
  /-- The root of the declaration sources does not exist. -/
  | sourceNotFound (path : Text)
  /-- An engine was assembled without one of its collaborators. -/
  | missingCollaborator (name : Text)
  /-- A write to the local storage came without data. -/
  | emptyStoreData
  /-- The URL needs a value that the payload does not have. -/
  | missingRequestData (name : Text)
  /-- A declaration site was found whose parts cannot be told apart. -/
  | malformedDeclaration (site : Text)
  /-- The transport refused a request. -/
  | transport (problem : Text)
  /-- The storage refused a read or a write. -/
  | storage (problem : Text)
  /-- A file or directory could not be accessed. -/
  | io (problem : Text)
  /-- Bytes or text do not hold what they should. -/
  | serialization (problem : Text)
  /-- A declaration reached the resolver in a shape that the compiler does not accept. -/
  | internal (problem : Text)
deriving DecidableEq

namespace Cause

/-- The wording of a cause. -/
def message : Cause → Text
  | .rejected declaration message =>
    "ERROR when compiling '" ++ declaration ++ "': " ++ message
  | .notCompiled _ =>
    "No compilation found for the declaration. Call compile_all before evaluating it."
  | .sourceNotFound _ =>
    "Add the data access layer to your project root folder before compiling."
  | .missingCollaborator name => "missing collaborator: " ++ name
  | .emptyStoreData => "Data should not be null on store operation."
  | .missingRequestData name => "no value for '" ++ name ++ "' in the request data"
  | .malformedDeclaration site => "unable to extract the declaration from: " ++ site
  | .transport problem => "transport error: " ++ problem
  | .storage problem => "storage error: " ++ problem
  | .io problem => "I/O error: " ++ problem
  | .serialization problem => "serialization error: " ++ problem
  | .internal problem => "internal error: " ++ problem

/-- Whether the cause is a declaration that was never compiled. -/
def isNotCompiled : Cause → Bool
  | .notCompiled _ => true
  | _ => false

end Cause

/-- A place in a source: a file, a line of it, or a line of a text without a file. -/
structure Place where
  source : Option Text := none
  line : Option Nat := none
deriving DecidableEq

/-- How a place is shown. -/
def Place.display : Place → Text
  | ⟨some source, some line⟩ => "at " ++ source ++ ":" ++ Text.ofNat line
  | ⟨some source, none⟩ => "at " ++ source
  | ⟨none, some line⟩ => "at line " ++ Text.ofNat line
  | ⟨none, none⟩ => []

/-- A cause, and the place where it arose if one is known. -/
structure Failure where
  cause : Cause
  place : Option Place := none
deriving DecidableEq

instance : Coe Cause Failure := ⟨fun cause => ⟨cause, none⟩⟩

namespace Failure

/-- The wording of a failure is that of its cause; the place is shown apart. -/
def message (failure : Failure) : Text := failure.cause.message

/-- The failure with a place in a file: the line it already has, and the file. -/
def inSource (failure : Failure) (path : Text) : Failure :=
  { failure with place := some ⟨some path, failure.place.bind Place.line⟩ }

end Failure

end Endpoints
