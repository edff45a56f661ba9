import Endpoints.Text

/-!
# Command line options

The arguments of the command line are flags, options that take the next argument as their value,
and words.  The first word that names a command is the command; all other words are positional.
-/

namespace Endpoints

/-- What the command line is asked to do. -/
inductive Command where
  | help
  | check
  | compile
  | resolve
deriving DecidableEq

/-- The command of a word. -/
def Command.ofWord? (word : Text) : Option Command :=
  if word = ("check" : Text) then some .check
  else if word = ("compile" : Text) then some .compile
  else if word = ("resolve" : Text) then some .resolve
  else none

/-- The arguments of the command line, sorted out. -/
structure Options where
  command : Command := .help
  root : Option Text := none
  extensions : List Text := []
  out : Option Text := none
  cache : Option Text := none
  positional : List Text := []
  verbose : Bool := false
  showVersion : Bool := false
deriving DecidableEq

/-- Why the arguments cannot be used. -/
inductive UsageFault where
  | valueRequired (option : Text)
  | unknownOption (option : Text)
  | outRequired
  | cacheRequired
  | declarationRequired
deriving DecidableEq

/-- The wording of a usage fault. -/
def UsageFault.message : UsageFault → Text
  | .valueRequired option => option ++ " requires a value"
  | .unknownOption option => "unknown option: " ++ option
  | .outRequired => "compile requires --out FILE"
  | .cacheRequired => "resolve requires --cache FILE"
  | .declarationRequired => "resolve requires a declaration"

namespace Options

/-- The setting that an option changes with its value. -/
def setter? (option : Text) : Option (Options → Text → Options) :=
  if option = ("--root" : Text) then some fun o value => { o with root := some value }
  else if option = ("--ext" : Text) then
    some fun o value => { o with extensions := o.extensions ++ [value] }
  else if option = ("--out" : Text) then some fun o value => { o with out := some value }
  else if option = ("--cache" : Text) then some fun o value => { o with cache := some value }
  else none

/-- The setting that a flag changes.  The flag for help takes back a command given before it. -/
def flag? (flag : Text) : Option (Options → Options) :=
  if flag = ("-h" : Text) || flag = ("--help" : Text) then
    some fun o => { o with command := .help }
  else if flag = ("-V" : Text) || flag = ("--version" : Text) then
    some fun o => { o with showVersion := true }
  else if flag = ("-v" : Text) || flag = ("--verbose" : Text) then
    some fun o => { o with verbose := true }
  else none

/-- A word: a command if none is set, else positional. -/
def addWord (o : Options) (word : Text) : Options :=
  match o.command, Command.ofWord? word with
  | .help, some command => { o with command }
  | _, _ => { o with positional := o.positional ++ [word] }

/-- Reads arguments one after another, an option together with its value. -/
def parseFrom (o : Options) : List Text → Except UsageFault Options
  | [] => .ok o
  | arg :: rest =>
    match flag? arg with
    | some set => parseFrom (set o) rest
    | none =>
      match setter? arg with
      | some set =>
        match rest with
        | [] => .error (.valueRequired arg)
        | value :: rest => parseFrom (set o value) rest
      | none =>
        if arg.head? = some '-' then .error (.unknownOption arg)
        else parseFrom (o.addWord arg) rest

/-- Reads the arguments of the command line. -/
def parse (args : List Text) : Except UsageFault Options := parseFrom {} args

end Options

end Endpoints
