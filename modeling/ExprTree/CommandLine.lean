import ExprTree.Session.Line

set_option autoImplicit false

/-!
# The command line

    [--format tree|json] [--lenient] [--tokens] [--] [FILE]

Arguments are looked at from left to right, and the first that is wrong decides.  A
value that was given for an option or for the file is looked at only when something
else is accepted after it, or at the end: until then it is *pending*.  So an unknown
option that follows a bad value is what the command line is refused for.
-/

namespace ExprTree

/-- Why a command line is refused. -/
inductive UsageError where
  /-- An argument that is no option, or a second file. -/
  | unknownArgument
  /-- A missing or empty value, or one that the option does not take. -/
  | invalidValue
  /-- An option that was given before. -/
  | argumentConflict
  /-- A value for an option that takes none. -/
  | tooManyValues
  deriving DecidableEq, Repr, Inhabited

/-- Why there is nothing to work through. -/
inductive Halt where
  | refused (error : UsageError)
  | help
  | version
  deriving DecidableEq, Repr, Inhabited

/-- What the command line asks for. -/
structure Invocation where
  file : Option String
  options : Options
  deriving DecidableEq, Repr, Inhabited

namespace CommandLine

/-- A value that was given and not yet looked at. -/
inductive Pending where
  | nothing
  /-- The value of the option for the format, if it has come. -/
  | format (value : Option String)
  /-- The name of the file. -/
  | file (name : String)
  deriving DecidableEq, Repr, Inhabited

/-- What was accepted so far. -/
structure State where
  format : Option Format
  lenient : Bool
  tokens : Bool
  file : Option String
  pending : Pending
  /-- Whether options may no longer come. -/
  filesOnly : Bool
  deriving DecidableEq, Repr, Inhabited

/-- Before the first argument. -/
def State.start : State := ⟨none, false, false, none, .nothing, false⟩

/-- The format of a name. -/
def format? (name : String) : Option Format :=
  match name with
  | "tree" => some .tree
  | "json" => some .json
  | _ => none

namespace State

/-- Accepts a value for the format. -/
def setFormat (s : State) (value : String) : Except Halt State :=
  if s.format.isSome then .error (.refused .argumentConflict)
  else
    match format? value with
    | some format => .ok { s with format := some format }
    | none => .error (.refused .invalidValue)

/-- Looks at the pending value. -/
def settle (s : State) : Except Halt State :=
  let rest := { s with pending := .nothing }
  match s.pending with
  | .nothing => .ok rest
  | .format none => .error (.refused .invalidValue)
  | .format (some value) => rest.setFormat value
  | .file name =>
    if name.isEmpty then .error (.refused .invalidValue)
    else .ok { rest with file := some name }

/-- Whether a file was given, looked at or not. -/
def hasFile (s : State) : Bool :=
  match s.pending with
  | .file _ => true
  | _ => s.file.isSome

/-- Takes an argument for the file. -/
def giveFile (s : State) (name : String) : Except Halt State :=
  if s.hasFile then .error (.refused .unknownArgument)
  else s.settle.map fun s => { s with pending := .file name }

/-- Takes an argument that is not an option: a value that is waited for, or the file. -/
def giveWord (s : State) (word : String) : Except Halt State :=
  match s.pending with
  | .format none => .ok { s with pending := .format (some word) }
  | _ => s.giveFile word

/-- Takes an option by its long name, with a value behind an equals sign if there is one. -/
def giveLong (s : State) (name : String) (value : Option String) : Except Halt State :=
  match name, value with
  | "format", none => s.settle.map fun s => { s with pending := .format none }
  | "format", some value => s.settle.bind fun s => s.setFormat value
  | "lenient", none =>
    s.settle.bind fun s =>
      if s.lenient then .error (.refused .argumentConflict) else .ok { s with lenient := true }
  | "tokens", none =>
    s.settle.bind fun s =>
      if s.tokens then .error (.refused .argumentConflict) else .ok { s with tokens := true }
  | "help", none => s.settle.bind fun _ => .error .help
  | "version", none => s.settle.bind fun _ => .error .version
  | "lenient", some _ | "tokens", some _ | "help", some _ | "version", some _ =>
    .error (.refused .tooManyValues)
  | _, _ => .error (.refused .unknownArgument)

/-- Takes an option by its letter. -/
def giveShort (s : State) (letter : Char) : Except Halt State :=
  match letter with
  | 'h' => s.settle.bind fun _ => .error .help
  | 'V' => s.settle.bind fun _ => .error .version
  | _ => .error (.refused .unknownArgument)

/-- Takes one argument. -/
def give (s : State) (argument : String) : Except Halt State :=
  if s.filesOnly then s.giveFile argument
  else
    match argument.toList with
    | ['-', '-'] => .ok { s with filesOnly := true }
    | '-' :: '-' :: cs =>
      let name := String.ofList (cs.takeWhile fun c => c != '=')
      match cs.dropWhile fun c => c != '=' with
      | [] => s.giveLong name none
      | _ :: value => s.giveLong name (some (String.ofList value))
    | '-' :: c :: _ => s.giveShort c
    | _ => s.giveWord argument

/-- What was accepted, once all arguments are taken. -/
def invocation (s : State) : Invocation where
  file := s.file
  options :=
    { format := s.format.getD .tree
      mode := if s.lenient then .lenient else .strict
      tokens := s.tokens }

end State

/-- What a list of arguments asks for. -/
def parse (arguments : List String) : Except Halt Invocation :=
  ((arguments.foldlM State.give State.start).bind State.settle).map State.invocation

end CommandLine

end ExprTree
