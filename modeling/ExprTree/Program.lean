import ExprTree.CommandLine
import ExprTree.Session.Run

set_option autoImplicit false

/-!
# The program

From arguments and inputs to what the program leaves behind: an exit code, what it
wrote and what it complained of.  Files come in as a function, which says for a path
whether it can be opened and then what can be read; so the whole program is a
function of its surroundings.
-/

namespace ExprTree

/-- What the program leaves behind. -/
structure Exit where
  code : Nat
  output : String
  complaints : String
  deriving DecidableEq, Repr, Inhabited

/-- What the program finds around it. -/
structure Surroundings where
  /-- The bytes of the standard input. -/
  input : List UInt8
  /-- Opens a path; an open file can be read, or not. -/
  openFile : String → Except SystemError (Except SystemError (List UInt8))
  /-- Which records are shown. -/
  threshold : Option Level
  /-- The time that records are stamped with. -/
  stamp : String

namespace Program

/-- The line that names the version. -/
def versionLine : String := "tbog 0.1.0\n"

/-- How the program is called. -/
def usage : String :=
  "Usage: tbog [OPTIONS] [FILE]\n\nOptions:\n" ++
  "      --format <FORMAT>  Output format for parsed trees (tree, json)\n" ++
  "      --lenient          Ignore tokens after a complete expression\n" ++
  "      --tokens           Print the token stream before each tree\n" ++
  "  -h, --help             Print help\n" ++
  "  -V, --version          Print version\n"

/-- The exit code of a command line that leaves nothing to work through. -/
def haltCode : Halt → Nat
  | .refused _ => 2
  | .help | .version => 0

/-- What is left behind when there is nothing to work through. -/
def halt (h : Halt) : Exit :=
  match h with
  | .refused _ => ⟨haltCode h, "", usage⟩
  | .help => ⟨haltCode h, usage, ""⟩
  | .version => ⟨haltCode h, versionLine, ""⟩

/-- The bytes to work through. -/
def bytes (s : Surroundings) (file : Option String) : Except Failure (List UInt8) :=
  match file with
  | none => .ok s.input
  | some path =>
    match s.openFile path with
    | .error e => .error (.cannotOpen path e)
    | .ok (.error e) => .error (.cannotRead e)
    | .ok (.ok bytes) => .ok bytes

/-- What an event adds to the complaints. -/
def complaint (s : Surroundings) : Event → String
  | .output _ => ""
  | .complaint text => text
  | .record r => if r.passes s.threshold then r.logLine s.stamp else ""

/-- The exit after a run. -/
def finish (s : Surroundings) (r : Report) : Exit :=
  let complaints := String.join (r.events.map (complaint s))
  match r.ending with
  | .error f => ⟨1, r.output, complaints ++ f.report⟩
  | .ok tally => ⟨0, r.output, complaints ++ complaint s (.record (.exhausted tally))⟩

/-- The whole program. -/
def run (s : Surroundings) (arguments : List String) : Exit :=
  match CommandLine.parse arguments with
  | .error h => halt h
  | .ok invocation =>
    match bytes s invocation.file with
    | .error f => ⟨1, "", f.report⟩
    | .ok bytes => finish s (invocation.options.run bytes)

end Program

end ExprTree
