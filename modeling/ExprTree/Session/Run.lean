import ExprTree.Session.Line

set_option autoImplicit false

/-!
# Working through an input

The lines of an input are handled one after another, up to the end or to the first
line that is not text.  Refused lines are complained of and do not stop the run.
-/

namespace ExprTree

/-- A condition that the operating system reports. -/
structure SystemError where
  text : String
  code : Nat
  deriving DecidableEq, Repr, Inhabited

/-- The condition in words. -/
def SystemError.message (e : SystemError) : String :=
  e.text ++ " (os error " ++ e.code.repr ++ ")"

/-- Why an input cannot be worked through. -/
inductive Failure where
  /-- The file cannot be opened. -/
  | cannotOpen (path : String) (cause : SystemError)
  /-- The next line cannot be read. -/
  | cannotRead (cause : SystemError)
  /-- The next line is not text. -/
  | notText
  deriving DecidableEq, Repr, Inhabited

namespace Failure

/-- What failed. -/
def message : Failure → String
  | cannotOpen path _ => "failed to open " ++ path
  | cannotRead _ | notText => "failed to read input line"

/-- Why it failed. -/
def cause : Failure → String
  | cannotOpen _ e | cannotRead e => e.message
  | notText => "stream did not contain valid UTF-8"

/-- The report of the failure. -/
def report (f : Failure) : String :=
  "Error: " ++ f.message ++ "\n\nCaused by:\n    " ++ f.cause ++ "\n"

end Failure

/-- An input that was worked through, or part of one. -/
structure Report where
  events : List Event
  ending : Except Failure Tally

namespace Report

/-- All that was written. -/
def output (r : Report) : String := String.join (r.events.filterMap Event.output?)

/-- All that was complained of. -/
def complaints (r : Report) : String := String.join (r.events.filterMap Event.complaint?)

/-- All that was recorded. -/
def records (r : Report) : List Record := r.events.filterMap Event.record?

end Report

namespace Options

/-- The texts of the lines, up to the first that is not text. -/
def texts (lines : List (List UInt8)) : List String :=
  ((lines.map Text.lineText?).takeWhile Option.isSome).filterMap id

/-- Handles lines that are numbered from `first` on. -/
def handleAll (o : Options) (first : Nat) (lines : List String) : List Handled :=
  (lines.zipIdx first).map fun (line, number) => o.handle number line

/-- Works through an input. -/
def run (o : Options) (bytes : List UInt8) : Report :=
  let lines := Text.splitLines bytes
  let readable := texts lines
  let handled := o.handleAll 1 readable
  { events := handled.flatMap Handled.events
    ending :=
      if readable.length = lines.length then .ok (.ofVerdicts (handled.map Handled.verdict))
      else .error .notText }

end Options

end ExprTree
