import ExprTree.Program
import Std.Time.DateTime

set_option autoImplicit false

/-!
# The executable

Gathers what the program needs from its surroundings, and passes on what it leaves
behind.  Nothing is decided here.
-/

namespace ExprTree.Main

/-- A number of at least two digits. -/
def twoDigits (n : Nat) : String := if n < 10 then "0" ++ n.repr else n.repr

/-- The time in Coordinated Universal Time, to the second. -/
def timeStamp : IO String := do
  let now ← Std.Time.Timestamp.now
  let epoch := Std.Time.PlainDateTime.ofEpochDay 0 (Std.Time.PlainTime.ofSeconds 0)
  let time := epoch.addSeconds now.toSecondsSinceUnixEpoch
  let date := time.year.toInt.repr ++ "-" ++ twoDigits time.month.val.toNat ++ "-" ++
    twoDigits time.day.val.toNat
  return date ++ "T" ++ twoDigits time.hour.val.toNat ++ ":" ++
    twoDigits time.minute.val.toNat ++ ":" ++ twoDigits time.second.val.toNat ++ "Z"

/-- What the operating system says about an operation that failed. -/
def systemError : IO.Error → SystemError
  | .alreadyExists _ code text | .otherError code text | .resourceBusy code text
  | .resourceVanished code text | .unsupportedOperation code text | .hardwareFault code text
  | .unsatisfiedConstraints code text | .illegalOperation code text | .protocolError code text
  | .timeExpired code text | .interrupted _ code text | .noFileOrDirectory _ code text
  | .invalidArgument _ code text | .permissionDenied _ code text
  | .resourceExhausted _ code text | .inappropriateType _ code text
  | .noSuchThing _ code text => ⟨text, code.toNat⟩
  | .unexpectedEof => ⟨"end of file", 0⟩
  | .userError text => ⟨text, 0⟩

/-- Opens a file and reads all of it. -/
def openFile (path : String) : IO (Except SystemError (Except SystemError (List UInt8))) := do
  match ← (IO.FS.Handle.mk path .read).toBaseIO with
  | .error e => return .error (systemError e)
  | .ok handle =>
    match ← handle.readBinToEnd.toBaseIO with
    | .error e => return .ok (.error (systemError e))
    | .ok bytes => return .ok (.ok bytes.toList)

/-- The environment variable that holds the threshold of the log. -/
def logVariable : String := "RUST_LOG"

/-- The surroundings as far as a list of arguments needs them: the standard input is read only
if there is no file to read instead. -/
def gather (arguments : List String) : IO Surroundings := do
  let threshold := ((← IO.getEnv logVariable).map String.toLower).bind Level.ofThreshold?
  let stamp ← timeStamp
  match CommandLine.parse arguments with
  | .error _ => return ⟨[], fun _ => .ok (.ok []), threshold, stamp⟩
  | .ok ⟨none, _⟩ => do
    let bytes ← (← IO.getStdin).readBinToEnd
    return ⟨bytes.toList, fun _ => .ok (.ok []), threshold, stamp⟩
  | .ok ⟨some path, _⟩ => do
    let opened ← openFile path
    return ⟨[], fun _ => opened, threshold, stamp⟩

end ExprTree.Main

/-- Runs the program. -/
def main (arguments : List String) : IO UInt32 := do
  let exit := ExprTree.Program.run (← ExprTree.Main.gather arguments) arguments
  (← IO.getStdout).putStr exit.output
  (← IO.getStderr).putStr exit.complaints
  return UInt32.ofNat exit.code
