import ExprTree.Session.Record

set_option autoImplicit false

/-!
# Handling one line

A line is skipped if it is blank; otherwise it is read as an expression, and its tree
is written out or a complaint is made.  What happens is a list of events in the order
in which they happen: what is written, what is complained of, what is recorded.
-/

namespace ExprTree

/-- The form in which a tree is written. -/
inductive Format where
  /-- As an outline. -/
  | tree
  /-- As a JSON document on one line. -/
  | json
  deriving DecidableEq, Repr, Inhabited

/-- How lines are handled. -/
structure Options where
  format : Format
  mode : Mode
  /-- Whether a table of the tokens precedes each tree. -/
  tokens : Bool
  deriving DecidableEq, Repr, Inhabited

/-- Something that happens. -/
inductive Event where
  | output (text : String)
  | complaint (text : String)
  | record (record : Record)
  deriving DecidableEq, Repr, Inhabited

namespace Event

/-- The text that is written. -/
def output? : Event → Option String
  | output text => some text
  | _ => none

/-- The text that is complained of. -/
def complaint? : Event → Option String
  | complaint text => some text
  | _ => none

/-- What is recorded. -/
def record? : Event → Option Record
  | record r => some r
  | _ => none

end Event

/-- The tree in a form. -/
def Tree.render (tree : Tree) : Format → String
  | .tree => tree.outline
  | .json => tree.document ++ "\n"

/-- The complaint about a refused line. -/
def SyntaxError.complaint (e : SyntaxError) : String :=
  "error: " ++ e.message ++ " at " ++ e.span.text ++ "\n"

/-- A line that was handled. -/
structure Handled where
  verdict : Verdict
  events : List Event
  deriving DecidableEq, Repr, Inhabited

namespace Options

/-- The events that show the tokens of a line. -/
def tableEvents (o : Options) (line : String) : List Event :=
  if o.tokens then
    let scanner := Scanner.ofList line.toList
    (Record.ofTokens scanner.upToEnd).map .record ++ [.output (Token.table scanner.toEnd)]
  else []

/-- Handles the line of a number. -/
def handle (o : Options) (number : Nat) (line : String) : Handled :=
  if Text.isBlankLine line then ⟨.blank, [.record (.blank number)]⟩
  else
    let reading := Reading.ofString o.mode line
    let before := o.tableEvents line ++ reading.records.map .record
    match reading.result with
    | .ok tree =>
      ⟨.parsed, before ++
        [.record (.parsed number tree.kind tree.span), .output (tree.render o.format)]⟩
    | .error e =>
      ⟨.rejected, before ++ [.record (.rejected number e), .complaint e.complaint]⟩

end Options

end ExprTree
