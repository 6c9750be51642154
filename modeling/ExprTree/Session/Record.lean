import ExprTree.Reader

set_option autoImplicit false

/-!
# Tallies and log records

Every line of an input is either blank, or an expression, or refused.  A tally counts
the lines of each sort.

While it works, the program says what it does: which tokens it found, how deep a tree
is, what became of a line.  A record is such a saying, with a level of importance and
the name of the part that says it.
-/

namespace ExprTree

/-! ## Tallies -/

/-- What became of a line. -/
inductive Verdict where
  | parsed
  | rejected
  | blank
  deriving DecidableEq, Repr, Inhabited

/-- How many lines there were of each sort. -/
structure Tally where
  parsed : Nat
  rejected : Nat
  blank : Nat
  deriving DecidableEq, Repr, Inhabited

namespace Tally

instance : Add Tally where
  add a b := ⟨a.parsed + b.parsed, a.rejected + b.rejected, a.blank + b.blank⟩

/-- The number of lines. -/
def lines (t : Tally) : Nat := t.parsed + t.rejected + t.blank

/-- Counts verdicts. -/
def ofVerdicts (vs : List Verdict) : Tally :=
  ⟨vs.count .parsed, vs.count .rejected, vs.count .blank⟩

theorem ofVerdicts_append (vs ws : List Verdict) :
    ofVerdicts (vs ++ ws) = ofVerdicts vs + ofVerdicts ws := by
  simp only [ofVerdicts, List.count_append]
  rfl

/-- Every line is counted once. -/
theorem lines_ofVerdicts (vs : List Verdict) : (ofVerdicts vs).lines = vs.length := by
  induction vs with
  | nil => rfl
  | cons v vs ih =>
    simp only [ofVerdicts, lines] at ih
    cases v <;> simp [ofVerdicts, lines] <;> omega

end Tally

/-! ## Records -/

/-- How important a record is. -/
inductive Level where
  | trace
  | debug
  | info
  | warn
  | error
  deriving DecidableEq, Repr, Inhabited

namespace Level

/-- The name of the level in a log. -/
def name : Level → String
  | trace => "TRACE"
  | debug => "DEBUG"
  | info => "INFO"
  | warn => "WARN"
  | error => "ERROR"

/-- The place in the order of importance. -/
def rank : Level → Nat
  | trace => 0
  | debug => 1
  | info => 2
  | warn => 3
  | error => 4

/-- Which records a threshold lets through, by its name: those of a level and all above it, or
none at all. -/
def ofThreshold? (threshold : String) : Option Level :=
  match threshold with
  | "trace" => some trace
  | "debug" => some debug
  | "info" => some info
  | "warn" => some warn
  | "error" => some error
  | _ => none

end Level

/-- What the program says about its work. -/
inductive Record where
  /-- A token was found. -/
  | lexed (kind : Kind) (span : Span)
  /-- A reader holds so many tokens, the end-of-file token included. -/
  | primed (tokens : Nat)
  /-- An expression of so many levels was read. -/
  | leveled (height : Nat)
  /-- A line is blank. -/
  | blank (line : Nat)
  /-- A line is an expression. -/
  | parsed (line : Nat) (kind : Kind) (span : Span)
  /-- A line is refused. -/
  | rejected (line : Nat) (error : SyntaxError)
  /-- There are no more lines. -/
  | exhausted (tally : Tally)
  deriving DecidableEq, Repr, Inhabited

namespace Record

/-- The level of importance. -/
def level : Record → Level
  | lexed .. => .trace
  | primed .. | leveled .. | blank .. | parsed .. => .debug
  | exhausted .. => .info
  | rejected .. => .warn

/-- The part of the program that speaks. -/
def target : Record → String
  | lexed .. => "tbog::frontend::lexer"
  | primed .. | leveled .. => "tbog::frontend::parser"
  | blank .. | parsed .. | rejected .. | exhausted .. => "tbog"

/-- The record in words. -/
def message : Record → String
  | lexed kind span => "lexed " ++ kind.name ++ " at " ++ span.text
  | primed tokens => "parser primed with " ++ tokens.repr ++ " tokens"
  | leveled height => "parsed " ++ height.repr ++ " levels deep"
  | blank line => "line " ++ line.repr ++ ": blank, skipped"
  | parsed line kind span =>
    "line " ++ line.repr ++ ": parsed " ++ kind.name ++ " spanning " ++ span.text
  | rejected line error => "line " ++ line.repr ++ ": " ++ error.message
  | exhausted tally =>
    "input exhausted: " ++ tally.parsed.repr ++ " parsed, " ++ tally.rejected.repr ++
      " rejected, " ++ tally.blank.repr ++ " blank"

/-- Whether a threshold lets the record through. -/
def passes (threshold : Option Level) (r : Record) : Bool :=
  match threshold with
  | none => false
  | some least => least.rank ≤ r.level.rank

/-- The line of the record in a log, with a stamp for the time. -/
def logLine (stamp : String) (r : Record) : String :=
  "[" ++ stamp ++ " " ++ Text.padRight 5 r.level.name ++ " " ++ r.target ++ "] " ++ r.message ++
    "\n"

/-- The records of the tokens that were found. -/
def ofTokens (tokens : List Token) : List Record := tokens.map fun t => lexed t.kind t.span

/-- The records of an attempt to read a stream. -/
def ofAttempt (stream : Stream) (attempt : Attempt) : List Record :=
  primed (stream.ahead.length + 1) :: attempt.levels.toList.map leveled

end Record

/-- A source that was read: the tree or the refusal, and the records of the work. -/
structure Reading where
  result : Except SyntaxError Tree
  records : List Record

namespace Reading

/-- Reads the tree of a source. -/
def ofString (mode : Mode) (source : String) : Reading :=
  let scanner := Scanner.ofList source.toList
  let tokens := scanner.upToEnd
  match Stream.ofTokens tokens scanner.atEnd.offset with
  | .error e => ⟨.error e, Record.ofTokens tokens⟩
  | .ok stream =>
    let attempt := (Reader.mk mode stream).read.1
    ⟨attempt.result, Record.ofTokens tokens ++ Record.ofAttempt stream attempt⟩

theorem result_ofString (mode : Mode) (source : String) :
    (ofString mode source).result = Tree.read mode source := by
  unfold ofString Tree.read Reader.ofString Stream.ofString
  simp only
  split <;> rename_i h <;> rw [h] <;> rfl

end Reading

end ExprTree
