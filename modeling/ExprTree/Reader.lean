import ExprTree.Reader.Expression

set_option autoImplicit false

/-!
# Reading trees from a source

A reader holds the tokens of one source and reads expressions from them, one after
another: each attempt goes on where the one before it ended, with or without success.
A strict reader refuses an expression that is followed by anything; a lenient one
leaves what follows to the next attempt.
-/

namespace ExprTree

/-- What may follow an expression. -/
inductive Mode where
  /-- Nothing. -/
  | strict
  /-- Anything. -/
  | lenient
  deriving DecidableEq, Repr, Inhabited

/-- The tokens of a source, and what may follow an expression. -/
structure Reader where
  mode : Mode
  stream : Stream
  deriving DecidableEq, Repr, Inhabited

/-- An attempt to read an expression. -/
structure Attempt where
  /-- The levels of the expression, if there is one, whatever follows it. -/
  levels : Option Nat
  /-- The tree, or why there is none. -/
  result : Except SyntaxError Tree

namespace Reader

/-- A reader at the start of a source, if the source has valid tokens only. -/
def ofString (mode : Mode) (source : String) : Except SyntaxError Reader :=
  (Stream.ofString source).map fun stream => ⟨mode, stream⟩

/-- Reads one expression, and goes to where reading it ended. -/
def read (r : Reader) : Attempt × Reader :=
  match expression maxLevels 0 r.stream with
  | .failed e rest => (⟨none, .error e⟩, { r with stream := rest })
  | .done found rest =>
    let result :=
      if r.mode = .strict ∧ rest.current.kind ≠ .endOfFile then
        .error (.trailingToken rest.current.kind rest.current.span)
      else .ok found.tree
    (⟨some found.height, result⟩, { r with stream := rest })

/-- The attempts made one after another, `times` of them. -/
def readTimes : Nat → Reader → List Attempt
  | 0, _ => []
  | times + 1, r =>
    let (attempt, r) := r.read
    attempt :: readTimes times r

end Reader

/-- The tree of a source. -/
def Tree.read (mode : Mode) (source : String) : Except SyntaxError Tree :=
  (Reader.ofString mode source).bind fun r => r.read.1.result

end ExprTree
