import ExprTree.Reader.Stream
import ExprTree.Tree

set_option autoImplicit false

/-!
# Reading one expression

The grammar, with precedences in place of a rule for each level:

    expression := name `=` expression
                | sign expression                     the operand binds as tightly as a sign
                | primary (operator expression)*      each operand tighter than its operator
    primary    := `(` expression `)` | `true` | `false` | name | number

An expression is read for a least precedence: of the operators that follow its first
operand it takes those that bind tighter, and leaves the others to whoever asked for
it.  That makes operators of equal precedence group to the left.

A tree has at most `maxLevels` levels.  Two counts keep to that: the number of
expressions that are being read, which bounds the way down, and the height of the
trees that are put together, which is carried up with them.  Both refuse the
expression as soon as they exceed the bound.
-/

namespace ExprTree

/-- The greatest number of levels of a tree. -/
def maxLevels : Nat := 128

/-- A tree and its number of levels. -/
structure Measured where
  tree : Tree
  height : Nat
  deriving DecidableEq, Repr, Inhabited

namespace Expression

/-- The height of a node over a part that is `height` high, if it is within the bound. -/
def nest (height : Nat) (span : Span) : Step Nat := fun s =>
  if height < maxLevels then .done (height + 1) s
  else .failed (.nestingTooDeep maxLevels span) s

theorem nest_eq_done_iff {height found : Nat} {span : Span} {s rest : Stream} :
    nest height span s = .done found rest ↔
      height < maxLevels ∧ found = height + 1 ∧ rest = s := by
  unfold nest
  split
  · rename_i h
    simp [h, eq_comm]
  · rename_i h
    simp [h]

theorem nest_eq_failed_iff {height : Nat} {span : Span} {s rest : Stream} {e : SyntaxError} :
    nest height span s = .failed e rest ↔
      maxLevels ≤ height ∧ e = .nestingTooDeep maxLevels span ∧ rest = s := by
  unfold nest
  split
  · rename_i h
    simp [Nat.not_le.2 h]
  · rename_i h
    simp [Nat.le_of_not_lt h, eq_comm]

/-- A literal of one token. -/
def literal : Step Measured := do
  let token ← Step.advance
  return ⟨.literal token token.value, 1⟩

/-- A name of one token. -/
def name : Step Measured := do
  let token ← Step.advance
  return ⟨.name token, 1⟩

/-- A parenthesis, the expression in it and the parenthesis that closes it. -/
def group (sub : Nat → Step Measured) : Step Measured := do
  let opening ← Step.advance
  let inner ← sub 0
  let closing ← Step.expect .closeParen
  let height ← nest inner.height opening.span
  return ⟨.parenthesized opening inner.tree closing, height⟩

/-- A sign of a precedence, and its operand. -/
def signed (sub : Nat → Step Measured) (precedence : Nat) : Step Measured := do
  let operator ← Step.advance
  let operand ← sub precedence
  let height ← nest operand.height operator.span
  return ⟨.unary operator operand.tree, height⟩

/-- An operator of a precedence after its left operand, and its right operand. -/
def joined (sub : Nat → Step Measured) (precedence : Nat) (left : Measured) : Step Measured := do
  let operator ← Step.advance
  let right ← sub precedence
  let height ← nest (max left.height right.height) operator.span
  return ⟨.binary left.tree operator right.tree, height⟩

/-- A group, a truth value, a name or a number; where none of them is, a number is missing. -/
def primary (sub : Nat → Step Measured) : Step Measured := fun s =>
  match s.current.kind with
  | .openParen => group sub s
  | .trueKeyword => literal s
  | .falseKeyword => literal s
  | .number => literal s
  | .identifier => name s
  | kind => .failed (.unexpectedToken .number kind s.current.span) s

/-- A target, the equals sign after it and the expression that is assigned. -/
def assignment (sub : Nat → Step Measured) : Step Measured := do
  let target ← primary sub
  let equals ← Step.expect .equals
  let value ← sub 0
  let height ← nest (max target.height value.height) equals.span
  return ⟨.assignment target.tree equals value.tree, height⟩

/-- What an expression for a least precedence starts with: a sign with its operand, if a sign
binds tightly enough, or a primary. -/
def operand (sub : Nat → Step Measured) (least : Nat) : Step Measured := fun s =>
  match s.current.kind.unaryPrecedence? with
  | some precedence => if least ≤ precedence then signed sub precedence s else primary sub s
  | none => primary sub s

/-- Joins `left` with what follows it, as long as that is an operator that binds tighter than
`least`, and at most `fuel` times. -/
def chain (sub : Nat → Step Measured) (least : Nat) : Nat → Measured → Step Measured
  | 0, left => pure left
  | fuel + 1, left => fun s =>
    match s.current.kind.binaryPrecedence? with
    | some precedence =>
      if precedence ≤ least then .done left s
      else (joined sub precedence left >>= chain sub least fuel) s
    | none => .done left s

/-- Joins `left` with all that follows it: each operator is a token ahead, so there are no more
of them than tokens. -/
def operators (sub : Nat → Step Measured) (least : Nat) (left : Measured) : Step Measured :=
  fun s => chain sub least s.ahead.length left s

/-- An expression for a least precedence, given how to read the expressions in it. -/
def body (sub : Nat → Step Measured) (least : Nat) : Step Measured := fun s =>
  if s.current.kind = .identifier ∧ s.second.kind = .equals then assignment sub s
  else (operand sub least >>= operators sub least) s

end Expression

/-- An expression for a least precedence, in which up to `levels` expressions may be open at the
same time, itself included. -/
def expression : Nat → Nat → Step Measured
  | 0, _ => fun s => .failed (.nestingTooDeep maxLevels s.current.span) s
  | levels + 1, least => Expression.body (expression levels) least

end ExprTree
