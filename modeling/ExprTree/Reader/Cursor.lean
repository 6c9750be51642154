import ExprTree.Reader

set_option autoImplicit false

/-!
# Reading with counters

The same grammar as that of `ExprTree.expression`, read the way a machine does it: all
tokens of the source, with the end-of-file token as the last, stay where they are, and
two counts change, the index of the token that comes next and the number of expressions
that are being read.  An index need not be that of a token, and a count that is lowered
could be zero already; so reading can break off with a fault, which is something other
than to refuse an expression.  Nothing here says that it does not.
-/

namespace ExprTree

/-- Why reading breaks off. -/
inductive Fault where
  /-- There is no token at an index. -/
  | outOfBounds
  /-- A count would be less than zero. -/
  | underflow
  /-- More expressions or operators have been met than the tokens and the depth allow. -/
  | unfinished
  deriving DecidableEq, Repr, Inhabited

/-- The tokens of a source, the index of the one that comes next, and the number of expressions
that are being read. -/
structure Cursor where
  tokens : List Token
  position : Nat
  depth : Nat
  deriving DecidableEq, Repr, Inhabited

namespace Cursor

/-- A count less one. -/
def lower : Nat → Except Fault Nat
  | 0 => .error .underflow
  | count + 1 => .ok count

/-- The token at an index. -/
def token (c : Cursor) (index : Nat) : Except Fault Token :=
  match c.tokens[index]? with
  | some t => .ok t
  | none => .error .outOfBounds

/-- The token `offset` places after the one that comes next, or the last one if there are not so
many. -/
def peek (c : Cursor) (offset : Nat) : Except Fault Token := do
  let last ← lower c.tokens.length
  c.token (min (c.position + offset) last)

/-- The cursor one token further on; at the last token it stays. -/
def step (c : Cursor) : Except Fault Cursor := do
  let last ← lower c.tokens.length
  return if c.position < last then { c with position := c.position + 1 } else c

/-- The cursor with one expression more being read. -/
def descend (c : Cursor) : Cursor := { c with depth := c.depth + 1 }

/-- The cursor with one expression less being read. -/
def ascend (c : Cursor) : Except Fault Cursor := do
  let depth ← lower c.depth
  return { c with depth := depth }

end Cursor

/-- Reading with a cursor: it breaks off, or it ends with a value or a refusal, and in both cases
with the cursor somewhere. -/
def Move (α : Type) : Type := Cursor → Except Fault (Except SyntaxError α × Cursor)

namespace Move

variable {α β : Type}

instance : Monad Move where
  pure a := fun c => .ok (.ok a, c)
  bind x f := fun c =>
    match x c with
    | .ok (.ok a, c) => f a c
    | .ok (.error e, c) => .ok (.error e, c)
    | .error fault => .error fault

/-- Refuses what is being read. -/
def refuse (e : SyntaxError) : Move α := fun c => .ok (.error e, c)

/-- Looks at a token ahead. -/
def peek (offset : Nat) : Move Token := fun c => do
  let token ← c.peek offset
  return (.ok token, c)

/-- The token that comes next, read. -/
def advance : Move Token := fun c => do
  let token ← c.peek 0
  let c ← c.step
  return (.ok token, c)

/-- Reads the token that comes next if it is of a kind, and refuses it otherwise. -/
def expect (kind : Kind) : Move Token := do
  let token ← peek 0
  if token.kind = kind then advance
  else refuse (.unexpectedToken kind token.kind token.span)

/-- The height of a node over a part that is `height` high, if it is within the bound. -/
def nest (height : Nat) (span : Span) : Move Nat :=
  if height < maxLevels then pure (height + 1) else refuse (.nestingTooDeep maxLevels span)

/-- A literal of one token. -/
def literal (token : Token) : Measured := ⟨.literal token token.value, 1⟩

/-- A parenthesis, the expression in it and the parenthesis that closes it. -/
def group (sub : Nat → Move Measured) : Move Measured := do
  let opening ← advance
  let inner ← sub 0
  let closing ← expect .closeParen
  let height ← nest inner.height opening.span
  return ⟨.parenthesized opening inner.tree closing, height⟩

/-- A sign of a precedence, and its operand. -/
def signed (sub : Nat → Move Measured) (precedence : Nat) : Move Measured := do
  let operator ← advance
  let operand ← sub precedence
  let height ← nest operand.height operator.span
  return ⟨.unary operator operand.tree, height⟩

/-- An operator of a precedence after its left operand, and its right operand. -/
def joined (sub : Nat → Move Measured) (precedence : Nat) (left : Measured) : Move Measured := do
  let operator ← advance
  let right ← sub precedence
  let height ← nest (max left.height right.height) operator.span
  return ⟨.binary left.tree operator right.tree, height⟩

/-- A group, a truth value, a name or else a number. -/
def primary (sub : Nat → Move Measured) : Move Measured := do
  let token ← peek 0
  match token.kind with
  | .openParen => group sub
  | .trueKeyword | .falseKeyword => do
    let token ← advance
    return literal token
  | .identifier => do
    let token ← advance
    return ⟨.name token, 1⟩
  | _ => do
    let token ← expect .number
    return literal token

/-- A target, the equals sign after it and the expression that is assigned. -/
def assignment (sub : Nat → Move Measured) : Move Measured := do
  let target ← primary sub
  let equals ← expect .equals
  let value ← sub 0
  let height ← nest (max target.height value.height) equals.span
  return ⟨.assignment target.tree equals value.tree, height⟩

/-- A sign with its operand, if a sign binds tightly enough, or a primary. -/
def operand (sub : Nat → Move Measured) (least : Nat) : Move Measured := do
  let token ← peek 0
  match token.kind.unaryPrecedence? with
  | some precedence => if least ≤ precedence then signed sub precedence else primary sub
  | none => primary sub

/-- Joins `left` with what follows it until that is no operator that binds tighter than `least`.
It is looked at what follows `fuel` times at most. -/
def loop (sub : Nat → Move Measured) (least : Nat) : Nat → Measured → Move Measured
  | 0, _ => fun _ => .error .unfinished
  | fuel + 1, left => do
    let token ← peek 0
    match token.kind.binaryPrecedence? with
    | some precedence =>
      if precedence ≤ least then return left
      else do
        let left ← joined sub precedence left
        loop sub least fuel left
    | none => return left

/-- Joins `left` with all that follows it. -/
def operators (sub : Nat → Move Measured) (least : Nat) (left : Measured) : Move Measured :=
  fun c => loop sub least c.tokens.length left c

/-- An expression for a least precedence, given how to read the expressions in it. -/
def body (sub : Nat → Move Measured) (least : Nat) : Move Measured := do
  let token ← peek 0
  let next ← peek 1
  if token.kind = .identifier ∧ next.kind = .equals then assignment sub
  else do
    let left ← operand sub least
    operators sub least left

/-- Reads an expression with the count of them raised, and lowers the count again however that
ends; where as many expressions are being read as a tree may have levels, refuses it. -/
def nested (inner : Move Measured) : Move Measured := fun c =>
  if c.depth = maxLevels then do
    let token ← c.peek 0
    return (.error (.nestingTooDeep maxLevels token.span), c)
  else do
    let (result, c) ← inner c.descend
    let c ← c.ascend
    return (result, c)

/-- An expression for a least precedence, in which at most `fuel` expressions are met inside each
other, itself included. -/
def expression : Nat → Nat → Move Measured
  | 0, _ => fun _ => .error .unfinished
  | fuel + 1, least => nested (body (expression fuel) least)

/-- Reads one expression; a strict reader refuses it if anything follows. -/
def read (mode : Mode) : Move Tree := do
  let found ← expression (maxLevels + 1) 0
  let token ← peek 0
  if mode = .strict ∧ token.kind ≠ .endOfFile then
    refuse (.trailingToken token.kind token.span)
  else return found.tree

end Move

/-! ## Reading again and again -/

/-- An attempt to read an expression: the cursor before it, its result and the cursor after it. -/
structure Call where
  before : Cursor
  result : Except SyntaxError Tree
  after : Cursor

/-- The attempts made one after another, `times` of them, each with the cursor that the one before
it left. -/
def Cursor.readTimes (mode : Mode) : Nat → Cursor → Except Fault (List Call)
  | 0, _ => return []
  | times + 1, c => do
    let (result, after) ← Move.read mode c
    let calls ← readTimes mode times after
    return ⟨c, result, after⟩ :: calls

end ExprTree
