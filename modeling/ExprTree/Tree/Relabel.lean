import ExprTree.Tree

set_option autoImplicit false

/-!
# Trees with their tokens changed

Changing the tokens of a tree, one by one, leaves its form as it is: the same nodes at
the same places, and leaves that are the old leaves changed.  Two such changes matter:
a shift of all spans, which is what happens to a tree when text is put before its
source, and the loss of everything that an outline does not show.
-/

namespace ExprTree

/-- What is left of a token without its place, and of a number without its digits. -/
def Token.erase (t : Token) : Token :=
  { t with span := .point 0, text := if t.kind = .number then none else t.text }

namespace Tree

/-- The tree with every token changed by `f`; the values of literals stay. -/
def mapTokens (f : Token → Token) : Tree → Tree
  | binary left operator right => binary (left.mapTokens f) (f operator) (right.mapTokens f)
  | unary operator operand => unary (f operator) (operand.mapTokens f)
  | parenthesized opening expression closing =>
    parenthesized (f opening) (expression.mapTokens f) (f closing)
  | literal token value => literal (f token) value
  | name token => name (f token)
  | assignment target equals value =>
    assignment (target.mapTokens f) (f equals) (value.mapTokens f)

/-- The tree with all spans `n` bytes further on. -/
def shift (n : Nat) (tree : Tree) : Tree := tree.mapTokens (Token.shift n)

/-- The tree without places, and without the digits of its numbers. -/
def erase (tree : Tree) : Tree := tree.mapTokens Token.erase

/-- The tree and all trees in it, each before those in it. -/
def subtrees (tree : Tree) : List Tree :=
  tree ::
    match tree with
    | binary left _ right => left.subtrees ++ right.subtrees
    | unary _ operand => operand.subtrees
    | parenthesized _ expression _ => expression.subtrees
    | literal .. => []
    | name .. => []
    | assignment target _ value => target.subtrees ++ value.subtrees

/-! ## What stays and what follows -/

@[simp] theorem kind_mapTokens (f : Token → Token) (tree : Tree) :
    (tree.mapTokens f).kind = tree.kind := by
  cases tree <;> rfl

@[simp] theorem leaves_mapTokens (f : Token → Token) (tree : Tree) :
    (tree.mapTokens f).leaves = tree.leaves.map f := by
  induction tree <;> simp_all [mapTokens, leaves]

theorem mem_subtrees_self (tree : Tree) : tree ∈ tree.subtrees := by
  unfold subtrees
  exact List.mem_cons_self

/-- The walk meets exactly the trees in a tree. -/
theorem subtrees_eq_walk (depth : Nat) (tree : Tree) :
    tree.subtrees = (tree.walk depth).filterMap fun (_, e) =>
      match e with
      | .node t => some t
      | .token _ => none := by
  induction tree generalizing depth with
  | binary left operator right ihl ihr =>
    simp [subtrees, walk, ← ihl (depth + 1), ← ihr (depth + 1)]
  | unary operator operand ih => simp [subtrees, walk, ← ih (depth + 1)]
  | parenthesized opening expression closing ih => simp [subtrees, walk, ← ih (depth + 1)]
  | literal token value => simp [subtrees, walk]
  | name token => simp [subtrees, walk]
  | assignment target equals value iht ihv =>
    simp [subtrees, walk, ← iht (depth + 1), ← ihv (depth + 1)]

end Tree

end ExprTree
