import ExprTree.Tree

set_option autoImplicit false

/-!
# Canonical trees

Of all trees with the same leaves, the canonical one is grouped as precedence and
associativity demand: operators of higher precedence bind tighter, those of equal
precedence group to the left, an assignment takes everything up to the end of the
text or the closing parenthesis, and a sign binds tighter than any operator between
two operands.  The definition looks at the tree alone, without reading any text.
-/

namespace ExprTree.Tree

/-- The precedence of the root, if it is an operator between two operands. -/
def precedence? : Tree → Option Nat
  | binary _ operator _ => operator.kind.binaryPrecedence?
  | _ => none

/-- Whether the text of the tree ends with that of an assignment outside parentheses. -/
def EndsInAssignment : Tree → Prop
  | binary _ _ right => right.EndsInAssignment
  | unary _ operand => operand.EndsInAssignment
  | assignment .. => True
  | _ => False

instance decidableEndsInAssignment : (tree : Tree) → Decidable tree.EndsInAssignment
  | binary _ _ right => decidableEndsInAssignment right
  | unary _ operand => decidableEndsInAssignment operand
  | parenthesized .. => inferInstanceAs (Decidable False)
  | literal .. => inferInstanceAs (Decidable False)
  | name .. => inferInstanceAs (Decidable False)
  | assignment .. => inferInstanceAs (Decidable True)

/-- Whether every token is of a kind that its place admits and the grouping is the one that the
precedences demand. -/
def Canonical : Tree → Prop
  | binary left operator right =>
    (∃ p, operator.kind.binaryPrecedence? = some p ∧
      (∀ q, right.precedence? = some q → p < q) ∧
      (∀ q, left.precedence? = some q → p ≤ q)) ∧
    ¬ left.EndsInAssignment ∧ left.Canonical ∧ right.Canonical
  | unary operator operand =>
    (operator.kind = .plus ∨ operator.kind = .minus) ∧
    operand.kind ≠ .binaryExpression ∧ operand.Canonical
  | parenthesized opening expression closing =>
    opening.kind = .openParen ∧ closing.kind = .closeParen ∧ expression.Canonical
  | literal token value =>
    (token.kind = .number ∨ token.kind = .trueKeyword ∨ token.kind = .falseKeyword) ∧
    value = token.value
  | name token => token.kind = .identifier
  | assignment target equals value =>
    target.kind = .nameExpression ∧ equals.kind = .equals ∧ target.Canonical ∧ value.Canonical

end ExprTree.Tree
