import ExprTree.Kind
import ExprTree.Span
import ExprTree.Text.Quoted

set_option autoImplicit false

/-!
# Why a line is refused

The causes for which a line of text is not an expression.  Each knows the stretch of
the line that it points at.
-/

namespace ExprTree

/-- Why a line is refused. -/
inductive SyntaxError where
  /-- A token that stands for nothing, with its text. -/
  | invalidToken (text : String) (span : Span)
  /-- A token of another kind than the one that must follow. -/
  | unexpectedToken (expected got : Kind) (span : Span)
  /-- A token after a complete expression. -/
  | trailingToken (got : Kind) (span : Span)
  /-- A tree of more than `limit` levels. -/
  | nestingTooDeep (limit : Nat) (span : Span)
  deriving DecidableEq, Repr, Inhabited

namespace SyntaxError

/-- The stretch that the refusal points at. -/
def span : SyntaxError → Span
  | invalidToken _ span => span
  | unexpectedToken _ _ span => span
  | trailingToken _ span => span
  | nestingTooDeep _ span => span

/-- The refusal in words. -/
def message : SyntaxError → String
  | invalidToken text _ => "Invalid token " ++ Text.quote text
  | unexpectedToken expected got _ =>
    "Unexpected token: expected " ++ expected.name ++ ", got " ++ got.name
  | trailingToken got _ => "Unexpected trailing token " ++ got.name
  | nestingTooDeep limit _ => "Expression nests deeper than " ++ limit.repr ++ " levels"

end SyntaxError

end ExprTree
