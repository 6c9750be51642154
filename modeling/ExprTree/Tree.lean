import ExprTree.Token

set_option autoImplicit false

/-!
# Expression trees

A tree keeps every token of the expression that it stands for: operators,
parentheses and the equals sign are leaves among the others.  `Tree.children` lists
what stands directly below a node, in the order of the source, and everything that
shows a tree goes through it: the walk visits the elements from the root on, each
before its children, and the leaves are the tokens that the walk meets.

There are two ways to show a tree.  The outline is indented text: one line for each
element, in the order of the walk, four spaces for each level of depth.  The document
is JSON: a node is an object with one member, named for the form of the node, and its
content is an object with the parts of the node, in the order in which the tree lists
them.
-/

namespace ExprTree

/-- An expression. -/
inductive Tree where
  /-- `left operator right` -/
  | binary (left : Tree) (operator : Token) (right : Tree)
  /-- `operator operand` -/
  | unary (operator : Token) (operand : Tree)
  /-- `open expression close` -/
  | parenthesized (opening : Token) (expression : Tree) (closing : Token)
  /-- A number or a truth value, with what the token denotes. -/
  | literal (token : Token) (value : Value)
  /-- A name. -/
  | name (token : Token)
  /-- `target equals value` -/
  | assignment (target : Tree) (equals : Token) (value : Tree)
  deriving DecidableEq, Repr, Inhabited

/-- What a tree is made of: nodes, and tokens at the leaves. -/
inductive Element where
  | node (tree : Tree)
  | token (token : Token)
  deriving DecidableEq, Repr, Inhabited

namespace Tree

/-- The kind of the root node. -/
def kind : Tree → Kind
  | binary .. => .binaryExpression
  | unary .. => .unaryExpression
  | parenthesized .. => .parenthesizedExpression
  | literal .. => .literalExpression
  | name .. => .nameExpression
  | assignment .. => .assignmentExpression

/-- The stretch of the source that the tree stands for. -/
def span : Tree → Span
  | binary left _ right => left.span.hull right.span
  | unary operator operand => operator.span.hull operand.span
  | parenthesized opening _ closing => opening.span.hull closing.span
  | literal token _ => token.span
  | name token => token.span
  | assignment target _ value => target.span.hull value.span

/-- The elements directly below the root, in the order of the source. -/
def children : Tree → List Element
  | binary left operator right => [.node left, .token operator, .node right]
  | unary operator operand => [.token operator, .node operand]
  | parenthesized opening expression closing =>
    [.token opening, .node expression, .token closing]
  | literal token _ => [.token token]
  | name token => [.token token]
  | assignment target equals value => [.node target, .token equals, .node value]

/-- The number of levels of nodes, a literal or a name being one level high. -/
def height : Tree → Nat
  | binary left _ right => max left.height right.height + 1
  | unary _ operand => operand.height + 1
  | parenthesized _ expression _ => expression.height + 1
  | literal .. => 1
  | name .. => 1
  | assignment target _ value => max target.height value.height + 1

/-- The tokens of the tree, in the order of the source. -/
def leaves : Tree → List Token
  | binary left operator right => left.leaves ++ operator :: right.leaves
  | unary operator operand => operator :: operand.leaves
  | parenthesized opening expression closing => opening :: (expression.leaves ++ [closing])
  | literal token _ => [token]
  | name token => [token]
  | assignment target equals value => target.leaves ++ equals :: value.leaves

/-- All elements with their depth, each before its children, the root at `depth`. -/
def walk (depth : Nat) (tree : Tree) : List (Nat × Element) :=
  (depth, .node tree) ::
    match tree with
    | binary left operator right =>
      left.walk (depth + 1) ++ (depth + 1, .token operator) :: right.walk (depth + 1)
    | unary operator operand => (depth + 1, .token operator) :: operand.walk (depth + 1)
    | parenthesized opening expression closing =>
      (depth + 1, .token opening) ::
        (expression.walk (depth + 1) ++ [(depth + 1, .token closing)])
    | literal token _ => [(depth + 1, .token token)]
    | name token => [(depth + 1, .token token)]
    | assignment target equals value =>
      target.walk (depth + 1) ++ (depth + 1, .token equals) :: value.walk (depth + 1)

end Tree

namespace Element

/-- The kind of the node or of the token. -/
def kind : Element → Kind
  | node t => t.kind
  | token t => t.kind

/-- The stretch of the source that the element stands for. -/
def span : Element → Span
  | node t => t.span
  | token t => t.span

/-- The elements directly below; a token has none. -/
def children : Element → List Element
  | node t => t.children
  | token _ => []

/-- What a reader sees of a token; a node shows nothing but its kind. -/
def display? : Element → Option String
  | node _ => none
  | token t => t.display?

/-- The element and all below it, with their depth. -/
def walk (depth : Nat) : Element → List (Nat × Element)
  | node t => t.walk depth
  | token t => [(depth, .token t)]

/-- The tokens of the element. -/
def leaves : Element → List Token
  | node t => t.leaves
  | token t => [t]

/-- The levels of nodes in the element. -/
def height : Element → Nat
  | node t => t.height
  | token _ => 0

end Element

namespace Tree

/-! ## Everything through the children -/

theorem walk_eq_children (depth : Nat) (tree : Tree) :
    tree.walk depth =
      (depth, .node tree) :: tree.children.flatMap fun e => e.walk (depth + 1) := by
  cases tree <;> simp [walk, children, Element.walk]

theorem leaves_eq_children (tree : Tree) : tree.leaves = tree.children.flatMap Element.leaves := by
  cases tree <;> simp [leaves, children, Element.leaves]

theorem height_pos (tree : Tree) : 0 < tree.height := by
  cases tree <;> simp [height]

theorem leaves_ne_nil (tree : Tree) : tree.leaves ≠ [] := by
  cases tree <;> simp [leaves]

end Tree

/-! ## Outlines -/

/-- The number of spaces for one level. -/
def Outline.indent : Nat := 4

/-- What an outline shows of an element. -/
def Element.label (e : Element) : String := e.display?.getD e.kind.name

/-- The line of an element at a depth. -/
def Element.outlineLine (depth : Nat) (e : Element) : String :=
  String.ofList (List.replicate (Outline.indent * depth) ' ') ++ e.label ++ "\n"

/-- The tree as indented text. -/
def Tree.outline (tree : Tree) : String :=
  String.join ((tree.walk 0).map fun (depth, e) => e.outlineLine depth)

/-! ## Documents -/

namespace Tree

/-- The tree as a JSON document. -/
def toJson : Tree → Json
  | binary left operator right =>
    .tagged "Binary" <| .object
      [("left", left.toJson), ("operator", operator.toJson), ("right", right.toJson)]
  | unary operator operand =>
    .tagged "Unary" <| .object [("operator", operator.toJson), ("operand", operand.toJson)]
  | parenthesized opening expression closing =>
    .tagged "Parenthesized" <| .object
      [("open", opening.toJson), ("expression", expression.toJson), ("close", closing.toJson)]
  | literal token value =>
    .tagged "Literal" <| .object [("token", token.toJson), ("value", value.toJson)]
  | name token => .tagged "Name" <| .object [("name", token.toJson)]
  | assignment target equals value =>
    .tagged "Assignment" <| .object
      [("target", target.toJson), ("equals", equals.toJson), ("value", value.toJson)]

/-- The document of the tree on one line. -/
def document (tree : Tree) : String := tree.toJson.compact

end Tree

end ExprTree
