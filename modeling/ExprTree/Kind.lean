set_option autoImplicit false

/-!
# Kinds of tokens and of tree nodes

Every element of a syntax tree has a kind: the tokens at its leaves and the nodes
above them.  A kind also says how it is spelled, if its spelling is fixed, and how
tightly it binds as an operator.
-/

namespace ExprTree

/-- What a token or a node is. -/
inductive Kind where
  -- tokens without content
  | endOfFile
  | whitespace
  | invalid
  -- literals and names
  | number
  | identifier
  | trueKeyword
  | falseKeyword
  -- operators and punctuation
  | plus
  | minus
  | star
  | slash
  | bang
  | equals
  | equalsEquals
  | bangEquals
  | ampersandAmpersand
  | pipePipe
  | openParen
  | closeParen
  -- nodes
  | binaryExpression
  | unaryExpression
  | parenthesizedExpression
  | literalExpression
  | nameExpression
  | assignmentExpression
  deriving DecidableEq, Repr, Inhabited

namespace Kind

/-- Every kind, in the order of its definition. -/
def all : List Kind :=
  [endOfFile, whitespace, invalid, number, identifier, trueKeyword, falseKeyword, plus, minus,
    star, slash, bang, equals, equalsEquals, bangEquals, ampersandAmpersand, pipePipe, openParen,
    closeParen, binaryExpression, unaryExpression, parenthesizedExpression, literalExpression,
    nameExpression, assignmentExpression]

/-- The name by which output refers to the kind. -/
def name : Kind → String
  | endOfFile => "EndOfFile"
  | whitespace => "Whitespace"
  | invalid => "Invalid"
  | number => "Number"
  | identifier => "Identifier"
  | trueKeyword => "TrueKeyword"
  | falseKeyword => "FalseKeyword"
  | plus => "Plus"
  | minus => "Minus"
  | star => "Star"
  | slash => "Slash"
  | bang => "Bang"
  | equals => "Equals"
  | equalsEquals => "EqualsEquals"
  | bangEquals => "BangEquals"
  | ampersandAmpersand => "AmpersandAmpersand"
  | pipePipe => "PipePipe"
  | openParen => "OpenParen"
  | closeParen => "CloseParen"
  | binaryExpression => "BinaryExpression"
  | unaryExpression => "UnaryExpression"
  | parenthesizedExpression => "ParenthesizedExpression"
  | literalExpression => "LiteralExpression"
  | nameExpression => "NameExpression"
  | assignmentExpression => "AssignmentExpression"

/-- The kind with a given name. -/
def ofName? (name : String) : Option Kind := all.find? fun k => k.name == name

/-- The fixed spelling of operators and punctuation. -/
def spelling? : Kind → Option String
  | plus => some "+"
  | minus => some "-"
  | star => some "*"
  | slash => some "/"
  | bang => some "!"
  | equals => some "="
  | equalsEquals => some "=="
  | bangEquals => some "!="
  | ampersandAmpersand => some "&&"
  | pipePipe => some "||"
  | openParen => some "("
  | closeParen => some ")"
  | _ => none

/-- The kind of a reserved word. -/
def keyword? (word : String) : Option Kind :=
  if word = "true" then some trueKeyword
  else if word = "false" then some falseKeyword
  else none

/-- How tightly the kind binds in front of its operand, if it can stand there. -/
def unaryPrecedence? : Kind → Option Nat
  | plus | minus => some 6
  | _ => none

/-- How tightly the kind binds between two operands, if it can stand there. -/
def binaryPrecedence? : Kind → Option Nat
  | star | slash => some 5
  | plus | minus => some 4
  | equalsEquals | bangEquals => some 3
  | ampersandAmpersand => some 2
  | pipePipe => some 1
  | _ => none

/-! ## What the tables say -/

theorem mem_all (k : Kind) : k ∈ all := by
  cases k <;> decide

theorem ofName?_name (k : Kind) : ofName? k.name = some k := by
  cases k <;> decide

theorem name_injective {a b : Kind} (h : a.name = b.name) : a = b := by
  have := ofName?_name a
  rw [h, ofName?_name b] at this
  exact (Option.some.inj this).symm

theorem binaryPrecedence?_pos {k : Kind} {p : Nat} (h : k.binaryPrecedence? = some p) : 0 < p := by
  cases k <;> simp_all [binaryPrecedence?] <;> omega

theorem binaryPrecedence?_le {k : Kind} {p : Nat} (h : k.binaryPrecedence? = some p) : p ≤ 5 := by
  cases k <;> simp_all [binaryPrecedence?] <;> omega

theorem unaryPrecedence?_eq {k : Kind} {p : Nat} (h : k.unaryPrecedence? = some p) : p = 6 := by
  cases k <;> simp_all [unaryPrecedence?]

end Kind

end ExprTree
