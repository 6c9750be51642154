import ExprTree.Tree

set_option autoImplicit false

/-!
# Reading documents back

A scan takes one thing off the front of a text and says what follows it: a character of
a string, a string up to its closing quotation mark, a number, a document.  No form of
a document is the start of another, except that a number can be continued by more
digits, so a scan needs to look no further than the character behind.

A document of a tree names at each place what stands there, so the tree is then taken
from it part by part.
-/

namespace ExprTree

namespace Json

/-! ## Strings -/

/-- The value of a hexadecimal digit in lower case. -/
def hexValue? (c : Char) : Option Nat := (List.range 16).find? fun d => Nat.digitChar d == c

/-- The character that is written as a backslash and one other character. -/
def unescape? (c : Char) : Option Char :=
  match c with
  | '"' => some '"'
  | '\\' => some '\\'
  | '/' => some '/'
  | 'b' => some '\x08'
  | 'f' => some '\x0c'
  | 'n' => some '\n'
  | 'r' => some '\r'
  | 't' => some '\t'
  | _ => none

/-- The first character of the inside of a string, and what follows its written form. -/
def scanChar : List Char → Option (Char × List Char)
  | '\\' :: 'u' :: a :: b :: c :: d :: rest => do
    let a ← hexValue? a
    let b ← hexValue? b
    let c ← hexValue? c
    let d ← hexValue? d
    return (Char.ofNat (((a * 16 + b) * 16 + c) * 16 + d), rest)
  | '\\' :: c :: rest => (unescape? c).map fun c => (c, rest)
  | '"' :: _ => none
  | c :: rest => some (c, rest)
  | [] => none

/-- The inside of a string up to its closing quotation mark, and what follows that.  Each
character takes up one at least, so there are no more of them than `fuel`, the length of
the text. -/
def scanInside : Nat → List Char → Option (List Char × List Char)
  | _, '"' :: rest => some ([], rest)
  | fuel + 1, cs => do
    let (c, cs) ← scanChar cs
    let (inside, rest) ← scanInside fuel cs
    return (c :: inside, rest)
  | 0, _ => none

/-- A string in quotation marks, and what follows it. -/
def scanQuoted : List Char → Option (String × List Char)
  | '"' :: cs => (scanInside cs.length cs).map fun (inside, rest) => (String.ofList inside, rest)
  | _ => none

/-! ## Numbers -/

/-- The digits that a text starts with, as a number, and what follows them. -/
def scanNat (cs : List Char) : Nat × List Char :=
  (Nat.ofDigitChars 10 (cs.takeWhile Char.isDigit) 0, cs.dropWhile Char.isDigit)

/-- A number with or without a minus sign, and what follows it. -/
def scanInt (cs : List Char) : Int × List Char :=
  match cs with
  | '-' :: cs => (-(scanNat cs).1, (scanNat cs).2)
  | cs => ((scanNat cs).1, (scanNat cs).2)

/-! ## Documents -/

mutual

/-- A document, and what follows it.  `fuel` exceeds the length of the document. -/
def scan : Nat → List Char → Option (Json × List Char)
  | fuel + 1, cs =>
    match cs with
    | 'n' :: 'u' :: 'l' :: 'l' :: rest => some (null, rest)
    | 't' :: 'r' :: 'u' :: 'e' :: rest => some (bool true, rest)
    | 'f' :: 'a' :: 'l' :: 's' :: 'e' :: rest => some (bool false, rest)
    | '\x7b' :: '\x7d' :: rest => some (object [], rest)
    | '\x7b' :: cs => (scanMembers fuel cs).map fun (members, rest) => (object members, rest)
    | '"' :: cs => (scanQuoted ('"' :: cs)).map fun (s, rest) => (string s, rest)
    | cs => some (number (scanInt cs).1, (scanInt cs).2)
  | 0, _ => none

/-- The members of an object up to its closing brace, at least one, and what follows that. -/
def scanMembers : Nat → List Char → Option (List (String × Json) × List Char)
  | fuel + 1, cs =>
    match scanQuoted cs with
    | some (name, ':' :: cs) =>
      match scan fuel cs with
      | some (value, '\x7d' :: rest) => some ([(name, value)], rest)
      | some (value, ',' :: cs) =>
        (scanMembers fuel cs).map fun (members, rest) => ((name, value) :: members, rest)
      | _ => none
    | _ => none
  | 0, _ => none

end

/-- The document that is the whole text. -/
def ofString? (s : String) : Option Json :=
  match scan (s.length + 1) s.toList with
  | some (document, []) => some document
  | _ => none

end Json

/-! ## Trees -/

namespace Value

/-- The value that is written as a JSON scalar. -/
def ofJson? : Json → Option Value
  | .null => some absent
  | .bool b => some (bool b)
  | .number n => some (int n)
  | .string s => some (text s)
  | .object _ => none

end Value

namespace Token

/-- The span with offsets written as a JSON object. -/
def spanOfJson? : Json → Option Span
  | .object [("start", .number (.ofNat start)), ("end", .number (.ofNat stop))] =>
    some ⟨start, stop⟩
  | _ => none

/-- The token that is written as a JSON object, with or without a member for its text. -/
def ofJson? : Json → Option Token
  | .object [("kind", .string kind), ("span", span), ("text", .string text), ("value", value)] => do
    return ⟨← Kind.ofName? kind, ← spanOfJson? span, some text, ← Value.ofJson? value⟩
  | .object [("kind", .string kind), ("span", span), ("value", value)] => do
    return ⟨← Kind.ofName? kind, ← spanOfJson? span, none, ← Value.ofJson? value⟩
  | _ => none

end Token

namespace Tree

/-- The tree that is written as a JSON document. -/
def ofJson? : Json → Option Tree
  | .object [("Binary", .object [("left", left), ("operator", operator), ("right", right)])] => do
    return binary (← ofJson? left) (← Token.ofJson? operator) (← ofJson? right)
  | .object [("Unary", .object [("operator", operator), ("operand", operand)])] => do
    return unary (← Token.ofJson? operator) (← ofJson? operand)
  | .object [("Parenthesized", .object
      [("open", opening), ("expression", expression), ("close", closing)])] => do
    return parenthesized (← Token.ofJson? opening) (← ofJson? expression) (← Token.ofJson? closing)
  | .object [("Literal", .object [("token", token), ("value", value)])] => do
    return literal (← Token.ofJson? token) (← Value.ofJson? value)
  | .object [("Name", .object [("name", token)])] => do
    return name (← Token.ofJson? token)
  | .object [("Assignment", .object
      [("target", target), ("equals", equals), ("value", value)])] => do
    return assignment (← ofJson? target) (← Token.ofJson? equals) (← ofJson? value)
  | _ => none

/-- The tree whose document the text is. -/
def ofDocument? (document : String) : Option Tree := (Json.ofString? document).bind ofJson?

end Tree

end ExprTree
