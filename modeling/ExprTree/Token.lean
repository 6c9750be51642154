import ExprTree.Json
import ExprTree.Kind
import ExprTree.Span
import ExprTree.Text.CharSet

set_option autoImplicit false

/-!
# Tokens

A token says what stands on a stretch of the source: its kind, its span, its raw
text where the kind alone does not fix it, and the value that it denotes.

Tokens are shown as a table, one line for each: kind, span and what a reader sees of
it, in columns.  White space at the end of a line is dropped, and with it any that
ends the last cell.
-/

namespace ExprTree

/-- What a token denotes. -/
inductive Value where
  | absent
  | int (n : Int)
  | bool (b : Bool)
  | text (s : String)
  deriving DecidableEq, Repr, Inhabited

namespace Value

/-- The value as a reader sees it. -/
def display? : Value → Option String
  | absent => none
  | int n => some n.repr
  | bool b => some (if b then "true" else "false")
  | text s => some s

/-- The value as a JSON scalar. -/
def toJson : Value → Json
  | absent => .null
  | int n => .number n
  | bool b => .bool b
  | text s => .string s

end Value

/-- A classified stretch of the source. -/
structure Token where
  kind : Kind
  span : Span
  text : Option String
  value : Value
  deriving DecidableEq, Repr, Inhabited

namespace Token

/-- The token after the last one, at the end of the source. -/
def endOfFile (offset : Nat) : Token := ⟨.endOfFile, .point offset, none, .absent⟩

/-- What a reader sees of the token: its value, else its text, else its spelling. -/
def display? (t : Token) : Option String :=
  t.value.display?.or (t.text.or t.kind.spelling?)

/-- The token with its span `n` bytes further on. -/
def shift (n : Nat) (t : Token) : Token := { t with span := t.span.shift n }

/-- The offsets of a span as a JSON object. -/
def spanJson (s : Span) : Json :=
  .object [("start", .number s.start), ("end", .number s.stop)]

/-- The token as a JSON object; a token without text has no member for it. -/
def toJson (t : Token) : Json :=
  .object <|
    [("kind", .string t.kind.name), ("span", spanJson t.span)] ++
    (t.text.map fun s => ("text", Json.string s)).toList ++
    [("value", t.value.toJson)]

end Token

/-! ## Tables of tokens -/

namespace Text

/-- The cell, with spaces after it up to `width` characters; a wider one is left as it is. -/
def padRight (width : Nat) (cell : String) : String :=
  cell ++ String.ofList (List.replicate (width - cell.length) ' ')

/-- The text without the white space at its end. -/
def trimEnd (cs : List Char) : List Char :=
  (cs.reverse.dropWhile isWhiteSpace).reverse

theorem trimEnd_append_of_forall {cs ws : List Char} (h : ∀ c ∈ ws, isWhiteSpace c = true) :
    trimEnd (cs ++ ws) = trimEnd cs := by
  have : (ws.reverse ++ cs.reverse).dropWhile isWhiteSpace = cs.reverse.dropWhile isWhiteSpace :=
    List.dropWhile_append_of_pos fun c hc => h c (List.mem_reverse.1 hc)
  simp [trimEnd, this]

theorem trimEnd_append_singleton {cs : List Char} {c : Char} (h : isWhiteSpace c = false) :
    trimEnd (cs ++ [c]) = cs ++ [c] := by
  simp [trimEnd, h]

end Text

namespace Token

/-- The width of the column of kinds. -/
def kindWidth : Nat := 20

/-- The width of the column of spans. -/
def spanWidth : Nat := 8

/-- The cells of a token, side by side. -/
def cells (t : Token) : String :=
  Text.padRight kindWidth t.kind.name ++ " " ++ Text.padRight spanWidth t.span.text ++ " " ++
    t.display?.getD ""

/-- The line of a token. -/
def tableLine (t : Token) : String := String.ofList (Text.trimEnd t.cells.toList) ++ "\n"

/-- The table of a list of tokens. -/
def table (tokens : List Token) : String := String.join (tokens.map tableLine)

end Token

end ExprTree
