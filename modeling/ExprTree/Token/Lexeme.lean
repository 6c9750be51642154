import ExprTree.Text.Bytes
import ExprTree.Token

set_option autoImplicit false

/-!
# Lexemes

The source is cut into lexemes from left to right, each as long as possible.  What
has been read of a lexeme is summed up in its *shape*, and the shape alone decides
which characters can extend it: a lexeme ends at the first character that does
not.  Every shape but a stray `&` or `|` is that of a complete lexeme, so no
character is ever given back.

* a run of spaces,
* a run of numeric characters, and such a run with letters glued to it,
* a letter followed by letters and numeric characters,
* an operator or a parenthesis,
* any other single character.

A run of ASCII digits is a numeral; its value is read in base ten, with any number of
leading zeros.  A numeral above the largest word value denotes nothing, and neither
does a run that holds a digit of another script.
-/

namespace ExprTree

/-! ## Numerals -/

namespace Text

/-- The largest value that a numeral may have: that of a signed word of 64 bits, `2 ^ 63 - 1`. -/
def maxNumeral : Nat := 9223372036854775807

/-- The value of a run of ASCII digits, if it is one and not above `maxNumeral`. -/
def readNumeral? (cs : List Char) : Option Nat :=
  if cs.all Char.isDigit then
    let n := Nat.ofDigitChars 10 cs 0
    if n ≤ maxNumeral then some n else none
  else none

theorem readNumeral?_eq_some_iff {cs : List Char} {n : Nat} :
    readNumeral? cs = some n ↔
      (∀ c ∈ cs, c.isDigit = true) ∧ Nat.ofDigitChars 10 cs 0 = n ∧ n ≤ maxNumeral := by
  unfold readNumeral?
  simp only [List.all_eq_true]
  split
  · rename_i h
    by_cases hn : Nat.ofDigitChars 10 cs 0 ≤ maxNumeral
    · simp only [hn, if_true, Option.some.injEq]
      exact ⟨fun e => ⟨h, e, e ▸ hn⟩, fun e => e.2.1⟩
    · simp only [hn, if_false, reduceCtorEq, false_iff]
      rintro ⟨_, rfl, h'⟩
      exact hn h'
  · rename_i h
    simp only [reduceCtorEq, false_iff]
    exact fun e => h e.1

/-- Every number up to the bound reads back from its decimal digits. -/
theorem readNumeral?_toDigits {n : Nat} (h : n ≤ maxNumeral) :
    readNumeral? (Nat.toDigits 10 n) = some n := by
  rw [readNumeral?_eq_some_iff]
  exact ⟨fun c hc => Nat.isDigit_of_mem_toDigits (b := 10) (by decide) (by decide) hc, by simp, h⟩

end Text

/-! ## Shapes -/

/-- What has been read of a lexeme. -/
inductive Shape where
  /-- Spaces. -/
  | blanks
  /-- Numeric characters. -/
  | digits
  /-- Numeric characters, then letters. -/
  | suffixed
  /-- A letter, then letters and numeric characters. -/
  | word
  /-- The spelling of an operator or a parenthesis. -/
  | mark (kind : Kind)
  /-- A character that starts nothing else. -/
  | stray (c : Char)
  deriving DecidableEq, Repr, Inhabited

namespace Shape

open Text (isLetter isNumeric)

/-- The shape of a lexeme of one character. -/
def start (c : Char) : Shape :=
  match c with
  | ' ' => blanks
  | '+' => mark .plus
  | '-' => mark .minus
  | '*' => mark .star
  | '/' => mark .slash
  | '(' => mark .openParen
  | ')' => mark .closeParen
  | '!' => mark .bang
  | '=' => mark .equals
  | c => if isNumeric c then digits else if isLetter c then word else stray c

/-- The shape after one more character, if the character belongs to the lexeme. -/
def extend? (s : Shape) (c : Char) : Option Shape :=
  match s with
  | blanks => if c = ' ' then some blanks else none
  | digits =>
    if isNumeric c then some digits
    else if isLetter c then some suffixed
    else none
  | suffixed => if isLetter c then some suffixed else none
  | word => if isLetter c || isNumeric c then some word else none
  | mark .bang => if c = '=' then some (mark .bangEquals) else none
  | mark .equals => if c = '=' then some (mark .equalsEquals) else none
  | mark _ => none
  | stray '&' => if c = '&' then some (mark .ampersandAmpersand) else none
  | stray '|' => if c = '|' then some (mark .pipePipe) else none
  | stray _ => none

/-- The shape after as many of the characters as belong to the lexeme, these characters behind
those already `seen`, which are kept in reverse, and the characters left over. -/
def longest (s : Shape) (seen : List Char) : List Char → Shape × List Char × List Char
  | [] => (s, seen.reverse, [])
  | c :: cs =>
    match s.extend? c with
    | some t => longest t (c :: seen) cs
    | none => (s, seen.reverse, c :: cs)

/-- Nothing is lost or reordered: what is taken and what is left make up the whole. -/
theorem longest_append (s : Shape) (seen cs : List Char) :
    (s.longest seen cs).2.1 ++ (s.longest seen cs).2.2 = seen.reverse ++ cs := by
  fun_induction longest s seen cs with
  | case1 => simp
  | case2 s seen c cs t _ ih => simpa using ih
  | case3 => rfl

theorem length_longest_le (s : Shape) (seen cs : List Char) :
    (s.longest seen cs).2.2.length ≤ cs.length := by
  fun_induction longest s seen cs with
  | case1 => simp
  | case2 s seen c cs t _ ih =>
    simp only [List.length_cons]
    omega
  | case3 => simp

end Shape

/-- A stretch of the source that is one token. -/
structure Lexeme where
  shape : Shape
  chars : List Char
  deriving DecidableEq, Repr, Inhabited

namespace Lexeme

/-- The longest lexeme that starts with `c`, and the text after it. -/
def take (c : Char) (cs : List Char) : Lexeme × List Char :=
  let (shape, chars, rest) := (Shape.start c).longest [c] cs
  (⟨shape, chars⟩, rest)

theorem take_append (c : Char) (cs : List Char) :
    (take c cs).1.chars ++ (take c cs).2 = c :: cs :=
  Shape.longest_append (Shape.start c) [c] cs

theorem length_take_le (c : Char) (cs : List Char) : (take c cs).2.length ≤ cs.length :=
  Shape.length_longest_le (Shape.start c) [c] cs

/-- The raw text. -/
def text (l : Lexeme) : String := String.ofList l.chars

/-- The number of bytes of the raw text. -/
def size (l : Lexeme) : Nat := Text.byteSize l.chars

/-- The token that a lexeme is at an offset.  Spaces and operators carry no text; a run of digits
that denotes no number is invalid, like a stray character. -/
def toToken (l : Lexeme) (offset : Nat) : Token :=
  let span : Span := ⟨offset, offset + l.size⟩
  match l.shape with
  | .blanks => ⟨.whitespace, span, none, .text " "⟩
  | .digits =>
    match Text.readNumeral? l.chars with
    | some n => ⟨.number, span, some l.text, .int n⟩
    | none => ⟨.invalid, span, some l.text, .absent⟩
  | .suffixed => ⟨.identifier, span, some l.text, .text l.text⟩
  | .word =>
    match Kind.keyword? l.text with
    | some .trueKeyword => ⟨.trueKeyword, span, some l.text, .bool true⟩
    | some .falseKeyword => ⟨.falseKeyword, span, some l.text, .bool false⟩
    | _ => ⟨.identifier, span, some l.text, .text l.text⟩
  | .mark kind => ⟨kind, span, none, .absent⟩
  | .stray _ => ⟨.invalid, span, some l.text, .absent⟩

@[simp] theorem span_toToken (l : Lexeme) (offset : Nat) :
    (l.toToken offset).span = ⟨offset, offset + l.size⟩ := by
  unfold toToken
  split <;> (try split) <;> rfl

/-- The offset moves the span and nothing else. -/
theorem toToken_add (l : Lexeme) (offset n : Nat) :
    l.toToken (offset + n) = (l.toToken offset).shift n := by
  have h : (⟨offset + n, offset + n + l.size⟩ : Span) =
      (⟨offset, offset + l.size⟩ : Span).shift n := by
    simp only [Span.shift, Span.mk.injEq, true_and]
    omega
  unfold toToken Token.shift
  simp only [h]
  split <;> (try split) <;> rfl

end Lexeme

end ExprTree
