import ExprTree.Token.Lexeme

set_option autoImplicit false

/-!
# Scanning

A scanner stands somewhere in a source and hands out its tokens one by one.  At the
end it hands out the end-of-file token, at the same place, as often as it is asked.
The whole rest can be asked for at once, with or without that last token: a loop over
single tokens.

The main statement is `Scanner.upToEnd_cons`: the tokens that are left are one token
and those that are left after it, so every way to ask gives the same tokens.
-/

namespace ExprTree

/-- A place in a source: its byte offset and the text from there on. -/
structure Scanner where
  offset : Nat
  rest : List Char
  deriving DecidableEq, Repr, Inhabited

namespace Scanner

/-- At the start of a source. -/
def ofList (cs : List Char) : Scanner := ⟨0, cs⟩

/-- At the end of the source that `s` stands in. -/
def atEnd (s : Scanner) : Scanner := ⟨s.offset + Text.byteSize s.rest, []⟩

/-- The next token, the end-of-file token once the text is used up. -/
def next (s : Scanner) : Token × Scanner :=
  match s.rest with
  | [] => (.endOfFile s.offset, s)
  | c :: cs =>
    let (lexeme, rest) := Lexeme.take c cs
    (lexeme.toToken s.offset, ⟨s.offset + lexeme.size, rest⟩)

/-- The next token, if the text is not used up. -/
def next? (s : Scanner) : Option Token × Scanner :=
  match s.rest with
  | [] => (none, s)
  | _ :: _ =>
    let (token, s) := s.next
    (some token, s)

/-- Collects up to `fuel` tokens behind those already `found`, which are kept in reverse. -/
def collect : Nat → Scanner → List Token → List Token
  | 0, _, found => found.reverse
  | fuel + 1, s, found =>
    match s.rest with
    | [] => found.reverse
    | _ :: _ =>
      let (token, s) := s.next
      collect fuel s (token :: found)

/-- All tokens that are left, without the end-of-file token. -/
def upToEnd (s : Scanner) : List Token := collect s.rest.length s []

/-- All tokens that are left, and the end-of-file token. -/
def toEnd (s : Scanner) : List Token := s.upToEnd ++ [.endOfFile s.atEnd.offset]

/-! ## One token at a time or all at once -/

theorem next_of_nil {s : Scanner} (h : s.rest = []) : s.next = (.endOfFile s.offset, s) := by
  simp [next, h]

theorem atEnd_of_nil {s : Scanner} (h : s.rest = []) : s.atEnd = s := by
  obtain ⟨offset, rest⟩ := s
  cases h
  rfl

theorem next?_of_nil {s : Scanner} (h : s.rest = []) : s.next? = (none, s) := by
  simp [next?, h]

theorem next?_of_ne_nil {s : Scanner} (h : s.rest ≠ []) :
    s.next? = (some s.next.1, s.next.2) := by
  obtain ⟨offset, rest⟩ := s
  cases rest with
  | nil => exact absurd rfl h
  | cons c cs => rfl

theorem length_next_lt {s : Scanner} (h : s.rest ≠ []) :
    s.next.2.rest.length < s.rest.length := by
  obtain ⟨offset, rest⟩ := s
  cases rest with
  | nil => exact absurd rfl h
  | cons c cs =>
    have := Lexeme.length_take_le c cs
    simp only [next, List.length_cons]
    omega

theorem collect_of_nil {s : Scanner} (h : s.rest = []) (fuel : Nat) (found : List Token) :
    collect fuel s found = found.reverse := by
  cases fuel <;> simp [collect, h]

theorem collect_succ {s : Scanner} (h : s.rest ≠ []) (fuel : Nat) (found : List Token) :
    collect (fuel + 1) s found = collect fuel s.next.2 (s.next.1 :: found) := by
  obtain ⟨offset, rest⟩ := s
  cases rest with
  | nil => exact absurd rfl h
  | cons c cs => rfl

theorem collect_eq_append (fuel : Nat) (s : Scanner) (found : List Token) :
    collect fuel s found = found.reverse ++ collect fuel s [] := by
  induction fuel generalizing s found with
  | zero => simp [collect]
  | succ fuel ih =>
    by_cases h : s.rest = []
    · simp [collect_of_nil h]
    · rw [collect_succ h, collect_succ h, ih _ (s.next.1 :: found), ih _ [s.next.1]]
      simp

/-- Fuel beyond the number of characters changes nothing. -/
theorem collect_eq_of_le {fuel more : Nat} {s : Scanner} (hf : s.rest.length ≤ fuel)
    (hm : s.rest.length ≤ more) (found : List Token) :
    collect fuel s found = collect more s found := by
  induction fuel generalizing s more found with
  | zero =>
    have h : s.rest = [] := List.eq_nil_of_length_eq_zero (by omega)
    rw [collect_of_nil h, collect_of_nil h]
  | succ fuel ih =>
    by_cases h : s.rest = []
    · rw [collect_of_nil h, collect_of_nil h]
    · have hlt := length_next_lt h
      obtain ⟨m, rfl⟩ : ∃ m, more = m + 1 := Nat.exists_eq_add_one_of_ne_zero (by omega)
      rw [collect_succ h, collect_succ h]
      exact ih (by omega) (by omega) _

@[simp] theorem upToEnd_of_nil {s : Scanner} (h : s.rest = []) : s.upToEnd = [] := by
  simp [upToEnd, collect, h]

/-- All tokens are the next one and then all that are left after it. -/
theorem upToEnd_cons {s : Scanner} (h : s.rest ≠ []) :
    s.upToEnd = s.next.1 :: s.next.2.upToEnd := by
  have hlt := length_next_lt h
  obtain ⟨n, hn⟩ : ∃ n, s.rest.length = n + 1 :=
    Nat.exists_eq_add_one_of_ne_zero (by omega)
  unfold upToEnd
  rw [hn, collect_succ h, collect_eq_append,
    collect_eq_of_le (by omega) (Nat.le_refl s.next.2.rest.length)]
  rfl

/-! ## The rest as a loop over single tokens -/

/-- Takes tokens until the end-of-file token has come, behind those already `found`, which are kept
in reverse: all tokens, and the scanner after them. -/
def drain (s : Scanner) (found : List Token) : List Token × Scanner :=
  if s.next.1.kind = .endOfFile then ((s.next.1 :: found).reverse, s.next.2)
  else drain s.next.2 (s.next.1 :: found)
termination_by s.rest.length
decreasing_by
  -- Only where the text is used up the end-of-file token is next.
  have hkind : s.next.1.kind ≠ .endOfFile := ‹_›
  apply length_next_lt
  intro hnil
  rw [next_of_nil hnil] at hkind
  exact hkind rfl

/-- Takes tokens until none comes, behind those already `found`, which are kept in reverse: all
tokens, and the scanner after them. -/
def drainBeforeEnd (s : Scanner) (found : List Token) : List Token × Scanner :=
  match _ : s.next? with
  | (none, after) => (found.reverse, after)
  | (some token, after) => drainBeforeEnd after (token :: found)
termination_by s.rest.length
decreasing_by
  have hnext : s.next? = (some token, after) := ‹_›
  have hne : s.rest ≠ [] := by
    intro hnil
    rw [next?_of_nil hnil] at hnext
    cases hnext
  rw [next?_of_ne_nil hne] at hnext
  cases hnext
  exact length_next_lt hne

/-! ## Requests -/

/-- A way to ask a scanner for tokens. -/
inductive Request where
  /-- The next token, the end-of-file token included. -/
  | one
  /-- The next token before the end. -/
  | oneBeforeEnd
  /-- All tokens, the end-of-file token included. -/
  | all
  /-- All tokens before the end. -/
  | allBeforeEnd
  deriving DecidableEq, Repr, Inhabited

/-- What a scanner hands out on a request. -/
inductive Reply where
  | one (token : Token)
  | none
  | many (tokens : List Token)
  deriving DecidableEq, Repr, Inhabited

/-- The tokens in a reply. -/
def Reply.tokens : Reply → List Token
  | .one token => [token]
  | .none => []
  | .many tokens => tokens

/-- What a request hands out, and the scanner after it. -/
def answer (s : Scanner) : Request → Reply × Scanner
  | .one =>
    let (token, s) := s.next
    (.one token, s)
  | .oneBeforeEnd =>
    match s.next? with
    | (some token, s) => (.one token, s)
    | (none, s) => (.none, s)
  | .all =>
    let (tokens, s) := s.drain []
    (.many tokens, s)
  | .allBeforeEnd =>
    let (tokens, s) := s.drainBeforeEnd []
    (.many tokens, s)

/-- The replies to requests made one after another. -/
def answers (s : Scanner) : List Request → List Reply
  | [] => []
  | request :: requests =>
    let (reply, s) := s.answer request
    reply :: s.answers requests

end Scanner

namespace Token

/-- The tokens of a source, the end-of-file token last. -/
def scan (source : String) : List Token := (Scanner.ofList source.toList).toEnd

end Token

end ExprTree
