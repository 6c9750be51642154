import ExprTree.Proofs.Sources
import Mathlib.Data.List.Forall2

set_option autoImplicit false

/-!
# Reading corresponding tokens

Reading looks at the kinds of tokens and carries everything else along unseen.  So if
two streams correspond token by token, under any relation that only tokens of one kind
are in, reading them ends in the same way at corresponding places: with trees of one
form over corresponding tokens, or with the same refusal of corresponding tokens.
`Step.Parallel` says this of a step; it passes from steps to the steps made of them,
and with `Expression.parallel_expression` to all of reading.
-/

namespace ExprTree

/-- Whether only tokens of one kind correspond. -/
def Token.Likened (ρ : Token → Token → Prop) : Prop := ∀ t u, ρ t u → t.kind = u.kind

/-! ## Trees, refusals and streams that correspond -/

/-- Trees of one form over corresponding tokens, literals with the values of their tokens. -/
inductive Tree.Parallel (ρ : Token → Token → Prop) : Tree → Tree → Prop where
  | binary {left left' right right' : Tree} {operator operator' : Token}
      (hleft : Parallel ρ left left') (hoperator : ρ operator operator')
      (hright : Parallel ρ right right') :
      Parallel ρ (.binary left operator right) (.binary left' operator' right')
  | unary {operator operator' : Token} {operand operand' : Tree}
      (hoperator : ρ operator operator') (hoperand : Parallel ρ operand operand') :
      Parallel ρ (.unary operator operand) (.unary operator' operand')
  | parenthesized {opening opening' closing closing' : Token} {expression expression' : Tree}
      (hopening : ρ opening opening') (hexpression : Parallel ρ expression expression')
      (hclosing : ρ closing closing') :
      Parallel ρ (.parenthesized opening expression closing)
        (.parenthesized opening' expression' closing')
  | literal {token token' : Token} (htoken : ρ token token') :
      Parallel ρ (.literal token token.value) (.literal token' token'.value)
  | name {token token' : Token} (htoken : ρ token token') :
      Parallel ρ (.name token) (.name token')
  | assignment {target target' value value' : Tree} {equals equals' : Token}
      (htarget : Parallel ρ target target') (hequals : ρ equals equals')
      (hvalue : Parallel ρ value value') :
      Parallel ρ (.assignment target equals value) (.assignment target' equals' value')

/-- Refusals for the same cause of corresponding tokens. -/
inductive SyntaxError.Parallel (ρ : Token → Token → Prop) : SyntaxError → SyntaxError → Prop where
  | invalidToken {t u : Token} (h : ρ t u) :
      Parallel ρ (.invalidToken (t.text.getD "") t.span) (.invalidToken (u.text.getD "") u.span)
  | unexpectedToken {expected : Kind} {t u : Token} (h : ρ t u) :
      Parallel ρ (.unexpectedToken expected t.kind t.span) (.unexpectedToken expected u.kind u.span)
  | trailingToken {t u : Token} (h : ρ t u) :
      Parallel ρ (.trailingToken t.kind t.span) (.trailingToken u.kind u.span)
  | nestingTooDeep {limit : Nat} {t u : Token} (h : ρ t u) :
      Parallel ρ (.nestingTooDeep limit t.span) (.nestingTooDeep limit u.span)

/-- Streams of corresponding tokens, the end-of-file token included. -/
structure Stream.Parallel (ρ : Token → Token → Prop) (s u : Stream) : Prop where
  ahead : List.Forall₂ ρ s.ahead u.ahead
  finish : ρ (.endOfFile s.finish) (.endOfFile u.finish)

/-- Trees that correspond, of the same height. -/
structure Measured.Parallel (ρ : Token → Token → Prop) (a b : Measured) : Prop where
  tree : a.tree.Parallel ρ b.tree
  height_eq : a.height = b.height

/-- Steps that end in the same way: with values that are related, or with refusals that correspond,
and in both cases at corresponding places. -/
inductive Outcome.Parallel {α : Type} (ρ : Token → Token → Prop) (V : α → α → Prop) :
    Outcome α → Outcome α → Prop where
  | done {a b : α} {s u : Stream} (hvalue : V a b) (hrest : s.Parallel ρ u) :
      Parallel ρ V (.done a s) (.done b u)
  | failed {e e' : SyntaxError} {s u : Stream} (herror : e.Parallel ρ e')
      (hrest : s.Parallel ρ u) : Parallel ρ V (.failed e s) (.failed e' u)

namespace Stream

variable {ρ : Token → Token → Prop} {s u : Stream}

theorem Parallel.current (h : s.Parallel ρ u) : ρ s.current u.current := by
  obtain ⟨ahead, finish⟩ := s
  obtain ⟨ahead', finish'⟩ := u
  obtain ⟨hahead, hfinish⟩ := h
  cases hahead with
  | nil => exact hfinish
  | cons htoken _ => exact htoken

theorem Parallel.advance (h : s.Parallel ρ u) : s.advance.Parallel ρ u.advance := by
  obtain ⟨ahead, finish⟩ := s
  obtain ⟨ahead', finish'⟩ := u
  obtain ⟨hahead, hfinish⟩ := h
  cases hahead with
  | nil => exact ⟨.nil, hfinish⟩
  | cons _ hrest => exact ⟨hrest, hfinish⟩

end Stream

/-! ## Steps over corresponding streams -/

/-- Whether the steps end in the same way on corresponding streams. -/
def Step.Parallel {α : Type} (ρ : Token → Token → Prop) (V : α → α → Prop) (x y : Step α) : Prop :=
  ∀ s u, s.Parallel ρ u → (x s).Parallel ρ V (y u)

namespace Step

variable {ρ : Token → Token → Prop} {α β : Type} {V : α → α → Prop} {W : β → β → Prop}

theorem parallel_pure {a b : α} (h : V a b) : Parallel ρ V (pure a) (pure b) := by
  intro s u hs
  exact .done h hs

theorem parallel_bind {x y : Step α} {f g : α → Step β} (hx : Parallel ρ V x y)
    (hf : ∀ a b, V a b → Parallel ρ W (f a) (g b)) : Parallel ρ W (x >>= f) (y >>= g) := by
  intro s u hs
  have hfirst := hx s u hs
  rw [bind_apply, bind_apply]
  generalize x s = first, y u = first' at hfirst
  cases hfirst with
  | done hvalue hrest => exact hf _ _ hvalue _ _ hrest
  | failed herror hrest => exact .failed herror hrest

theorem parallel_advance : Parallel ρ ρ advance advance := by
  intro s u hs
  exact .done hs.current hs.advance

theorem parallel_expect (hρ : Token.Likened ρ) (kind : Kind) :
    Parallel ρ ρ (expect kind) (expect kind) := by
  intro s u hs
  have hkind := hρ _ _ hs.current
  have herror : SyntaxError.Parallel ρ
      (.unexpectedToken kind s.current.kind s.current.span)
      (.unexpectedToken kind u.current.kind u.current.span) := .unexpectedToken hs.current
  unfold expect
  rw [hkind] at herror ⊢
  split
  · exact .done hs.current hs.advance
  · exact .failed herror hs

end Step

namespace Expression

variable {ρ : Token → Token → Prop}

theorem parallel_nest {t u : Token} (h : ρ t u) (height : Nat) :
    Step.Parallel ρ (fun a b => a = b) (nest height t.span) (nest height u.span) := by
  intro s v hs
  unfold nest
  split
  · exact .done rfl hs
  · exact .failed (.nestingTooDeep h) hs

theorem parallel_literal : Step.Parallel ρ (Measured.Parallel ρ) literal literal := by
  refine Step.parallel_bind Step.parallel_advance ?_
  intro t u htoken
  exact Step.parallel_pure ⟨.literal htoken, rfl⟩

theorem parallel_name : Step.Parallel ρ (Measured.Parallel ρ) name name := by
  refine Step.parallel_bind Step.parallel_advance ?_
  intro t u htoken
  exact Step.parallel_pure ⟨.name htoken, rfl⟩

section

variable {sub : Nat → Step Measured} (hρ : Token.Likened ρ)
  (hsub : ∀ least, Step.Parallel ρ (Measured.Parallel ρ) (sub least) (sub least))

include hsub

theorem parallel_signed (precedence : Nat) :
    Step.Parallel ρ (Measured.Parallel ρ) (signed sub precedence) (signed sub precedence) := by
  refine Step.parallel_bind Step.parallel_advance ?_
  intro operator operator' hoperator
  refine Step.parallel_bind (hsub precedence) ?_
  intro inner inner' hinner
  rw [hinner.height_eq]
  refine Step.parallel_bind (parallel_nest hoperator _) ?_
  rintro height _ rfl
  exact Step.parallel_pure ⟨.unary hoperator hinner.tree, rfl⟩

theorem parallel_joined (precedence : Nat) {left left' : Measured} (hleft : left.Parallel ρ left') :
    Step.Parallel ρ (Measured.Parallel ρ) (joined sub precedence left)
      (joined sub precedence left') := by
  refine Step.parallel_bind Step.parallel_advance ?_
  intro operator operator' hoperator
  refine Step.parallel_bind (hsub precedence) ?_
  intro right right' hright
  rw [hleft.height_eq, hright.height_eq]
  refine Step.parallel_bind (parallel_nest hoperator _) ?_
  rintro height _ rfl
  exact Step.parallel_pure ⟨.binary hleft.tree hoperator hright.tree, rfl⟩

include hρ

theorem parallel_group : Step.Parallel ρ (Measured.Parallel ρ) (group sub) (group sub) := by
  refine Step.parallel_bind Step.parallel_advance ?_
  intro opening opening' hopening
  refine Step.parallel_bind (hsub 0) ?_
  intro inner inner' hinner
  refine Step.parallel_bind (Step.parallel_expect hρ .closeParen) ?_
  intro closing closing' hclosing
  rw [hinner.height_eq]
  refine Step.parallel_bind (parallel_nest hopening _) ?_
  rintro height _ rfl
  exact Step.parallel_pure ⟨.parenthesized hopening hinner.tree hclosing, rfl⟩

theorem parallel_primary : Step.Parallel ρ (Measured.Parallel ρ) (primary sub) (primary sub) := by
  intro s u hs
  have hkind := hρ _ _ hs.current
  have herror : SyntaxError.Parallel ρ
      (.unexpectedToken .number s.current.kind s.current.span)
      (.unexpectedToken .number u.current.kind u.current.span) := .unexpectedToken hs.current
  unfold primary
  rw [hkind] at herror ⊢
  split
  · exact parallel_group hρ hsub s u hs
  · exact parallel_literal s u hs
  · exact parallel_literal s u hs
  · exact parallel_literal s u hs
  · exact parallel_name s u hs
  · exact .failed herror hs

theorem parallel_assignment :
    Step.Parallel ρ (Measured.Parallel ρ) (assignment sub) (assignment sub) := by
  refine Step.parallel_bind (parallel_primary hρ hsub) ?_
  intro target target' htarget
  refine Step.parallel_bind (Step.parallel_expect hρ .equals) ?_
  intro equals equals' hequals
  refine Step.parallel_bind (hsub 0) ?_
  intro value value' hvalue
  rw [htarget.height_eq, hvalue.height_eq]
  refine Step.parallel_bind (parallel_nest hequals _) ?_
  rintro height _ rfl
  exact Step.parallel_pure ⟨.assignment htarget.tree hequals hvalue.tree, rfl⟩

theorem parallel_operand (least : Nat) :
    Step.Parallel ρ (Measured.Parallel ρ) (operand sub least) (operand sub least) := by
  intro s u hs
  unfold operand
  rw [hρ _ _ hs.current]
  split
  · split
    · exact parallel_signed hsub _ s u hs
    · exact parallel_primary hρ hsub s u hs
  · exact parallel_primary hρ hsub s u hs

theorem parallel_chain (least fuel : Nat) {left left' : Measured} (hleft : left.Parallel ρ left') :
    Step.Parallel ρ (Measured.Parallel ρ) (chain sub least fuel left)
      (chain sub least fuel left') := by
  induction fuel generalizing left left' with
  | zero => exact Step.parallel_pure hleft
  | succ fuel ih =>
      intro s u hs
      simp only [chain]
      rw [hρ _ _ hs.current]
      split
      · split
        · exact .done hleft hs
        · refine Step.parallel_bind (parallel_joined hsub _ hleft) ?_ s u hs
          intro next next' hnext
          exact ih hnext
      · exact .done hleft hs

theorem parallel_operators (least : Nat) {left left' : Measured} (hleft : left.Parallel ρ left') :
    Step.Parallel ρ (Measured.Parallel ρ) (operators sub least left)
      (operators sub least left') := by
  intro s u hs
  unfold operators
  rw [hs.ahead.length_eq]
  exact parallel_chain hρ hsub least _ hleft s u hs

theorem parallel_body (least : Nat) :
    Step.Parallel ρ (Measured.Parallel ρ) (body sub least) (body sub least) := by
  intro s u hs
  have hsecond : s.second.kind = u.second.kind := hρ _ _ hs.advance.current
  unfold body
  rw [hρ _ _ hs.current, hsecond]
  split
  · exact parallel_assignment hρ hsub s u hs
  · refine Step.parallel_bind (parallel_operand hρ hsub least) ?_ s u hs
    intro left left' hleft
    exact parallel_operators hρ hsub least hleft

end

/-- Reading an expression ends in the same way on corresponding streams. -/
theorem parallel_expression (hρ : Token.Likened ρ) (levels least : Nat) :
    Step.Parallel ρ (Measured.Parallel ρ) (expression levels least) (expression levels least) := by
  induction levels generalizing least with
  | zero =>
      intro s u hs
      exact .failed (.nestingTooDeep hs.current) hs
  | succ levels ih => exact parallel_body hρ ih least

end Expression

/-! ## Readers and sources -/

/-- Results that are related, or refusals that correspond. -/
inductive Result.Parallel {α : Type} (ρ : Token → Token → Prop) (V : α → α → Prop) :
    Except SyntaxError α → Except SyntaxError α → Prop where
  | ok {a b : α} (h : V a b) : Parallel ρ V (.ok a) (.ok b)
  | error {e e' : SyntaxError} (h : e.Parallel ρ e') : Parallel ρ V (.error e) (.error e')

variable {ρ : Token → Token → Prop}

/-- Readers over corresponding streams make the same of them and go on from corresponding places. -/
theorem Reader.parallel_read (hρ : Token.Likened ρ) (mode : Mode) {s u : Stream}
    (hs : s.Parallel ρ u) :
    Result.Parallel ρ (Tree.Parallel ρ) (Reader.mk mode s).read.1.result
        (Reader.mk mode u).read.1.result ∧
      (Reader.mk mode s).read.2.stream.Parallel ρ (Reader.mk mode u).read.2.stream := by
  have hexpression := Expression.parallel_expression hρ maxLevels 0 s u hs
  unfold Reader.read
  generalize expression maxLevels 0 s = out, expression maxLevels 0 u = out' at hexpression
  cases hexpression with
  | failed herror hrest => exact ⟨.error herror, hrest⟩
  | done hvalue hrest =>
      refine ⟨?_, hrest⟩
      have hkind := hρ _ _ hrest.current
      have herror := SyntaxError.Parallel.trailingToken hrest.current
      simp only
      rw [hkind] at herror ⊢
      split
      · exact .error herror
      · exact .ok hvalue.tree

/-- The first invalid tokens of corresponding tokens correspond. -/
theorem Token.parallel_find? (hρ : Likened ρ) {ts us : List Token} (h : List.Forall₂ ρ ts us) :
    Option.Rel ρ (ts.find? fun t => t.kind == .invalid) (us.find? fun t => t.kind == .invalid) := by
  induction h with
  | nil => exact .none
  | @cons t u ts us htoken _ ih =>
      rw [List.find?_cons, List.find?_cons, hρ t u htoken]
      split
      · exact .some htoken
      · exact ih

/-- Corresponding tokens are refused alike, or they have corresponding streams. -/
theorem Stream.parallel_ofTokens (hρ : Token.Likened ρ) {ts us : List Token}
    (h : List.Forall₂ ρ ts us) {finish finish' : Nat}
    (hfinish : ρ (.endOfFile finish) (.endOfFile finish')) :
    Result.Parallel ρ (Stream.Parallel ρ) (ofTokens ts finish) (ofTokens us finish') := by
  have hfind := Token.parallel_find? hρ h
  unfold ofTokens
  generalize ts.find? (fun t => t.kind == .invalid) = invalid,
    us.find? (fun t => t.kind == .invalid) = invalid' at hfind
  cases hfind with
  | some htoken => exact .error (.invalidToken htoken)
  | none =>
      refine .ok ⟨List.rel_filter ?_ h, hfinish⟩
      intro t u htoken
      simp only [hρ t u htoken]

/-- Blanks do not matter to the stream of tokens. -/
theorem Stream.ofTokens_filter (tokens : List Token) (finish : Nat) :
    ofTokens (tokens.filter fun t => t.kind != .whitespace) finish = ofTokens tokens finish := by
  have hfind : (tokens.filter fun t => t.kind != .whitespace).find? (fun t => t.kind == .invalid) =
      tokens.find? fun t => t.kind == .invalid := by
    rw [List.find?_filter]
    congr 1
    funext t
    cases t.kind <;> rfl
  unfold ofTokens
  rw [hfind, List.filter_filter]
  simp only [Bool.and_self]

/-- The stream of a source is that of its significant tokens. -/
theorem Stream.exists_ofString_eq (source : String) :
    ∃ tokens, Token.significant source = tokens ++ [.endOfFile source.utf8ByteSize] ∧
      ofString source = ofTokens tokens source.utf8ByteSize := by
  refine ⟨_, Token.significant_eq source, ?_⟩
  rw [ofTokens_filter, ofString, Scanner.offset_atEnd_ofList]

/-- Sources whose significant tokens correspond are refused alike, or they have corresponding
streams. -/
theorem Stream.parallel_ofString (hρ : Token.Likened ρ) {source other : String}
    (h : List.Forall₂ ρ (Token.significant source) (Token.significant other)) :
    Result.Parallel ρ (Stream.Parallel ρ) (ofString source) (ofString other) := by
  obtain ⟨ts, hts, hsource⟩ := exists_ofString_eq source
  obtain ⟨us, hus, hother⟩ := exists_ofString_eq other
  rw [hts, hus, ← List.forall₂_reverse_iff, List.reverse_concat, List.reverse_concat] at h
  cases h with
  | cons hfinish h =>
      rw [hsource, hother]
      exact parallel_ofTokens hρ (List.forall₂_reverse_iff.1 h) hfinish

/-- Sources whose significant tokens correspond are read to results that correspond. -/
theorem Tree.parallel_read (hρ : Token.Likened ρ) {source other : String}
    (h : List.Forall₂ ρ (Token.significant source) (Token.significant other)) (mode : Mode) :
    Result.Parallel ρ (Tree.Parallel ρ) (read mode source) (read mode other) := by
  have hstreams := Stream.parallel_ofString hρ h
  rw [read, read, Reader.ofString, Reader.ofString]
  generalize Stream.ofString source = out, Stream.ofString other = out' at hstreams
  cases hstreams with
  | error herror => exact .error herror
  | ok hstream => exact (Reader.parallel_read hρ mode hstream).1

end ExprTree
