import ExprTree.Proofs.Sources
import ExprTree.Reader.Cursor

set_option autoImplicit false

/-!
# A cursor reads what a stream does

A cursor shows a stream if the tokens from its position on are those ahead in the
stream, with the end-of-file token after them.  There is a token at its position then,
so looking at it and going on do not break off, and both do what they do on the stream.
A move simulates a step if on every cursor that shows a stream it ends as the step does,
with the depth as it was and the cursor at what the step leaves.  This is kept by
putting moves together, and it holds for reading an expression as long as the depth and
the levels that are left add up to the bound (`simulates_expression`).
-/

namespace ExprTree

/-- What a step ends with. -/
def Outcome.result {α : Type} : Outcome α → Except SyntaxError α
  | done a _ => .ok a
  | failed e _ => .error e

namespace Cursor

/-- Whether the tokens from the position on are those of the stream. -/
def Shows (c : Cursor) (s : Stream) : Prop :=
  c.tokens.drop c.position = s.ahead ++ [.endOfFile s.finish]

/-- Whether a cursor has moved on to where it shows a stream. -/
structure Reaches (c c' : Cursor) (s : Stream) : Prop where
  tokens_eq : c'.tokens = c.tokens
  depth_eq : c'.depth = c.depth
  position_le : c.position ≤ c'.position
  shows : c'.Shows s

variable {c c' c'' : Cursor} {s u : Stream}

theorem Reaches.trans (h : c.Reaches c' s) (h' : c'.Reaches c'' u) : c.Reaches c'' u where
  tokens_eq := h'.tokens_eq.trans h.tokens_eq
  depth_eq := h'.depth_eq.trans h.depth_eq
  position_le := Nat.le_trans h.position_le h'.position_le
  shows := h'.shows

theorem Shows.refl (h : c.Shows s) : c.Reaches c s := ⟨rfl, rfl, Nat.le_refl _, h⟩

/-- As many tokens are ahead as there are between the position and the last token. -/
theorem Shows.length_eq (h : c.Shows s) : c.tokens.length = c.position + s.ahead.length + 1 := by
  have hlength := congrArg List.length h
  rw [List.length_drop, List.length_append, List.length_singleton] at hlength
  omega

/-- No tokens come back ahead. -/
theorem Reaches.length_le (h : c.Reaches c' u) (hs : c.Shows s) :
    u.ahead.length ≤ s.ahead.length := by
  have hbefore := hs.length_eq
  have hafter := h.shows.length_eq
  have hle := h.position_le
  rw [h.tokens_eq] at hafter
  omega

/-- A count that is known to be positive can be lowered. -/
theorem lower_eq_ok {count n : Nat} (h : count = n + 1) : lower count = .ok n := by
  rw [h, lower]

/-- Where a stream is shown, every look ahead meets a token, that of the end of the source if no
other. -/
theorem Shows.peek_eq (h : c.Shows s) (offset : Nat) :
    c.peek offset = .ok (s.ahead[offset]?.getD (.endOfFile s.finish)) := by
  have hindex : min (c.position + offset) (c.position + s.ahead.length) =
      c.position + min offset s.ahead.length := by omega
  have htoken : c.tokens[c.position + min offset s.ahead.length]? =
      some (s.ahead[offset]?.getD (.endOfFile s.finish)) := by
    rw [← List.getElem?_drop, h]
    rcases Nat.lt_or_ge offset s.ahead.length with hlt | hge
    · rw [Nat.min_eq_left (Nat.le_of_lt hlt), List.getElem?_append_left hlt,
        List.getElem?_eq_getElem hlt, Option.getD_some]
    · rw [Nat.min_eq_right hge, List.getElem?_append_right (Nat.le_refl _), Nat.sub_self,
        List.getElem?_eq_none hge]
      rfl
  rw [peek, lower_eq_ok h.length_eq]
  change c.token (min (c.position + offset) (c.position + s.ahead.length)) = _
  rw [hindex, token, htoken]

theorem Shows.peek_current (h : c.Shows s) : c.peek 0 = .ok s.current := by
  rw [h.peek_eq, Stream.current, List.headD_eq_head?_getD, List.head?_eq_getElem?]

theorem Shows.peek_second (h : c.Shows s) : c.peek 1 = .ok s.second := by
  rw [h.peek_eq, Stream.second, List.headD_eq_head?_getD, List.head?_tail]

/-- The cursor goes on to the next token as the stream does, and stays at the last one. -/
theorem Shows.exists_step (h : c.Shows s) : ∃ c', c.step = .ok c' ∧ c.Reaches c' s.advance := by
  have hstep : c.step = .ok (if c.position < c.position + s.ahead.length then
      { c with position := c.position + 1 } else c) := by
    rw [step, lower_eq_ok h.length_eq]
    rfl
  refine ⟨_, hstep, ?_⟩
  split
  · rename_i hlt
    refine ⟨rfl, rfl, Nat.le_succ _, ?_⟩
    change c.tokens.drop (c.position + 1) = s.ahead.tail ++ [.endOfFile s.finish]
    rw [← List.tail_drop, h, List.tail_append_of_ne_nil]
    exact List.ne_nil_of_length_pos (by omega)
  · rename_i hge
    have hnil : s.ahead = [] := List.eq_nil_of_length_eq_zero (by omega)
    have hsame : s.advance = s := by
      rw [Stream.advance, hnil, List.tail_nil, ← hnil]
    rw [hsame]
    exact h.refl

end Cursor

/-- What is none of the other operands is read as a number. -/
theorem Expression.primary_eq_expect {sub : Nat → Step Measured} {s : Stream}
    (h : s.current.kind ≠ .openParen ∧ s.current.kind ≠ .trueKeyword ∧
      s.current.kind ≠ .falseKeyword ∧ s.current.kind ≠ .identifier) :
    primary sub s =
      (Step.expect .number >>= fun token => pure ⟨.literal token token.value, 1⟩) s := by
  obtain ⟨hopen, htrue, hfalse, hname⟩ := h
  unfold primary
  split
  · rename_i hkind
    exact absurd hkind hopen
  · rename_i hkind
    exact absurd hkind htrue
  · rename_i hkind
    exact absurd hkind hfalse
  · rename_i hkind
    rw [Step.bind_apply, Step.expect, if_pos hkind]
    rfl
  · rename_i hkind
    exact absurd hkind hname
  · rename_i hnumber _
    rw [Step.bind_apply, Step.expect, if_neg hnumber]

/-! ## Moves that simulate steps -/

namespace Move

variable {α β : Type} {levels : Nat} {c : Cursor} {s : Stream}

/-- Whether the move, where `levels` more expressions may be read inside each other, ends as the
step does. -/
def Simulates (levels : Nat) (x : Move α) (y : Step α) : Prop :=
  ∀ (c : Cursor) (s : Stream), c.depth + levels = maxLevels → c.Shows s →
    ∃ c', x c = .ok ((y s).result, c') ∧ c.Reaches c' (y s).rest

theorem bind_apply (x : Move α) (f : α → Move β) (c : Cursor) :
    (x >>= f) c =
      match x c with
      | .ok (.ok a, c) => f a c
      | .ok (.error e, c) => .ok (.error e, c)
      | .error fault => .error fault := rfl

theorem simulates_pure (a : α) : Simulates levels (pure a) (pure a) := by
  intro c s _ hs
  exact ⟨c, rfl, hs.refl⟩

theorem simulates_bind {x : Move α} {y : Step α} {f : α → Move β} {g : α → Step β}
    (hx : Simulates levels x y) (hf : ∀ a, Simulates levels (f a) (g a)) :
    Simulates levels (x >>= f) (y >>= g) := by
  intro c s hdepth hs
  obtain ⟨c', hfirst, hreaches⟩ := hx c s hdepth hs
  rw [Step.bind_apply, bind_apply, hfirst]
  cases hstep : y s with
  | done a mid =>
      rw [hstep] at hreaches
      obtain ⟨c'', hsecond, hmore⟩ := hf a c' mid (hreaches.depth_eq ▸ hdepth) hreaches.shows
      exact ⟨c'', hsecond, hreaches.trans hmore⟩
  | failed e mid =>
      rw [hstep] at hreaches
      exact ⟨c', rfl, hreaches⟩

/-- After looking at a token ahead a move goes on at the same place. -/
theorem peek_bind {offset : Nat} {t : Token} (h : c.peek offset = .ok t) (f : Token → Move α) :
    (peek offset >>= f) c = f t c := by
  rw [bind_apply, peek, h]
  rfl

theorem simulates_advance : Simulates levels advance Step.advance := by
  intro c s _ hs
  obtain ⟨c', hstep, hreaches⟩ := hs.exists_step
  refine ⟨c', ?_, hreaches⟩
  rw [advance, hs.peek_current, hstep]
  rfl

theorem simulates_expect (kind : Kind) :
    Simulates levels (expect kind) (Step.expect kind) := by
  intro c s hdepth hs
  rw [expect, peek_bind hs.peek_current, Step.expect]
  split
  · exact simulates_advance c s hdepth hs
  · exact ⟨c, rfl, hs.refl⟩

theorem simulates_nest (height : Nat) (span : Span) :
    Simulates levels (nest height span) (Expression.nest height span) := by
  intro c s _ hs
  rw [nest, Expression.nest]
  split
  · exact ⟨c, rfl, hs.refl⟩
  · exact ⟨c, rfl, hs.refl⟩

section

variable {sub : Nat → Move Measured} {sub' : Nat → Step Measured}
  (hsub : ∀ least, Simulates levels (sub least) (sub' least))

include hsub

theorem simulates_group : Simulates levels (group sub) (Expression.group sub') := by
  refine simulates_bind simulates_advance ?_
  intro opening
  refine simulates_bind (hsub 0) ?_
  intro inner
  refine simulates_bind (simulates_expect .closeParen) ?_
  intro closing
  refine simulates_bind (simulates_nest _ _) ?_
  intro height
  exact simulates_pure _

theorem simulates_signed (precedence : Nat) :
    Simulates levels (signed sub precedence) (Expression.signed sub' precedence) := by
  refine simulates_bind simulates_advance ?_
  intro operator
  refine simulates_bind (hsub precedence) ?_
  intro operand
  refine simulates_bind (simulates_nest _ _) ?_
  intro height
  exact simulates_pure _

theorem simulates_joined (precedence : Nat) (left : Measured) :
    Simulates levels (joined sub precedence left) (Expression.joined sub' precedence left) := by
  refine simulates_bind simulates_advance ?_
  intro operator
  refine simulates_bind (hsub precedence) ?_
  intro right
  refine simulates_bind (simulates_nest _ _) ?_
  intro height
  exact simulates_pure _

theorem simulates_primary : Simulates levels (primary sub) (Expression.primary sub') := by
  intro c s hdepth hs
  rw [primary, peek_bind hs.peek_current]
  have hliteral : Simulates levels (advance >>= fun token => pure (literal token))
      Expression.literal := simulates_bind simulates_advance fun token => simulates_pure _
  cases hkind : s.current.kind
  case openParen =>
    rw [Expression.primary, hkind]
    exact simulates_group hsub c s hdepth hs
  case trueKeyword =>
    rw [Expression.primary, hkind]
    exact hliteral c s hdepth hs
  case falseKeyword =>
    rw [Expression.primary, hkind]
    exact hliteral c s hdepth hs
  case identifier =>
    rw [Expression.primary, hkind]
    exact simulates_bind simulates_advance (fun token => simulates_pure _) c s hdepth hs
  all_goals
    rw [Expression.primary_eq_expect (by simp [hkind])]
    exact simulates_bind (simulates_expect .number) (fun token => simulates_pure _) c s hdepth hs

theorem simulates_assignment : Simulates levels (assignment sub) (Expression.assignment sub') := by
  refine simulates_bind (simulates_primary hsub) ?_
  intro target
  refine simulates_bind (simulates_expect .equals) ?_
  intro equals
  refine simulates_bind (hsub 0) ?_
  intro value
  refine simulates_bind (simulates_nest _ _) ?_
  intro height
  exact simulates_pure _

theorem simulates_operand (least : Nat) :
    Simulates levels (operand sub least) (Expression.operand sub' least) := by
  intro c s hdepth hs
  rw [operand, peek_bind hs.peek_current, Expression.operand]
  cases s.current.kind.unaryPrecedence? with
  | none => exact simulates_primary hsub c s hdepth hs
  | some precedence =>
      dsimp only
      split
      · exact simulates_signed hsub precedence c s hdepth hs
      · exact simulates_primary hsub c s hdepth hs

/-- Joining takes the operator at least. -/
theorem length_lt_of_joined {precedence : Nat} {left found : Measured} {rest : Stream}
    (hdepth : c.depth + levels = maxLevels) (hs : c.Shows s)
    (hp : s.current.kind.binaryPrecedence? = some precedence)
    (h : Expression.joined sub' precedence left s = .done found rest) :
    rest.ahead.length < s.ahead.length := by
  obtain ⟨right, hright, _⟩ := Expression.joined_done h
  obtain ⟨c', _, hreaches⟩ := hs.exists_step
  obtain ⟨c'', _, hmore⟩ := hsub precedence c' s.advance (hreaches.depth_eq ▸ hdepth) hreaches.shows
  rw [hright] at hmore
  have hle := hmore.length_le hreaches.shows
  have hahead := Expression.ahead_eq_of_binaryPrecedence? hp
  rw [hahead, List.length_cons]
  exact Nat.lt_succ_of_le hle

/-- Joining goes on for as long as it can if more looks are left than tokens are ahead. -/
theorem simulates_loop (least : Nat) {fuel fuel' : Nat} (left : Measured)
    (hdepth : c.depth + levels = maxLevels) (hs : c.Shows s) (hfuel : s.ahead.length < fuel)
    (hfuel' : s.ahead.length ≤ fuel') :
    ∃ c', loop sub least fuel left c =
      .ok ((Expression.chain sub' least fuel' left s).result, c') ∧
      c.Reaches c' (Expression.chain sub' least fuel' left s).rest := by
  induction fuel generalizing fuel' left c s with
  | zero => exact absurd hfuel (Nat.not_lt_zero _)
  | succ fuel ih =>
      rw [loop, peek_bind hs.peek_current]
      cases fuel' with
      | zero =>
          have hnil : s.ahead = [] := List.eq_nil_of_length_eq_zero (Nat.le_zero.1 hfuel')
          have hcurrent : s.current = .endOfFile s.finish := by
            rw [Stream.current, hnil]
            rfl
          rw [hcurrent]
          exact ⟨c, rfl, hs.refl⟩
      | succ fuel' =>
          rw [Expression.chain]
          dsimp only
          cases hp : s.current.kind.binaryPrecedence? with
          | none => exact ⟨c, rfl, hs.refl⟩
          | some precedence =>
              dsimp only
              split
              · exact ⟨c, rfl, hs.refl⟩
              · obtain ⟨c', hjoined, hreaches⟩ :=
                  simulates_joined hsub precedence left c s hdepth hs
                rw [bind_apply, hjoined, Step.bind_apply]
                cases hstep : Expression.joined sub' precedence left s with
                | failed e mid =>
                    rw [hstep] at hreaches
                    exact ⟨c', rfl, hreaches⟩
                | done joined mid =>
                    rw [hstep] at hreaches
                    have hmid : c'.Shows mid := hreaches.shows
                    have hlt := length_lt_of_joined hsub hdepth hs hp hstep
                    have hfewer : mid.ahead.length ≤ fuel' := by omega
                    obtain ⟨c'', hloop, hmore⟩ := ih joined (hreaches.depth_eq ▸ hdepth) hmid
                      (by omega) hfewer
                    exact ⟨c'', hloop, hreaches.trans hmore⟩

theorem simulates_operators (least : Nat) (left : Measured) :
    Simulates levels (operators sub least left) (Expression.operators sub' least left) := by
  intro c s hdepth hs
  have hlength := hs.length_eq
  exact simulates_loop hsub least left hdepth hs (by omega) (Nat.le_refl _)

theorem simulates_body (least : Nat) :
    Simulates levels (body sub least) (Expression.body sub' least) := by
  intro c s hdepth hs
  rw [body, peek_bind hs.peek_current, peek_bind hs.peek_second, Expression.body]
  split
  · exact simulates_assignment hsub c s hdepth hs
  · have hboth := simulates_bind (simulates_operand hsub least) (simulates_operators hsub least)
    exact hboth c s hdepth hs

end

/-- Where as many expressions are being read as may be, one more is refused. -/
theorem nested_of_depth_eq {inner : Move Measured} {t : Token} (h : c.depth = maxLevels)
    (hpeek : c.peek 0 = .ok t) :
    nested inner c = .ok (.error (.nestingTooDeep maxLevels t.span), c) := by
  unfold nested
  rw [if_pos h, hpeek]
  rfl

/-- Elsewhere the depth is raised for the expression and lowered again. -/
theorem nested_of_eq_ok {inner : Move Measured} {c' : Cursor} {result : Except SyntaxError Measured}
    (h : c.depth ≠ maxLevels) (hinner : inner c.descend = .ok (result, c'))
    (hdepth : c'.depth = c.depth + 1) :
    nested inner c = .ok (result, { c' with depth := c.depth }) := by
  have hascend : c'.ascend = .ok { c' with depth := c.depth } := by
    rw [Cursor.ascend, Cursor.lower_eq_ok hdepth]
    rfl
  unfold nested
  rw [if_neg h, hinner]
  change (c'.ascend >>= fun c' => pure (result, c')) = _
  rw [hascend]
  rfl

/-- Reading an expression with a cursor ends as reading it from a stream, where the levels that are
left are those that the depth leaves. -/
theorem simulates_expression (levels least : Nat) :
    Simulates levels (expression (levels + 1) least) (ExprTree.expression levels least) := by
  induction levels generalizing least with
  | zero =>
      intro c s hdepth hs
      exact ⟨c, nested_of_depth_eq hdepth hs.peek_current, hs.refl⟩
  | succ levels ih =>
      intro c s hdepth hs
      have hinner : c.descend.depth + levels = maxLevels := by
        change c.depth + 1 + levels = maxLevels
        omega
      obtain ⟨c', hbody, hreaches⟩ := simulates_body ih least c.descend s hinner hs
      have hnested := nested_of_eq_ok (by omega) hbody hreaches.depth_eq
      exact ⟨_, hnested, hreaches.tokens_eq, rfl, hreaches.position_le, hreaches.shows⟩

/-- A reader over the stream that a cursor shows reads what is read with the cursor. -/
theorem exists_read_eq (mode : Mode) (hdepth : c.depth = 0) (hs : c.Shows s) :
    ∃ c', read mode c = .ok ((Reader.mk mode s).read.1.result, c') ∧
      c.Reaches c' (Reader.mk mode s).read.2.stream := by
  obtain ⟨c', hexpression, hreaches⟩ :=
    simulates_expression maxLevels 0 c s (by omega) hs
  rw [read, bind_apply, hexpression]
  unfold Reader.read
  cases hread : ExprTree.expression maxLevels 0 s with
  | failed e rest =>
      rw [hread] at hreaches
      exact ⟨c', rfl, hreaches⟩
  | done found rest =>
      rw [hread] at hreaches
      have hshows : c'.Shows rest := hreaches.shows
      refine ⟨c', ?_, hreaches⟩
      dsimp only [Outcome.result]
      rw [peek_bind hshows.peek_current]
      by_cases htrailing : mode = .strict ∧ rest.current.kind ≠ .endOfFile
      · rw [if_pos htrailing, if_pos htrailing]
        rfl
      · rw [if_neg htrailing, if_neg htrailing]
        rfl

end Move

end ExprTree
