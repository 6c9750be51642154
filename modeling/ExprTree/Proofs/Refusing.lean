import ExprTree.Proofs.Reading

set_option autoImplicit false

/-!
# What a refusal says

Whenever reading an expression fails, the tokens before the place of failure have
been read into some partial tree, and the refusal is true of it.  Either the token
at that place cannot follow while the one that was expected can, or every tree that
starts with these tokens is higher than the bound.

The nodes that are open around an expression, one for each expression that is being
read, link the two counts that keep to the bound: with the expressions that may
still be opened there are always `maxLevels` of them.
-/

namespace ExprTree

open OpenNode PartialTree

/-- What a refusal says of the partial tree read so far and of the token that comes next. -/
inductive Explains (p : PartialTree) (next : Token) : SyntaxError → Prop where
  | unexpected {expected : Kind} (hexpected : expected = .number ∨ expected = .closeParen)
      (hunfinished : p.finish? = none) (hrefused : p.read next = none)
      (haccepted : ∀ t : Token, t.kind = expected → ∃ q, p.read t = some q) :
      Explains p next (.unexpectedToken expected next.kind next.span)
  | tooDeep {span : Span} (h : maxLevels < p.height) :
      Explains p next (.nestingTooDeep maxLevels span)

/-- The tokens from `s` up to `rest` are read into `p`, and `e` is true of what comes of it. -/
def Refuses (p : PartialTree) (s : Stream) (e : SyntaxError) (rest : Stream) : Prop :=
  ∃ taken q, s.ahead = taken ++ rest.ahead ∧ rest.finish = s.finish ∧
    p.readAll taken = some q ∧ Explains q rest.current e

/-- A refusal at once. -/
theorem refuses_here {p : PartialTree} {s : Stream} {e : SyntaxError}
    (h : Explains p s.current e) : Refuses p s e s :=
  ⟨[], p, rfl, rfl, rfl, h⟩

/-- A refusal after more tokens. -/
theorem refuses_after {p q : PartialTree} {s mid rest : Stream} {e : SyntaxError}
    {taken : List Token} (hread : p.readAll taken = some q) (hahead : s.ahead = taken ++ mid.ahead)
    (hfinish : mid.finish = s.finish) (h : Refuses q mid e rest) : Refuses p s e rest := by
  obtain ⟨more, r, hmore, hrest, hr, hexplains⟩ := h
  refine ⟨taken ++ more, r, ?_, hrest.trans hfinish, ?_, hexplains⟩
  · rw [hahead, hmore, List.append_assoc]
  · rw [readAll_append_of_eq_some hread, hr]

/-! ## Facts about open nodes -/

theorem least_le (node : OpenNode) : node.least ≤ 6 := by
  cases node with
  | group opening => exact Nat.zero_le _
  | sign operator => cases h : operator.kind <;> simp [least, h, Kind.unaryPrecedence?]
  | assignment target equals => exact Nat.zero_le _
  | operation left operator => cases h : operator.kind <;> simp [least, h, Kind.binaryPrecedence?]

/-- A sign binds tightly enough to stand anywhere. -/
theorem innerLeast_le (nodes : List OpenNode) : innerLeast nodes ≤ 6 := by
  cases nodes with
  | nil => exact Nat.zero_le _
  | cons node nodes => exact least_le node

/-- The partial tree is as high as the node around the part that has been read last. -/
theorem heightOver_le_height (node : OpenNode) (nodes : List OpenNode) (part : Tree) :
    node.heightOver part.height ≤
      (holding (part.edge ++ node :: nodes) part.lastOperand).height := by
  rw [height, Tree.fullHeight_edge, fullHeight_cons]
  exact Nat.le_trans (Nat.le_add_right _ _) (add_length_le_fullHeight nodes _)

/-- Behind a whole part nothing follows but operators and parentheses. -/
theorem read_edge_eq_none {nodes : List OpenNode} {part : Tree} {t : Token}
    (hends : part.EndsBefore t.kind) (hop : ∀ p, t.kind.binaryPrecedence? ≠ some p)
    (hclose : t.kind ≠ .closeParen) :
    (holding (part.edge ++ nodes) part.lastOperand).read t = none := by
  rw [PartialTree.read]
  split
  · rename_i p hp
    exact absurd hp (hop p)
  · split
    · rename_i hequals
      rw [assign?]
      exact hends.2 hequals
    · rename_i hk
      exact absurd hk hclose
    · rfl

/-- A whole part in a group is not finished. -/
theorem finish?_group_eq_none {nodes : List OpenNode} {inner : Tree} {opening : Token}
    (hc : inner.Canonical) :
    (holding (inner.edge ++ .group opening :: nodes) inner.lastOperand).finish? = none := by
  rw [finish?, Tree.settle_zero_edge hc]
  rfl

namespace Expression

variable {s rest : Stream} {e : SyntaxError} {levels : Nat} {nodes : List OpenNode}

/-! ## Each function -/

/-- Where an operand is due and none comes, a number is missing. -/
theorem explains_missing (hsign : s.current.kind.unaryPrecedence? = none)
    (hkind : s.current.kind ≠ .openParen ∧ s.current.kind ≠ .trueKeyword ∧
      s.current.kind ≠ .falseKeyword ∧ s.current.kind ≠ .number ∧ s.current.kind ≠ .identifier) :
    Explains (expecting nodes) s.current
      (.unexpectedToken .number s.current.kind s.current.span) := by
  refine .unexpected (.inl rfl) rfl ?_ ?_
  · revert hsign hkind
    simp only [PartialTree.read]
    cases s.current.kind <;> simp [Kind.unaryPrecedence?]
  · intro t ht
    exact ⟨_, read_literal (.inl ht)⟩

/-- Where the part in a group is whole and no parenthesis comes, the parenthesis is missing. -/
theorem explains_unclosed {opening : Token} {inner : Measured} (h : ReadsFor 0 s inner rest)
    (hclose : rest.current.kind ≠ .closeParen) :
    Explains (holding (inner.tree.edge ++ .group opening :: nodes) inner.tree.lastOperand)
      rest.current (.unexpectedToken .closeParen rest.current.kind rest.current.span) := by
  refine .unexpected (.inr rfl) (finish?_group_eq_none h.canonical) ?_ ?_
  · exact read_edge_eq_none h.ends h.no_operator hclose
  · intro t ht
    exact ⟨_, read_closeParen_edge ht h.canonical⟩

section

variable
  (ih : ∀ {nodes : List OpenNode} {s : Stream} {e : SyntaxError} {rest : Stream},
    nodes.length + levels = maxLevels → expression levels (innerLeast nodes) s = .failed e rest →
      Refuses (expecting nodes) s e rest)
  (hlength : nodes.length + (levels + 1) = maxLevels)

include ih hlength

/-- What fails in the last part of a node fails in the node. -/
theorem inner_refuses {p : PartialTree} {node : OpenNode} {mid : Stream} {taken : List Token}
    (hread : p.readAll taken = some (expecting (node :: nodes)))
    (hahead : s.ahead = taken ++ mid.ahead) (hfinish : mid.finish = s.finish)
    (h : expression levels node.least mid = .failed e rest) : Refuses p s e rest := by
  have hl : (node :: nodes).length + levels = maxLevels := by
    simp only [List.length_cons]
    omega
  exact refuses_after hread hahead hfinish (ih hl h)

omit ih hlength in
/-- A node over a part that is as high as the bound is higher than the bound. -/
theorem inner_tooDeep {p : PartialTree} {node : OpenNode} {mid : Stream} {taken : List Token}
    {found : Measured} {span : Span}
    (hread : p.readAll taken = some (expecting (node :: nodes)))
    (hahead : s.ahead = taken ++ mid.ahead) (hfinish : mid.finish = s.finish)
    (hfound : ReadsFor node.least mid found rest)
    (hle : maxLevels < node.heightOver found.height) :
    Refuses p s (.nestingTooDeep maxLevels span) rest := by
  have hedge := readAll_leaves (node :: nodes) hfound.canonical hfound.fits
  have hhigh := heightOver_le_height node nodes found.tree
  rw [← hfound.height_eq] at hhigh
  refine refuses_after hread hahead hfinish ?_
  exact ⟨found.tree.leaves, _, hfound.ahead_eq, hfound.finish_eq, hedge,
    .tooDeep (Nat.lt_of_lt_of_le hle hhigh)⟩

theorem group_refuses (hkind : s.current.kind = .openParen)
    (h : group (expression levels) s = .failed e rest) : Refuses (expecting nodes) s e rest := by
  have hahead : s.ahead = [s.current] ++ s.advance.ahead := ahead_eq_of_kind_eq hkind (by decide)
  have hread : (expecting nodes).readAll [s.current] =
      some (expecting (.group s.current :: nodes)) := by
    rw [readAll_cons, read_group hkind]
    rfl
  rcases group_failed h with hsub | ⟨inner, hsub, hclose, rfl⟩ |
    ⟨inner, mid, hsub, hclose, hle, rfl, rfl⟩
  · exact inner_refuses ih hlength hread hahead rfl hsub
  · have hi := expression_reads hsub
    have hinner := readAll_leaves (.group s.current :: nodes) hi.canonical hi.fits
    refine refuses_after hread hahead rfl ?_
    exact ⟨inner.tree.leaves, _, hi.ahead_eq, hi.finish_eq, hinner, explains_unclosed hi hclose⟩
  · -- The parenthesis has been read before the height is looked at.
    have hi := expression_reads hsub
    have hmid : mid.ahead = mid.current :: mid.advance.ahead :=
      ahead_eq_of_kind_eq hclose (by decide)
    have hinner := readAll_leaves (.group s.current :: nodes) hi.canonical hi.fits
    have hclosed : (expecting (.group s.current :: nodes)).readAll
        (inner.tree.leaves ++ [mid.current]) =
          some (holding nodes (.parenthesized s.current inner.tree mid.current)) := by
      rw [readAll_append_of_eq_some hinner, readAll_cons, read_closeParen_edge hclose hi.canonical]
      rfl
    have htaken : s.advance.ahead =
        (inner.tree.leaves ++ [mid.current]) ++ mid.advance.ahead := by
      rw [hi.ahead_eq, hmid, List.append_assoc, List.singleton_append]
    have hhigh : maxLevels <
        (holding nodes (.parenthesized s.current inner.tree mid.current)).height := by
      have hlevels := add_length_le_fullHeight nodes (inner.tree.height + 1)
      rw [hi.height_eq] at hle
      simp only [PartialTree.height, Tree.height]
      omega
    refine refuses_after hread hahead rfl ?_
    exact ⟨_, _, htaken, hi.finish_eq, hclosed, .tooDeep hhigh⟩

theorem signed_refuses {p : Nat} (hp : s.current.kind.unaryPrecedence? = some p)
    (h : signed (expression levels) p s = .failed e rest) :
    Refuses (expecting nodes) s e rest := by
  obtain ⟨hsign, hahead⟩ := sign_of_unaryPrecedence? hp
  have hread : (expecting nodes).readAll [s.current] =
      some (expecting (.sign s.current :: nodes)) := by
    rw [readAll_cons, read_sign hsign]
    rfl
  have hleast : (OpenNode.sign s.current).least = p := by simp [least, hp]
  rcases signed_failed h with hsub | ⟨inner, hsub, hle, rfl⟩
  · rw [← hleast] at hsub
    exact inner_refuses ih hlength hread hahead rfl hsub
  · rw [← hleast] at hsub
    exact inner_tooDeep hread hahead rfl (expression_reads hsub) (Nat.lt_succ_of_le hle)

theorem assignment_refuses (hname : s.current.kind = .identifier)
    (hequals : s.advance.current.kind = .equals)
    (h : assignment (expression levels) s = .failed e rest) :
    Refuses (expecting nodes) s e rest := by
  have hahead : s.ahead = [s.current, s.advance.current] ++ s.advance.advance.ahead := by
    rw [ahead_eq_of_kind_eq hname (by decide), ahead_eq_of_kind_eq hequals (by decide)]
    rfl
  have hread : (expecting nodes).readAll [s.current, s.advance.current] =
      some (expecting (.assignment (.name s.current) s.advance.current :: nodes)) := by
    rw [readAll_cons, read_name hname, Option.bind_some, readAll_cons, read_equals hequals]
    rfl
  rcases assignment_failed hname hequals h with hsub | ⟨value, hsub, hle, rfl⟩
  · exact inner_refuses ih hlength hread hahead rfl hsub
  · exact inner_tooDeep hread hahead rfl (expression_reads hsub) (Nat.lt_succ_of_le hle)

/-- An operation fails behind its left operand, which has been read before. -/
theorem joined_refuses {p : Nat} {s₀ : Stream} {left : Measured} (hleft : Reads s₀ left s)
    (hfits : left.tree.Fits (innerLeast nodes)) (hp : s.current.kind.binaryPrecedence? = some p)
    (hlt : innerLeast nodes < p) (h : joined (expression levels) p left s = .failed e rest) :
    Refuses (expecting nodes) s₀ e rest := by
  have hahead : s₀.ahead = (left.tree.leaves ++ [s.current]) ++ s.advance.ahead := by
    rw [hleft.ahead_eq, ahead_eq_of_binaryPrecedence? hp]
    simp
  obtain ⟨hprec, hends⟩ := hleft.ends.1 p hp
  have hread : (expecting nodes).readAll (left.tree.leaves ++ [s.current]) =
      some (expecting (.operation left.tree s.current :: nodes)) := by
    rw [readAll_append_of_eq_some (readAll_leaves nodes hleft.canonical hfits), readAll_cons,
      read_operation_edge hp hleft.canonical hprec hends (closedBy_head_of_lt hlt)]
    rfl
  have hleast : (OpenNode.operation left.tree s.current).least = p := by simp [least, hp]
  rcases joined_failed h with hsub | ⟨right, hsub, hle, rfl⟩
  · rw [← hleast] at hsub
    exact inner_refuses ih hlength hread hahead hleft.finish_eq hsub
  · rw [← hleast] at hsub
    rw [hleft.height_eq] at hle
    exact inner_tooDeep hread hahead hleft.finish_eq (expression_reads hsub) (Nat.lt_succ_of_le hle)

theorem primary_refuses (hsign : s.current.kind.unaryPrecedence? = none)
    (h : primary (expression levels) s = .failed e rest) : Refuses (expecting nodes) s e rest := by
  unfold primary at h
  split at h
  · rename_i hk
    exact group_refuses ih hlength hk h
  · cases h
  · cases h
  · cases h
  · cases h
  · rename_i hopen htrue hfalse hnumber hname
    cases h
    exact refuses_here (explains_missing hsign ⟨hopen, htrue, hfalse, hnumber, hname⟩)

theorem operand_refuses (h : operand (expression levels) (innerLeast nodes) s = .failed e rest) :
    Refuses (expecting nodes) s e rest := by
  unfold operand at h
  split at h
  · rename_i p hp
    have hsix := Kind.unaryPrecedence?_eq hp
    have hleast := innerLeast_le nodes
    rw [if_pos (by omega)] at h
    exact signed_refuses ih hlength hp h
  · rename_i hnone
    exact primary_refuses ih hlength hnone h

theorem chain_refuses {fuel : Nat} {s₀ : Stream} {left : Measured} (hleft : Reads s₀ left s)
    (hfits : left.tree.Fits (innerLeast nodes))
    (h : chain (expression levels) (innerLeast nodes) fuel left s = .failed e rest) :
    Refuses (expecting nodes) s₀ e rest := by
  induction fuel generalizing left s with
  | zero => cases h
  | succ fuel ihf =>
      simp only [chain] at h
      split at h
      · rename_i p hp
        split at h
        · cases h
        · rename_i hlt
          have hlt : innerLeast nodes < p := Nat.not_le.1 hlt
          rcases Step.bind_eq_failed_iff.1 h with hjoined | ⟨next, mid, hjoined, hchain⟩
          · exact joined_refuses ih hlength hleft hfits hp hlt hjoined
          · obtain ⟨hnext, hprec, _⟩ := joined_reads expression_reads hleft hp hjoined
            have hfitsNext : next.tree.Fits (innerLeast nodes) := by
              intro q hq
              cases Option.some.inj (hprec.symm.trans hq)
              exact hlt
            exact ihf hnext hfitsNext hchain
      · cases h

theorem body_refuses (h : body (expression levels) (innerLeast nodes) s = .failed e rest) :
    Refuses (expecting nodes) s e rest := by
  unfold body at h
  split at h
  · rename_i hassign
    exact assignment_refuses ih hlength hassign.1 hassign.2 h
  · rename_i hassign
    have hname : s.current.kind = .identifier → s.advance.current.kind ≠ .equals :=
      fun hk hequals => hassign ⟨hk, hequals⟩
    rcases Step.bind_eq_failed_iff.1 h with hoperand | ⟨left, mid, hoperand, hchain⟩
    · exact operand_refuses ih hlength hoperand
    · obtain ⟨hleft, hprec⟩ := operand_reads expression_reads hname hoperand
      exact chain_refuses ih hlength hleft (fits_of_precedence?_eq_none hprec) hchain

end

/-- What a refusal of an expression says, inside as many nodes as expressions have been opened. -/
theorem expression_refuses (hlength : nodes.length + levels = maxLevels)
    (h : expression levels (innerLeast nodes) s = .failed e rest) :
    Refuses (expecting nodes) s e rest := by
  induction levels generalizing nodes s e rest with
  | zero =>
      cases h
      have hhigh := add_length_le_fullHeight nodes 1
      refine refuses_here (.tooDeep ?_)
      simp only [PartialTree.height]
      omega
  | succ levels ih => exact body_refuses ih hlength h

/-- What a refusal says of an expression that is in no node. -/
theorem refuses_of_expression_failed (h : expression maxLevels 0 s = .failed e rest) :
    Refuses start s e rest := by
  have hlength : ([] : List OpenNode).length + maxLevels = maxLevels := Nat.zero_add _
  exact expression_refuses hlength h

end Expression

end ExprTree
