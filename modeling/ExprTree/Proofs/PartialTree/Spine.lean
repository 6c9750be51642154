import ExprTree.Proofs.PartialTree.Read

set_option autoImplicit false

/-!
# Trees as partial trees

A tree, seen as a partial tree that has just been read, is its right edge: the open
nodes along the edge, and the operand at the end of it.  A canonical tree is read
from its leaves (`readAll_leaves`) and found again from its edge (`finish?_edge`),
so it is the only canonical tree with these leaves.

With the invariants of reading, this makes partial trees an exact account of the
beginnings of canonical trees: tokens can be read if and only if a canonical tree
starts with them, and then the height of the partial tree is a lower bound for the
height of each such tree.
-/

namespace ExprTree

open OpenNode

namespace Tree

/-- The open nodes along the right edge, the innermost first. -/
def edge : Tree → List OpenNode
  | binary left operator right => right.edge ++ [.operation left operator]
  | unary operator operand => operand.edge ++ [.sign operator]
  | assignment target equals value => value.edge ++ [.assignment target equals]
  | _ => []

/-- The operand at the end of the right edge. -/
def lastOperand : Tree → Tree
  | binary _ _ right => right.lastOperand
  | unary _ operand => operand.lastOperand
  | assignment _ _ value => value.lastOperand
  | tree => tree

/-- The right edge is as high as the tree. -/
theorem fullHeight_edge (tree : Tree) (nodes : List OpenNode) :
    fullHeight (tree.edge ++ nodes) tree.lastOperand.height = fullHeight nodes tree.height := by
  induction tree generalizing nodes with
  | binary left operator right ihl ihr =>
      simp only [edge, lastOperand, List.append_assoc]
      exact ihr _
  | unary operator operand ih =>
      simp only [edge, lastOperand, List.append_assoc]
      exact ih _
  | assignment target equals value iht ihv =>
      simp only [edge, lastOperand, List.append_assoc]
      exact ihv _
  | _ => rfl

/-- A precedence that closes every node of the right edge settles the edge to the tree. -/
theorem settle_edge {p : Nat} {tree : Tree} (nodes : List OpenNode) (hc : tree.Canonical)
    (hp : p ≤ 6) (hprec : ∀ q, tree.precedence? = some q → p ≤ q)
    (hends : tree.EndsInAssignment → p = 0) :
    settle p (tree.edge ++ nodes) tree.lastOperand = settle p nodes tree := by
  induction tree generalizing nodes with
  | binary left operator right ihl ihr =>
      obtain ⟨⟨q, hq, hright, _⟩, _, _, hcr⟩ := hc
      have hpq : p ≤ q := hprec q hq
      have hclosed : (OpenNode.operation left operator).closedBy p = true := by
        simpa [closedBy, least, hq] using hpq
      simp only [edge, lastOperand, List.append_assoc]
      rw [ihr _ hcr (fun r hr => Nat.le_of_lt (Nat.lt_of_le_of_lt hpq (hright r hr))) hends]
      exact settle_cons_of_closedBy nodes right hclosed
  | unary operator operand ih =>
      obtain ⟨hop, hkind, hco⟩ := hc
      have hclosed : (OpenNode.sign operator).closedBy p = true := by
        rcases hop with h | h <;> simpa [closedBy, least, h, Kind.unaryPrecedence?] using hp
      have hnone : ∀ q, operand.precedence? = some q → p ≤ q := by
        intro q hq
        cases operand with
        | binary => exact absurd rfl hkind
        | _ => cases hq
      simp only [edge, lastOperand, List.append_assoc]
      rw [ih _ hco hnone hends]
      exact settle_cons_of_closedBy nodes operand hclosed
  | assignment target equals value iht ihv =>
      obtain ⟨_, _, _, hcv⟩ := hc
      cases hends trivial
      simp only [edge, lastOperand, List.append_assoc]
      rw [ihv _ hcv (fun _ _ => Nat.zero_le _) fun _ => rfl]
      exact settle_cons_of_closedBy nodes value rfl
  | _ => rfl

/-- The end of the text settles the right edge to the tree and nothing more. -/
theorem settle_zero_edge {tree : Tree} (hc : tree.Canonical) (nodes : List OpenNode) :
    settle 0 (tree.edge ++ nodes) tree.lastOperand = settle 0 nodes tree :=
  settle_edge nodes hc (Nat.zero_le _) (fun _ _ => Nat.zero_le _) fun _ => rfl

end Tree

namespace PartialTree

/-! ## What each token does -/

theorem read_operation {nodes : List OpenNode} {operand : Tree} {t : Token} {p : Nat}
    (h : t.kind.binaryPrecedence? = some p) :
    (holding nodes operand).read t = some (operate nodes operand p t) := by
  simp [read, h]

theorem read_group {nodes : List OpenNode} {t : Token} (h : t.kind = .openParen) :
    (expecting nodes).read t = some (expecting (.group t :: nodes)) := by
  simp [read, h]

theorem read_sign {nodes : List OpenNode} {t : Token} (h : t.kind = .plus ∨ t.kind = .minus) :
    (expecting nodes).read t = some (expecting (.sign t :: nodes)) := by
  rcases h with h | h <;> simp [read, h]

theorem read_literal {nodes : List OpenNode} {t : Token}
    (h : t.kind = .number ∨ t.kind = .trueKeyword ∨ t.kind = .falseKeyword) :
    (expecting nodes).read t = some (holding nodes (.literal t t.value)) := by
  rcases h with h | h | h <;> simp [read, h]

theorem read_name {nodes : List OpenNode} {t : Token} (h : t.kind = .identifier) :
    (expecting nodes).read t = some (holding nodes (.name t)) := by
  simp [read, h]

theorem read_equals {nodes : List OpenNode} {name t : Token} (h : t.kind = .equals) :
    (holding nodes (.name name)).read t =
      some (expecting (.assignment (.name name) t :: nodes)) := by
  simp [read, h, Kind.binaryPrecedence?, assign?]

theorem read_closeParen {nodes : List OpenNode} {operand : Tree} {t : Token}
    (h : t.kind = .closeParen) : (holding nodes operand).read t = close? nodes operand t := by
  simp [read, h, Kind.binaryPrecedence?]

/-! ## Reading the leaves of a tree -/

/-- Behind a whole left operand an operator opens a node over that operand. -/
theorem read_operation_edge {nodes : List OpenNode} {left : Tree} {operator : Token} {p : Nat}
    (hp : operator.kind.binaryPrecedence? = some p) (hc : left.Canonical)
    (hprec : ∀ q, left.precedence? = some q → p ≤ q) (hends : ¬ left.EndsInAssignment)
    (hopen : ∀ node ∈ nodes.head?, node.closedBy p = false) :
    (holding (left.edge ++ nodes) left.lastOperand).read operator =
      some (expecting (.operation left operator :: nodes)) := by
  have hle := Kind.binaryPrecedence?_le hp
  rw [read_operation hp, operate,
    Tree.settle_edge nodes hc (by omega) hprec fun h => absurd h hends, settle_of_head left hopen]

/-- Behind a whole expression in a group a parenthesis closes the group. -/
theorem read_closeParen_edge {nodes : List OpenNode} {inner : Tree} {opening t : Token}
    (ht : t.kind = .closeParen) (hc : inner.Canonical) :
    (holding (inner.edge ++ .group opening :: nodes) inner.lastOperand).read t =
      some (holding nodes (.parenthesized opening inner t)) := by
  rw [read_closeParen ht, close?, Tree.settle_zero_edge hc]
  rfl

/-- A node is open to an operator of a precedence that fits its place. -/
theorem closedBy_head_of_lt {p : Nat} {nodes : List OpenNode} (h : innerLeast nodes < p) :
    ∀ node ∈ nodes.head?, node.closedBy p = false := by
  intro node hnode
  cases nodes with
  | nil => cases hnode
  | cons head nodes =>
      cases hnode
      cases node with
      | group opening => rfl
      | _ => exact decide_eq_false (Nat.not_le.2 h)

/-- The leaves of a canonical tree are read to its right edge, wherever the tree fits. -/
theorem readAll_leaves {tree : Tree} (nodes : List OpenNode) (hc : tree.Canonical)
    (hf : tree.Fits (innerLeast nodes)) :
    (expecting nodes).readAll tree.leaves =
      some (holding (tree.edge ++ nodes) tree.lastOperand) := by
  induction tree generalizing nodes with
  | binary left operator right ihl ihr =>
      obtain ⟨⟨p, hp, hright, hleft⟩, hends, hcl, hcr⟩ := hc
      have hlt : innerLeast nodes < p := hf p hp
      have hfl : left.Fits (innerLeast nodes) :=
        fun q hq => Nat.lt_of_lt_of_le hlt (hleft q hq)
      have hfr : right.Fits (innerLeast (.operation left operator :: nodes)) := by
        intro q hq
        simpa [innerLeast, least, hp] using hright q hq
      have hop := read_operation_edge hp hcl hleft hends (closedBy_head_of_lt hlt)
      rw [Tree.leaves, readAll_append_of_eq_some (ihl nodes hcl hfl), readAll_cons, hop,
        Option.bind_some, ihr _ hcr hfr]
      simp [Tree.edge, Tree.lastOperand]
  | unary operator operand ih =>
      obtain ⟨hop, hkind, hco⟩ := hc
      have hfo : operand.Fits (innerLeast (.sign operator :: nodes)) := by
        cases operand with
        | binary => exact absurd rfl hkind
        | _ => exact fits_of_precedence?_eq_none rfl
      rw [Tree.leaves, readAll_cons, read_sign hop, Option.bind_some, ih _ hco hfo]
      simp [Tree.edge, Tree.lastOperand]
  | parenthesized opening expression closing ih =>
      obtain ⟨hopening, hclosing, hce⟩ := hc
      have hfe : expression.Fits (innerLeast (.group opening :: nodes)) := fits_zero expression
      rw [Tree.leaves, readAll_cons, read_group hopening, Option.bind_some,
        readAll_append_of_eq_some (ih _ hce hfe), readAll_cons,
        read_closeParen_edge hclosing hce]
      rfl
  | literal token value =>
      obtain ⟨hkind, hvalue⟩ := hc
      subst hvalue
      rw [Tree.leaves, readAll_cons, read_literal hkind]
      rfl
  | name token =>
      rw [Tree.leaves, readAll_cons, read_name hc]
      rfl
  | assignment target equals value iht ihv =>
      obtain ⟨htarget, hequals, hct, hcv⟩ := hc
      cases target with
      | name token =>
          have hfv : value.Fits (innerLeast (.assignment (.name token) equals :: nodes)) :=
            fits_zero value
          rw [Tree.leaves, Tree.leaves, List.singleton_append, readAll_cons, read_name hct,
            Option.bind_some, readAll_cons, read_equals hequals, Option.bind_some, ihv _ hcv hfv]
          simp [Tree.edge, Tree.lastOperand]
      | _ => cases htarget

/-- The right edge of a canonical tree is finished, and is that tree. -/
theorem finish?_edge {tree : Tree} (hc : tree.Canonical) :
    (holding tree.edge tree.lastOperand).finish? = some tree := by
  have hs := Tree.settle_zero_edge hc []
  rw [List.append_nil] at hs
  simp [finish?, hs, settle]

/-- A canonical tree is read from its leaves and from nothing before or after them. -/
theorem readAll_start_leaves {tree : Tree} (hc : tree.Canonical) :
    start.readAll tree.leaves = some (holding tree.edge tree.lastOperand) := by
  have h := readAll_leaves [] hc (fits_zero tree)
  rwa [List.append_nil] at h

/-- Leaves determine the canonical tree. -/
theorem eq_of_leaves_eq {a b : Tree} (ha : a.Canonical) (hb : b.Canonical)
    (h : a.leaves = b.leaves) : a = b := by
  have hread := readAll_start_leaves ha
  rw [h, readAll_start_leaves hb] at hread
  have hfinish := finish?_edge ha
  rw [← Option.some.inj hread, finish?_edge hb] at hfinish
  exact (Option.some.inj hfinish).symm

/-! ## Beginnings of canonical trees -/

/-- The beginning of a canonical tree is read, and is no higher than the tree. -/
theorem exists_readAll_of_isPrefix {tree : Tree} {ts : List Token} (hc : tree.Canonical)
    (h : ts <+: tree.leaves) : ∃ p, start.readAll ts = some p ∧ p.height ≤ tree.height := by
  obtain ⟨us, hus⟩ := h
  have hread := readAll_start_leaves hc
  rw [← hus, readAll_append, Option.bind_eq_some_iff] at hread
  obtain ⟨p, hp, hrest⟩ := hread
  have hle := height_le_of_readAll hrest
  have hedge := Tree.fullHeight_edge tree []
  rw [List.append_nil] at hedge
  refine ⟨p, hp, Nat.le_trans hle (Nat.le_of_eq ?_)⟩
  exact hedge

/-- A finished partial tree is what its tokens are the leaves of. -/
theorem finish?_eq_some_of_leaves {tree : Tree} {p : PartialTree} (hc : tree.Canonical)
    (h : start.readAll tree.leaves = some p) : p.finish? = some tree := by
  rw [readAll_start_leaves hc] at h
  cases h
  exact finish?_edge hc

end PartialTree

end ExprTree
