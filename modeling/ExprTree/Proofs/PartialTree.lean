import ExprTree.Tree.Canonical

set_option autoImplicit false

/-!
# Partial trees

What has been read of an expression before it is known how it goes on: the nodes
whose last part is still to come, and the operand at hand, if there is one.  A
partial tree takes one token after another and never looks ahead; it puts nodes
together only when a token shows that nothing else can be added to them.

So a partial tree says everything about the tokens behind it: whether a canonical
tree starts with them, which tokens may follow, and how high such a tree is at
least.  This module holds the definitions and what one token preserves.
-/

namespace ExprTree

/-! ## Open nodes -/

/-- A node of which everything before its last part has been read. -/
inductive OpenNode where
  /-- `(` -/
  | group (opening : Token)
  /-- `operator` -/
  | sign (operator : Token)
  /-- `target equals` -/
  | assignment (target : Tree) (equals : Token)
  /-- `left operator` -/
  | operation (left : Tree) (operator : Token)
  deriving DecidableEq, Repr, Inhabited

/-- The precedences that let a tree stand where an expression for a least precedence is due. -/
def Tree.Fits (least : Nat) (tree : Tree) : Prop :=
  ∀ p, tree.precedence? = some p → least < p

namespace OpenNode

/-- The tokens of the node that have been read. -/
def leaves : OpenNode → List Token
  | group opening => [opening]
  | sign operator => [operator]
  | assignment target equals => target.leaves ++ [equals]
  | operation left operator => left.leaves ++ [operator]

/-- The least precedence for which the last part is read. -/
def least : OpenNode → Nat
  | group _ => 0
  | sign operator => operator.kind.unaryPrecedence?.getD 0
  | assignment .. => 0
  | operation _ operator => operator.kind.binaryPrecedence?.getD 0

/-- A parenthesis at no place, to close the groups that are still open. -/
def closing : Token := ⟨.closeParen, .point 0, none, .absent⟩

/-- The node with its last part. -/
def fill (part : Tree) : OpenNode → Tree
  | group opening => .parenthesized opening part closing
  | sign operator => .unary operator part
  | assignment target equals => .assignment target equals part
  | operation left operator => .binary left operator part

/-- The height of the node over a last part that is `height` high. -/
def heightOver (height : Nat) : OpenNode → Nat
  | group _ => height + 1
  | sign _ => height + 1
  | assignment target _ => max target.height height + 1
  | operation left _ => max left.height height + 1

/-- Whether the last part ends where something of precedence `p` follows.  A group ends at its
parenthesis only. -/
def closedBy (p : Nat) : OpenNode → Bool
  | group _ => false
  | node => p ≤ node.least

/-- What `Tree.Canonical` demands of a node before its last part. -/
def Canonical : OpenNode → Prop
  | group opening => opening.kind = .openParen
  | sign operator => operator.kind = .plus ∨ operator.kind = .minus
  | assignment target equals =>
    target.kind = .nameExpression ∧ equals.kind = .equals ∧ target.Canonical
  | operation left operator =>
    (∃ p, operator.kind.binaryPrecedence? = some p ∧
      ∀ q, left.precedence? = some q → p ≤ q) ∧
    ¬ left.EndsInAssignment ∧ left.Canonical

/-- What `Tree.Fits` demands of a node before its last part. -/
def Fits (least : Nat) : OpenNode → Prop
  | operation _ operator => ∀ p, operator.kind.binaryPrecedence? = some p → least < p
  | _ => True

/-! ### Open nodes inside each other, the innermost first -/

/-- The tokens of all nodes, those of the outermost first. -/
def allLeaves (nodes : List OpenNode) : List Token := nodes.reverse.flatMap leaves

/-- The least precedence for which the part inside all nodes is read. -/
def innerLeast : List OpenNode → Nat
  | [] => 0
  | node :: _ => node.least

/-- The height of all nodes over a part that is `height` high. -/
def fullHeight (nodes : List OpenNode) (height : Nat) : Nat :=
  nodes.foldl (fun height node => node.heightOver height) height

/-- Every node is canonical and fits the place that the next one leaves open. -/
def Nested : List OpenNode → Prop
  | [] => True
  | node :: nodes => node.Canonical ∧ node.Fits (innerLeast nodes) ∧ Nested nodes

/-- Fills the innermost nodes with `part`, up to the first that precedence `p` does not close. -/
def settle (p : Nat) : List OpenNode → Tree → List OpenNode × Tree
  | [], part => ([], part)
  | node :: nodes, part =>
    if node.closedBy p then settle p nodes (node.fill part) else (node :: nodes, part)

/-- Fills all nodes. -/
def fillAll (nodes : List OpenNode) (part : Tree) : Tree :=
  nodes.foldl (fun part node => node.fill part) part

/-! ### Leaves and heights of filled nodes -/

@[simp] theorem allLeaves_nil : allLeaves [] = [] := rfl

@[simp] theorem allLeaves_cons (node : OpenNode) (nodes : List OpenNode) :
    allLeaves (node :: nodes) = allLeaves nodes ++ node.leaves := by
  simp [allLeaves]

@[simp] theorem fullHeight_nil (height : Nat) : fullHeight [] height = height := rfl

@[simp] theorem fullHeight_cons (node : OpenNode) (nodes : List OpenNode) (height : Nat) :
    fullHeight (node :: nodes) height = fullHeight nodes (node.heightOver height) := rfl

@[simp] theorem height_fill (node : OpenNode) (part : Tree) :
    (node.fill part).height = node.heightOver part.height := by
  cases node <;> rfl

/-- A node that is closed by a precedence is no group, so filling it adds no leaf. -/
theorem leaves_fill_of_closedBy {node : OpenNode} {p : Nat} (part : Tree)
    (h : node.closedBy p = true) : (node.fill part).leaves = node.leaves ++ part.leaves := by
  cases node with
  | group opening => simp [closedBy] at h
  | sign operator => rfl
  | assignment target equals => simp [fill, Tree.leaves, leaves]
  | operation left operator => simp [fill, Tree.leaves, leaves]

/-- Filling a node puts its last part behind its other leaves. -/
theorem leaves_isPrefix_fill (node : OpenNode) (part : Tree) :
    node.leaves ++ part.leaves <+: (node.fill part).leaves := by
  cases node <;> simp [fill, Tree.leaves, leaves]

theorem heightOver_mono (node : OpenNode) {a b : Nat} (h : a ≤ b) :
    node.heightOver a ≤ node.heightOver b := by
  cases node <;> simp only [heightOver] <;> omega

theorem lt_heightOver (node : OpenNode) (height : Nat) : height < node.heightOver height := by
  cases node <;> simp only [heightOver] <;> omega

theorem fullHeight_mono (nodes : List OpenNode) {a b : Nat} (h : a ≤ b) :
    fullHeight nodes a ≤ fullHeight nodes b := by
  induction nodes generalizing a b with
  | nil => exact h
  | cons node nodes ih => exact ih (node.heightOver_mono h)

/-- Every open node is one level more. -/
theorem add_length_le_fullHeight (nodes : List OpenNode) (height : Nat) :
    height + nodes.length ≤ fullHeight nodes height := by
  induction nodes generalizing height with
  | nil => exact Nat.le_refl _
  | cons node nodes ih =>
      have hlt := node.lt_heightOver height
      have hle := ih (node.heightOver height)
      simp only [List.length_cons, fullHeight_cons]
      omega

/-! ### Canonical nodes filled with canonical parts -/

/-- What is no operation fits everywhere. -/
theorem fits_of_precedence?_eq_none {least : Nat} {tree : Tree} (h : tree.precedence? = none) :
    tree.Fits least := by
  intro p hp
  rw [h] at hp
  cases hp

/-- Every tree fits where any expression is due. -/
theorem fits_zero (tree : Tree) : tree.Fits 0 := by
  intro p hp
  cases tree with
  | binary left operator right => exact Kind.binaryPrecedence?_pos hp
  | _ => cases hp

/-- No operation binds as tightly as a sign. -/
theorem kind_ne_of_fits {least : Nat} {tree : Tree} (hleast : 5 ≤ least) (hc : tree.Canonical)
    (hf : tree.Fits least) : tree.kind ≠ .binaryExpression := by
  cases tree with
  | binary left operator right =>
      obtain ⟨⟨p, hp, _⟩, _⟩ := hc
      have hlt : least < p := hf p hp
      have hle := Kind.binaryPrecedence?_le hp
      omega
  | _ => simp [Tree.kind]

theorem canonical_fill {node : OpenNode} {part : Tree} (hn : node.Canonical)
    (hc : part.Canonical) (hf : part.Fits node.least) : (node.fill part).Canonical := by
  cases node with
  | group opening => exact ⟨hn, rfl, hc⟩
  | sign operator =>
      have hleast : 5 ≤ (OpenNode.sign operator).least := by
        rcases hn with h | h <;> simp [least, h, Kind.unaryPrecedence?]
      exact ⟨hn, kind_ne_of_fits hleast hc hf, hc⟩
  | assignment target equals => exact ⟨hn.1, hn.2.1, hn.2.2, hc⟩
  | operation left operator =>
      obtain ⟨⟨p, hp, hleft⟩, hends, hcl⟩ := hn
      refine ⟨⟨p, hp, ?_, hleft⟩, hends, hcl, hc⟩
      intro q hq
      have hlt := hf q hq
      simpa [least, hp] using hlt

theorem fits_fill {node : OpenNode} {least : Nat} (part : Tree) (h : node.Fits least) :
    (node.fill part).Fits least := by
  cases node with
  | operation left operator => exact h
  | _ => exact fits_of_precedence?_eq_none rfl

/-- Canonical nodes around a canonical part make a canonical tree, which starts with the leaves
of the nodes and of the part. -/
theorem canonical_fillAll {nodes : List OpenNode} {part : Tree} (hn : Nested nodes)
    (hc : part.Canonical) (hf : part.Fits (innerLeast nodes)) :
    (fillAll nodes part).Canonical ∧
      allLeaves nodes ++ part.leaves <+: (fillAll nodes part).leaves := by
  induction nodes generalizing part with
  | nil => exact ⟨hc, by simp [fillAll]⟩
  | cons node nodes ih =>
      obtain ⟨hnode, hfits, hnodes⟩ := hn
      obtain ⟨hcan, hpre⟩ := ih hnodes (canonical_fill hnode hc hf) (fits_fill part hfits)
      refine ⟨hcan, List.IsPrefix.trans ?_ hpre⟩
      rw [allLeaves_cons, List.append_assoc]
      exact (List.prefix_append_right_inj _).2 (leaves_isPrefix_fill node part)

/-! ### Settling -/

theorem settle_cons_of_closedBy {p : Nat} {node : OpenNode} (nodes : List OpenNode) (part : Tree)
    (h : node.closedBy p = true) :
    settle p (node :: nodes) part = settle p nodes (node.fill part) := by
  rw [settle, if_pos h]

theorem settle_of_head {p : Nat} {nodes : List OpenNode} (part : Tree)
    (h : ∀ node ∈ nodes.head?, node.closedBy p = false) : settle p nodes part = (nodes, part) := by
  cases nodes with
  | nil => rfl
  | cons node nodes =>
      have hnode := h node rfl
      simp [settle, hnode]

/-- Settling stops at a node that stays open. -/
theorem closedBy_head_settle (p : Nat) (nodes : List OpenNode) (part : Tree) :
    ∀ node ∈ (settle p nodes part).1.head?, node.closedBy p = false := by
  fun_induction settle p nodes part with
  | case1 part => simp
  | case2 node nodes part h ih => exact ih
  | case3 node nodes part h => simpa using h

/-- Settling keeps the leaves in their order. -/
theorem leaves_settle (p : Nat) (nodes : List OpenNode) (part : Tree) :
    allLeaves (settle p nodes part).1 ++ (settle p nodes part).2.leaves =
      allLeaves nodes ++ part.leaves := by
  fun_induction settle p nodes part with
  | case1 part => rfl
  | case2 node nodes part h ih =>
      rw [ih, leaves_fill_of_closedBy part h, allLeaves_cons, List.append_assoc]
  | case3 node nodes part h => rfl

/-- Settling keeps the height. -/
theorem fullHeight_settle (p : Nat) (nodes : List OpenNode) (part : Tree) :
    fullHeight (settle p nodes part).1 (settle p nodes part).2.height =
      fullHeight nodes part.height := by
  fun_induction settle p nodes part with
  | case1 part => rfl
  | case2 node nodes part h ih => rw [ih, height_fill, fullHeight_cons]
  | case3 node nodes part h => rfl

/-- Settling keeps nodes and part canonical and in their places. -/
theorem canonical_settle (p : Nat) (nodes : List OpenNode) (part : Tree) (hn : Nested nodes)
    (hc : part.Canonical) (hf : part.Fits (innerLeast nodes)) :
    Nested (settle p nodes part).1 ∧ (settle p nodes part).2.Canonical ∧
      (settle p nodes part).2.Fits (innerLeast (settle p nodes part).1) := by
  fun_induction settle p nodes part with
  | case1 part => exact ⟨hn, hc, hf⟩
  | case2 node nodes part h ih =>
      exact ih hn.2.2 (canonical_fill hn.1 hc hf) (fits_fill part hn.2.1)
  | case3 node nodes part h => exact ⟨hn, hc, hf⟩

/-- A node that precedence `p` closes binds at least as tightly. -/
theorem precedence?_fill_of_closedBy {p q : Nat} {node : OpenNode} (part : Tree)
    (h : node.closedBy p = true) (hq : (node.fill part).precedence? = some q) : p ≤ q := by
  cases node with
  | operation left operator =>
      have hop : operator.kind.binaryPrecedence? = some q := hq
      simpa [closedBy, least, hop] using h
  | _ => cases hq

theorem precedence?_settle (p : Nat) (nodes : List OpenNode) (part : Tree)
    (h : ∀ q, part.precedence? = some q → p ≤ q) :
    ∀ q, (settle p nodes part).2.precedence? = some q → p ≤ q := by
  fun_induction settle p nodes part with
  | case1 part => exact h
  | case2 node nodes part hclosed ih =>
      exact ih fun q hq => precedence?_fill_of_closedBy part hclosed hq
  | case3 node nodes part hclosed => exact h

/-- An operator does not close an assignment, so what it settles ends in none. -/
theorem not_endsInAssignment_settle {p : Nat} (hp : 0 < p) (nodes : List OpenNode) (part : Tree)
    (h : ¬ part.EndsInAssignment) : ¬ (settle p nodes part).2.EndsInAssignment := by
  fun_induction settle p nodes part with
  | case1 part => exact h
  | case2 node nodes part hclosed ih =>
      apply ih
      cases node with
      | group opening => simp [closedBy] at hclosed
      | sign operator => exact h
      | assignment target equals =>
          have hle : p ≤ 0 := of_decide_eq_true hclosed
          omega
      | operation left operator => exact h
  | case3 node nodes part hclosed => exact h

end OpenNode

/-! ## Partial trees -/

/-- What has been read of an expression. -/
inductive PartialTree where
  /-- An operand is due inside the nodes. -/
  | expecting (nodes : List OpenNode)
  /-- An operand has been read inside the nodes. -/
  | holding (nodes : List OpenNode) (operand : Tree)
  deriving DecidableEq, Repr, Inhabited

namespace PartialTree

open OpenNode

/-- The partial tree of which nothing has been read. -/
def start : PartialTree := expecting []

/-- The partial tree after an operator of precedence `p`. -/
def operate (nodes : List OpenNode) (operand : Tree) (p : Nat) (operator : Token) : PartialTree :=
  let (outer, left) := settle p nodes operand
  expecting (.operation left operator :: outer)

/-- The partial tree after a closing parenthesis, if a group is open. -/
def close? (nodes : List OpenNode) (operand : Tree) (closing : Token) : Option PartialTree :=
  match settle 0 nodes operand with
  | (.group opening :: outer, inner) => some (holding outer (.parenthesized opening inner closing))
  | _ => none

/-- The partial tree after an equals sign, if a name is before it. -/
def assign? (nodes : List OpenNode) (operand : Tree) (equals : Token) : Option PartialTree :=
  match operand with
  | .name name => some (expecting (.assignment (.name name) equals :: nodes))
  | _ => none

/-- The partial tree after one more token, if the token may follow. -/
def read : PartialTree → Token → Option PartialTree
  | expecting nodes, t =>
    match t.kind with
    | .openParen => some (expecting (.group t :: nodes))
    | .plus | .minus => some (expecting (.sign t :: nodes))
    | .number | .trueKeyword | .falseKeyword => some (holding nodes (.literal t t.value))
    | .identifier => some (holding nodes (.name t))
    | _ => none
  | holding nodes operand, t =>
    match t.kind.binaryPrecedence? with
    | some p => some (operate nodes operand p t)
    | none =>
      match t.kind with
      | .equals => assign? nodes operand t
      | .closeParen => close? nodes operand t
      | _ => none

/-- The partial tree after more tokens, if they may follow one another. -/
def readAll (p : PartialTree) (ts : List Token) : Option PartialTree := ts.foldlM read p

/-- The tree, if nothing is missing. -/
def finish? : PartialTree → Option Tree
  | expecting _ => none
  | holding nodes operand =>
    match settle 0 nodes operand with
    | ([], tree) => some tree
    | _ => none

/-- The tokens that have been read. -/
def leaves : PartialTree → List Token
  | expecting nodes => allLeaves nodes
  | holding nodes operand => allLeaves nodes ++ operand.leaves

/-- The height of the least tree that the partial tree can become. -/
def height : PartialTree → Nat
  | expecting nodes => fullHeight nodes 1
  | holding nodes operand => fullHeight nodes operand.height

/-- The nodes are canonical, and so is the operand, which is neither an operation nor the end of
an assignment. -/
def Canonical : PartialTree → Prop
  | expecting nodes => Nested nodes
  | holding nodes operand =>
    Nested nodes ∧ operand.Canonical ∧ operand.precedence? = none ∧ ¬ operand.EndsInAssignment

end PartialTree

end ExprTree
