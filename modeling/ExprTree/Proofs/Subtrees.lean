import ExprTree.Proofs.Relabelling
import ExprTree.Proofs.Slices

set_option autoImplicit false

/-!
# The trees in a tree

Every tree in a tree is what its own slice of the source is read to
(`read_strict_slice`): its leaves are a stretch of the leaves around it, its span
goes from the first of them to the last, and what was read there for a higher
precedence and under other nodes is read alike for the least one and under none.
-/

namespace ExprTree

namespace Tree

/-! ## From a node to its children -/

/-- The nodes directly below a node. -/
theorem node_mem_children_iff {tree part : Tree} :
    .node part ∈ tree.children ↔
      match tree with
      | binary left _ right => part = left ∨ part = right
      | unary _ operand => part = operand
      | parenthesized _ expression _ => part = expression
      | literal .. => False
      | name .. => False
      | assignment target _ value => part = target ∨ part = value := by
  cases tree <;> simp [children]

/-- What holds of a tree and passes to the nodes directly below holds of all trees in it. -/
theorem subtrees_induction {P : Tree → Prop} {tree : Tree}
    (child : ∀ tree part : Tree, .node part ∈ tree.children → P tree → P part)
    (root : P tree) : ∀ part ∈ tree.subtrees, P part := by
  induction tree with
  | binary left operator right ihl ihr =>
      have hl := ihl (child _ left (node_mem_children_iff.2 (Or.inl rfl)) root)
      have hr := ihr (child _ right (node_mem_children_iff.2 (Or.inr rfl)) root)
      rw [subtrees, List.forall_mem_cons, List.forall_mem_append]
      exact ⟨root, hl, hr⟩
  | unary operator operand ih =>
      have ho := ih (child _ operand (node_mem_children_iff.2 rfl) root)
      rw [subtrees, List.forall_mem_cons]
      exact ⟨root, ho⟩
  | parenthesized opening expression closing ih =>
      have he := ih (child _ expression (node_mem_children_iff.2 rfl) root)
      rw [subtrees, List.forall_mem_cons]
      exact ⟨root, he⟩
  | literal token value =>
      rw [subtrees, List.forall_mem_singleton]
      exact root
  | name token =>
      rw [subtrees, List.forall_mem_singleton]
      exact root
  | assignment target equals value iht ihv =>
      have ht := iht (child _ target (node_mem_children_iff.2 (Or.inl rfl)) root)
      have hv := ihv (child _ value (node_mem_children_iff.2 (Or.inr rfl)) root)
      rw [subtrees, List.forall_mem_cons, List.forall_mem_append]
      exact ⟨root, ht, hv⟩

theorem canonical_of_child {tree part : Tree} (h : .node part ∈ tree.children)
    (hc : tree.Canonical) : part.Canonical := by
  rw [node_mem_children_iff] at h
  cases tree with
  | binary left operator right =>
      obtain ⟨_, _, hleft, hright⟩ := hc
      rcases h with rfl | rfl
      · exact hleft
      · exact hright
  | unary operator operand =>
      cases h
      exact hc.2.2
  | parenthesized opening expression closing =>
      cases h
      exact hc.2.2
  | literal token value => cases h
  | name token => cases h
  | assignment target equals value =>
      obtain ⟨_, _, htarget, hvalue⟩ := hc
      rcases h with rfl | rfl
      · exact htarget
      · exact hvalue

theorem height_lt_of_child {tree part : Tree} (h : .node part ∈ tree.children) :
    part.height < tree.height := by
  rw [node_mem_children_iff] at h
  cases tree with
  | binary left operator right =>
      rw [height]
      rcases h with rfl | rfl <;> omega
  | unary operator operand =>
      cases h
      exact Nat.lt_succ_self _
  | parenthesized opening expression closing =>
      cases h
      exact Nat.lt_succ_self _
  | literal token value => cases h
  | name token => cases h
  | assignment target equals value =>
      rw [height]
      rcases h with rfl | rfl <;> omega

/-- What holds of a tree if it holds of the nodes directly below holds of all trees. -/
theorem children_induction {P : Tree → Prop}
    (node : ∀ tree, (∀ part, .node part ∈ tree.children → P part) → P tree) (tree : Tree) :
    P tree := by
  obtain ⟨n, hn⟩ : ∃ n, tree.height < n := ⟨_, Nat.lt_succ_self _⟩
  induction n generalizing tree with
  | zero => exact absurd hn (Nat.not_lt_zero _)
  | succ n ih =>
      apply node
      intro part hpart
      have hlt := height_lt_of_child hpart
      exact ih part (by omega)

/-- The leaves of a child, be it a node or a token, are a stretch of the leaves. -/
theorem leaves_isInfix_of_child {tree : Tree} {e : Element} (h : e ∈ tree.children) :
    e.leaves <:+: tree.leaves := by
  rw [tree.leaves_eq_children, List.flatMap_def]
  apply List.infix_of_mem_flatten
  exact List.mem_map_of_mem h

theorem canonical_of_mem_subtrees {tree : Tree} (hc : tree.Canonical) :
    ∀ part ∈ tree.subtrees, part.Canonical := by
  refine subtrees_induction ?_ hc
  intro above part h
  exact canonical_of_child h

theorem height_le_of_mem_subtrees (tree : Tree) :
    ∀ part ∈ tree.subtrees, part.height ≤ tree.height := by
  refine subtrees_induction (P := fun part => part.height ≤ tree.height) ?_ (Nat.le_refl _)
  intro above part h hle
  exact Nat.le_trans (Nat.le_of_lt (height_lt_of_child h)) hle

theorem leaves_isInfix_of_mem_subtrees (tree : Tree) :
    ∀ part ∈ tree.subtrees, part.leaves <:+: tree.leaves := by
  refine subtrees_induction (P := fun part => part.leaves <:+: tree.leaves) ?_ (List.infix_refl _)
  intro above part h hinfix
  exact (leaves_isInfix_of_child h).trans hinfix

/-! ## The span of a tree -/

/-- The first token of the tree. -/
def firstLeaf : Tree → Token
  | binary left _ _ => left.firstLeaf
  | unary operator _ => operator
  | parenthesized opening _ _ => opening
  | literal token _ => token
  | name token => token
  | assignment target _ _ => target.firstLeaf

/-- The last token of the tree. -/
def lastLeaf : Tree → Token
  | binary _ _ right => right.lastLeaf
  | unary _ operand => operand.lastLeaf
  | parenthesized _ _ closing => closing
  | literal token _ => token
  | name token => token
  | assignment _ _ value => value.lastLeaf

theorem head?_leaves (tree : Tree) : tree.leaves.head? = some tree.firstLeaf := by
  induction tree <;> simp_all [leaves, firstLeaf]

theorem getLast?_leaves (tree : Tree) : tree.leaves.getLast? = some tree.lastLeaf := by
  induction tree <;> simp_all [leaves, lastLeaf, List.getLast?_append, List.getLast?_cons]

theorem firstLeaf_mem (tree : Tree) : tree.firstLeaf ∈ tree.leaves :=
  List.mem_of_head? tree.head?_leaves

theorem lastLeaf_mem (tree : Tree) : tree.lastLeaf ∈ tree.leaves :=
  List.mem_of_getLast? tree.getLast?_leaves

/-- Over tokens that stand one after another, a tree spans them from the first to the last. -/
theorem span_eq_of_ordered {tree : Tree} (h : Token.Ordered tree.leaves) :
    tree.span = ⟨tree.firstLeaf.span.start, tree.lastLeaf.span.stop⟩ := by
  induction tree with
  | binary left operator right ihl ihr =>
      have hl := ihl (h.of_sublist (List.sublist_append_left _ _))
      have hr := ihr (h.of_sublist ((List.sublist_cons_self _ _).trans (List.sublist_append_right _ _)))
      rw [span, hl, hr]
      exact h.hull_eq left.firstLeaf_mem left.lastLeaf_mem
        (List.mem_cons_of_mem _ right.firstLeaf_mem) (List.mem_cons_of_mem _ right.lastLeaf_mem)
  | unary operator operand ih =>
      rw [leaves, ← List.singleton_append] at h
      rw [span, ih (h.of_sublist (List.sublist_append_right _ _))]
      exact h.hull_eq (List.mem_singleton_self _) (List.mem_singleton_self _)
        operand.firstLeaf_mem operand.lastLeaf_mem
  | parenthesized opening expression closing _ =>
      rw [leaves, ← List.singleton_append] at h
      exact h.hull_eq (List.mem_singleton_self _) (List.mem_singleton_self _)
        (List.mem_append_right _ (List.mem_singleton_self _))
        (List.mem_append_right _ (List.mem_singleton_self _))
  | literal token value => rfl
  | name token => rfl
  | assignment target equals value iht ihv =>
      have ht := iht (h.of_sublist (List.sublist_append_left _ _))
      have hv := ihv (h.of_sublist ((List.sublist_cons_self _ _).trans (List.sublist_append_right _ _)))
      rw [span, ht, hv]
      exact h.hull_eq target.firstLeaf_mem target.lastLeaf_mem
        (List.mem_cons_of_mem _ value.firstLeaf_mem) (List.mem_cons_of_mem _ value.lastLeaf_mem)

end Tree

/-! ## Slices of subtrees -/

/-- Every tree in the tree of a source has a slice of the source for its span, and a strict reader
gives for that slice the same tree, only with all spans counted from the start of the slice. -/
theorem read_strict_slice (mode : Mode) (source : String) (tree : Tree)
    (h : Tree.read mode source = .ok tree) :
    ∀ part ∈ tree.subtrees,
      part.span.OnCharacters source ∧
      ∃ (slice : String) (alone : Tree),
        slice.toByteArray = part.span.bytes source ∧
        Tree.read .strict slice = .ok alone ∧
        alone.shift part.span.start = part := by
  intro part hpart
  obtain ⟨s, found, rest, hs, hr, rfl, _⟩ := Tree.reads_of_read_eq_ok h
  have hc := Tree.canonical_of_mem_subtrees hr.canonical part hpart
  have hheight := Nat.le_trans (Tree.height_le_of_mem_subtrees found.tree part hpart) hr.height_le
  -- The leaves of the part are a stretch of the tokens ahead.
  obtain ⟨before, after, hleaves⟩ := Tree.leaves_isInfix_of_mem_subtrees found.tree part hpart
  have hahead : s.ahead = before ++ part.leaves ++ (after ++ rest.ahead) := by
    rw [hr.ahead_eq, ← hleaves, List.append_assoc _ after]
  have hordered : Token.Ordered part.leaves := by
    apply (Stream.ordered_ahead hs).of_sublist
    rw [hahead]
    exact (List.sublist_append_right _ _).trans (List.sublist_append_left _ _)
  obtain ⟨slice, ts, hcharacters, hbytes, hslice, hts⟩ :=
    Stream.exists_slice hs hahead part.head?_leaves part.getLast?_leaves
  rw [Tree.span_eq_of_ordered hordered]
  refine ⟨hcharacters, slice, ?_⟩
  -- The tokens of the slice are the leaves of the same tree, moved to its start.
  have hmap : ts.map (Token.shift part.firstLeaf.span.start) = part.leaves.map id := by
    rw [hts, List.map_id]
  obtain ⟨alone, halone, rfl, hsame, hshift⟩ :=
    Tree.exists_over_leaves (Token.keeps_shift _) Token.keeps_id hc hmap
  refine ⟨alone, hbytes, Tree.read_strict_of_leaves hslice halone (hsame ▸ hheight), ?_⟩
  rw [Tree.mapTokens_id] at hshift
  exact hshift

/-- The sum in parentheses, which stand behind a name of two bytes, is read from its slice as it is
under the product. -/
theorem read_strict_slice_of_group :
    ∃ tree part : Tree, Tree.read .lenient "é*(-x+2) 7" = .ok tree ∧ part ∈ tree.subtrees ∧
      part.span = ⟨4, 8⟩ ∧ ∃ (slice : String) (alone : Tree),
        slice.toByteArray = (⟨4, 8⟩ : Span).bytes "é*(-x+2) 7" ∧
        Tree.read .strict slice = .ok alone ∧ alone.shift 4 = part := by
  let part : Tree :=
    .binary
      (.unary ⟨.minus, ⟨4, 5⟩, none, .absent⟩
        (.name ⟨.identifier, ⟨5, 6⟩, some "x", .text "x"⟩))
      ⟨.plus, ⟨6, 7⟩, none, .absent⟩
      (.literal ⟨.number, ⟨7, 8⟩, some "2", .int 2⟩ (.int 2))
  let tree : Tree :=
    .binary (.name ⟨.identifier, ⟨0, 2⟩, some "é", .text "é"⟩) ⟨.star, ⟨2, 3⟩, none, .absent⟩
      (.parenthesized ⟨.openParen, ⟨3, 4⟩, none, .absent⟩ part
        ⟨.closeParen, ⟨8, 9⟩, none, .absent⟩)
  have hread : Tree.read .lenient "é*(-x+2) 7" = .ok tree := by rfl
  have hpart : part ∈ tree.subtrees := by decide
  obtain ⟨_, slice, alone, hbytes, halone, hshift⟩ :=
    read_strict_slice .lenient "é*(-x+2) 7" tree hread part hpart
  exact ⟨tree, part, hread, hpart, rfl, slice, alone, hbytes, halone, hshift⟩

end ExprTree
