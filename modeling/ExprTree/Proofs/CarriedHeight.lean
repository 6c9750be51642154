import ExprTree.Proofs.Attribution
import ExprTree.Proofs.Cursors
import ExprTree.Proofs.Subtrees

set_option autoImplicit false

/-!
# The height that is carried along

Reading a tree carries a number up with it, which is compared to the bound and raised by
one at each node.  It is the height of the tree, whatever is read and wherever reading
starts; and the height of a tree is how deep the walk goes below the root.  So the
deepest line of an outline is indented by as many levels as the number says, and no line
of an accepted tree by more than the bound (`carried_height_exact`).
-/

namespace ExprTree

/-! ## How deep a tree is -/

namespace Tree

/-- A tree is higher than each of its children, and by one than the highest of them, a token being
no level high. -/
theorem height_lt_of_mem_children {tree : Tree} {e : Element} (h : e ∈ tree.children) :
    e.height < tree.height := by
  cases e with
  | node part => exact height_lt_of_child h
  | token t => exact tree.height_pos

theorem exists_highest_child (tree : Tree) : ∃ e ∈ tree.children, e.height + 1 = tree.height := by
  cases tree with
  | binary left operator right =>
      rcases Nat.le_total left.height right.height with hle | hle
      · exact ⟨.node right, by simp [children], by rw [height, Nat.max_eq_right hle, Element.height]⟩
      · exact ⟨.node left, by simp [children], by rw [height, Nat.max_eq_left hle, Element.height]⟩
  | unary operator operand => exact ⟨.node operand, by simp [children], rfl⟩
  | parenthesized opening expression closing => exact ⟨.node expression, by simp [children], rfl⟩
  | literal token value => exact ⟨.token token, by simp [children], rfl⟩
  | name token => exact ⟨.token token, by simp [children], rfl⟩
  | assignment target equals value =>
      rcases Nat.le_total target.height value.height with hle | hle
      · exact ⟨.node value, by simp [children], by rw [height, Nat.max_eq_right hle, Element.height]⟩
      · exact ⟨.node target, by simp [children], by rw [height, Nat.max_eq_left hle, Element.height]⟩

/-- No element is deeper below the root than the tree is high. -/
theorem depth_le_of_mem_walk (tree : Tree) :
    ∀ depth, ∀ x ∈ tree.walk depth, x.1 ≤ depth + tree.height := by
  induction tree using children_induction with
  | node tree ih =>
      intro depth x hx
      rw [walk_eq_children, List.mem_cons, List.mem_flatMap] at hx
      rcases hx with rfl | ⟨e, he, hx⟩
      · exact Nat.le_add_right _ _
      · have hlt := height_lt_of_mem_children he
        cases e with
        | node part =>
            have hle := ih part he (depth + 1) x hx
            rw [Element.height] at hlt
            omega
        | token t =>
            cases List.mem_singleton.1 hx
            have hpos := tree.height_pos
            dsimp only
            omega

/-- Some element is as deep. -/
theorem exists_deepest (tree : Tree) : ∀ depth, ∃ x ∈ tree.walk depth, x.1 = depth + tree.height := by
  induction tree using children_induction with
  | node tree ih =>
      intro depth
      obtain ⟨e, he, hheight⟩ := tree.exists_highest_child
      have hbelow : ∃ x ∈ e.walk (depth + 1), x.1 = depth + 1 + e.height := by
        cases e with
        | node part => exact ih part he (depth + 1)
        | token t => exact ⟨_, List.mem_singleton.2 rfl, rfl⟩
      obtain ⟨x, hx, hdepth⟩ := hbelow
      refine ⟨x, ?_, by omega⟩
      rw [walk_eq_children]
      exact List.mem_cons_of_mem _ (List.mem_flatMap.2 ⟨e, he, hx⟩)

end Tree

namespace Outline

/-- How many spaces a line starts with. -/
def indentOf (line : String) : Nat := (line.toList.takeWhile fun c => c = ' ').length

theorem indentOf_bareLine (depth : Nat) {label : String} (h : Text.Unspaced label) :
    indentOf (bareLine depth label) = indent * depth := by
  have hspaces : ∀ c ∈ List.replicate (indent * depth) ' ', decide (c = ' ') = true :=
    fun c hc => decide_eq_true (List.eq_of_mem_replicate hc)
  have hstop : ∀ c ∈ label.toList.head?, decide (c = ' ') = false := by
    intro c hc
    apply decide_eq_false
    rintro rfl
    exact h.not_space (List.mem_of_mem_head? hc)
  rw [indentOf, bareLine, String.toList_append, String.toList_ofList,
    (Text.stretch_append hspaces hstop).1, List.length_replicate]

end Outline

/-- Whether the number that is carried along with a tree says how high it is and how deep the walk
and the outline go, and is within the bound. -/
structure Measured.Exact (m : Measured) : Prop where
  height_eq : m.height = m.tree.height
  one_le : 1 ≤ m.height
  le_maxLevels : m.height ≤ 128
  /-- The deepest element of the walk is as far below the root. -/
  depth_le : ∀ x ∈ m.tree.walk 0, x.1 ≤ m.height
  exists_depth_eq : ∃ x ∈ m.tree.walk 0, x.1 = m.height
  /-- The deepest line of the outline is indented by four spaces for each level. -/
  madeOf_outline : Text.MadeOf m.tree.outlineLines m.tree.outline
  indent_le : ∀ line ∈ m.tree.outlineLines, Outline.indentOf line ≤ 4 * m.height
  exists_indent_eq : ∃ line ∈ m.tree.outlineLines, Outline.indentOf line = 4 * m.height

theorem Measured.exact_of_height_eq {m : Measured} (hheight : m.height = m.tree.height)
    (hle : m.height ≤ maxLevels) (hmarks : ∀ x ∈ m.tree.marks 0, Text.Unspaced x.2) :
    m.Exact := by
  have hindent : ∀ x ∈ m.tree.marks 0, Outline.indentOf (Outline.bareLine x.1 x.2) = 4 * x.1 :=
    fun x hx => Outline.indentOf_bareLine x.1 (hmarks x hx)
  have hdepth := m.tree.depth_le_of_mem_walk 0
  obtain ⟨⟨depth, e⟩, hmem, hdeepest⟩ := m.tree.exists_deepest 0
  rw [Nat.zero_add, ← hheight] at hdepth hdeepest
  have hmark : (depth, e.label) ∈ m.tree.marks 0 := List.mem_map.2 ⟨(depth, e), hmem, rfl⟩
  constructor
  case height_eq => exact hheight
  case one_le =>
    rw [hheight]
    exact m.tree.height_pos
  case le_maxLevels => exact hle
  case depth_le => exact hdepth
  case exists_depth_eq => exact ⟨_, hmem, hdeepest⟩
  case madeOf_outline => exact Tree.madeOf_outlineLines hmarks
  case indent_le =>
    rw [Tree.outlineLines, List.forall_mem_map]
    intro x hx
    rw [hindent x hx]
    obtain ⟨y, hy, rfl⟩ := List.mem_map.1 hx
    exact Nat.mul_le_mul_left 4 (hdepth y hy)
  case exists_indent_eq =>
    refine ⟨Outline.bareLine depth e.label, List.mem_map.2 ⟨_, hmark, rfl⟩, ?_⟩
    rw [hindent _ hmark]
    exact congrArg (4 * ·) hdeepest

/-! ## What is carried along -/

namespace Expression

/-- What reading amounts to as far as heights go, wherever it starts. -/
structure Carries (s : Stream) (found : Measured) (rest : Stream) : Prop where
  /-- The tokens read are the leaves. -/
  ahead_eq : s.ahead = found.tree.leaves ++ rest.ahead
  height_eq : found.height = found.tree.height
  height_le : found.height ≤ maxLevels

variable {s rest : Stream} {found : Measured} {levels : Nat}

theorem Reads.carries (h : Reads s found rest) : Carries s found rest :=
  ⟨h.ahead_eq, h.height_eq, h.height_eq ▸ h.height_le⟩

/-- A name is carried like any other primary, whatever follows it. -/
theorem primary_carries (h : primary (ExprTree.expression levels) s = .done found rest) :
    Carries s found rest := by
  by_cases hname : s.current.kind = .identifier
  · rw [primary_of_identifier hname] at h
    cases h
    exact ⟨ahead_eq_of_kind_eq hname (by decide), rfl, one_le_maxLevels⟩
  · exact (primary_reads expression_reads (fun hkind => absurd hkind hname) h).1.carries

/-- The target of an assignment may be any primary here. -/
theorem assignment_carries (h : assignment (ExprTree.expression levels) s = .done found rest) :
    Carries s found rest := by
  simp only [assignment, Step.bind_eq_done_iff, Step.pure_apply, Outcome.done.injEq,
    Step.expect_eq_done_iff, nest_eq_done_iff] at h
  obtain ⟨target, mid, htarget, _, _, ⟨hequals, rfl, rfl⟩, value, _, hvalue, _, _,
    ⟨hlt, rfl, rfl⟩, rfl, rfl⟩ := h
  have ht := primary_carries htarget
  have hv := (expression_reads hvalue).carries
  constructor
  case ahead_eq =>
    rw [ht.ahead_eq, ahead_eq_of_kind_eq hequals (by decide), hv.ahead_eq]
    simp [Tree.leaves]
  case height_eq => rw [Tree.height, ht.height_eq, hv.height_eq]
  case height_le => exact hlt

end Expression

/-! ## All that reads a tree -/

/-- What reads a tree and carries its height along. -/
inductive Phrase where
  /-- An expression for a least precedence. -/
  | expression (least : Nat)
  /-- The same once it is counted as one that is being read. -/
  | operators (least : Nat)
  | assignment
  | primary
  deriving DecidableEq, Repr, Inhabited

namespace Phrase

/-- Reads the phrase from a stream, where `levels` more expressions may be read inside each
other. -/
def step (levels : Nat) : Phrase → Step Measured
  | expression least => ExprTree.expression levels least
  | operators least => Expression.body (ExprTree.expression levels) least
  | assignment => Expression.assignment (ExprTree.expression levels)
  | primary => Expression.primary (ExprTree.expression levels)

/-- Reads the phrase with a cursor. -/
def move (levels : Nat) : Phrase → Move Measured
  | expression least => Move.expression (levels + 1) least
  | operators least => Move.body (Move.expression (levels + 1)) least
  | assignment => Move.assignment (Move.expression (levels + 1))
  | primary => Move.primary (Move.expression (levels + 1))

theorem simulates (levels : Nat) (phrase : Phrase) :
    Move.Simulates levels (phrase.move levels) (phrase.step levels) := by
  have hsub := Move.simulates_expression levels
  cases phrase with
  | expression least => exact hsub least
  | operators least => exact Move.simulates_body hsub least
  | assignment => exact Move.simulates_assignment hsub
  | primary => exact Move.simulates_primary hsub

theorem carries {levels : Nat} {phrase : Phrase} {s rest : Stream} {found : Measured}
    (h : phrase.step levels s = .done found rest) : Expression.Carries s found rest := by
  cases phrase with
  | expression least => exact (Expression.expression_reads h).carries
  | operators least => exact (Expression.body_reads Expression.expression_reads h).carries
  | assignment => exact Expression.assignment_carries h
  | primary => exact Expression.primary_carries h

/-- What is read from tokens of a source carries its exact height. -/
theorem exact_of_step {source : String} {stream : Stream} (hstream : Stream.ofString source = .ok stream)
    {levels : Nat} {phrase : Phrase} {s rest : Stream} {found : Measured}
    (hs : ∀ t ∈ s.ahead, t ∈ stream.ahead) (h : phrase.step levels s = .done found rest) :
    found.Exact := by
  have hcarries := carries h
  apply Measured.exact_of_height_eq hcarries.height_eq hcarries.height_le
  apply Tree.unspaced_marks_of_solid
  intro t ht
  apply Stream.exists_solid_of_mem hstream t
  apply hs
  rw [hcarries.ahead_eq]
  exact List.mem_append_left _ ht

end Phrase

/-! ## Wherever reading starts -/

/-- Whether a cursor stands in a source, with no more expressions being read than may be. -/
structure Cursor.Over (c : Cursor) (source : String) : Prop where
  tokens_eq : c.tokens = Token.significant source
  position_lt : c.position < c.tokens.length
  depth_le : c.depth ≤ maxLevels

namespace Cursor

variable {c c' : Cursor} {source : String} {s stream : Stream}

theorem Over.exists_shows (h : c.Over source) (hstream : Stream.ofString source = .ok stream) :
    ∃ s, c.Shows s ∧ ∀ t ∈ s.ahead, t ∈ stream.ahead := by
  obtain ⟨_, _, htokens⟩ := Stream.ofString_eq_ok_iff.1 hstream
  have hlt := h.position_lt
  rw [h.tokens_eq, htokens, List.length_append, List.length_singleton] at hlt
  refine ⟨⟨stream.ahead.drop c.position, stream.finish⟩, ?_, fun t => List.mem_of_mem_drop⟩
  rw [Shows, h.tokens_eq, htokens]
  exact List.drop_append_of_le_length (Nat.le_of_lt_succ hlt)

theorem Over.of_reaches (h : c.Over source) (hreaches : c.Reaches c' s) : c'.Over source where
  tokens_eq := hreaches.tokens_eq.trans h.tokens_eq
  position_lt := by
    have hlength := hreaches.shows.length_eq
    omega
  depth_le := hreaches.depth_eq ▸ h.depth_le

end Cursor

/-- Wherever a cursor stands in a source with valid tokens, reading an expression for any least
precedence, whether it is counted already or not, an assignment or a primary comes to an end in the
source, as it does on the stream that the cursor shows.  The number that comes with a tree is its
height, at most 128, and that is how deep the walk goes and how far the outline is indented.  The
same holds of the tree and the number of levels that a reader of the source comes to. -/
theorem carried_height_exact {mode : Mode} {source : String} {r : Reader}
    (h : Reader.ofString mode source = .ok r) :
    (∀ c : Cursor, c.Over source → ∀ phrase : Phrase, ∃ s result c',
      c.Shows s ∧ phrase.move (maxLevels - c.depth) c = .ok (result, c') ∧ c'.Over source ∧
        (phrase.step (maxLevels - c.depth) s).result = result ∧
        ∀ found, result = .ok found → found.Exact) ∧
    ∀ tree, r.read.1.result = .ok tree →
      ∃ height, r.read.1.levels = some height ∧ (Measured.mk tree height).Exact := by
  obtain ⟨stream, hs, rfl⟩ := Reader.exists_stream_of_ofString h
  constructor
  · intro c hc phrase
    obtain ⟨s, hshows, hmem⟩ := hc.exists_shows hs
    obtain ⟨c', hmove, hreaches⟩ := phrase.simulates (maxLevels - c.depth) c s
      (Nat.add_sub_cancel' hc.depth_le) hshows
    refine ⟨s, _, c', hshows, hmove, hc.of_reaches hreaches, rfl, ?_⟩
    intro found hfound
    cases hstep : phrase.step (maxLevels - c.depth) s with
    | failed e rest =>
        rw [hstep] at hfound
        cases hfound
    | done carried rest =>
        rw [hstep] at hfound
        cases hfound
        exact Phrase.exact_of_step hs hmem hstep
  · intro tree htree
    obtain ⟨height, rest, hread, hlevels⟩ := Reader.levels_of_read_eq_ok htree
    have hstep : (Phrase.expression 0).step maxLevels stream = .done ⟨tree, height⟩ rest := hread
    exact ⟨height, hlevels, Phrase.exact_of_step hs (fun t ht => ht) hstep⟩

/-- An assignment of a sum in parentheses under a sign: what the sign stands before has three levels,
and all together has five. -/
theorem carried_height_exact_of_sign :
    (∃ found c', Move.expression 127 6 ⟨Token.significant "a = -(1 + b)", 3, 2⟩ =
      .ok (.ok found, c') ∧ found.height = 3 ∧ found.Exact) ∧
    ∃ tree, Tree.read .strict "a = -(1 + b)" = .ok tree ∧ (Measured.mk tree 5).Exact := by
  have h : Reader.ofString .strict "a = -(1 + b)" = .ok ⟨.strict,
      [⟨.identifier, ⟨0, 1⟩, some "a", .text "a"⟩, ⟨.equals, ⟨2, 3⟩, none, .absent⟩,
        ⟨.minus, ⟨4, 5⟩, none, .absent⟩, ⟨.openParen, ⟨5, 6⟩, none, .absent⟩,
        ⟨.number, ⟨6, 7⟩, some "1", .int 1⟩, ⟨.plus, ⟨8, 9⟩, none, .absent⟩,
        ⟨.identifier, ⟨10, 11⟩, some "b", .text "b"⟩, ⟨.closeParen, ⟨11, 12⟩, none, .absent⟩],
      12⟩ := by rfl
  obtain ⟨hphrases, htrees⟩ := carried_height_exact h
  constructor
  · have hover : Cursor.Over ⟨Token.significant "a = -(1 + b)", 3, 2⟩ "a = -(1 + b)" :=
      ⟨rfl, by decide +kernel, by decide⟩
    obtain ⟨_, _, _, _, hmove, _, _, hexact⟩ := hphrases _ hover (.expression 6)
    obtain ⟨found, c', hrun, hheight⟩ : ∃ found c',
        Move.expression 127 6 ⟨Token.significant "a = -(1 + b)", 3, 2⟩ = .ok (.ok found, c') ∧
          found.height = 3 := ⟨_, _, rfl, rfl⟩
    have hsame := hmove.symm.trans hrun
    rw [Except.ok.injEq, Prod.mk.injEq] at hsame
    exact ⟨found, c', hrun, hheight, hexact found hsame.1⟩
  · obtain ⟨height, hlevels, hexact⟩ := htrees _ rfl
    cases hlevels
    exact ⟨_, rfl, hexact⟩

end ExprTree
