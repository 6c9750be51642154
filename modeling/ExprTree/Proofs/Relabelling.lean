import ExprTree.Proofs.Acceptance
import ExprTree.Tree.Relabel

set_option autoImplicit false

/-!
# Trees over other tokens

The grouping of a tree looks at the kinds of its tokens, and a literal mirrors the
value of its token.  A change of tokens that keeps both keeps the tree canonical, and
the same tree stands over any tokens that the change makes the same: what has its
leaves' kinds and values is the leaves of a tree with its form
(`Tree.exists_over_leaves`), and a strict reader gives that tree.
-/

namespace ExprTree

/-- Whether a change of tokens keeps their kinds and values. -/
structure Token.Keeps (f : Token → Token) : Prop where
  kind_eq : ∀ t : Token, (f t).kind = t.kind
  value_eq : ∀ t : Token, (f t).value = t.value

theorem Token.keeps_id : Keeps id := ⟨fun _ => rfl, fun _ => rfl⟩

theorem Token.keeps_shift (n : Nat) : Keeps (shift n) := ⟨fun _ => rfl, fun _ => rfl⟩

theorem Token.keeps_erase : Keeps erase := ⟨fun _ => rfl, fun _ => rfl⟩

theorem Token.Keeps.map_kind {f : Token → Token} (hf : Keeps f) (ts : List Token) :
    (ts.map f).map kind = ts.map kind := by
  rw [List.map_map]
  apply List.map_congr_left
  intro t _
  exact hf.kind_eq t

namespace Tree

theorem mapTokens_id (tree : Tree) : tree.mapTokens id = tree := by
  induction tree <;> simp_all [mapTokens]

theorem precedence?_mapTokens {f : Token → Token} (hf : Token.Keeps f) (tree : Tree) :
    (tree.mapTokens f).precedence? = tree.precedence? := by
  cases tree with
  | binary left operator right => exact congrArg Kind.binaryPrecedence? (hf.kind_eq operator)
  | _ => rfl

theorem endsInAssignment_mapTokens (f : Token → Token) (tree : Tree) :
    (tree.mapTokens f).EndsInAssignment ↔ tree.EndsInAssignment := by
  induction tree with
  | binary left operator right _ ih => exact ih
  | unary operator operand ih => exact ih
  | _ => exact Iff.rfl

/-- What a tree is like for the grouping around it does not change. -/
theorem canonical_mapTokens {f : Token → Token} (hf : Token.Keeps f) {tree : Tree}
    (hc : tree.Canonical) : (tree.mapTokens f).Canonical := by
  induction tree with
  | binary left operator right ihl ihr =>
      obtain ⟨⟨p, hp, hright, hleft⟩, hends, hcl, hcr⟩ := hc
      refine ⟨⟨p, ?_, ?_, ?_⟩, ?_, ihl hcl, ihr hcr⟩
      · rw [hf.kind_eq]
        exact hp
      · rw [precedence?_mapTokens hf]
        exact hright
      · rw [precedence?_mapTokens hf]
        exact hleft
      · rw [endsInAssignment_mapTokens]
        exact hends
  | unary operator operand ih =>
      obtain ⟨hop, hkind, hco⟩ := hc
      refine ⟨?_, ?_, ih hco⟩
      · rw [hf.kind_eq]
        exact hop
      · rw [kind_mapTokens]
        exact hkind
  | parenthesized opening expression closing ih =>
      obtain ⟨hopening, hclosing, hce⟩ := hc
      exact ⟨(hf.kind_eq opening).trans hopening, (hf.kind_eq closing).trans hclosing, ih hce⟩
  | literal token value =>
      obtain ⟨hkind, hvalue⟩ := hc
      refine ⟨?_, hvalue.trans (hf.value_eq token).symm⟩
      rw [hf.kind_eq]
      exact hkind
  | name token => exact (hf.kind_eq token).trans hc
  | assignment target equals value iht ihv =>
      obtain ⟨htarget, hequals, hct, hcv⟩ := hc
      refine ⟨?_, (hf.kind_eq equals).trans hequals, iht hct, ihv hcv⟩
      rw [kind_mapTokens]
      exact htarget

/-- Tokens that changes make the same as the leaves of a canonical tree are the leaves of one that
the changes make the same. -/
theorem exists_over_leaves {f g : Token → Token} (hf : Token.Keeps f) (hg : Token.Keeps g)
    {tree : Tree} {ts : List Token} (hc : tree.Canonical) (h : ts.map f = tree.leaves.map g) :
    ∃ other : Tree, other.Canonical ∧ other.leaves = ts ∧ other.height = tree.height ∧
      other.mapTokens f = tree.mapTokens g := by
  have hkinds : ts.map Token.kind = tree.leaves.map Token.kind := by
    rw [← hf.map_kind, h, hg.map_kind]
  obtain ⟨other, hother, hleaves, hlike⟩ := exists_resembling hc hkinds
  refine ⟨other, hother, hleaves, hlike.height_eq, ?_⟩
  -- Both are canonical, and leaves determine the canonical tree.
  apply PartialTree.eq_of_leaves_eq (canonical_mapTokens hf hother) (canonical_mapTokens hg hc)
  rw [leaves_mapTokens, leaves_mapTokens, hleaves, h]

/-- A strict reader gives the tree within the bound that the tokens of a source are the leaves
of. -/
theorem read_strict_of_leaves {source : String} {tree : Tree}
    (hs : Stream.ofString source = .ok ⟨tree.leaves, source.utf8ByteSize⟩) (hc : tree.Canonical)
    (hheight : tree.height ≤ maxLevels) : read .strict source = .ok tree := by
  rcases expression_leaves (s := ⟨tree.leaves, source.utf8ByteSize⟩) hc rfl with
    ⟨_, hdone⟩ | ⟨hlt, _⟩
  · rw [read_of_ofString .strict hs, Reader.read, hdone]
    rfl
  · exact absurd hheight (Nat.not_le.2 hlt)

/-- A source whose tokens are the leaves of a tree that is higher than the bound is refused for
that. -/
theorem read_of_leaves_tooDeep {source : String} {tree : Tree} (mode : Mode)
    (hs : Stream.ofString source = .ok ⟨tree.leaves, source.utf8ByteSize⟩) (hc : tree.Canonical)
    (hheight : maxLevels < tree.height) :
    ∃ span, read mode source = .error (.nestingTooDeep maxLevels span) := by
  rcases expression_leaves (s := ⟨tree.leaves, source.utf8ByteSize⟩) hc rfl with
    ⟨hle, _⟩ | ⟨_, span, rest, hfailed⟩
  · exact absurd hheight (Nat.not_lt.2 hle)
  · refine ⟨span, ?_⟩
    rw [read_of_ofString mode hs, Reader.read_of_failed hfailed]

end Tree

end ExprTree
