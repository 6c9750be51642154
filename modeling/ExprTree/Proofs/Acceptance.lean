import ExprTree.Proofs.Sources

set_option autoImplicit false

/-!
# What a strict reader accepts

A strict reader accepts exactly the sources whose tokens are the leaves of a
canonical tree within the bound, and gives that tree.  That it gives nothing else is
what reading an expression amounts to; that it gives the tree follows from what a
refusal would say: the leaves of a canonical tree leave no refusal to be made but
the one of its height (`expression_leaves`).
-/

namespace ExprTree

open PartialTree

/-- Tokens that are refused for their height begin only trees that are higher than the bound. -/
theorem maxLevels_lt_height {ts : List Token} {p : PartialTree} {tree : Tree}
    (hread : start.readAll ts = some p) (hhigh : maxLevels < p.height) (hc : tree.Canonical)
    (h : ts.map Token.kind <+: tree.leaves.map Token.kind) : maxLevels < tree.height := by
  obtain ⟨q, hq, hle⟩ := exists_readAll_of_kinds hc h
  cases Option.some.inj (hread.symm.trans hq)
  exact Nat.lt_of_lt_of_le hhigh hle

/-- What is read from the leaves of a canonical tree is that tree. -/
theorem eq_of_expression_done {s rest : Stream} {tree : Tree} {found : Measured}
    (hc : tree.Canonical) (hahead : s.ahead = tree.leaves)
    (h : expression maxLevels 0 s = .done found rest) :
    found = ⟨tree, tree.height⟩ ∧ rest = ⟨[], s.finish⟩ ∧ tree.height ≤ maxLevels := by
  have hr := Expression.expression_reads h
  have hleaves : tree.leaves = found.tree.leaves ++ rest.ahead := by
    rw [← hahead, hr.ahead_eq]
  -- Reading does not stop within the leaves, so nothing is left of them.
  have hself : tree.leaves.map Token.kind <+: s.ahead.map Token.kind :=
    hahead ▸ List.prefix_refl _
  have hle := (isPrefix_of_reads hr ⟨tree, hc, List.prefix_refl _⟩ hself).length_le
  rw [hleaves, List.length_map, List.length_map, List.length_append] at hle
  have hnil : rest.ahead = [] := List.eq_nil_of_length_eq_zero (by omega)
  rw [hnil, List.append_nil] at hleaves
  have htree : found.tree = tree := eq_of_leaves_eq hr.canonical hc hleaves.symm
  refine ⟨?_, ?_, ?_⟩
  · rw [← htree, ← hr.height_eq]
  · rw [← hnil, ← hr.finish_eq]
  · rw [← htree]
    exact hr.height_le

/-- The leaves of a canonical tree are refused for its height only. -/
theorem tooDeep_of_expression_failed {s rest : Stream} {tree : Tree} {e : SyntaxError}
    (hc : tree.Canonical) (hahead : s.ahead = tree.leaves)
    (h : expression maxLevels 0 s = .failed e rest) :
    maxLevels < tree.height ∧ ∃ span, e = .nestingTooDeep maxLevels span := by
  obtain ⟨taken, p, htaken, _, hread, hexplains⟩ := Expression.refuses_of_expression_failed h
  rw [hahead] at htaken
  cases hexplains with
  | unexpected _ hunfinished hrefused _ =>
      cases hmore : rest.ahead with
      | nil =>
          -- All leaves have been read, so they are those of a whole tree.
          rw [hmore, List.append_nil] at htaken
          have hcomplete : Complete (taken.map Token.kind) := ⟨tree, hc, by rw [htaken]⟩
          exact absurd hcomplete (not_complete_of_finish?_eq_none hread hunfinished)
      | cons t ts =>
          -- The token that is refused is a leaf, so it is viable.
          have hcurrent : rest.current = t := by simp [Stream.current, hmore]
          have hviable : Viable (taken.map Token.kind ++ [rest.current.kind]) := by
            refine ⟨tree, hc, ts.map Token.kind, ?_⟩
            rw [htaken, hmore, hcurrent]
            simp
          exact absurd hviable (not_viable_of_read_eq_none hread hrefused)
  | tooDeep hhigh =>
      have hpre : taken.map Token.kind <+: tree.leaves.map Token.kind :=
        List.IsPrefix.map Token.kind ⟨rest.ahead, htaken.symm⟩
      exact ⟨maxLevels_lt_height hread hhigh hc hpre, _, rfl⟩

/-- The leaves of a canonical tree are read to that tree, or refused for its height. -/
theorem expression_leaves {s : Stream} {tree : Tree} (hc : tree.Canonical)
    (hahead : s.ahead = tree.leaves) :
    (tree.height ≤ maxLevels ∧
      expression maxLevels 0 s = .done ⟨tree, tree.height⟩ ⟨[], s.finish⟩) ∨
    (maxLevels < tree.height ∧ ∃ span rest,
      expression maxLevels 0 s = .failed (.nestingTooDeep maxLevels span) rest) := by
  cases h : expression maxLevels 0 s with
  | done found rest =>
      obtain ⟨rfl, rfl, hle⟩ := eq_of_expression_done hc hahead h
      exact .inl ⟨hle, rfl⟩
  | failed e rest =>
      obtain ⟨hlt, span, rfl⟩ := tooDeep_of_expression_failed hc hahead h
      exact .inr ⟨hlt, span, rest, rfl⟩

/-- A strict reader accepts a source if and only if its tokens are valid and, blanks apart, are the
leaves of a canonical tree within the bound; and that is the tree that it gives. -/
theorem read_strict_eq_ok_iff (source : String) (tree : Tree) :
    Tree.read .strict source = .ok tree ↔
      (∀ t ∈ Token.scan source, t.kind ≠ .invalid) ∧ tree.Canonical ∧ tree.height ≤ maxLevels ∧
        tree.leaves ++ [.endOfFile source.utf8ByteSize] = Token.significant source := by
  constructor
  · intro h
    rcases Tree.read_cases .strict source with ⟨text, span, hread⟩ | ⟨s, hs, hread⟩
    · rw [hread] at h
      cases h
    · rw [hread] at h
      obtain ⟨hvalid, hfinish, hahead⟩ := Stream.ofString_eq_ok_iff.1 hs
      obtain ⟨found, rest, hr, rfl, hend⟩ := Reader.reads_of_read_eq_ok h
      have hleaves : s.ahead = found.tree.leaves ++ rest.ahead := hr.ahead_eq
      have hnil : rest.ahead = [] := by
        apply Stream.ahead_eq_nil_of_kind_eq (hend rfl)
        intro t ht
        exact Stream.kind_ne_of_ofString hs t (by simp [hleaves, ht])
      rw [hnil, List.append_nil] at hleaves
      refine ⟨hvalid, hr.canonical, hr.height_le, ?_⟩
      rw [hahead, hleaves, hfinish]
  · rintro ⟨hvalid, hc, hheight, hleaves⟩
    have hs : Stream.ofString source = .ok ⟨tree.leaves, source.utf8ByteSize⟩ :=
      Stream.ofString_eq_ok_iff.2 ⟨hvalid, rfl, hleaves.symm⟩
    rcases expression_leaves (s := ⟨tree.leaves, source.utf8ByteSize⟩) hc rfl with
      ⟨_, hdone⟩ | ⟨hlt, _⟩
    · rw [Tree.read_of_ofString .strict hs, Reader.read, hdone]
      rfl
    · exact absurd hheight (Nat.not_le.2 hlt)

/-- An assignment under a sign, at the end of a sum. -/
theorem read_strict_eq_ok_iff_of_assignment :
    Tree.read .strict "1+-x=2" = .ok
      (.binary (.literal ⟨.number, ⟨0, 1⟩, some "1", .int 1⟩ (.int 1))
        ⟨.plus, ⟨1, 2⟩, none, .absent⟩
        (.unary ⟨.minus, ⟨2, 3⟩, none, .absent⟩
          (.assignment (.name ⟨.identifier, ⟨3, 4⟩, some "x", .text "x"⟩)
            ⟨.equals, ⟨4, 5⟩, none, .absent⟩
            (.literal ⟨.number, ⟨5, 6⟩, some "2", .int 2⟩ (.int 2))))) := by
  rw [read_strict_eq_ok_iff]
  refine ⟨by decide, ⟨⟨4, rfl, ?_, ?_⟩, ?_, ?_, ?_⟩, by decide, by decide⟩
  · intro q hq
    cases hq
  · intro q hq
    cases hq
  · exact id
  · exact ⟨.inl rfl, rfl⟩
  · exact ⟨.inr rfl, Kind.noConfusion, rfl, rfl, rfl, .inl rfl, rfl⟩

end ExprTree
