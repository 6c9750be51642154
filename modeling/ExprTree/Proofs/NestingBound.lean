import ExprTree.Proofs.Acceptance

set_option autoImplicit false

/-!
# The bound on the height is exact

The bound is kept in two ways: expressions are counted as they are opened, and
heights as they are put together.  Neither refuses a source that could be read.  A
tree is refused for its height only when it is higher than the bound, and a source
is refused for the height of its tree as soon as every tree that starts as the
source does is too high.
-/

namespace ExprTree

open PartialTree

/-- Viable kinds that begin those of a source begin those of its stream. -/
theorem isPrefix_ahead_of_viable {source : String} {s : Stream} {kinds : List Kind}
    (h : Stream.ofString source = .ok s) (hviable : Viable kinds)
    (hkinds : kinds <+: (Token.significant source).map Token.kind) :
    kinds <+: s.ahead.map Token.kind := by
  obtain ⟨_, _, hahead⟩ := Stream.ofString_eq_ok_iff.1 h
  rw [hahead, List.map_append, List.map_singleton, List.prefix_concat_iff] at hkinds
  rcases hkinds with rfl | hpre
  · exact absurd hviable not_viable_endOfFile
  · exact hpre

/-! ## Signs before a number -/

/-- The number one under `n` signs, from `offset` on. -/
def Tree.underSigns (offset : Nat) : Nat → Tree
  | 0 => .literal ⟨.number, ⟨offset, offset + 1⟩, some "1", .int 1⟩ (.int 1)
  | n + 1 => .unary ⟨.minus, ⟨offset, offset + 1⟩, none, .absent⟩ (underSigns (offset + 1) n)

theorem Tree.canonical_underSigns (offset n : Nat) : (underSigns offset n).Canonical := by
  induction n generalizing offset with
  | zero => exact ⟨.inl rfl, rfl⟩
  | succ n ih =>
      have hkind : (underSigns (offset + 1) n).kind ≠ .binaryExpression := by
        cases n <;> exact Kind.noConfusion
      exact ⟨.inr rfl, hkind, ih (offset + 1)⟩

@[simp] theorem Tree.height_underSigns (offset n : Nat) :
    (underSigns offset n).height = n + 1 := by
  induction n generalizing offset with
  | zero => rfl
  | succ n ih => rw [underSigns, height, ih]

/-! ## The bound -/

/-- The leaves of a tree that is higher than the bound are refused for its height, in either mode.
And whatever tokens are refused for a height have by then begun only trees that are higher than the
bound, so no line whose tokens start with such kinds is read. -/
theorem nestingTooDeep_exact (mode : Mode) (source : String) :
    (∀ tree : Tree, (∀ t ∈ Token.scan source, t.kind ≠ .invalid) → tree.Canonical →
      tree.leaves ++ [.endOfFile source.utf8ByteSize] = Token.significant source →
      maxLevels < tree.height →
        ∃ span, Tree.read mode source = .error (.nestingTooDeep maxLevels span)) ∧
    (∀ (r : Reader) (limit : Nat) (span : Span),
      r.read.1.result = .error (.nestingTooDeep limit span) →
        limit = maxLevels ∧ ∃ taken, r.stream.ahead = taken ++ r.read.2.stream.ahead ∧
          (∀ tree : Tree, tree.Canonical →
            taken.map Token.kind <+: tree.leaves.map Token.kind → maxLevels < tree.height) ∧
          ∀ (mode : Mode) (line : String) (tree : Tree),
            taken.map Token.kind <+: (Token.significant line).map Token.kind →
              Tree.read mode line ≠ .ok tree) := by
  constructor
  · intro tree hvalid hc hleaves hheight
    have hs : Stream.ofString source = .ok ⟨tree.leaves, source.utf8ByteSize⟩ :=
      Stream.ofString_eq_ok_iff.2 ⟨hvalid, rfl, hleaves.symm⟩
    rcases expression_leaves (s := ⟨tree.leaves, source.utf8ByteSize⟩) hc rfl with
      ⟨hle, _⟩ | ⟨_, span, rest, hfailed⟩
    · exact absurd hheight (Nat.not_lt.2 hle)
    · refine ⟨span, ?_⟩
      rw [Tree.read_of_ofString mode hs, Reader.read_of_failed hfailed]
  · intro r limit span h
    rcases Reader.refuses_of_read_eq_error h with hrefuses | ⟨_, _, _, htrailing⟩
    · obtain ⟨taken, p, hahead, _, hp, hexplains⟩ := hrefuses
      cases hexplains with
      | tooDeep hhigh =>
          refine ⟨rfl, taken, hahead, fun tree => maxLevels_lt_height hp hhigh, ?_⟩
          intro mode line tree hline hok
          rcases Tree.read_cases mode line with ⟨text, span, hread⟩ | ⟨s, hs, hread⟩
          · rw [hread] at hok
            cases hok
          · rw [hread] at hok
            obtain ⟨found, rest, hr, _, _⟩ := Reader.reads_of_read_eq_ok hok
            have hviable := viable_of_readAll hp
            have hpre := isPrefix_of_reads hr hviable (isPrefix_ahead_of_viable hs hviable hline)
            have hlt := maxLevels_lt_height hp hhigh hr.canonical hpre
            exact absurd hr.height_le (Nat.not_le.2 hlt)
    · cases htrailing

/-- As many signs as there are levels are too many, whatever they stand before. -/
theorem nestingTooDeep_exact_of_signs :
    ∃ s span, Stream.ofString (String.ofList (List.replicate maxLevels '-' ++ ['1'])) = .ok s ∧
      (Reader.mk .lenient s).read.1.result = .error (.nestingTooDeep maxLevels span) ∧
      ∃ taken, s.ahead = taken ++ (Reader.mk .lenient s).read.2.stream.ahead ∧
        ∀ mode line tree, taken.map Token.kind <+: (Token.significant line).map Token.kind →
          Tree.read mode line ≠ .ok tree := by
  generalize hsource : String.ofList (List.replicate maxLevels '-' ++ ['1']) = source
  have hvalid : ∀ t ∈ Token.scan source, t.kind ≠ .invalid := by
    rw [← hsource]
    decide +kernel
  have hleaves : (Tree.underSigns 0 maxLevels).leaves ++ [.endOfFile source.utf8ByteSize] =
      Token.significant source := by
    rw [← hsource]
    decide +kernel
  have hheight : maxLevels < (Tree.underSigns 0 maxLevels).height := by simp
  obtain ⟨span, hread⟩ := (nestingTooDeep_exact .lenient source).1 _ hvalid
    (Tree.canonical_underSigns 0 maxLevels) hleaves hheight
  rcases Tree.read_cases .lenient source with ⟨text, stop, hinvalid⟩ | ⟨s, hs, hstream⟩
  · rw [hinvalid] at hread
    cases hread
  · rw [hstream] at hread
    obtain ⟨_, taken, hahead, _, hnone⟩ :=
      (nestingTooDeep_exact .lenient source).2 ⟨.lenient, s⟩ _ _ hread
    exact ⟨s, span, hs, hread, taken, hahead, hnone⟩

end ExprTree
