import ExprTree.Proofs.Lossless
import ExprTree.Proofs.PartialTree.Viable
import ExprTree.Proofs.Refusing

set_option autoImplicit false

/-!
# Reading from a source

What reading expressions amounts to, said of a source and of the readers over it:
which tokens they read from, what a reader has read that gives a tree, and what one
has met that gives none.
-/

namespace ExprTree

open OpenNode PartialTree

/-- The tokens of a source without blanks, the end-of-file token last. -/
def Token.significant (source : String) : List Token :=
  (Token.scan source).filter fun t => t.kind != .whitespace

/-! ## The stream of a source -/

/-- The tokens ahead are the tokens of the source before its end. -/
theorem Token.significant_eq (source : String) :
    Token.significant source =
      (Scanner.ofList source.toList).upToEnd.filter (fun t => t.kind != .whitespace) ++
        [.endOfFile source.utf8ByteSize] := by
  rw [Token.significant, scan_eq, List.filter_append]
  rfl

/-- A source has a stream if all its tokens are valid: its significant tokens. -/
theorem Stream.ofString_eq_ok_iff {source : String} {s : Stream} :
    Stream.ofString source = .ok s ↔
      (∀ t ∈ Token.scan source, t.kind ≠ .invalid) ∧ s.finish = source.utf8ByteSize ∧
        Token.significant source = s.ahead ++ [.endOfFile s.finish] := by
  rw [Token.significant_eq, scan_eq, Stream.ofString, Stream.ofTokens,
    Scanner.offset_atEnd_ofList]
  cases hfind : (Scanner.ofList source.toList).upToEnd.find? fun t => t.kind == .invalid with
  | some t =>
      have hmem := List.mem_of_find?_eq_some hfind
      have hkind : t.kind = .invalid := by simpa using List.find?_some hfind
      constructor
      · intro h
        simp at h
      · intro h
        exact absurd hkind (h.1 t (List.mem_append_left _ hmem))
  | none =>
      rw [List.find?_eq_none] at hfind
      constructor
      · intro h
        cases h
        refine ⟨?_, rfl, rfl⟩
        intro t ht
        rw [List.mem_append, List.mem_singleton] at ht
        rcases ht with ht | rfl
        · simpa using hfind t ht
        · exact Kind.noConfusion
      · rintro ⟨_, hfinish, hahead⟩
        rw [hfinish] at hahead
        obtain ⟨ahead, finish⟩ := s
        simp only at hfinish hahead ⊢
        rw [List.append_cancel_right hahead, hfinish]

/-- No token ahead in a source is the end-of-file token. -/
theorem Stream.kind_ne_of_ofString {source : String} {s : Stream}
    (h : Stream.ofString source = .ok s) : ∀ t ∈ s.ahead, t.kind ≠ .endOfFile := by
  obtain ⟨_, hfinish, hahead⟩ := Stream.ofString_eq_ok_iff.1 h
  rw [Token.significant_eq, hfinish] at hahead
  intro t ht
  rw [← List.append_cancel_right hahead] at ht
  exact (Scanner.exists_piece_of_mem _ t (List.mem_filter.1 ht).1).1

/-- The end-of-file token comes next only where nothing is ahead. -/
theorem Stream.ahead_eq_nil_of_kind_eq {s : Stream} (h : s.current.kind = .endOfFile)
    (hahead : ∀ t ∈ s.ahead, t.kind ≠ .endOfFile) : s.ahead = [] := by
  cases hmore : s.ahead with
  | nil => rfl
  | cons t ts =>
      have hcurrent : s.current = t := by simp [Stream.current, hmore]
      rw [hcurrent] at h
      exact absurd h (hahead t (by simp [hmore]))

/-- The token that comes next is ahead, or it is the end-of-file token. -/
theorem Stream.exists_current (s : Stream) :
    ∃ after, s.ahead ++ [.endOfFile s.finish] = s.current :: after := by
  obtain ⟨ahead, finish⟩ := s
  cases ahead with
  | nil => exact ⟨[], rfl⟩
  | cons t ts => exact ⟨ts ++ [.endOfFile finish], rfl⟩

/-- Where a source stands after some of its tokens have been read. -/
theorem Token.exists_significant {source : String} {s rest : Stream} {taken : List Token}
    (h : Stream.ofString source = .ok s) (hahead : s.ahead = taken ++ rest.ahead)
    (hfinish : rest.finish = s.finish) :
    ∃ after, Token.significant source = taken ++ rest.current :: after := by
  obtain ⟨_, _, hsignificant⟩ := Stream.ofString_eq_ok_iff.1 h
  obtain ⟨after, hafter⟩ := rest.exists_current
  refine ⟨after, ?_⟩
  rw [hsignificant, hahead, ← hfinish, List.append_assoc, hafter]

/-! ## Readers -/

/-- A source has an invalid token, or is read by a reader over its stream. -/
theorem Tree.read_cases (mode : Mode) (source : String) :
    (∃ text span, Tree.read mode source = .error (.invalidToken text span)) ∨
    ∃ s, Stream.ofString source = .ok s ∧
      Tree.read mode source = (Reader.mk mode s).read.1.result := by
  rw [Tree.read, Reader.ofString]
  cases h : Stream.ofString source with
  | ok s => exact .inr ⟨s, rfl, rfl⟩
  | error e =>
      rw [Stream.ofString, Stream.ofTokens] at h
      split at h
      · cases h
        exact .inl ⟨_, _, rfl⟩
      · cases h

/-- A source with valid tokens only is read by the reader over them. -/
theorem Tree.read_of_ofString {source : String} {s : Stream} (mode : Mode)
    (h : Stream.ofString source = .ok s) :
    Tree.read mode source = (Reader.mk mode s).read.1.result := by
  rw [Tree.read, Reader.ofString, h]
  rfl

/-- A reader of a source is one over its stream. -/
theorem Reader.exists_stream_of_ofString {mode : Mode} {source : String} {r : Reader}
    (h : ofString mode source = .ok r) : ∃ stream, Stream.ofString source = .ok stream ∧
      r = ⟨mode, stream⟩ := by
  rw [Reader.ofString] at h
  cases hs : Stream.ofString source with
  | error e =>
      rw [hs] at h
      cases h
  | ok stream =>
      rw [hs] at h
      cases h
      exact ⟨stream, rfl, rfl⟩

theorem Reader.read_of_failed {r : Reader} {e : SyntaxError} {rest : Stream}
    (h : expression maxLevels 0 r.stream = .failed e rest) :
    r.read = (⟨none, .error e⟩, { r with stream := rest }) := by
  rw [Reader.read, h]

/-- What a reader that gives a tree has read. -/
theorem Reader.reads_of_read_eq_ok {r : Reader} {tree : Tree} (h : r.read.1.result = .ok tree) :
    ∃ found rest, Expression.ReadsFor 0 r.stream found rest ∧ found.tree = tree ∧
      (r.mode = .strict → rest.current.kind = .endOfFile) := by
  rw [Reader.read] at h
  split at h
  · cases h
  · rename_i found rest hdone
    split at h
    · cases h
    · rename_i hmode
      cases h
      refine ⟨found, rest, Expression.expression_reads hdone, rfl, ?_⟩
      intro hstrict
      exact Decidable.byContradiction fun hne => hmode ⟨hstrict, hne⟩

/-- The levels of an attempt are the number that comes with the tree. -/
theorem Reader.levels_of_read_eq_ok {r : Reader} {tree : Tree} (h : r.read.1.result = .ok tree) :
    ∃ height rest, expression maxLevels 0 r.stream = .done ⟨tree, height⟩ rest ∧
      r.read.1.levels = some height := by
  unfold Reader.read at h ⊢
  cases hread : expression maxLevels 0 r.stream with
  | failed e rest =>
      rw [hread] at h
      cases h
  | done found rest =>
      rw [hread] at h
      dsimp only at h
      split at h
      · cases h
      · cases h
        exact ⟨found.height, rest, rfl, rfl⟩

/-- What has been read from a source that gives a tree. -/
theorem Tree.reads_of_read_eq_ok {mode : Mode} {source : String} {tree : Tree}
    (h : Tree.read mode source = .ok tree) :
    ∃ s found rest, Stream.ofString source = .ok s ∧ Expression.ReadsFor 0 s found rest ∧
      found.tree = tree ∧ (mode = .strict → rest.current.kind = .endOfFile) := by
  rcases Tree.read_cases mode source with ⟨text, span, hread⟩ | ⟨s, hs, hread⟩
  · rw [hread] at h
    cases h
  · rw [hread] at h
    obtain ⟨found, rest, hr, htree, hend⟩ := Reader.reads_of_read_eq_ok h
    exact ⟨s, found, rest, hs, hr, htree, hend⟩

/-- A reader that gives no tree has refused its expression or what follows it. -/
theorem Reader.refuses_of_read_eq_error {r : Reader} {e : SyntaxError}
    (h : r.read.1.result = .error e) :
    Refuses start r.stream e r.read.2.stream ∨
    ∃ found, Expression.ReadsFor 0 r.stream found r.read.2.stream ∧
      r.read.2.stream.current.kind ≠ .endOfFile ∧
      e = .trailingToken r.read.2.stream.current.kind r.read.2.stream.current.span := by
  cases hread : expression maxLevels 0 r.stream with
  | failed e' rest =>
      rw [Reader.read_of_failed hread] at h ⊢
      cases h
      exact .inl (Expression.refuses_of_expression_failed hread)
  | done found rest =>
      rw [Reader.read, hread] at h ⊢
      simp only at h ⊢
      split at h
      · rename_i hmode
        cases h
        exact .inr ⟨found, Expression.expression_reads hread, hmode.2, rfl⟩
      · cases h

/-! ## Whole expressions -/

/-- Behind a whole expression that no group holds, no token follows but an operator. -/
theorem read_whole_eq_none {tree : Tree} {t : Token} (hc : tree.Canonical)
    (hends : tree.EndsBefore t.kind) (hop : ∀ p, t.kind.binaryPrecedence? ≠ some p) :
    (holding tree.edge tree.lastOperand).read t = none := by
  by_cases hclose : t.kind = .closeParen
  · have hs := Tree.settle_zero_edge hc []
    rw [List.append_nil] at hs
    rw [read_closeParen hclose, close?, hs]
    rfl
  · have h : (holding (tree.edge ++ []) tree.lastOperand).read t = none :=
      read_edge_eq_none hends hop hclose
    rwa [List.append_nil] at h

/-- Viable kinds stop being viable with a token that does not continue the expression that has been
read. -/
theorem not_viable_of_reads {s rest : Stream} {found : Measured}
    (h : Expression.ReadsFor 0 s found rest) :
    ¬ Viable (found.tree.leaves.map Token.kind ++ [rest.current.kind]) :=
  not_viable_of_read_eq_none (readAll_start_leaves h.canonical)
    (read_whole_eq_none h.canonical h.ends h.no_operator)

/-- Viable kinds with which the tokens ahead begin are begun by the leaves of the expression that is
read: reading it does not stop within them. -/
theorem isPrefix_of_reads {s rest : Stream} {found : Measured} {kinds : List Kind}
    (h : Expression.ReadsFor 0 s found rest) (hviable : Viable kinds)
    (hahead : kinds <+: s.ahead.map Token.kind) : kinds <+: found.tree.leaves.map Token.kind := by
  obtain ⟨more, hmore⟩ := hahead
  rw [h.ahead_eq, List.map_append, List.append_eq_append_iff] at hmore
  rcases hmore with ⟨others, hleaves, _⟩ | ⟨others, hkinds, hrest⟩
  · exact ⟨others, hleaves.symm⟩
  · cases others with
    | nil => exact ⟨[], by rw [hkinds, List.append_nil, List.append_nil]⟩
    | cons kind others =>
        obtain ⟨tree, hc, hpre⟩ := hviable
        obtain ⟨t, ts, hts, ht, _⟩ := List.map_eq_cons_iff.1 hrest
        have hcurrent : rest.current = t := by simp [Stream.current, hts]
        refine absurd ⟨tree, hc, List.IsPrefix.trans ⟨others, ?_⟩ hpre⟩ (not_viable_of_reads h)
        rw [hcurrent, ht, hkinds, List.append_assoc, List.singleton_append]

end ExprTree
