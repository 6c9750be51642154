import ExprTree.Proofs.Relabelling
import ExprTree.Proofs.Slices

set_option autoImplicit false

/-!
# A lenient reader reads as far as it can

Both readers refuse the same expressions, and they differ in what they make of the
tokens behind one.  A lenient reader leaves them, and the tree that it gives is that
of the longest start of the source that a strict reader accepts
(`lenient_reads_longest`): what the reader stopped before would have continued no
expression, and so no longer start is one.
-/

namespace ExprTree

open PartialTree

/-! ## Both readers on one source -/

/-- The refusal of an expression is never that of a token behind one. -/
theorem ne_trailingToken_of_expression_failed {s rest : Stream} {e : SyntaxError}
    (h : expression maxLevels 0 s = .failed e rest) (got : Kind) (span : Span) :
    e ≠ .trailingToken got span := by
  obtain ⟨_, _, _, _, _, hexplains⟩ := Expression.refuses_of_expression_failed h
  cases hexplains <;> exact SyntaxError.noConfusion

/-- A source with an invalid token is refused alike by all readers. -/
theorem Tree.read_of_ofString_error {source : String} {e : SyntaxError} (mode : Mode)
    (h : Stream.ofString source = .error e) : read mode source = .error e := by
  rw [read, Reader.ofString, h]
  rfl

/-- A stream is refused to a source only for an invalid token. -/
theorem Stream.ne_trailingToken_of_ofString {source : String} {e : SyntaxError}
    (h : ofString source = .error e) (got : Kind) (span : Span) : e ≠ .trailingToken got span := by
  rw [ofString, ofTokens] at h
  split at h
  · cases h
    exact SyntaxError.noConfusion
  · cases h

/-- What a reader makes of an expression and the token behind it. -/
theorem Tree.read_of_done {source : String} {s rest : Stream} {found : Measured} (mode : Mode)
    (hs : Stream.ofString source = .ok s) (h : expression maxLevels 0 s = .done found rest) :
    read mode source =
      if mode = .strict ∧ rest.current.kind ≠ .endOfFile then
        .error (.trailingToken rest.current.kind rest.current.span)
      else .ok found.tree := by
  rw [read_of_ofString mode hs, Reader.read, h]

/-- Readers refuse a source alike, or they read an expression from it, and then a lenient one gives
its tree and a strict one looks at what follows. -/
theorem Tree.read_modes (source : String) :
    (∃ e, (∀ got span, e ≠ .trailingToken got span) ∧ ∀ mode, read mode source = .error e) ∨
    ∃ s found rest, Stream.ofString source = .ok s ∧ Expression.ReadsFor 0 s found rest ∧
      read .lenient source = .ok found.tree ∧
      ((rest.current.kind = .endOfFile ∧ read .strict source = .ok found.tree) ∨
        (rest.current.kind ≠ .endOfFile ∧ read .strict source =
          .error (.trailingToken rest.current.kind rest.current.span))) := by
  cases hs : Stream.ofString source with
  | error e =>
      refine Or.inl ⟨e, Stream.ne_trailingToken_of_ofString hs, ?_⟩
      intro mode
      exact read_of_ofString_error mode hs
  | ok s =>
      cases h : expression maxLevels 0 s with
      | failed e rest =>
          refine Or.inl ⟨e, ne_trailingToken_of_expression_failed h, ?_⟩
          intro mode
          rw [read_of_ofString mode hs, Reader.read_of_failed h]
      | done found rest =>
          refine Or.inr ⟨s, found, rest, rfl, Expression.expression_reads h, ?_, ?_⟩
          · rw [read_of_done .lenient hs h, if_neg]
            rintro ⟨hmode, _⟩
            cases hmode
          · rw [read_of_done .strict hs h]
            by_cases hend : rest.current.kind = .endOfFile
            · rw [if_neg fun hboth => hboth.2 hend]
              exact Or.inl ⟨hend, rfl⟩
            · rw [if_pos ⟨rfl, hend⟩]
              exact Or.inr ⟨hend, rfl⟩

/-- Where the end-of-file token comes next, all tokens of the source have been read. -/
theorem Stream.eq_of_kind_eq {source : String} {s rest : Stream} {taken : List Token}
    (hs : ofString source = .ok s) (hahead : s.ahead = taken ++ rest.ahead)
    (hend : rest.current.kind = .endOfFile) : s.ahead = taken := by
  have hnil : rest.ahead = [] := by
    apply ahead_eq_nil_of_kind_eq hend
    intro t ht
    apply kind_ne_of_ofString hs t
    rw [hahead]
    exact List.mem_append_right _ ht
  rw [hahead, hnil, List.append_nil]

/-- The tokens of what a strict reader accepts are the leaves of its tree. -/
theorem Tree.ahead_eq_leaves_of_read_strict {source : String} {s : Stream} {tree : Tree}
    (hs : Stream.ofString source = .ok s) (h : read .strict source = .ok tree) :
    tree.Canonical ∧ s.ahead = tree.leaves := by
  rw [read_of_ofString .strict hs] at h
  obtain ⟨found, rest, hr, rfl, hend⟩ := Reader.reads_of_read_eq_ok h
  exact ⟨hr.canonical, Stream.eq_of_kind_eq hs hr.ahead_eq (hend rfl)⟩

/-! ## Cutting a source behind a token -/

/-- A significant token is the one at the end of the source, or it is ahead. -/
theorem Stream.ahead_of_significant {source : String} {s : Stream} {before after : List Token}
    {last : Token} (hs : ofString source = .ok s)
    (h : Token.significant source = before ++ last :: after) :
    (last = .endOfFile source.utf8ByteSize ∧ s.ahead = before) ∨
      ∃ more, s.ahead = before ++ last :: more := by
  obtain ⟨_, hfinish, hsignificant⟩ := ofString_eq_ok_iff.1 hs
  rw [hsignificant, hfinish] at h
  rcases List.eq_nil_or_concat after with rfl | ⟨more, final, rfl⟩
  · obtain ⟨hbefore, hlast⟩ := List.append_inj' h rfl
    exact Or.inl ⟨(List.head_eq_of_cons_eq hlast).symm, hbefore⟩
  · rw [List.concat_eq_append, ← List.cons_append, ← List.append_assoc] at h
    exact Or.inr ⟨more, (List.append_inj' h rfl).1⟩

/-- A source whose tokens continue those of an expression at the start of another is none. -/
theorem not_read_strict_of_reads {cut : String} {s rest : Stream} {found : Measured}
    {taken more : List Token} {finish : Nat} (hr : Expression.ReadsFor 0 s found rest)
    (hahead : s.ahead = taken ++ more) (hcut : Stream.ofString cut = .ok ⟨taken, finish⟩)
    (hlonger : found.tree.leaves.length < taken.length) (tree : Tree) :
    Tree.read .strict cut ≠ .ok tree := by
  intro hok
  obtain ⟨hc, htaken⟩ := Tree.ahead_eq_leaves_of_read_strict hcut hok
  have hviable : Viable (taken.map Token.kind) := by
    have hkinds : taken.map Token.kind = tree.leaves.map Token.kind := congrArg _ htaken
    exact ⟨tree, hc, hkinds ▸ List.prefix_refl _⟩
  have hpre : taken.map Token.kind <+: s.ahead.map Token.kind :=
    List.IsPrefix.map Token.kind ⟨more, hahead.symm⟩
  -- The expression would have been read on over all of these tokens.
  have hle := (isPrefix_of_reads hr hviable hpre).length_le
  rw [List.length_map, List.length_map] at hle
  exact absurd hlonger (Nat.not_lt.2 hle)

/-- What a strict reader makes of a source that is cut off behind one of its tokens. -/
theorem read_strict_of_cut {source : String} {s rest : Stream} {found : Measured}
    {before more : List Token} {last : Token} (hs : Stream.ofString source = .ok s)
    (hr : Expression.ReadsFor 0 s found rest) (hahead : s.ahead = before ++ last :: more) :
    ∃ cut : String, cut.toByteArray = (⟨0, last.span.stop⟩ : Span).bytes source ∧
      (before.length + 1 = found.tree.leaves.length → Tree.read .strict cut = .ok found.tree) ∧
      (found.tree.leaves.length < before.length + 1 → ∃ e, Tree.read .strict cut = .error e) := by
  obtain ⟨cut, hbytes, hcut⟩ := Stream.exists_cut hs hahead
  rw [← List.singleton_append, ← List.append_assoc] at hahead
  have hlength : (before ++ [last]).length = before.length + 1 := by
    rw [List.length_append, List.length_singleton]
  rw [← hlength]
  refine ⟨cut, hbytes, ?_, ?_⟩
  · intro hsame
    have htaken : before ++ [last] = found.tree.leaves :=
      (List.append_inj (hahead.symm.trans hr.ahead_eq) hsame).1
    rw [htaken] at hcut
    exact Tree.read_strict_of_leaves hcut hr.canonical hr.height_le
  · intro hlonger
    cases hread : Tree.read .strict cut with
    | ok tree => exact absurd hread (not_read_strict_of_reads hr hahead hcut hlonger tree)
    | error e => exact ⟨e, rfl⟩

/-- Where the source ends behind its last token, it is cut off nowhere. -/
theorem bytes_endOfFile (source : String) :
    source.toByteArray =
      (⟨0, (Token.endOfFile source.utf8ByteSize).span.stop⟩ : Span).bytes source :=
  ByteArray.extract_zero_size.symm

/-! ## The longest start -/

section

variable {source : String} {tree : Tree}

/-- What a strict reader accepts, a lenient one gives. -/
theorem read_lenient_of_strict_ok (h : Tree.read .strict source = .ok tree) :
    Tree.read .lenient source = .ok tree := by
  rcases Tree.read_modes source with
    ⟨e, _, hread⟩ | ⟨s, found, rest, _, _, hlenient, ⟨_, hok⟩ | ⟨_, herror⟩⟩
  · rw [hread .strict] at h
    cases h
  · rw [hlenient, ← hok]
    exact h
  · rw [herror] at h
    cases h

/-- What a strict reader refuses for an expression, a lenient one refuses for the same. -/
theorem read_lenient_of_strict_error {e : SyntaxError} (h : Tree.read .strict source = .error e)
    (hne : ∀ got span, e ≠ .trailingToken got span) : Tree.read .lenient source = .error e := by
  rcases Tree.read_modes source with
    ⟨e', _, hread⟩ | ⟨s, found, rest, _, _, _, ⟨_, hok⟩ | ⟨_, herror⟩⟩
  · rw [hread .strict] at h
    rw [hread .lenient]
    exact h
  · rw [hok] at h
    cases h
  · rw [herror] at h
    exact absurd (Except.error.inj h).symm (hne _ _)

/-- A strict reader reports the token that stands behind the tree of a lenient one. -/
theorem read_strict_trailing_iff {got : Kind} {span : Span} :
    Tree.read .strict source = .error (.trailingToken got span) ↔
      ∃ (tree : Tree) (t : Token) (after : List Token), Tree.read .lenient source = .ok tree ∧
        Token.significant source = tree.leaves ++ t :: after ∧ t.kind ≠ .endOfFile ∧
        t.kind = got ∧ t.span = span := by
  rcases Tree.read_modes source with
    ⟨e, hne, hread⟩ | ⟨s, found, rest, hs, hr, hlenient, hstrict⟩
  · rw [hread .strict, hread .lenient]
    constructor
    · intro h
      exact absurd (Except.error.inj h) (hne got span)
    · rintro ⟨_, _, _, h, _⟩
      cases h
  · obtain ⟨after, hsignificant⟩ := Token.exists_significant hs hr.ahead_eq hr.finish_eq
    rw [hlenient]
    constructor
    · intro h
      rcases hstrict with ⟨_, hok⟩ | ⟨hkind, herror⟩
      · rw [hok] at h
        cases h
      · rw [herror] at h
        cases h
        exact ⟨found.tree, rest.current, after, rfl, hsignificant, hkind, rfl, rfl⟩
    · rintro ⟨_, t, others, htree, hothers, hkind, rfl, rfl⟩
      cases htree
      rw [hsignificant] at hothers
      cases List.append_cancel_left hothers
      rcases hstrict with ⟨hend, _⟩ | ⟨_, herror⟩
      · exact absurd hend hkind
      · exact herror

/-- The leaves of a lenient reader's tree are the first tokens. -/
theorem leaves_isPrefix_of_read_lenient (h : Tree.read .lenient source = .ok tree) :
    tree.leaves <+: Token.significant source := by
  rcases Tree.read_modes source with
    ⟨e, _, hread⟩ | ⟨s, found, rest, hs, hr, hlenient, _⟩
  · rw [hread .lenient] at h
    cases h
  · rw [hlenient] at h
    cases h
    obtain ⟨after, hsignificant⟩ := Token.exists_significant hs hr.ahead_eq hr.finish_eq
    exact ⟨_, hsignificant.symm⟩

/-- What a strict reader makes of a source from which a lenient one has a tree, cut off behind any
token. -/
theorem read_strict_of_read_lenient {before after : List Token} {last : Token}
    (h : Tree.read .lenient source = .ok tree)
    (hlast : Token.significant source = before ++ last :: after)
    (hend : last.kind = .endOfFile → before ≠ tree.leaves) :
    ∃ cut : String, cut.toByteArray = (⟨0, last.span.stop⟩ : Span).bytes source ∧
      (before.length + 1 = tree.leaves.length → Tree.read .strict cut = .ok tree) ∧
      (tree.leaves.length < before.length + 1 → ∃ e, Tree.read .strict cut = .error e) := by
  rcases Tree.read_modes source with
    ⟨e, _, hread⟩ | ⟨s, found, rest, hs, hr, hlenient, hstrict⟩
  · rw [hread .lenient] at h
    cases h
  · rw [hlenient] at h
    cases h
    rcases Stream.ahead_of_significant hs hlast with ⟨rfl, hahead⟩ | ⟨more, hahead⟩
    · -- Behind its last token the source is not cut, and it is not read to its end.
      refine ⟨source, bytes_endOfFile source, ?_, ?_⟩
      · intro hlength
        rw [← hahead, hr.ahead_eq, List.length_append] at hlength
        omega
      · intro _
        rcases hstrict with ⟨hkind, _⟩ | ⟨_, herror⟩
        · have hleaves := Stream.eq_of_kind_eq hs hr.ahead_eq hkind
          exact absurd (hahead.symm.trans hleaves) (hend rfl)
        · exact ⟨_, herror⟩
    · exact read_strict_of_cut hs hr hahead

end

/-- What a strict reader accepts, a lenient one gives; what a strict one refuses for another cause
than a trailing token, a lenient one refuses for the same; and a strict one reports a trailing token
exactly where a lenient one gives a tree behind which that token stands.  The tree of a lenient
reader has the first tokens of the source for leaves.  Cut off behind the last of them, the source
is accepted with this tree; cut off behind any later token, it is refused. -/
theorem lenient_reads_longest (source : String) :
    (∀ tree, Tree.read .strict source = .ok tree → Tree.read .lenient source = .ok tree) ∧
    (∀ e, Tree.read .strict source = .error e → (∀ got span, e ≠ .trailingToken got span) →
      Tree.read .lenient source = .error e) ∧
    (∀ got span, Tree.read .strict source = .error (.trailingToken got span) ↔
      ∃ (tree : Tree) (t : Token) (after : List Token), Tree.read .lenient source = .ok tree ∧
        Token.significant source = tree.leaves ++ t :: after ∧ t.kind ≠ .endOfFile ∧
        t.kind = got ∧ t.span = span) ∧
    ∀ tree, Tree.read .lenient source = .ok tree →
      tree.leaves <+: Token.significant source ∧
      ∀ before last after, Token.significant source = before ++ last :: after →
        (last.kind = .endOfFile → before ≠ tree.leaves) →
        ∃ cut : String, cut.toByteArray = (⟨0, last.span.stop⟩ : Span).bytes source ∧
          (before.length + 1 = tree.leaves.length → Tree.read .strict cut = .ok tree) ∧
          (tree.leaves.length < before.length + 1 → ∃ e, Tree.read .strict cut = .error e) := by
  refine ⟨?_, ?_, ?_, ?_⟩
  · intro tree h
    exact read_lenient_of_strict_ok h
  · intro e h hne
    exact read_lenient_of_strict_error h hne
  · intro got span
    exact read_strict_trailing_iff
  · intro tree h
    refine ⟨leaves_isPrefix_of_read_lenient h, ?_⟩
    intro before last after hlast hend
    exact read_strict_of_read_lenient h hlast hend

/-- Behind the first number of `1 2*3` comes a product, and no longer start is an expression. -/
theorem lenient_reads_longest_of_two_expressions :
    ∃ tree : Tree, Tree.read .lenient "1 2*3" = .ok tree ∧
      tree.leaves = [⟨.number, ⟨0, 1⟩, some "1", .int 1⟩] ∧
      Tree.read .strict "1 2*3" = .error (.trailingToken .number ⟨2, 3⟩) ∧
      (∃ cut : String, cut.toByteArray = (⟨0, 1⟩ : Span).bytes "1 2*3" ∧
        Tree.read .strict cut = .ok tree) ∧
      ∃ (cut : String) (e : SyntaxError), cut.toByteArray = (⟨0, 4⟩ : Span).bytes "1 2*3" ∧
        Tree.read .strict cut = .error e := by
  let one : Token := ⟨.number, ⟨0, 1⟩, some "1", .int 1⟩
  let two : Token := ⟨.number, ⟨2, 3⟩, some "2", .int 2⟩
  let star : Token := ⟨.star, ⟨3, 4⟩, none, .absent⟩
  let three : Token := ⟨.number, ⟨4, 5⟩, some "3", .int 3⟩
  have hlenient : Tree.read .lenient "1 2*3" = .ok (.literal one (.int 1)) := by rfl
  have htokens : Token.significant "1 2*3" = [one, two, star, three, .endOfFile 5] := by decide
  obtain ⟨_, _, htrailing, hlongest⟩ := lenient_reads_longest "1 2*3"
  have hstrict : Tree.read .strict "1 2*3" = .error (.trailingToken .number ⟨2, 3⟩) :=
    (htrailing .number ⟨2, 3⟩).2
      ⟨_, two, [star, three, .endOfFile 5], hlenient, htokens, Kind.noConfusion, rfl, rfl⟩
  obtain ⟨_, hcuts⟩ := hlongest _ hlenient
  obtain ⟨cut, hcut, hok, _⟩ := hcuts [] one _ htokens Kind.noConfusion
  obtain ⟨longer, hlonger, _, herror⟩ := hcuts [one, two] star _ htokens Kind.noConfusion
  obtain ⟨e, he⟩ := herror (by decide)
  exact ⟨_, hlenient, rfl, hstrict, ⟨cut, hcut, hok rfl⟩, longer, e, hlonger, he⟩

end ExprTree
