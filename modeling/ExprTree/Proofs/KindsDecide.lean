import ExprTree.Proofs.Reuse
import ExprTree.Proofs.Spacing

set_option autoImplicit false

/-!
# Only the kinds of tokens decide

Two sources with the same kinds of significant tokens, one after another, correspond
token by token, so reading them takes the same course: it ends with trees of one form
over tokens at the same indices, or with the same refusal of tokens at the same index,
and a cursor that is used again and again is at the same positions after each attempt
(`read_alike_of_kinds`).  What names are spelled, which values numbers have and where
the tokens stand does not matter.
-/

namespace ExprTree

/-! ## Tokens at the same index -/

/-- Tokens of one kind that have the same index among the significant tokens of two sources. -/
def Token.SameIndex (source other : String) (t u : Token) : Prop :=
  t.kind = u.kind ∧ ∃ i : Nat, (significant source)[i]? = some t ∧ (significant other)[i]? = some u

theorem Token.likened_sameIndex (source other : String) : Likened (SameIndex source other) :=
  fun _ _ h => h.1

/-- Sources with the same kinds of significant tokens correspond. -/
theorem Token.forall₂_sameIndex {source other : String}
    (h : (significant source).map kind = (significant other).map kind) :
    List.Forall₂ (SameIndex source other) (significant source) (significant other) := by
  have hlength := congrArg List.length h
  rw [List.length_map, List.length_map] at hlength
  rw [List.forall₂_iff_get]
  refine ⟨hlength, ?_⟩
  intro i hi hi'
  refine ⟨?_, i, List.getElem?_eq_getElem hi, List.getElem?_eq_getElem hi'⟩
  have hkind := congrArg (fun kinds => kinds[i]?) h
  simp only [List.getElem?_map, List.getElem?_eq_getElem hi, List.getElem?_eq_getElem hi',
    Option.map_some, Option.some.injEq] at hkind
  exact hkind

/-- A source with valid tokens only has a stream. -/
theorem Stream.exists_ofString_eq_ok {source : String}
    (h : ∀ t ∈ Token.scan source, t.kind ≠ .invalid) : ∃ s, ofString source = .ok s :=
  ⟨⟨_, _⟩, ofString_eq_ok_iff.2 ⟨h, rfl, Token.significant_eq source⟩⟩

/-- The tokens of whole lexemes start one behind the other. -/
theorem Lexeme.pairwise_start_lt {offset : Nat} {ls : List Lexeme} (h : ∀ l ∈ ls, l.Whole) :
    (tokens offset ls).Pairwise fun t u => t.span.start < u.span.start := by
  induction ls generalizing offset with
  | nil => exact .nil
  | cons l ls ih =>
      obtain ⟨hl, hls⟩ := List.forall_mem_cons.1 h
      refine .cons ?_ (ih hls)
      intro t ht
      have hbehind := le_start_of_mem_tokens t ht
      have hsize := hl.size_pos
      rw [span_toToken]
      change offset < t.span.start
      omega

/-- No two significant tokens have the same span. -/
theorem Token.nodup_span_significant (source : String) :
    ((significant source).map span).Nodup := by
  obtain ⟨ls, hunfused, hchars, htokens⟩ := (Scanner.ofList source.toList).exists_unfused
  have hend : source.utf8ByteSize = 0 + Lexeme.allSize ls := by
    rw [Nat.zero_add, Lexeme.allSize, hchars, ← Text.byteSize_toList]
    rfl
  -- With the end-of-file token the starts still ascend.
  have hstarts : (significant source).Pairwise fun t u => t.span.start < u.span.start := by
    rw [significant_eq, htokens, List.pairwise_append]
    refine ⟨(Lexeme.pairwise_start_lt hunfused.whole).filter _, List.pairwise_singleton _ _, ?_⟩
    intro t ht u hu
    rw [List.mem_singleton.1 hu, hend]
    exact Lexeme.start_lt_of_mem_tokens hunfused.whole t (List.mem_filter.1 ht).1
  rw [List.Nodup, List.pairwise_map]
  apply hstarts.imp
  intro t u hlt hspan
  rw [hspan] at hlt
  exact Nat.lt_irrefl _ hlt

/-! ## Attempts that correspond -/

/-- Attempts from the same position to the same position, with results that correspond. -/
structure Call.Parallel (ρ : Token → Token → Prop) (a b : Call) : Prop where
  before_eq : a.before.position = b.before.position
  after_eq : a.after.position = b.after.position
  result : Result.Parallel ρ (Tree.Parallel ρ) a.result b.result

/-- Cursors at the same position that show corresponding streams are used alike. -/
theorem Cursor.exists_parallel_calls {ρ : Token → Token → Prop} (hρ : Token.Likened ρ) (mode : Mode)
    (times : Nat) {c c' : Cursor} {s u : Stream} (hdepth : c.depth = 0) (hdepth' : c'.depth = 0)
    (hposition : c.position = c'.position) (hs : c.Shows s) (hu : c'.Shows u)
    (h : s.Parallel ρ u) :
    ∃ calls calls', c.readTimes mode times = .ok calls ∧ c'.readTimes mode times = .ok calls' ∧
      List.Forall₂ (Call.Parallel ρ) calls calls' := by
  induction times generalizing c c' s u with
  | zero => exact ⟨[], [], rfl, rfl, .nil⟩
  | succ times ih =>
      obtain ⟨d, hread, hreaches⟩ := Move.exists_read_eq mode hdepth hs
      obtain ⟨d', hread', hreaches'⟩ := Move.exists_read_eq mode hdepth' hu
      obtain ⟨hresult, hrest⟩ := Reader.parallel_read hρ mode h
      -- As many tokens are left of one source as of the other, before and after.
      have hafter : d.position = d'.position := by
        have hlength := hs.length_eq
        have hlength' := hu.length_eq
        have hmore := hreaches.shows.length_eq
        have hmore' := hreaches'.shows.length_eq
        rw [hreaches.tokens_eq] at hmore
        rw [hreaches'.tokens_eq] at hmore'
        have hahead := h.ahead.length_eq
        have hleft := hrest.ahead.length_eq
        omega
      obtain ⟨calls, calls', hcalls, hcalls', hparallel⟩ :=
        ih (hreaches.depth_eq.trans hdepth) (hreaches'.depth_eq.trans hdepth') hafter
          hreaches.shows hreaches'.shows hrest
      exact ⟨_, _, readTimes_succ_of_read_eq hread hcalls, readTimes_succ_of_read_eq hread' hcalls',
        .cons ⟨hposition, hafter, hresult⟩ hparallel⟩

/-- Of two sources with the same kinds of tokens but blanks, none of them invalid, the readers of
either mode make the same, however often they are asked: trees of one form whose leaves are tokens
at the same indices, or the same refusal with the span of the token at the same index, and the
position after each attempt is the same.  No two tokens have the same span, so that a span says
which index is meant. -/
theorem read_alike_of_kinds {source other : String}
    (hvalid : ∀ t ∈ Token.scan source, t.kind ≠ .invalid)
    (hkinds : (Token.significant source).map Token.kind =
      (Token.significant other).map Token.kind) (mode : Mode) (times : Nat) :
    Result.Parallel (Token.SameIndex source other) (Tree.Parallel (Token.SameIndex source other))
      (Tree.read mode source) (Tree.read mode other) ∧
    (∃ calls calls',
      Cursor.readTimes mode times ⟨Token.significant source, 0, 0⟩ = .ok calls ∧
      Cursor.readTimes mode times ⟨Token.significant other, 0, 0⟩ = .ok calls' ∧
      List.Forall₂ (Call.Parallel (Token.SameIndex source other)) calls calls') ∧
    ((Token.significant source).map Token.span).Nodup ∧
    ((Token.significant other).map Token.span).Nodup := by
  have htokens := Token.forall₂_sameIndex hkinds
  have hlikened := Token.likened_sameIndex source other
  refine ⟨Tree.parallel_read hlikened htokens mode, ?_, Token.nodup_span_significant source,
    Token.nodup_span_significant other⟩
  obtain ⟨s, hs⟩ := Stream.exists_ofString_eq_ok hvalid
  have hstreams := Stream.parallel_ofString hlikened htokens
  rw [hs] at hstreams
  generalize hother : Stream.ofString other = out at hstreams
  cases hstreams with
  | ok hstream =>
      obtain ⟨_, _, hshows⟩ := Stream.ofString_eq_ok_iff.1 hs
      obtain ⟨_, _, hshows'⟩ := Stream.ofString_eq_ok_iff.1 hother
      exact Cursor.exists_parallel_calls hlikened mode times rfl rfl rfl hshows hshows' hstream

/-- Two assignments before a parenthesis that opens nothing, over which a second attempt fails. -/
theorem read_alike_of_kinds_of_assignments :
    (Token.significant "x = 12 )").map Token.kind = (Token.significant "total=7)").map Token.kind ∧
    ∃ calls calls', Cursor.readTimes .lenient 2 ⟨Token.significant "x = 12 )", 0, 0⟩ = .ok calls ∧
      Cursor.readTimes .lenient 2 ⟨Token.significant "total=7)", 0, 0⟩ = .ok calls' ∧
      List.Forall₂ (Call.Parallel (Token.SameIndex "x = 12 )" "total=7)")) calls calls' ∧
      calls.map (fun call => call.after.position) = [3, 3] ∧
      Tree.read .strict "total=7)" = .error (.trailingToken .closeParen ⟨7, 8⟩) := by
  have hvalid : ∀ t ∈ Token.scan "x = 12 )", t.kind ≠ .invalid := by decide
  have hkinds : (Token.significant "x = 12 )").map Token.kind =
      (Token.significant "total=7)").map Token.kind := by decide
  obtain ⟨_, ⟨calls, calls', hcalls, hcalls', hparallel⟩, _⟩ :=
    read_alike_of_kinds hvalid hkinds .lenient 2
  have hpositions : (Cursor.readTimes .lenient 2 ⟨Token.significant "x = 12 )", 0, 0⟩).map
      (fun calls => calls.map fun call => call.after.position) = .ok [3, 3] := by rfl
  rw [hcalls] at hpositions
  exact ⟨hkinds, calls, calls', hcalls, hcalls', hparallel, Except.ok.inj hpositions, rfl⟩

end ExprTree
