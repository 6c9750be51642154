import ExprTree.Proofs.Correspondence
import ExprTree.Proofs.Unparsing

set_option autoImplicit false

/-!
# Spaces between tokens

Spaces that are put into a source between two of its tokens move the tokens behind
them, and do nothing else: they join the blanks around them, or separate lexemes that
end there anyway.  So the significant tokens are the old ones with some spans moved,
and reading, which does not look at spans, gives the old result with the same spans
moved (`read_insert_spaces`).
-/

namespace ExprTree

/-! ## Spans that are moved -/

/-- The span `n` bytes further on if it starts at the offset or behind it, and the span itself
otherwise. -/
def Span.shiftFrom (offset n : Nat) (s : Span) : Span := if offset ≤ s.start then s.shift n else s

/-- The token with its span changed. -/
def Token.mapSpan (f : Span → Span) (t : Token) : Token := { t with span := f t.span }

/-- The tree with the spans of all its tokens changed. -/
def Tree.mapSpans (f : Span → Span) (tree : Tree) : Tree := tree.mapTokens (Token.mapSpan f)

/-- The refusal with the span that it points at changed. -/
def SyntaxError.mapSpan (f : Span → Span) : SyntaxError → SyntaxError
  | invalidToken text span => invalidToken text (f span)
  | unexpectedToken expected got span => unexpectedToken expected got (f span)
  | trailingToken got span => trailingToken got (f span)
  | nestingTooDeep limit span => nestingTooDeep limit (f span)

theorem Token.mapSpan_shiftFrom_of_le {offset n : Nat} {t : Token} (h : offset ≤ t.span.start) :
    t.mapSpan (Span.shiftFrom offset n) = t.shift n := by
  rw [mapSpan, Span.shiftFrom, if_pos h, shift]

theorem Token.mapSpan_shiftFrom_of_lt {offset n : Nat} {t : Token} (h : t.span.start < offset) :
    t.mapSpan (Span.shiftFrom offset n) = t := by
  rw [mapSpan, Span.shiftFrom, if_neg (Nat.not_le.2 h)]

section

variable {f : Span → Span}

theorem Token.likened_mapSpan : Likened fun t u => u = t.mapSpan f := by
  rintro t u rfl
  rfl

theorem Tree.eq_mapSpans_of_parallel {tree other : Tree}
    (h : Parallel (fun t u => u = t.mapSpan f) tree other) : other = tree.mapSpans f := by
  induction h with
  | binary _ hoperator _ ihl ihr =>
      rw [ihl, hoperator, ihr]
      rfl
  | unary hoperator _ ih =>
      rw [hoperator, ih]
      rfl
  | parenthesized hopening _ hclosing ih =>
      rw [hopening, ih, hclosing]
      rfl
  | literal htoken =>
      rw [htoken]
      rfl
  | name htoken =>
      rw [htoken]
      rfl
  | assignment _ hequals _ iht ihv =>
      rw [iht, hequals, ihv]
      rfl

theorem SyntaxError.eq_mapSpan_of_parallel {e e' : SyntaxError}
    (h : Parallel (fun t u => u = t.mapSpan f) e e') : e' = e.mapSpan f := by
  cases h <;> rename_i htoken <;> rw [htoken] <;> rfl

/-- A source whose significant tokens are those of another with their spans changed is read to the
same result with these spans changed. -/
theorem Tree.read_of_significant {source other : String}
    (h : Token.significant other = (Token.significant source).map (Token.mapSpan f)) (mode : Mode) :
    read mode other = ((read mode source).map (mapSpans f)).mapError (SyntaxError.mapSpan f) := by
  have hforall : List.Forall₂ (fun t u => u = Token.mapSpan f t) (Token.significant source)
      (Token.significant other) := by
    rw [h, List.forall₂_map_right_iff, List.forall₂_same]
    intro t _
    rfl
  have hread := parallel_read Token.likened_mapSpan hforall mode
  generalize read mode source = result, read mode other = result' at hread
  cases hread with
  | ok htree =>
      rw [eq_mapSpans_of_parallel htree]
      rfl
  | error herror =>
      rw [SyntaxError.eq_mapSpan_of_parallel herror]
      rfl

end

/-! ## Scanning past spaces -/

namespace Shape

/-- Where a lexeme that is no spaces ends, it also ends when spaces are put in behind it or further
on. -/
theorem EndsBefore.insert_spaces {s : Shape} {xs ys : List Char} (n : Nat) (hs : s ≠ blanks)
    (h : s.EndsBefore (xs ++ ys)) : s.EndsBefore (xs ++ (List.replicate n ' ' ++ ys)) := by
  cases xs with
  | nil =>
      cases n with
      | zero => exact h
      | succ n => exact endsBefore_cons.2 (extend?_space hs)
  | cons c xs => exact endsBefore_cons.2 (endsBefore_cons.1 h)

end Shape

/-- A text comes apart into the spaces at its start and a rest that starts with none. -/
theorem exists_leading_spaces (cs : List Char) :
    ∃ n ds, cs = List.replicate n ' ' ++ ds ∧ Shape.blanks.EndsBefore ds := by
  induction cs with
  | nil => exact ⟨0, [], rfl, Shape.endsBefore_nil _⟩
  | cons c cs ih =>
      by_cases hc : c = ' '
      · obtain ⟨n, ds, rfl, hds⟩ := ih
        refine ⟨n + 1, ds, ?_, hds⟩
        rw [hc, List.replicate_succ, List.cons_append]
      · refine ⟨0, c :: cs, rfl, Shape.endsBefore_cons.2 ?_⟩
        rw [Shape.extend?, if_neg hc]

theorem Text.byteSize_spaces (n : Nat) : byteSize (List.replicate n ' ') = n := by
  have hspaces : Shape.blanks.Describes (List.replicate n ' ') := fun c hc =>
    List.eq_of_mem_replicate hc
  have hlength := congrArg List.length (Lexeme.eq_replicate_of_blanks hspaces)
  rw [List.length_replicate, List.length_replicate] at hlength
  exact hlength.symm

namespace Scanner

open Lexeme

/-- The tokens that are left, without blanks. -/
def significant (s : Scanner) : List Token := s.upToEnd.filter Token.isSignificant

/-- All spaces up to a character that is none are one blank. -/
theorem significant_of_endsBefore (offset n : Nat) {cs : List Char}
    (h : Shape.blanks.EndsBefore cs) :
    (Scanner.mk offset (List.replicate n ' ' ++ cs)).significant =
      (Scanner.mk (offset + n) cs).significant := by
  cases n with
  | zero => rfl
  | succ n =>
      have hwhole : Whole ⟨.blanks, List.replicate (n + 1) ' '⟩ :=
        Shape.read?_blanks (List.cons_ne_nil _ _) fun c hc => List.eq_of_mem_replicate hc
      have htokens := upToEnd_of_whole offset hwhole h
      rw [Lexeme.size, Text.byteSize_spaces] at htokens
      rw [significant, htokens, List.filter_cons_of_neg]
      · rfl
      · exact Bool.false_ne_true

/-- Spaces at the start of a text only move what follows them. -/
theorem significant_spaces (offset n : Nat) (cs : List Char) :
    (Scanner.mk offset (List.replicate n ' ' ++ cs)).significant =
      (Scanner.mk (offset + n) cs).significant := by
  obtain ⟨m, ds, rfl, hds⟩ := exists_leading_spaces cs
  rw [← List.append_assoc, List.replicate_append_replicate, significant_of_endsBefore _ _ hds,
    significant_of_endsBefore _ _ hds, Nat.add_assoc]

/-- Spaces that are put in between lexemes move those behind them, and add no significant token. -/
theorem significant_insert_spaces (offset n : Nat) {front back : List Lexeme}
    (h : Unfused (front ++ back)) :
    (Scanner.mk offset (allChars front ++ (List.replicate n ' ' ++ allChars back))).significant =
      (tokens offset front).filter Token.isSignificant ++
        (tokens (offset + allSize front + n) back).filter Token.isSignificant := by
  induction front generalizing offset with
  | nil =>
      rw [List.nil_append] at h
      rw [allChars_nil, List.nil_append, significant_spaces, significant, upToEnd_of_unfused _ h]
      rfl
  | cons l front ih =>
      rw [List.cons_append] at h
      obtain ⟨hwhole, hends, hrest⟩ := h
      have hmore := ih (offset + l.size) hrest
      rw [Nat.add_assoc offset, ← allSize_cons] at hmore
      rw [allChars_append] at hends
      rw [allChars_cons, List.append_assoc, tokens]
      by_cases hblanks : l.shape = .blanks
      · -- Spaces may be fused with the ones put in, and are no significant token in either case.
        have hchars : l.chars = List.replicate l.size ' ' := by
          apply eq_replicate_of_blanks
          rw [← hblanks]
          exact Shape.describes_of_read? hwhole
        have htoken : ¬ Token.isSignificant (l.toToken offset) = true := by
          rw [toToken, hblanks]
          exact Bool.false_ne_true
        rw [hchars, significant_spaces, hmore, List.filter_cons_of_neg htoken]
      · have hsolid : l.Solid := ⟨hwhole, hblanks⟩
        rw [significant, upToEnd_of_whole offset hwhole (hends.insert_spaces n hblanks),
          List.filter_cons_of_pos (hsolid.isSignificant offset),
          List.filter_cons_of_pos (hsolid.isSignificant offset), List.cons_append, ← hmore,
          significant]

end Scanner

/-! ## Between two tokens -/

/-- Whether a token of the source starts or stops at the offset. -/
def Token.IsBoundary (source : String) (offset : Nat) : Prop :=
  ∃ t ∈ scan source, t.span.start = offset ∨ t.span.stop = offset

namespace Lexeme

/-- Where a token of lexemes starts or stops, the lexemes come apart. -/
theorem exists_append_of_boundary {start offset : Nat} {ls : List Lexeme} {t : Token}
    (ht : t ∈ tokens start ls) (h : t.span.start = offset ∨ t.span.stop = offset) :
    ∃ front back, ls = front ++ back ∧ start + allSize front = offset := by
  obtain ⟨before, after, hsplit⟩ := List.append_of_mem ht
  rcases h with rfl | rfl
  · obtain ⟨front, back, rfl, _, hback⟩ := exists_append_of_tokens hsplit
    have hhead : t ∈ (tokens (start + allSize front) back).head? := by
      rw [hback]
      rfl
    exact ⟨front, back, rfl, (start_of_tokens t hhead).symm⟩
  · rw [← List.singleton_append, ← List.append_assoc] at hsplit
    obtain ⟨front, back, rfl, hfront, _⟩ := exists_append_of_tokens hsplit
    have hlast : t ∈ (tokens start front).getLast? := by
      rw [hfront, List.getLast?_concat]
      rfl
    exact ⟨front, back, rfl, (stop_of_tokens t hlast).symm⟩

/-- A whole lexeme has bytes. -/
theorem Whole.size_pos {l : Lexeme} (h : l.Whole) : 0 < l.size := Text.byteSize_pos h.chars_ne_nil

/-- Every token of whole lexemes starts before they end. -/
theorem start_lt_of_mem_tokens {offset : Nat} {ls : List Lexeme} (h : ∀ l ∈ ls, l.Whole) :
    ∀ t ∈ tokens offset ls, t.span.start < offset + allSize ls := by
  induction ls generalizing offset with
  | nil => simp [tokens]
  | cons l ls ih =>
      obtain ⟨hl, hls⟩ := List.forall_mem_cons.1 h
      intro t ht
      rw [allSize_cons, ← Nat.add_assoc]
      rcases List.mem_cons.1 ht with rfl | ht
      · have hpos := hl.size_pos
        rw [span_toToken]
        simp only
        omega
      · exact ih hls t ht

/-- The tokens of lexemes, with those from a place between the lexemes on moved. -/
theorem map_shiftFrom_tokens {front back : List Lexeme} (n : Nat) (h : ∀ l ∈ front, l.Whole) :
    (tokens 0 (front ++ back)).map (Token.mapSpan (Span.shiftFrom (allSize front) n)) =
      tokens 0 front ++ tokens (allSize front + n) back := by
  rw [tokens_append, Nat.zero_add, List.map_append, tokens_add]
  congr 1
  · conv => rhs; rw [← List.map_id (tokens 0 front)]
    apply List.map_congr_left
    intro t ht
    have hlt := start_lt_of_mem_tokens h t ht
    rw [Nat.zero_add] at hlt
    exact Token.mapSpan_shiftFrom_of_lt hlt
  · apply List.map_congr_left
    intro t ht
    exact Token.mapSpan_shiftFrom_of_le (le_start_of_mem_tokens t ht)

end Lexeme

/-- A source is cut into lexemes, and comes apart between them at every boundary. -/
theorem Token.IsBoundary.exists_lexemes {source : String} {offset : Nat}
    (h : IsBoundary source offset) :
    ∃ front back, Lexeme.Unfused (front ++ back) ∧
      source.toList = Lexeme.allChars front ++ Lexeme.allChars back ∧
      Lexeme.allSize front = offset := by
  obtain ⟨t, ht, hoffset⟩ := h
  obtain ⟨ls, hunfused, hchars, htokens⟩ := (Scanner.ofList source.toList).exists_unfused
  have hsource : source.toList = Lexeme.allChars ls := hchars.symm
  rw [scan_eq, htokens, List.mem_append, List.mem_singleton] at ht
  rcases ht with ht | rfl
  · obtain ⟨front, back, rfl, hfront⟩ := Lexeme.exists_append_of_boundary ht hoffset
    rw [Lexeme.allChars_append] at hsource
    exact ⟨front, back, hunfused, hsource, (Nat.zero_add _).symm.trans hfront⟩
  · -- The end-of-file token starts and stops behind all lexemes.
    have hend : source.utf8ByteSize = offset := by
      rcases hoffset with h | h <;> exact h
    refine ⟨ls, [], ?_, ?_, ?_⟩
    · rw [List.append_nil]
      exact hunfused
    · rw [hsource, Lexeme.allChars_nil, List.append_nil]
    · rw [← hend, ← Text.byteSize_toList, hsource, Lexeme.allSize]

/-- Spaces between tokens change the significant tokens only in their spans. -/
theorem Token.significant_insert_spaces {source : String} {offset : Nat}
    (h : IsBoundary source offset) (n : Nat) :
    ∃ before after : String, source = before ++ after ∧ before.utf8ByteSize = offset ∧
      significant (before ++ String.ofList (List.replicate n ' ') ++ after) =
        (significant source).map (mapSpan (Span.shiftFrom offset n)) := by
  obtain ⟨front, back, hunfused, hchars, rfl⟩ := h.exists_lexemes
  have hsource : source =
      String.ofList (Lexeme.allChars front) ++ String.ofList (Lexeme.allChars back) := by
    rw [← String.ofList_append, ← hchars, String.ofList_toList]
  refine ⟨_, _, hsource, (Text.byteSize_eq_ofList _).symm, ?_⟩
  -- The tokens before the end, of both sources.
  have hold : (Scanner.ofList source.toList).upToEnd = Lexeme.tokens 0 (front ++ back) := by
    rw [hchars, ← Lexeme.allChars_append]
    exact Scanner.upToEnd_of_unfused 0 hunfused
  have hnew := Scanner.significant_insert_spaces 0 n hunfused
  rw [Nat.zero_add, ← List.filter_append,
    ← Lexeme.map_shiftFrom_tokens n hunfused.of_append_left.whole, ← hold] at hnew
  -- The end-of-file token is behind the spaces.
  have hsize : source.utf8ByteSize = Lexeme.allSize front + Lexeme.allSize back := by
    rw [← Text.byteSize_toList, hchars, Text.byteSize_append, Lexeme.allSize, Lexeme.allSize]
  have hend : (Token.endOfFile source.utf8ByteSize).mapSpan
      (Span.shiftFrom (Lexeme.allSize front) n) = .endOfFile (source.utf8ByteSize + n) := by
    rw [mapSpan_shiftFrom_of_le]
    · rfl
    · rw [hsize]
      exact Nat.le_add_right _ _
  have hspaced : (String.ofList (Lexeme.allChars front) ++ String.ofList (List.replicate n ' ') ++
      String.ofList (Lexeme.allChars back)).toList =
        Lexeme.allChars front ++ (List.replicate n ' ' ++ Lexeme.allChars back) := by
    simp
  have hlonger : source.utf8ByteSize + n = Text.byteSize
      (Lexeme.allChars front ++ (List.replicate n ' ' ++ Lexeme.allChars back)) := by
    rw [hsize, Text.byteSize_append, Text.byteSize_append, Text.byteSize_spaces, Lexeme.allSize,
      Lexeme.allSize]
    omega
  rw [List.filter_map] at hnew
  rw [significant_eq, significant_eq, List.map_append, List.map_singleton, hend, hlonger,
    ← Text.byteSize_toList (_ ++ _), hspaced]
  exact congrArg (fun ts => ts ++ [endOfFile _]) hnew

/-- Any number of spaces at a boundary of tokens, the start and the end of the source included,
changes nothing in what a reader makes of the source but the spans of the tokens from there on: the
tree or the refusal is the same, with exactly these spans moved by the number of spaces. -/
theorem read_insert_spaces (mode : Mode) (source : String) (offset n : Nat)
    (h : Token.IsBoundary source offset) :
    ∃ before after : String, source = before ++ after ∧ before.utf8ByteSize = offset ∧
      Tree.read mode (before ++ String.ofList (List.replicate n ' ') ++ after) =
        ((Tree.read mode source).map (Tree.mapSpans (Span.shiftFrom offset n))).mapError
          (SyntaxError.mapSpan (Span.shiftFrom offset n)) := by
  obtain ⟨before, after, hsource, hoffset, hsignificant⟩ := Token.significant_insert_spaces h n
  exact ⟨before, after, hsource, hoffset, Tree.read_of_significant hsignificant mode⟩

/-- Two spaces between the touching lexemes `12ab` and `3`, which no reader takes for one, move the
token that a strict reader refuses. -/
theorem read_insert_spaces_of_touching :
    Token.IsBoundary "é+12ab3" 7 ∧ ∃ before after : String,
      "é+12ab3" = before ++ after ∧ before.utf8ByteSize = 7 ∧
      Tree.read .strict "é+12ab3" = .error (.trailingToken .number ⟨7, 8⟩) ∧
      Tree.read .strict (before ++ "  " ++ after) = .error (.trailingToken .number ⟨9, 10⟩) := by
  have hboundary : Token.IsBoundary "é+12ab3" 7 :=
    ⟨⟨.number, ⟨7, 8⟩, some "3", .int 3⟩, by decide, .inl rfl⟩
  have hread : Tree.read .strict "é+12ab3" = .error (.trailingToken .number ⟨7, 8⟩) := by rfl
  obtain ⟨before, after, hsource, hoffset, hspaced⟩ :=
    read_insert_spaces .strict "é+12ab3" 7 2 hboundary
  rw [hread] at hspaced
  exact ⟨hboundary, before, after, hsource, hoffset, hread, hspaced⟩

end ExprTree
