import ExprTree.Proofs.Cutting
import ExprTree.Proofs.Sources

set_option autoImplicit false

/-!
# Cutting a source at its tokens

A slice of a source that starts and stops at tokens is itself a source, and its
tokens are those that the source has there, moved to the start of the slice
(`Stream.exists_slice`).  A source that is cut off behind a token keeps the tokens up
to there as they are (`Stream.exists_cut`).
-/

namespace ExprTree

/-- Where what is left of a list comes apart at an element, the list does. -/
theorem exists_append_of_filter {α : Type} {p : α → Bool} {xs ys zs : List α} {z : α}
    (h : xs.filter p = ys ++ z :: zs) :
    ∃ us vs, xs = us ++ z :: vs ∧ us.filter p = ys ∧ vs.filter p = zs := by
  obtain ⟨before, rest, rfl, hbefore, hrest⟩ := List.filter_eq_append_iff.1 h
  obtain ⟨dropped, after, rfl, hdropped, _, hafter⟩ := List.filter_eq_cons_iff.1 hrest
  refine ⟨before ++ dropped, after, by simp, ?_, hafter⟩
  rw [List.filter_append, hbefore, List.filter_eq_nil_iff.2 hdropped, List.append_nil]

namespace Token

/-- Whether the token is no blank. -/
def isSignificant (t : Token) : Bool := t.kind != .whitespace

/-- Whether the tokens stand one after another. -/
def Ordered (ts : List Token) : Prop :=
  (∀ t ∈ ts, t.span.start ≤ t.span.stop) ∧ ts.Pairwise fun t u => t.span.stop ≤ u.span.start

theorem Ordered.of_sublist {ts us : List Token} (h : Ordered us) (hsub : ts.Sublist us) :
    Ordered ts :=
  ⟨fun t ht => h.1 t (hsub.mem ht), h.2.sublist hsub⟩

/-- Stretches from tokens to later tokens are covered by the one from the first to the last. -/
theorem Ordered.hull_eq {ts us : List Token} (h : Ordered (ts ++ us)) {a b c d : Token}
    (ha : a ∈ ts) (hb : b ∈ ts) (hc : c ∈ us) (hd : d ∈ us) :
    (⟨a.span.start, b.span.stop⟩ : Span).hull ⟨c.span.start, d.span.stop⟩ =
      ⟨a.span.start, d.span.stop⟩ := by
  obtain ⟨hle, hpairs⟩ := h
  have hbetween := (List.pairwise_append.1 hpairs).2.2
  apply Span.hull_of_le
  · exact Nat.le_trans (hle a (List.mem_append_left us ha)) (hbetween a ha c hc)
  · exact Nat.le_trans (hbetween b hb d hd) (hle d (List.mem_append_right ts hd))

end Token

namespace Lexeme

/-- No token of lexemes starts before their offset. -/
theorem le_start_of_mem_tokens {offset : Nat} {ls : List Lexeme} :
    ∀ t ∈ tokens offset ls, offset ≤ t.span.start := by
  induction ls generalizing offset with
  | nil => simp [tokens]
  | cons l ls ih =>
      intro t ht
      rcases List.mem_cons.1 ht with rfl | ht
      · have hspan := span_toToken l offset
        exact Nat.le_of_eq (congrArg Span.start hspan).symm
      · exact Nat.le_trans (Nat.le_add_right _ _) (ih t ht)

theorem ordered_tokens (offset : Nat) (ls : List Lexeme) : Token.Ordered (tokens offset ls) := by
  induction ls generalizing offset with
  | nil => exact ⟨by simp [tokens], List.Pairwise.nil⟩
  | cons l ls ih =>
      obtain ⟨hle, hpairs⟩ := ih (offset + l.size)
      constructor
      · intro t ht
        rcases List.mem_cons.1 ht with rfl | ht
        · rw [span_toToken]
          exact Nat.le_add_right _ _
        · exact hle t ht
      · refine List.Pairwise.cons ?_ hpairs
        intro t ht
        rw [span_toToken]
        exact le_start_of_mem_tokens t ht

/-- Significant tokens are kept. -/
theorem isSignificant_of_filter {offset : Nat} {ls : List Lexeme} {ts us : List Token} {t : Token}
    (h : (tokens offset ls).filter Token.isSignificant = ts ++ t :: us) :
    Token.isSignificant t = true := by
  have hmem : t ∈ (tokens offset ls).filter Token.isSignificant := by
    rw [h]
    simp
  exact (List.mem_filter.1 hmem).2

/-- The lexemes up to a significant token. -/
theorem exists_lexemes_upTo {offset : Nat} {ls : List Lexeme} {before after : List Token}
    {last : Token}
    (h : (tokens offset ls).filter Token.isSignificant = before ++ last :: after) :
    ∃ inner back, ls = inner ++ back ∧
      (tokens offset inner).filter Token.isSignificant = before ++ [last] ∧
      last.span.stop = offset + allSize inner := by
  obtain ⟨us, vs, hsplit, hus, _⟩ := exists_append_of_filter h
  rw [← List.singleton_append, ← List.append_assoc] at hsplit
  obtain ⟨inner, back, rfl, hinner, _⟩ := exists_append_of_tokens hsplit
  refine ⟨inner, back, rfl, ?_, ?_⟩
  · rw [hinner, List.filter_append, hus, List.filter_cons_of_pos (isSignificant_of_filter h)]
    rfl
  · apply stop_of_tokens
    rw [hinner, List.getLast?_concat]
    rfl

/-- The lexemes from a significant token on. -/
theorem exists_lexemes_from {offset : Nat} {ls : List Lexeme} {before after : List Token}
    {first : Token}
    (h : (tokens offset ls).filter Token.isSignificant = before ++ first :: after) :
    ∃ front inner, ls = front ++ inner ∧ first.span.start = offset + allSize front ∧
      (tokens (offset + allSize front) inner).filter Token.isSignificant = first :: after := by
  obtain ⟨us, vs, hsplit, _, hvs⟩ := exists_append_of_filter h
  obtain ⟨front, inner, rfl, _, hinner⟩ := exists_append_of_tokens hsplit
  refine ⟨front, inner, rfl, ?_, ?_⟩
  · apply start_of_tokens
    rw [hinner]
    rfl
  · rw [hinner, List.filter_cons_of_pos (isSignificant_of_filter h), hvs]

/-- The lexemes before, in and behind a stretch of the significant tokens. -/
theorem exists_lexemes_around {ls : List Lexeme} {before part after : List Token}
    {first last : Token}
    (h : (tokens 0 ls).filter Token.isSignificant = before ++ part ++ after)
    (hfirst : part.head? = some first) (hlast : part.getLast? = some last) :
    ∃ front inner back, ls = front ++ (inner ++ back) ∧ first.span.start = allSize front ∧
      last.span.stop = first.span.start + allSize inner ∧
      (tokens 0 front).filter Token.isSignificant = before ∧
      (tokens first.span.start inner).filter Token.isSignificant = part ∧
      (tokens last.span.stop back).filter Token.isSignificant = after := by
  obtain ⟨more, rfl⟩ := List.head?_eq_some_iff.1 hfirst
  obtain ⟨init, hinit⟩ := List.getLast?_eq_some_iff.1 hlast
  have hfrom := h
  rw [List.append_assoc, List.cons_append] at hfrom
  obtain ⟨front, rest, rfl, hstart, hrest⟩ := exists_lexemes_from hfrom
  have hupTo := hrest
  rw [← List.cons_append, hinit, List.append_assoc, List.singleton_append] at hupTo
  obtain ⟨inner, back, rfl, hinner, hstop⟩ := exists_lexemes_upTo hupTo
  rw [← hstart] at hstop hinner hrest
  refine ⟨front, inner, back, rfl, by omega, hstop, ?_, hinit ▸ hinner, ?_⟩
  · rw [tokens_append, ← hstart, List.filter_append, hrest, ← List.cons_append,
      ← List.append_assoc] at h
    exact List.append_cancel_right (List.append_cancel_right h)
  · rw [tokens_append, ← hstop, List.filter_append, hinner, ← hinit, ← List.cons_append] at hrest
    exact List.append_cancel_left hrest

end Lexeme

/-! ## Slices of a source -/

namespace Stream

open Lexeme

/-- A source with valid tokens only is cut into lexemes, whose significant tokens are ahead. -/
theorem exists_unfused_of_ofString {source : String} {s : Stream} (hs : ofString source = .ok s) :
    ∃ ls, Unfused ls ∧ allChars ls = source.toList ∧
      (tokens 0 ls).filter Token.isSignificant = s.ahead ∧
      ∀ t ∈ tokens 0 ls, t.kind ≠ .invalid := by
  obtain ⟨ls, hunfused, hchars, htokens⟩ := (Scanner.ofList source.toList).exists_unfused
  obtain ⟨hvalid, hfinish, hahead⟩ := ofString_eq_ok_iff.1 hs
  refine ⟨ls, hunfused, hchars, ?_, ?_⟩
  · rw [Token.significant_eq, hfinish] at hahead
    rw [← List.append_cancel_right hahead, htokens]
    rfl
  · intro t ht
    apply hvalid
    rw [scan_eq, htokens]
    exact List.mem_append_left _ ht

/-- The tokens ahead in a source stand one after another. -/
theorem ordered_ahead {source : String} {s : Stream} (hs : ofString source = .ok s) :
    Token.Ordered s.ahead := by
  obtain ⟨ls, _, _, hsignificant, _⟩ := exists_unfused_of_ofString hs
  rw [← hsignificant]
  exact (ordered_tokens 0 ls).of_sublist List.filter_sublist

/-- Lexemes that are not fused, and whose tokens are valid, make a source with these tokens. -/
theorem ofString_of_unfused {ls : List Lexeme} (h : Unfused ls)
    (hvalid : ∀ t ∈ tokens 0 ls, t.kind ≠ .invalid) :
    ofString (String.ofList (allChars ls)) =
      .ok ⟨(tokens 0 ls).filter Token.isSignificant,
        (String.ofList (allChars ls)).utf8ByteSize⟩ := by
  have hscan : (Scanner.ofList (String.ofList (allChars ls)).toList).upToEnd = tokens 0 ls := by
    rw [String.toList_ofList]
    exact Scanner.upToEnd_of_unfused 0 h
  rw [ofString_eq_ok_iff, Token.significant_eq, scan_eq, hscan]
  refine ⟨?_, rfl, rfl⟩
  intro t ht
  rcases List.mem_append.1 ht with ht | ht
  · exact hvalid t ht
  · rw [List.mem_singleton] at ht
    rw [ht]
    exact Kind.noConfusion

/-- A source that is cut off behind a token has the tokens up to there. -/
theorem exists_cut {source : String} {s : Stream} {before after : List Token} {last : Token}
    (hs : ofString source = .ok s) (hahead : s.ahead = before ++ last :: after) :
    ∃ cut : String, cut.toByteArray = (⟨0, last.span.stop⟩ : Span).bytes source ∧
      ofString cut = .ok ⟨before ++ [last], cut.utf8ByteSize⟩ := by
  obtain ⟨ls, hunfused, hchars, hsignificant, hvalid⟩ := exists_unfused_of_ofString hs
  rw [hahead] at hsignificant
  obtain ⟨inner, back, rfl, hinner, hstop⟩ := exists_lexemes_upTo hsignificant
  have hsplit : source.toList = [] ++ allChars inner ++ allChars back := by
    rw [← hchars, allChars_append, List.nil_append]
  have hbytes := Text.bytes_of_append hsplit
  refine ⟨String.ofList (allChars inner), ?_, ?_⟩
  · rw [hstop, ← hbytes]
    rfl
  · rw [ofString_of_unfused hunfused.of_append_left, hinner]
    intro t ht
    apply hvalid
    rw [tokens_append]
    exact List.mem_append_left _ ht

/-- A source that is cut on both sides of tokens has these tokens, from its own start on. -/
theorem exists_slice {source : String} {s : Stream} {before part after : List Token}
    {first last : Token} (hs : ofString source = .ok s) (hahead : s.ahead = before ++ part ++ after)
    (hfirst : part.head? = some first) (hlast : part.getLast? = some last) :
    ∃ (slice : String) (ts : List Token),
      (⟨first.span.start, last.span.stop⟩ : Span).OnCharacters source ∧
      slice.toByteArray = (⟨first.span.start, last.span.stop⟩ : Span).bytes source ∧
      ofString slice = .ok ⟨ts, slice.utf8ByteSize⟩ ∧
      ts.map (Token.shift first.span.start) = part := by
  obtain ⟨ls, hunfused, hchars, hsignificant, hvalid⟩ := exists_unfused_of_ofString hs
  rw [hahead] at hsignificant
  obtain ⟨front, inner, back, rfl, hstart, hstop, _, hinner, _⟩ :=
    exists_lexemes_around hsignificant hfirst hlast
  rw [hstart] at hstop hinner
  have hsplit : source.toList = allChars front ++ allChars inner ++ allChars back := by
    rw [← hchars, allChars_append, allChars_append, List.append_assoc]
  have hshift : tokens (allSize front) inner =
      (tokens 0 inner).map (Token.shift (allSize front)) := by
    rw [← tokens_add, Nat.zero_add]
  have hinside : ∀ t ∈ tokens 0 inner, t.kind ≠ .invalid := by
    intro t ht
    apply hvalid (t.shift (allSize front))
    rw [tokens_append, tokens_append, Nat.zero_add, hshift]
    exact List.mem_append_right _ (List.mem_append_left _ (List.mem_map_of_mem ht))
  refine ⟨String.ofList (allChars inner), _, ?_, ?_,
    ofString_of_unfused hunfused.of_append_right.of_append_left hinside, ?_⟩
  · rw [hstart, hstop]
    exact Text.onCharacters_of_append hsplit
  · rw [hstart, hstop, ← Text.bytes_of_append hsplit]
    rfl
  · rw [← hinner, hstart, hshift, List.filter_map]
    rfl

end Stream

end ExprTree
