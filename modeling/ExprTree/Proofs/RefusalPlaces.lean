import ExprTree.Proofs.Correspondence
import ExprTree.Proofs.LongestPrefix

set_option autoImplicit false

/-!
# What refusals point at

A refusal points at a token of the source, the end-of-file token among them but never
a blank, and the kind that it says it met is that of this token.  Reading carries
tokens along unseen, so this follows from reading the source beside itself: what
becomes of corresponding tokens corresponds, and a token corresponds to itself only if
it is one of the source.  The refusal of an invalid token comes before all others: it
is given exactly for the sources that have such a token, for the first of them
(`read_error_points`).
-/

namespace ExprTree

/-! ## The token that a refusal points at -/

namespace SyntaxError

/-- The kind that the refusal says was met, if it says one. -/
def got? : SyntaxError → Option Kind
  | invalidToken _ _ => none
  | unexpectedToken _ got _ => some got
  | trailingToken got _ => some got
  | nestingTooDeep _ _ => none

/-- Whether the refusal points at the token and says nothing else of its kind. -/
structure PointsAt (e : SyntaxError) (t : Token) : Prop where
  span_eq : e.span = t.span
  got_eq : ∀ got ∈ e.got?, got = t.kind

/-- What says that the kind of a token was met points at it, and so does what says no kind. -/
theorem pointsAt_of_got? {e : SyntaxError} {t : Token} (hspan : e.span = t.span)
    (hgot : e.got? = none ∨ e.got? = some t.kind) : e.PointsAt t := by
  refine ⟨hspan, ?_⟩
  intro got h
  rcases hgot with hgot | hgot
  · rw [hgot] at h
    cases h
  · rw [hgot] at h
    exact (Option.some.inj h).symm

/-- A refusal that corresponds to another points at a token that has one to correspond to. -/
theorem Parallel.exists_pointsAt {ρ : Token → Token → Prop} {e e' : SyntaxError}
    (h : e.Parallel ρ e') : ∃ t u, ρ t u ∧ e.PointsAt t := by
  cases h with
  | invalidToken ht => exact ⟨_, _, ht, pointsAt_of_got? rfl (.inl rfl)⟩
  | unexpectedToken ht => exact ⟨_, _, ht, pointsAt_of_got? rfl (.inr rfl)⟩
  | trailingToken ht => exact ⟨_, _, ht, pointsAt_of_got? rfl (.inr rfl)⟩
  | nestingTooDeep ht => exact ⟨_, _, ht, pointsAt_of_got? rfl (.inl rfl)⟩

end SyntaxError

section

variable {mode : Mode} {source : String} {e : SyntaxError}

/-- Every refusal points at a significant token of its source. -/
theorem Tree.exists_pointsAt (h : read mode source = .error e) :
    ∃ t ∈ Token.significant source, e.PointsAt t := by
  -- The relation that a token of the source has to itself.
  have hlikened : Token.Likened fun t u => t = u ∧ t ∈ Token.significant source := by
    rintro t _ ⟨rfl, _⟩
    rfl
  have hself : List.Forall₂ (fun t u => t = u ∧ t ∈ Token.significant source)
      (Token.significant source) (Token.significant source) := by
    rw [List.forall₂_same]
    intro t ht
    exact ⟨rfl, ht⟩
  have hparallel := parallel_read hlikened hself mode
  rw [h] at hparallel
  cases hparallel with
  | error herror =>
      obtain ⟨t, _, ⟨_, ht⟩, hpoints⟩ := herror.exists_pointsAt
      exact ⟨t, ht, hpoints⟩

/-- Only a strict reader refuses what is behind an expression, and never the end of the source. -/
theorem Tree.strict_of_trailingToken {got : Kind} {span : Span}
    (h : read mode source = .error (.trailingToken got span)) :
    got ≠ .endOfFile ∧ mode = .strict := by
  rcases read_modes source with ⟨e, hne, hall⟩ | ⟨_, _, _, _, _, hlenient, hstrict⟩
  · rw [hall mode] at h
    exact absurd (Except.error.inj h) (hne got span)
  · cases mode with
    | lenient =>
        rw [hlenient] at h
        cases h
    | strict =>
        rcases hstrict with ⟨_, hread⟩ | ⟨hkind, hread⟩
        · rw [hread] at h
          cases h
        · rw [hread] at h
          cases h
          exact ⟨hkind, rfl⟩

/-! ## Invalid tokens -/

/-- Whether the token is the first of the source that is invalid. -/
def Token.IsFirstInvalid (source : String) (t : Token) : Prop :=
  t.kind = .invalid ∧ ∃ before after, scan source = before ++ t :: after ∧
    ∀ u ∈ before, u.kind ≠ .invalid

/-- The first invalid token is the one that a search from the start of the source finds. -/
theorem Token.isFirstInvalid_iff {t : Token} :
    IsFirstInvalid source t ↔ (scan source).find? (fun u => u.kind == .invalid) = some t := by
  rw [List.find?_eq_some_iff_append, IsFirstInvalid, beq_iff_eq]
  simp only [Bool.not_eq_true', beq_eq_false_iff_ne]

/-- A source with an invalid token has a first one. -/
theorem Token.exists_isFirstInvalid (h : ∃ t ∈ scan source, t.kind = .invalid) :
    ∃ t, IsFirstInvalid source t := by
  obtain ⟨t, ht, hkind⟩ := h
  have hfound : ((scan source).find? fun u => u.kind == .invalid).isSome = true :=
    List.find?_isSome.2 ⟨t, ht, beq_iff_eq.2 hkind⟩
  obtain ⟨u, hu⟩ := Option.isSome_iff_exists.1 hfound
  exact ⟨u, isFirstInvalid_iff.2 hu⟩

/-- A source with an invalid token is refused for the first one, before anything is read. -/
theorem Stream.ofString_of_isFirstInvalid {t : Token} (h : t.IsFirstInvalid source) :
    ofString source = .error (.invalidToken (t.text.getD "") t.span) := by
  have hfind := Token.isFirstInvalid_iff.1 h
  -- The end-of-file token is valid, so the first invalid one is before the end.
  rw [scan_eq, List.find?_append] at hfind
  have hend : [Token.endOfFile source.utf8ByteSize].find? (fun t => t.kind == .invalid) = none := rfl
  rw [hend, Option.or_none] at hfind
  rw [ofString, ofTokens, hfind]

/-- Reading refuses a token as invalid only if one is. -/
theorem Tree.exists_invalid_of_read {text : String} {span : Span}
    (h : read mode source = .error (.invalidToken text span)) :
    ∃ t ∈ Token.scan source, t.kind = .invalid := by
  cases hs : Stream.ofString source with
  | error e =>
      rw [Stream.ofString, Stream.ofTokens] at hs
      split at hs
      · rename_i t hfind
        have hkind := List.find?_some hfind
        refine ⟨t, ?_, by simpa using hkind⟩
        rw [scan_eq]
        exact List.mem_append_left _ (List.mem_of_find?_eq_some hfind)
      · cases hs
  | ok s =>
      -- What is refused over valid tokens is refused for another cause.
      rw [read_of_ofString mode hs] at h
      rcases Reader.refuses_of_read_eq_error h with ⟨_, _, _, _, _, hexplains⟩ | ⟨_, _, _, he⟩
      · cases hexplains
      · cases he

/-- An invalid token carries what stands in its place. -/
theorem Token.text_of_invalid {t : Token} (ht : t ∈ scan source) (hkind : t.kind = .invalid) :
    (t.text.getD "").toByteArray = t.span.bytes source := by
  rw [scan_eq, List.mem_append, List.mem_singleton] at ht
  rcases ht with ht | rfl
  · obtain ⟨_, before, piece, after, hsplit, _, hspan, hpiece⟩ :=
      Scanner.exists_piece_of_mem (Scanner.ofList source.toList) t ht
    have htext : t.text = some (String.ofList piece) := by
      unfold piece? at hpiece
      split at hpiece
      · rename_i htext
        rw [htext, hpiece]
      · rw [hkind] at hpiece
        cases hpiece
    have hsource : source.toList = before ++ piece ++ after := hsplit
    rw [htext, hspan, Option.getD_some]
    simp only [Scanner.ofList, Nat.zero_add]
    exact (Text.bytes_of_append hsource).symm
  · cases hkind

end

/-- Whoever refuses a source points at one of its significant tokens, and the kind that the refusal
says was met is that of this token.  A token behind an expression is refused by a strict reader
only, and is not the end of the source.  An invalid token is what a source is refused for exactly
if it has one, whatever else is wrong before it: the refusal is that of the first, with the text
that stands in its place. -/
theorem read_error_points (mode : Mode) (source : String) :
    (∀ e, Tree.read mode source = .error e → ∃ t ∈ Token.significant source, e.PointsAt t) ∧
    (∀ got span, Tree.read mode source = .error (.trailingToken got span) →
      got ≠ .endOfFile ∧ mode = .strict) ∧
    ((∃ text span, Tree.read mode source = .error (.invalidToken text span)) ↔
      ∃ t ∈ Token.scan source, t.kind = .invalid) ∧
    (∀ text span, Tree.read mode source = .error (.invalidToken text span) →
      ∃ t : Token, t.IsFirstInvalid source ∧ span = t.span ∧ text.toByteArray = span.bytes source) := by
  have hfirst : ∀ t : Token, t.IsFirstInvalid source →
      Tree.read mode source = .error (.invalidToken (t.text.getD "") t.span) := fun t ht =>
    Tree.read_of_ofString_error mode (Stream.ofString_of_isFirstInvalid ht)
  refine ⟨fun e => Tree.exists_pointsAt, fun got span => Tree.strict_of_trailingToken, ⟨?_, ?_⟩, ?_⟩
  · rintro ⟨text, span, h⟩
    exact Tree.exists_invalid_of_read h
  · intro h
    obtain ⟨t, ht⟩ := Token.exists_isFirstInvalid h
    exact ⟨_, _, hfirst t ht⟩
  · intro text span h
    obtain ⟨t, ht⟩ := Token.exists_isFirstInvalid (Tree.exists_invalid_of_read h)
    have hread := hfirst t ht
    rw [h] at hread
    cases hread
    have hmem := List.mem_of_find?_eq_some (Token.isFirstInvalid_iff.1 ht)
    exact ⟨t, ht, rfl, Token.text_of_invalid hmem ht.1⟩

/-- The first of two invalid characters is refused, although an operator is missing before it, and
the name before it has a character of two bytes. -/
theorem read_error_points_of_invalid :
    Tree.read .lenient "(1 2) é& #" = .error (.invalidToken "&" ⟨8, 9⟩) ∧
    ∃ t : Token, t.IsFirstInvalid "(1 2) é& #" ∧ ⟨8, 9⟩ = t.span ∧
      "&".toByteArray = (⟨8, 9⟩ : Span).bytes "(1 2) é& #" := by
  have hread : Tree.read .lenient "(1 2) é& #" = .error (.invalidToken "&" ⟨8, 9⟩) := by
    decide +kernel
  obtain ⟨_, _, _, hinvalid⟩ := read_error_points .lenient "(1 2) é& #"
  exact ⟨hread, hinvalid _ _ hread⟩

end ExprTree
