import ExprTree.Proofs.LongestPrefix
import ExprTree.Proofs.Spacing
import ExprTree.Proofs.Subtrees
import ExprTree.Tree.Context
import Mathlib.Data.List.Induction

set_option autoImplicit false

/-!
# Grouping made explicit

Parentheses put around the text of a node leave the node where it is: the tokens before
it, in it and behind it are the old ones with their spans moved, and a group may stand
wherever the grammar asks for an expression, for every precedence.  So the tree with
the node in parentheses is the canonical one over the new tokens, and it is what is read
(`read_strict_grouped`).  Only the target of an assignment must be a bare name.
-/

namespace ExprTree

namespace Tree

/-! ## Nodes and holes -/

/-- The trees in a tree are those that fill a hole in it. -/
theorem mem_subtrees_iff_exists_fill {tree part : Tree} :
    part ∈ tree.subtrees ↔ ∃ context : Context, context.fill part = tree := by
  constructor
  · have hbelow : ∀ (frame : Frame) {child : Tree}, (∃ context : Context, context.fill part = child) →
        ∃ context : Context, context.fill part = frame.fill child := by
      rintro frame child ⟨context, rfl⟩
      exact ⟨context ++ [frame], Context.fill_append context [frame] part⟩
    intro h
    induction tree with
    | binary left operator right ihl ihr =>
      rw [subtrees, List.mem_cons, List.mem_append] at h
      rcases h with rfl | h | h
      · exact ⟨[], rfl⟩
      · exact hbelow (.inLeft operator right) (ihl h)
      · exact hbelow (.inRight left operator) (ihr h)
    | unary operator operand ih =>
      rw [subtrees, List.mem_cons] at h
      rcases h with rfl | h
      · exact ⟨[], rfl⟩
      · exact hbelow (.inOperand operator) (ih h)
    | parenthesized opening expression closing ih =>
      rw [subtrees, List.mem_cons] at h
      rcases h with rfl | h
      · exact ⟨[], rfl⟩
      · exact hbelow (.inExpression opening closing) (ih h)
    | literal token value =>
      rw [subtrees, List.mem_singleton] at h
      exact ⟨[], h⟩
    | name token =>
      rw [subtrees, List.mem_singleton] at h
      exact ⟨[], h⟩
    | assignment target equals value iht ihv =>
      rw [subtrees, List.mem_cons, List.mem_append] at h
      rcases h with rfl | h | h
      · exact ⟨[], rfl⟩
      · exact hbelow (.inTarget equals value) (iht h)
      · exact hbelow (.inValue target equals) (ihv h)
  · rintro ⟨context, rfl⟩
    induction context using List.reverseRecOn with
    | nil => exact mem_subtrees_self part
    | append_singleton context frame ih =>
      rw [Context.fill_append, Context.fill, Context.fill]
      cases frame <;> simp [Frame.fill, subtrees, ih]

/-! ## What may stand in a hole -/

/-- Whether a tree may stand for another under any node. -/
structure Replaces (b a : Tree) : Prop where
  kind_eq : b.kind = a.kind
  canonical : a.Canonical → b.Canonical
  precedence : b.precedence? = a.precedence?
  ends : b.EndsInAssignment → a.EndsInAssignment

/-- What may stand for a tree may do so under a node more. -/
theorem Replaces.fill {a b : Tree} (h : b.Replaces a) (frame : Frame) :
    (frame.fill b).Replaces (frame.fill a) := by
  obtain ⟨hkind, hcanonical, hprecedence, hends⟩ := h
  cases frame with
  | inLeft operator right =>
      refine ⟨rfl, ?_, rfl, id⟩
      rintro ⟨⟨p, hp, hright, hleft⟩, hnot, hcl, hcr⟩
      exact ⟨⟨p, hp, hright, hprecedence ▸ hleft⟩, fun hb => hnot (hends hb), hcanonical hcl, hcr⟩
  | inRight left operator =>
      refine ⟨rfl, ?_, rfl, hends⟩
      rintro ⟨⟨p, hp, hright, hleft⟩, hnot, hcl, hcr⟩
      exact ⟨⟨p, hp, hprecedence ▸ hright, hleft⟩, hnot, hcl, hcanonical hcr⟩
  | inOperand operator =>
      refine ⟨rfl, ?_, rfl, hends⟩
      rintro ⟨hsign, hoperand, hc⟩
      exact ⟨hsign, hkind ▸ hoperand, hcanonical hc⟩
  | inExpression opening closing =>
      refine ⟨rfl, ?_, rfl, id⟩
      rintro ⟨hopening, hclosing, hc⟩
      exact ⟨hopening, hclosing, hcanonical hc⟩
  | inTarget equals value =>
      refine ⟨rfl, ?_, rfl, id⟩
      rintro ⟨htarget, hequals, hct, hcv⟩
      exact ⟨hkind ▸ htarget, hequals, hcanonical hct, hcv⟩
  | inValue target equals =>
      refine ⟨rfl, ?_, rfl, id⟩
      rintro ⟨htarget, hequals, hct, hcv⟩
      exact ⟨htarget, hequals, hct, hcanonical hcv⟩

/-- A group may stand for what is in it, but for the target of an assignment. -/
theorem Frame.replaces_group {frame : Frame} {opening closing : Token} (part : Tree)
    (hopening : opening.kind = .openParen) (hclosing : closing.kind = .closeParen)
    (h : frame.isTarget = false) :
    (frame.fill (.parenthesized opening part closing)).Replaces (frame.fill part) := by
  have hgroup : part.Canonical → (Tree.parenthesized opening part closing).Canonical :=
    fun hc => ⟨hopening, hclosing, hc⟩
  cases frame with
  | inLeft operator right =>
      refine ⟨rfl, ?_, rfl, id⟩
      rintro ⟨⟨p, hp, hright, _⟩, _, hc, hcr⟩
      exact ⟨⟨p, hp, hright, nofun⟩, id, hgroup hc, hcr⟩
  | inRight left operator =>
      refine ⟨rfl, ?_, rfl, False.elim⟩
      rintro ⟨⟨p, hp, _, hleft⟩, hnot, hcl, hc⟩
      exact ⟨⟨p, hp, nofun, hleft⟩, hnot, hcl, hgroup hc⟩
  | inOperand operator =>
      refine ⟨rfl, ?_, rfl, False.elim⟩
      rintro ⟨hsign, _, hc⟩
      exact ⟨hsign, Kind.noConfusion, hgroup hc⟩
  | inExpression opening' closing' =>
      refine ⟨rfl, ?_, rfl, id⟩
      rintro ⟨hopening', hclosing', hc⟩
      exact ⟨hopening', hclosing', hgroup hc⟩
  | inTarget equals value => cases h
  | inValue target equals =>
      refine ⟨rfl, ?_, rfl, id⟩
      rintro ⟨htarget, hequals, hct, hc⟩
      exact ⟨htarget, hequals, hct, hgroup hc⟩

/-- A node of a canonical tree may be put in parentheses, but for the target of an assignment. -/
theorem canonical_group {context : Context} {part : Tree} {opening closing : Token}
    (hopening : opening.kind = .openParen) (hclosing : closing.kind = .closeParen)
    (h : context.isTarget = false) (hc : (context.fill part).Canonical) :
    (context.fill (.parenthesized opening part closing)).Canonical := by
  have hall : ∀ (context : Context) {a b : Tree}, b.Replaces a →
      (context.fill b).Replaces (context.fill a) := by
    intro context
    induction context with
    | nil => exact id
    | cons frame context ih => exact fun hab => ih (hab.fill frame)
  cases context with
  | nil => exact ⟨hopening, hclosing, hc⟩
  | cons frame context =>
      exact (hall context (Frame.replaces_group part hopening hclosing h)).canonical hc

end Tree

/-! ## Lexemes put in between others -/

/-- What ends before a text, and before a character, ends before a text into which the character is
put. -/
theorem Shape.EndsBefore.insert {s : Shape} {c : Char} {xs ys zs : List Char}
    (h : s.EndsBefore (xs ++ ys)) (hc : s.extend? c = none) : s.EndsBefore (xs ++ c :: zs) := by
  cases xs with
  | nil => exact endsBefore_cons.2 hc
  | cons x xs => exact endsBefore_cons.2 (endsBefore_cons.1 h)

/-- A parenthesis extends nothing. -/
theorem Shape.extend?_paren {c : Char} (h : c = '(' ∨ c = ')') (s : Shape) : s.extend? c = none := by
  rcases h with rfl | rfl <;>
  · cases s with
    | blanks => rfl
    | digits => decide
    | suffixed => decide
    | word => decide
    | mark kind => cases kind <;> rfl
    | stray c =>
        unfold extend?
        split <;> simp_all

namespace Lexeme

/-- The lexeme of an opening parenthesis. -/
def openParen : Lexeme := ⟨.mark .openParen, ['(']⟩

/-- The lexeme of a closing parenthesis. -/
def closeParen : Lexeme := ⟨.mark .closeParen, [')']⟩

/-- A parenthesis put in between lexemes is fused with none of them. -/
theorem Unfused.insert_paren {l : Lexeme} {xs ys : List Lexeme} (hl : l = openParen ∨ l = closeParen)
    (h : Unfused (xs ++ ys)) : Unfused (xs ++ l :: ys) := by
  induction xs with
  | nil =>
      rcases hl with rfl | rfl <;> exact ⟨rfl, fun _ _ => rfl, h⟩
  | cons x xs ih =>
      rw [List.cons_append] at h ⊢
      obtain ⟨hwhole, hends, hrest⟩ := h
      refine ⟨hwhole, ?_, ih hrest⟩
      rw [allChars_append] at hends ⊢
      rcases hl with rfl | rfl
      · exact hends.insert (Shape.extend?_paren (.inl rfl) _)
      · exact hends.insert (Shape.extend?_paren (.inr rfl) _)

/-- Parentheses around some of the lexemes are fused with none of them. -/
theorem Unfused.insert_group {front inner back : List Lexeme}
    (h : Unfused (front ++ (inner ++ back))) :
    Unfused (front ++ openParen :: (inner ++ closeParen :: back)) := by
  have hopened := h.insert_paren (.inl rfl)
  rw [← List.cons_append, ← List.append_assoc] at hopened
  have hclosed := hopened.insert_paren (.inr rfl)
  rwa [List.append_assoc, List.cons_append] at hclosed

end Lexeme

/-! ## Spans that are moved -/

/-- The span in a text into which a byte is put at the start of a part of it, and another one at the
end of this part. -/
def Span.makeRoom (part s : Span) : Span :=
  if part.stop ≤ s.start then s.shift 2 else if part.start ≤ s.start then s.shift 1 else s

namespace Token

/-- The token of an opening parenthesis at an offset. -/
def openParen (offset : Nat) : Token := ⟨.openParen, ⟨offset, offset + 1⟩, none, .absent⟩

/-- The token of a closing parenthesis at an offset. -/
def closeParen (offset : Nat) : Token := ⟨.closeParen, ⟨offset, offset + 1⟩, none, .absent⟩

theorem keeps_mapSpan (f : Span → Span) : Keeps (mapSpan f) := ⟨fun _ => rfl, fun _ => rfl⟩

end Token

namespace Lexeme

/-- Spans that are all moved by the same number of bytes are those of tokens further on. -/
theorem filter_map_mapSpan {f : Span → Span} {offset n : Nat} {ls : List Lexeme}
    (h : ∀ t ∈ tokens offset ls, f t.span = t.span.shift n) :
    ((tokens offset ls).filter Token.isSignificant).map (Token.mapSpan f) =
      (tokens (offset + n) ls).filter Token.isSignificant := by
  have hmap : (tokens offset ls).map (Token.mapSpan f) = tokens (offset + n) ls := by
    rw [tokens_add]
    apply List.map_congr_left
    intro t ht
    rw [Token.mapSpan, h t ht, Token.shift]
  rw [← hmap, List.filter_map]
  rfl

/-- The tokens of lexemes of which some are put in parentheses: those of the parentheses, and the
old ones with their spans moved. -/
theorem filter_tokens_group {front inner : List Lexeme} (back : List Lexeme) {part : Span}
    (hfront : ∀ l ∈ front, l.Whole) (hinner : ∀ l ∈ inner, l.Whole)
    (hstart : part.start = allSize front) (hstop : part.stop = part.start + allSize inner) :
    (tokens 0 (front ++ openParen :: (inner ++ closeParen :: back))).filter Token.isSignificant =
      ((tokens 0 front).filter Token.isSignificant).map (Token.mapSpan part.makeRoom) ++
        Token.openParen part.start ::
          ((tokens part.start inner).filter Token.isSignificant).map (Token.mapSpan part.makeRoom) ++
        Token.closeParen (part.stop + 1) ::
          ((tokens part.stop back).filter Token.isSignificant).map
            (Token.mapSpan part.makeRoom) := by
  have hbefore : ∀ t ∈ tokens 0 front, part.makeRoom t.span = t.span.shift 0 := by
    intro t ht
    have hlt := start_lt_of_mem_tokens hfront t ht
    rw [Span.makeRoom, if_neg (by omega), if_neg (by omega), Span.shift_zero]
  have hinside : ∀ t ∈ tokens part.start inner, part.makeRoom t.span = t.span.shift 1 := by
    intro t ht
    have hle := le_start_of_mem_tokens t ht
    have hlt := start_lt_of_mem_tokens hinner t ht
    rw [Span.makeRoom, if_neg (by omega), if_pos hle]
  have hbehind : ∀ t ∈ tokens part.stop back, part.makeRoom t.span = t.span.shift 2 := by
    intro t ht
    rw [Span.makeRoom, if_pos (le_start_of_mem_tokens t ht)]
  rw [filter_map_mapSpan hbefore, filter_map_mapSpan hinside, filter_map_mapSpan hbehind,
    tokens_append, tokens, tokens_append, tokens]
  -- Each parenthesis is a significant token of one byte.
  have hopen : openParen.size = 1 := rfl
  have hclose : closeParen.size = 1 := rfl
  have hfirst : 0 + allSize front = part.start := by omega
  have hsecond : part.start + 1 + allSize inner = part.stop + 1 := by omega
  rw [hopen, hclose, hfirst, hsecond, List.filter_append, List.filter_cons_of_pos rfl,
    List.filter_append, List.filter_cons_of_pos rfl, List.append_assoc]
  rfl

end Lexeme

/-- The tree around a hole that is filled with a node in parentheses, all spans moved as the
parentheses demand. -/
def Tree.Context.group (context : Context) (part : Tree) : Tree :=
  (context.mapTokens (Token.mapSpan part.span.makeRoom)).fill
    (.parenthesized (Token.openParen part.span.start) (part.mapSpans part.span.makeRoom)
      (Token.closeParen (part.span.stop + 1)))

theorem Tree.Context.canonical_group {context : Context} {part : Tree}
    (h : context.isTarget = false) (hc : (context.fill part).Canonical) :
    (context.group part).Canonical := by
  apply Tree.canonical_group rfl rfl
  · rw [isTarget_mapTokens, h]
  · rw [mapSpans, ← mapTokens_fill]
    exact canonical_mapTokens (Token.keeps_mapSpan _) hc

theorem Tree.Context.leaves_group (context : Context) (part : Tree) :
    (context.group part).leaves =
      context.before.map (Token.mapSpan part.span.makeRoom) ++
        Token.openParen part.span.start :: part.leaves.map (Token.mapSpan part.span.makeRoom) ++
        Token.closeParen (part.span.stop + 1) ::
          context.after.map (Token.mapSpan part.span.makeRoom) := by
  simp [group, leaves_fill, leaves, mapSpans]

/-- A source comes apart into the lexemes before a node, those of the node and those behind it. -/
theorem Tree.Context.exists_lexemes {source : String} {context : Context} {part : Tree}
    (h : read .strict source = .ok (context.fill part)) :
    ∃ front inner back, Lexeme.Unfused (front ++ (inner ++ back)) ∧
      Lexeme.allChars (front ++ (inner ++ back)) = source.toList ∧
      part.span.start = Lexeme.allSize front ∧
      part.span.stop = part.span.start + Lexeme.allSize inner ∧
      (Lexeme.tokens 0 front).filter Token.isSignificant = context.before ∧
      (Lexeme.tokens part.span.start inner).filter Token.isSignificant = part.leaves ∧
      (Lexeme.tokens part.span.stop back).filter Token.isSignificant = context.after := by
  obtain ⟨s, _, _, hs, _, _, _⟩ := reads_of_read_eq_ok h
  have hahead := (ahead_eq_leaves_of_read_strict hs h).2
  rw [leaves_fill] at hahead
  have hordered : Token.Ordered part.leaves := by
    apply (Stream.ordered_ahead hs).of_sublist
    rw [hahead]
    exact (List.sublist_append_right _ _).trans (List.sublist_append_left _ _)
  have hspan := span_eq_of_ordered hordered
  obtain ⟨ls, hunfused, hchars, hsignificant, _⟩ := Stream.exists_unfused_of_ofString hs
  rw [hahead] at hsignificant
  obtain ⟨front, inner, back, rfl, hlexemes⟩ :=
    Lexeme.exists_lexemes_around hsignificant part.head?_leaves part.getLast?_leaves
  refine ⟨front, inner, back, hunfused, hchars, ?_⟩
  rw [hspan]
  exact hlexemes

/-- The leaves of a tree with a node in parentheses are valid if those of the tree are. -/
theorem Tree.Context.kind_ne_of_mem_leaves_group {context : Context} {part : Tree}
    (h : ∀ t ∈ (context.fill part).leaves, t.kind ≠ .invalid) :
    ∀ t ∈ (context.group part).leaves, t.kind ≠ .invalid := by
  rw [leaves_fill, List.forall_mem_append, List.forall_mem_append] at h
  obtain ⟨⟨hbefore, hpart⟩, hafter⟩ := h
  rw [leaves_group, List.forall_mem_append, List.forall_mem_append, List.forall_mem_cons,
    List.forall_mem_cons, List.forall_mem_map, List.forall_mem_map, List.forall_mem_map]
  exact ⟨⟨hbefore, Kind.noConfusion, hpart⟩, Kind.noConfusion, hafter⟩

/-- With parentheses around the text of a node, a source has the leaves of the tree in which the
node is in parentheses. -/
theorem Tree.Context.exists_ofString_group {source : String} {context : Context} {part : Tree}
    (h : read .strict source = .ok (context.fill part)) :
    ∃ before inside after : String, source = before ++ inside ++ after ∧
      before.utf8ByteSize = part.span.start ∧ (before ++ inside).utf8ByteSize = part.span.stop ∧
      Stream.ofString (before ++ "(" ++ inside ++ ")" ++ after) =
        .ok ⟨(context.group part).leaves,
          (before ++ "(" ++ inside ++ ")" ++ after).utf8ByteSize⟩ := by
  obtain ⟨front, inner, back, hunfused, hchars, hstart, hstop, hbefore, hinner, hafter⟩ :=
    exists_lexemes h
  obtain ⟨_, _, hkinds⟩ := solid_leaves_of_read h
  have hleaves := Lexeme.filter_tokens_group back hunfused.of_append_left.whole
    hunfused.of_append_right.of_append_left.whole hstart hstop
  rw [hbefore, hinner, hafter, ← leaves_group] at hleaves
  have hvalid : ∀ t ∈ Lexeme.tokens 0 (front ++ Lexeme.openParen ::
      (inner ++ Lexeme.closeParen :: back)), t.kind ≠ .invalid := by
    intro t ht hinvalid
    have hmem : t ∈ (context.group part).leaves := by
      rw [← hleaves, List.mem_filter, Token.isSignificant, hinvalid]
      exact ⟨ht, rfl⟩
    exact kind_ne_of_mem_leaves_group (fun t ht => (hkinds t ht).1) t hmem hinvalid
  have hsource := Stream.ofString_of_unfused hunfused.insert_group hvalid
  rw [hleaves] at hsource
  refine ⟨String.ofList (Lexeme.allChars front), String.ofList (Lexeme.allChars inner),
    String.ofList (Lexeme.allChars back), ?_, ?_, ?_, ?_⟩
  · apply String.toList_inj.1
    rw [← hchars]
    simp
  · rw [hstart, ← Text.byteSize_eq_ofList, Lexeme.allSize]
  · rw [hstop, hstart, ← String.ofList_append, ← Text.byteSize_eq_ofList, Text.byteSize_append]
    rfl
  · have htext : String.ofList (Lexeme.allChars front) ++ "(" ++
        String.ofList (Lexeme.allChars inner) ++ ")" ++ String.ofList (Lexeme.allChars back) =
          String.ofList (Lexeme.allChars
            (front ++ Lexeme.openParen :: (inner ++ Lexeme.closeParen :: back))) := by
      apply String.toList_inj.1
      simp [Lexeme.openParen, Lexeme.closeParen]
    rw [htext]
    exact hsource

/-- Parentheses around the text of any node but the target of an assignment change nothing in what a
strict reader makes of a source but that the node is in parentheses, and that the spans are moved by
the bytes of these; unless that makes the tree too high. -/
theorem read_strict_grouped {source : String} {tree : Tree} (h : Tree.read .strict source = .ok tree)
    (context : Tree.Context) (part : Tree) (hfill : context.fill part = tree)
    (htarget : context.isTarget = false) :
    ∃ before inside after : String, source = before ++ inside ++ after ∧
      before.utf8ByteSize = part.span.start ∧ (before ++ inside).utf8ByteSize = part.span.stop ∧
      ((context.group part).height ≤ maxLevels →
        Tree.read .strict (before ++ "(" ++ inside ++ ")" ++ after) = .ok (context.group part)) ∧
      (maxLevels < (context.group part).height → ∃ span,
        Tree.read .strict (before ++ "(" ++ inside ++ ")" ++ after) =
          .error (.nestingTooDeep maxLevels span)) := by
  subst hfill
  obtain ⟨hc, _, _⟩ := Tree.solid_leaves_of_read h
  have hgroup := Tree.Context.canonical_group htarget hc
  obtain ⟨before, inside, after, hsource, hstart, hstop, hs⟩ := Tree.Context.exists_ofString_group h
  refine ⟨before, inside, after, hsource, hstart, hstop, ?_, ?_⟩
  · exact Tree.read_strict_of_leaves hs hgroup
  · exact Tree.read_of_leaves_tooDeep .strict hs hgroup

/-- A product that is taken from a number, in the value of a name of two bytes. -/
theorem read_strict_grouped_of_product :
    ∃ (context : Tree.Context) (part : Tree), context.isTarget = false ∧
      Tree.read .strict "é = 1-2 *3" = .ok (context.fill part) ∧ part.span = ⟨7, 11⟩ ∧
      (context.group part).height = 5 ∧ ∃ before inside after : String,
        "é = 1-2 *3" = before ++ inside ++ after ∧ before.utf8ByteSize = 7 ∧
        (before ++ inside).utf8ByteSize = 11 ∧
        Tree.read .strict (before ++ "(" ++ inside ++ ")" ++ after) =
          .ok (context.group part) := by
  let context : Tree.Context :=
    [.inRight (.literal ⟨.number, ⟨5, 6⟩, some "1", .int 1⟩ (.int 1))
        ⟨.minus, ⟨6, 7⟩, none, .absent⟩,
      .inValue (.name ⟨.identifier, ⟨0, 2⟩, some "é", .text "é"⟩)
        ⟨.equals, ⟨3, 4⟩, none, .absent⟩]
  let part : Tree :=
    .binary (.literal ⟨.number, ⟨7, 8⟩, some "2", .int 2⟩ (.int 2))
      ⟨.star, ⟨9, 10⟩, none, .absent⟩
      (.literal ⟨.number, ⟨10, 11⟩, some "3", .int 3⟩ (.int 3))
  have hread : Tree.read .strict "é = 1-2 *3" = .ok (context.fill part) := by rfl
  have hheight : (context.group part).height = 5 := rfl
  obtain ⟨before, inside, after, hsource, hstart, hstop, hok, _⟩ :=
    read_strict_grouped hread context part rfl rfl
  have hle : (context.group part).height ≤ maxLevels := by decide
  exact ⟨context, part, rfl, hread, rfl, hheight, before, inside, after, hsource, hstart, hstop,
    hok hle⟩

end ExprTree
