import ExprTree.Proofs.Spacing
import ExprTree.Proofs.Subtrees

set_option autoImplicit false

/-!
# Spans without slack

The span of a node is computed from two of its children, and yet it fits all that is
in the node: it goes from the first token there to the last, the children stand in it
one behind another, and around the tokens there are only spaces (`read_tight_spans`).
The tokens ahead carry this.  They stand in order, each of them has bytes, and a
character that belongs to none of them is a space; and the leaves of every tree in the
tree are a stretch of them.
-/

namespace ExprTree

/-- Whether the byte at the offset is in the span. -/
def Span.Covers (s : Span) (offset : Nat) : Prop := s.start ≤ offset ∧ offset < s.stop

/-- Whether the span goes from the first of the tokens to the last. -/
def Span.Bounds (s : Span) (ts : List Token) : Prop :=
  ∃ first last, ts.head? = some first ∧ ts.getLast? = some last ∧
    s = ⟨first.span.start, last.span.stop⟩

/-- Whether the byte at the offset of the text is one of the character, where it stands there. -/
def Text.ByteOf (cs : List Char) (offset : Nat) (c : Char) : Prop :=
  ∃ before after, cs = before ++ c :: after ∧
    (⟨byteSize before, byteSize before + c.utf8Size⟩ : Span).Covers offset

/-- Whether the span of the tree has no slack in the source. -/
structure Tree.Tight (source : String) (tree : Tree) : Prop where
  /-- The span goes from the first leaf to the last. -/
  bounds : tree.span.Bounds tree.leaves
  /-- Every child has bytes. -/
  nonempty : ∀ e ∈ tree.children, e.span.start < e.span.stop
  /-- Every child is inside. -/
  inside : ∀ e ∈ tree.children, tree.span.start ≤ e.span.start ∧ e.span.stop ≤ tree.span.stop
  /-- Every child ends before the next. -/
  ordered : tree.children.Pairwise fun d e => d.span.stop ≤ e.span.start
  /-- A character that has a byte inside, but in no leaf, is a space. -/
  spaces : ∀ offset c, Text.ByteOf source.toList offset c → tree.span.Covers offset →
    (∀ t ∈ tree.leaves, ¬ t.span.Covers offset) → c = ' '

/-! ## Bytes of a text -/

namespace Text

theorem ByteOf.mem {cs : List Char} {offset : Nat} {c : Char} (h : ByteOf cs offset c) :
    c ∈ cs := by
  obtain ⟨before, after, rfl, _⟩ := h
  exact List.mem_append_right before List.mem_cons_self

theorem ByteOf.lt {cs : List Char} {offset : Nat} {c : Char} (h : ByteOf cs offset c) :
    offset < byteSize cs := by
  obtain ⟨before, after, rfl, _, hlt⟩ := h
  rw [byteSize_append, byteSize_cons]
  simp only at hlt
  omega

/-- A byte of a text that comes apart is one of the first part, or of the second behind it. -/
theorem ByteOf.of_append {cs ds : List Char} {offset : Nat} {c : Char}
    (h : ByteOf (cs ++ ds) offset c) :
    ByteOf cs offset c ∨ ∃ more, offset = byteSize cs + more ∧ ByteOf ds more c := by
  obtain ⟨before, after, hsplit, hle, hlt⟩ := h
  simp only at hle hlt
  -- The character is in the first part if that goes on behind what is before the character.
  have hsecond : ∀ inner, before = cs ++ inner → ds = inner ++ c :: after →
      ∃ more, offset = byteSize cs + more ∧ ByteOf ds more c := by
    rintro inner rfl hds
    rw [byteSize_append] at hle hlt
    refine ⟨offset - byteSize cs, by omega, inner, after, hds, ?_, ?_⟩
    · simp only
      omega
    · simp only
      omega
  rcases List.append_eq_append_iff.1 hsplit with ⟨inner, hbefore, hds⟩ | ⟨inner, hcs, hafter⟩
  · exact .inr (hsecond inner hbefore hds)
  · cases inner with
    | nil =>
        rw [List.append_nil] at hcs
        exact .inr (hsecond [] (by rw [hcs, List.append_nil]) hafter.symm)
    | cons d inner =>
        rw [List.cons_append, List.cons.injEq] at hafter
        obtain ⟨rfl, _⟩ := hafter
        exact .inl ⟨before, inner, hcs, hle, hlt⟩

end Text

/-! ## What covers a source -/

/-- A byte of lexemes is covered by the token of the lexeme that has its character. -/
theorem Lexeme.exists_covering (offset : Nat) {place : Nat} {ls : List Lexeme} {c : Char}
    (h : Text.ByteOf (allChars ls) place c) :
    ∃ l ∈ ls, c ∈ l.chars ∧ ∃ start, l.toToken start ∈ tokens offset ls ∧
      (l.toToken start).span.Covers (offset + place) := by
  induction ls generalizing offset place with
  | nil => cases h.mem
  | cons l ls ih =>
      rw [allChars_cons] at h
      rcases h.of_append with hfirst | ⟨more, rfl, hmore⟩
      · refine ⟨l, List.mem_cons_self, hfirst.mem, offset, List.mem_cons_self, ?_⟩
        have hlt := hfirst.lt
        rw [span_toToken]
        exact ⟨Nat.le_add_right _ _, Nat.add_lt_add_left hlt offset⟩
      · obtain ⟨m, hm, hc, start, hmem, hcovers⟩ := ih (offset + l.size) hmore
        rw [Nat.add_assoc] at hcovers
        exact ⟨m, List.mem_cons_of_mem l hm, hc, start, List.mem_cons_of_mem _ hmem, hcovers⟩

namespace Stream

variable {source : String} {s : Stream}

/-- A byte of a character that is no space is covered by one of the tokens ahead. -/
theorem exists_covering (hs : ofString source = .ok s) {offset : Nat} {c : Char}
    (h : Text.ByteOf source.toList offset c) (hc : c ≠ ' ') :
    ∃ t ∈ s.ahead, t.span.Covers offset := by
  obtain ⟨ls, hunfused, hchars, hahead, _⟩ := exists_unfused_of_ofString hs
  rw [← hchars] at h
  obtain ⟨l, hl, hmem, start, htoken, hcovers⟩ := Lexeme.exists_covering 0 h
  rw [Nat.zero_add] at hcovers
  have hwhole := hunfused.whole l hl
  have hblanks : l.shape ≠ .blanks := by
    intro hshape
    have hdescribes := Shape.describes_of_read? hwhole
    rw [hshape] at hdescribes
    exact hc (hdescribes c hmem)
  have hsolid : l.Solid := ⟨hwhole, hblanks⟩
  rw [← hahead]
  exact ⟨_, List.mem_filter.2 ⟨htoken, hsolid.isSignificant start⟩, hcovers⟩

/-- All tokens ahead have bytes. -/
theorem start_lt_stop (hs : ofString source = .ok s) :
    ∀ t ∈ s.ahead, t.span.start < t.span.stop := by
  obtain ⟨ls, hunfused, _, hahead, _⟩ := exists_unfused_of_ofString hs
  intro t ht
  rw [← hahead] at ht
  obtain ⟨l, hl, start, rfl⟩ := Lexeme.exists_of_mem_tokens t (List.mem_filter.1 ht).1
  have hpos := (hunfused.whole l hl).size_pos
  rw [Lexeme.span_toToken]
  exact Nat.lt_add_of_pos_right hpos

end Stream

/-! ## Spans over tokens in order -/

/-- A span from the first to the last of tokens in order has all of them inside. -/
theorem Token.Ordered.within {s : Span} {ts : List Token} (h : Ordered ts) (hs : s.Bounds ts) :
    ∀ t ∈ ts, s.start ≤ t.span.start ∧ t.span.stop ≤ s.stop := by
  obtain ⟨hle, hpairs⟩ := h
  obtain ⟨first, last, hfirst, hlast, rfl⟩ := hs
  intro t ht
  constructor
  · obtain ⟨more, rfl⟩ := List.head?_eq_some_iff.1 hfirst
    rcases List.mem_cons.1 ht with rfl | ht
    · exact Nat.le_refl _
    · exact Nat.le_trans (hle first List.mem_cons_self) (List.rel_of_pairwise_cons hpairs ht)
  · obtain ⟨init, rfl⟩ := List.getLast?_eq_some_iff.1 hlast
    have hlastmem : last ∈ [last] := List.mem_singleton_self last
    rcases List.mem_append.1 ht with hinit | hsingle
    · exact Nat.le_trans ((List.pairwise_append.1 hpairs).2.2 t hinit last hlastmem)
        (hle last (List.mem_append_right init hlastmem))
    · cases List.mem_singleton.1 hsingle
      exact Nat.le_refl _

/-- Of tokens in order, what covers a byte between the first and the last of a stretch is in the
stretch. -/
theorem Token.Ordered.mem_of_covers {s : Span} {ts us vs : List Token} {offset : Nat}
    (h : Ordered (ts ++ us ++ vs)) (hs : s.Bounds us) (hinside : s.Covers offset) :
    ∀ t ∈ ts ++ us ++ vs, t.span.Covers offset → t ∈ us := by
  obtain ⟨first, last, hfirst, hlast, rfl⟩ := hs
  obtain ⟨hstart, hstop⟩ := hinside
  simp only at hstart hstop
  have hpairs := h.2
  rw [List.pairwise_append, List.pairwise_append] at hpairs
  obtain ⟨⟨_, _, hbefore⟩, _, hafter⟩ := hpairs
  rintro t ht ⟨hle, hlt⟩
  rw [List.mem_append, List.mem_append] at ht
  rcases ht with (ht | ht) | ht
  · have hgap := hbefore t ht first (List.mem_of_head? hfirst)
    omega
  · exact ht
  · have hgap := hafter last (List.mem_append_right ts (List.mem_of_getLast? hlast)) t ht
    omega

/-- An element over tokens in order goes from the first of them to the last. -/
theorem Element.bounds {e : Element} (h : Token.Ordered e.leaves) : e.span.Bounds e.leaves := by
  cases e with
  | node tree =>
      exact ⟨_, _, tree.head?_leaves, tree.getLast?_leaves, Tree.span_eq_of_ordered h⟩
  | token t => exact ⟨t, t, rfl, rfl, rfl⟩

namespace Tree

variable {tree : Tree}

/-- A child goes from one of the leaves to another. -/
theorem exists_bounds_of_mem_children (hordered : Token.Ordered tree.leaves) {e : Element}
    (h : e ∈ tree.children) :
    ∃ first ∈ e.leaves, ∃ last ∈ e.leaves, e.span = ⟨first.span.start, last.span.stop⟩ := by
  have hsublist := (leaves_isInfix_of_child h).sublist
  obtain ⟨first, last, hfirst, hlast, hspan⟩ := Element.bounds (hordered.of_sublist hsublist)
  exact ⟨first, List.mem_of_head? hfirst, last, List.mem_of_getLast? hlast, hspan⟩

/-- Over tokens in order every child is inside. -/
theorem child_inside (hordered : Token.Ordered tree.leaves) {e : Element}
    (h : e ∈ tree.children) : tree.span.start ≤ e.span.start ∧ e.span.stop ≤ tree.span.stop := by
  have hsublist := (leaves_isInfix_of_child h).sublist
  have hbounds : tree.span.Bounds tree.leaves := Element.bounds (e := .node tree) hordered
  obtain ⟨first, hfirst, last, hlast, hspan⟩ := exists_bounds_of_mem_children hordered h
  obtain ⟨hstart, _⟩ := hordered.within hbounds first (hsublist.mem hfirst)
  obtain ⟨_, hstop⟩ := hordered.within hbounds last (hsublist.mem hlast)
  rw [hspan]
  exact ⟨hstart, hstop⟩

/-- Over tokens in order that have bytes, every child has. -/
theorem child_nonempty (hordered : Token.Ordered tree.leaves)
    (hpos : ∀ t ∈ tree.leaves, t.span.start < t.span.stop) {e : Element}
    (h : e ∈ tree.children) : e.span.start < e.span.stop := by
  have hsublist := (leaves_isInfix_of_child h).sublist
  have hbounds := Element.bounds (hordered.of_sublist hsublist)
  obtain ⟨first, hfirst, _⟩ := exists_bounds_of_mem_children hordered h
  obtain ⟨hstart, hstop⟩ := (hordered.of_sublist hsublist).within hbounds first hfirst
  have hlt := hpos first (hsublist.mem hfirst)
  omega

/-- Over tokens in order the children stand one behind another. -/
theorem pairwise_children (hordered : Token.Ordered tree.leaves) :
    tree.children.Pairwise fun d e => d.span.stop ≤ e.span.start := by
  have hpairs := hordered.2
  rw [tree.leaves_eq_children, List.pairwise_flatMap] at hpairs
  refine hpairs.2.imp_of_mem ?_
  intro d e hd he hbetween
  obtain ⟨_, _, last, hlast, hdspan⟩ := exists_bounds_of_mem_children hordered hd
  obtain ⟨first, hfirst, _, _, hespan⟩ := exists_bounds_of_mem_children hordered he
  rw [hdspan, hespan]
  exact hbetween last hlast first hfirst

end Tree

/-! ## Trees over a source -/

/-- A tree whose leaves are a stretch of the tokens ahead has no slack. -/
theorem Tree.tight_of_isInfix {source : String} {s : Stream} {tree : Tree}
    (hs : Stream.ofString source = .ok s) (hstretch : tree.leaves <:+: s.ahead) :
    tree.Tight source := by
  have hahead := Stream.ordered_ahead hs
  have hordered := hahead.of_sublist hstretch.sublist
  have hbounds : tree.span.Bounds tree.leaves := Element.bounds (e := .node tree) hordered
  have hpos : ∀ t ∈ tree.leaves, t.span.start < t.span.stop := fun t ht =>
    Stream.start_lt_stop hs t (hstretch.mem ht)
  refine ⟨hbounds, fun e => child_nonempty hordered hpos, fun e => child_inside hordered,
    pairwise_children hordered, ?_⟩
  intro offset c hbyte hinside hnone
  by_contra hc
  obtain ⟨t, ht, hcovers⟩ := Stream.exists_covering hs hbyte hc
  obtain ⟨before, after, hsplit⟩ := hstretch
  rw [← hsplit] at hahead ht
  exact hnone t (hahead.mem_of_covers hbounds hinside t ht hcovers) hcovers

/-- The span of every tree in the tree of a source goes from its first leaf to its last.  All its
children have bytes, are inside the span, and end before the next one starts; and what is inside
the span but in no leaf is spaces. -/
theorem read_tight_spans (mode : Mode) (source : String) (tree : Tree)
    (h : Tree.read mode source = .ok tree) : ∀ part ∈ tree.subtrees, part.Tight source := by
  intro part hpart
  obtain ⟨s, found, rest, hs, hr, rfl, _⟩ := Tree.reads_of_read_eq_ok h
  apply Tree.tight_of_isInfix hs
  rw [hr.ahead_eq]
  exact (Tree.leaves_isInfix_of_mem_subtrees found.tree part hpart).trans
    (List.prefix_append _ _).isInfix

/-- The sum between the parentheses goes from the minus sign to the number, without the spaces
before and behind it. -/
theorem read_tight_spans_of_group :
    ∃ tree part : Tree, Tree.read .lenient "é *( - x  +2 ) 7" = .ok tree ∧
      part ∈ tree.subtrees ∧ part.span = ⟨6, 13⟩ ∧ part.Tight "é *( - x  +2 ) 7" := by
  let part : Tree :=
    .binary
      (.unary ⟨.minus, ⟨6, 7⟩, none, .absent⟩
        (.name ⟨.identifier, ⟨8, 9⟩, some "x", .text "x"⟩))
      ⟨.plus, ⟨11, 12⟩, none, .absent⟩
      (.literal ⟨.number, ⟨12, 13⟩, some "2", .int 2⟩ (.int 2))
  let tree : Tree :=
    .binary (.name ⟨.identifier, ⟨0, 2⟩, some "é", .text "é"⟩) ⟨.star, ⟨3, 4⟩, none, .absent⟩
      (.parenthesized ⟨.openParen, ⟨4, 5⟩, none, .absent⟩ part
        ⟨.closeParen, ⟨14, 15⟩, none, .absent⟩)
  have hread : Tree.read .lenient "é *( - x  +2 ) 7" = .ok tree := by rfl
  have hpart : part ∈ tree.subtrees := by decide
  exact ⟨tree, part, hread, hpart, rfl, read_tight_spans .lenient _ tree hread part hpart⟩

end ExprTree
