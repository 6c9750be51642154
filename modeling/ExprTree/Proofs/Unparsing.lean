import ExprTree.Proofs.MaximalMunch
import ExprTree.Proofs.Relabelling
import ExprTree.Proofs.Slices

set_option autoImplicit false

/-!
# Writing a tree out and reading it back

A tree is written out as what its tokens show, with a single space between any two.
Each token shows a text that is one lexeme, and the lexeme stands for the token again,
only elsewhere and, for a number, in other digits.  A space separates lexemes and
belongs to none that shows anything, so the written text has these tokens and is
read to the same tree (`read_strict_unparse`).
-/

namespace ExprTree

/-- What the tokens of the tree show, with a single space between any two. -/
def Tree.unparse (tree : Tree) : String :=
  " ".intercalate (tree.leaves.map fun t => t.display?.getD "")

/-! ## Spaces between lexemes -/

namespace Shape

/-- A space extends nothing but spaces. -/
theorem extend?_space {s : Shape} (h : s ≠ blanks) : s.extend? ' ' = none := by
  cases s with
  | blanks => exact absurd rfl h
  | digits => decide
  | suffixed => decide
  | word => decide
  | mark k => cases k <;> rfl
  | stray c =>
      unfold extend?
      split <;> simp_all

/-- What is read from a space on is spaces. -/
theorem eq_blanks_of_extendAll? {cs : List Char} {s : Shape}
    (h : blanks.extendAll? cs = some s) : s = blanks := by
  induction cs with
  | nil => exact (Option.some.inj h).symm
  | cons c cs ih =>
      rw [extendAll?_cons, extend?] at h
      split at h
      · exact ih h
      · cases h

end Shape

namespace Lexeme

/-- A single space. -/
def space : Lexeme := ⟨.blanks, [' ']⟩

/-- The lexemes with a single space between any two. -/
def spaced : List Lexeme → List Lexeme
  | [] => []
  | [l] => [l]
  | l :: m :: ls => l :: space :: spaced (m :: ls)

/-- Whether the lexeme is read to its shape, and that is not the one of spaces. -/
def Solid (l : Lexeme) : Prop := l.Whole ∧ l.shape ≠ .blanks

/-- The token of a lexeme that is no spaces is no blank. -/
theorem Solid.isSignificant {l : Lexeme} (h : l.Solid) (offset : Nat) :
    Token.isSignificant (l.toToken offset) = true := by
  obtain ⟨hwhole, hshape⟩ := h
  have hsays := Shape.describes_of_read? hwhole
  unfold toToken
  split
  · rename_i hs
    exact absurd hs hshape
  · split <;> rfl
  · rfl
  · split <;> rfl
  · rename_i kind hs
    rw [hs] at hsays
    cases kind with
    | whitespace => cases hsays
    | _ => rfl
  · rfl

/-- Spaces end before a lexeme that is none. -/
theorem Solid.endsBefore {l : Lexeme} (h : l.Solid) (cs : List Char) :
    Shape.blanks.EndsBefore (l.chars ++ cs) := by
  obtain ⟨hwhole, hshape⟩ := h
  obtain ⟨shape, chars⟩ := l
  cases chars with
  | nil => cases hwhole
  | cons c chars =>
      rw [List.cons_append, Shape.endsBefore_cons, Shape.extend?, if_neg]
      rintro rfl
      exact hshape (Shape.eq_blanks_of_extendAll? hwhole)

/-- The text of lexemes with spaces between them is that of the lexemes, joined by spaces. -/
theorem ofList_allChars_spaced (ls : List Lexeme) :
    String.ofList (allChars (spaced ls)) = " ".intercalate (ls.map text) := by
  fun_induction spaced ls with
  | case1 => rfl
  | case2 l =>
      rw [allChars_cons, allChars_nil, List.append_nil, List.map_singleton,
        String.intercalate_singleton, text]
  | case3 l m ls ih =>
      rw [allChars_cons, allChars_cons, String.ofList_append, String.ofList_append, ih]
      simp only [List.map_cons]
      rw [String.intercalate_cons_cons, String.append_assoc]
      rfl

/-- Lexemes that are no spaces are not fused when spaces stand between them. -/
theorem unfused_spaced {ls : List Lexeme} (h : ∀ l ∈ ls, l.Solid) : Unfused (spaced ls) := by
  fun_induction spaced ls with
  | case1 => exact trivial
  | case2 l =>
      obtain ⟨hl, _⟩ := List.forall_mem_singleton.1 h
      exact ⟨hl, Shape.endsBefore_nil _, trivial⟩
  | case3 l m ls ih =>
      obtain ⟨hl, hls⟩ := List.forall_mem_cons.1 h
      have hm : m.Solid := hls m List.mem_cons_self
      have hmore : ∃ more, allChars (spaced (m :: ls)) = m.chars ++ more := by
        cases ls with
        | nil => exact ⟨_, allChars_cons m []⟩
        | cons n ns => exact ⟨_, allChars_cons m _⟩
      obtain ⟨more, hmore⟩ := hmore
      -- The first lexeme ends before the space, and the space before the next lexeme.
      refine ⟨hl.1, ?_, rfl, ?_, ih hls⟩
      · exact Shape.endsBefore_cons.2 (Shape.extend?_space hl.2)
      · rw [hmore]
        exact hm.endsBefore more

/-- Nothing but spaces is put between lexemes. -/
theorem eq_space_or_mem_of_mem_spaced {ls : List Lexeme} :
    ∀ l ∈ spaced ls, l = space ∨ l ∈ ls := by
  fun_induction spaced ls with
  | case1 => simp
  | case2 l => simp
  | case3 l m ls ih =>
      intro n hn
      rcases List.mem_cons.1 hn with rfl | hn
      · exact Or.inr List.mem_cons_self
      · rcases List.mem_cons.1 hn with rfl | hn
        · exact Or.inl rfl
        · exact (ih n hn).imp_right (List.mem_cons_of_mem l)

/-- Without its place, the token of a lexeme is the same everywhere. -/
theorem erase_toToken (l : Lexeme) (offset : Nat) :
    (l.toToken offset).erase = (l.toToken 0).erase := by
  have hmoved := l.toToken_add 0 offset
  rw [Nat.zero_add] at hmoved
  rw [hmoved]
  rfl

/-- Spaces add no significant token to those of the lexemes between which they stand. -/
theorem erase_tokens_spaced {ls : List Lexeme} (offset : Nat) (h : ∀ l ∈ ls, l.Solid) :
    ((tokens offset (spaced ls)).filter Token.isSignificant).map Token.erase =
      ls.map fun l => (l.toToken 0).erase := by
  fun_induction spaced ls generalizing offset with
  | case1 => rfl
  | case2 l =>
      have hl := List.forall_mem_singleton.1 h
      rw [tokens, tokens, List.filter_cons_of_pos (hl.isSignificant offset), List.filter_nil,
        List.map_singleton, List.map_singleton, erase_toToken]
  | case3 l m ls ih =>
      obtain ⟨hl, hls⟩ := List.forall_mem_cons.1 h
      have hspace : ¬ Token.isSignificant (space.toToken (offset + l.size)) = true :=
        Bool.false_ne_true
      rw [tokens, tokens, List.filter_cons_of_pos (hl.isSignificant offset),
        List.filter_cons_of_neg hspace, List.map_cons, ih _ hls, List.map_cons (l := m :: ls),
        erase_toToken]

/-- The lexeme that a text is read to. -/
def ofText (s : String) : Lexeme := ⟨(Shape.read? s.toList).getD .blanks, s.toList⟩

@[simp] theorem text_ofText (s : String) : (ofText s).text = s := String.ofList_toList

theorem ofText_text {l : Lexeme} (h : l.Whole) : ofText l.text = l := by
  rw [ofText, text, String.toList_ofList, show Shape.read? l.chars = some l.shape from h]
  rfl

end Lexeme

/-! ## What a token shows stands for the token -/

/-- The lexeme that the token shows. -/
def Token.shown (t : Token) : Lexeme := .ofText (t.display?.getD "")

/-- Whether what the token shows is a lexeme that stands for the token, wherever it is. -/
structure Token.ReadsBack (t : Token) : Prop where
  solid : t.shown.Solid
  display?_eq : t.display? = some t.shown.text
  erase_eq : ∀ offset, (t.shown.toToken offset).erase = t.erase

/-- The lexeme that a token shows has a token of its kind everywhere. -/
theorem Token.ReadsBack.kind_eq {t : Token} (h : t.ReadsBack) (offset : Nat) :
    (t.shown.toToken offset).kind = t.kind := by
  have hsame := congrArg Token.kind (h.erase_eq offset)
  exact hsame

theorem Token.readsBack_of_solid {t : Token} {l : Lexeme} (h : l.Solid)
    (hshows : t.display? = some l.text) (hsame : ∀ offset, (l.toToken offset).erase = t.erase) :
    t.ReadsBack := by
  have hshown : t.shown = l := by
    rw [shown, hshows]
    exact Lexeme.ofText_text h.1
  rw [← hshown] at h hshows hsame
  exact ⟨h, hshows, hsame⟩

namespace Lexeme

/-- What is neither spaces nor a number shows its own text. -/
theorem display?_toToken {l : Lexeme} (h : l.Solid)
    (hdigits : l.shape = .digits → Text.readNumeral? l.chars = none) (offset : Nat) :
    (l.toToken offset).display? = some l.text := by
  have hsays := Shape.describes_of_read? h.1
  unfold toToken
  split
  · rename_i hs
    exact absurd hs h.2
  · rename_i hs
    rw [hdigits hs]
    rfl
  · rfl
  · unfold Kind.keyword?
    by_cases htrue : l.text = "true"
    · rw [if_pos htrue, htrue]
      rfl
    · by_cases hfalse : l.text = "false"
      · rw [if_neg htrue, if_pos hfalse, hfalse]
        rfl
      · rw [if_neg htrue, if_neg hfalse]
        rfl
  · rename_i kind hs
    rw [hs] at hsays
    exact hsays
  · rfl

/-- A number shows its digits without leading zeros. -/
theorem readsBack_of_digits {l : Lexeme} {n : Nat} (hs : l.shape = .digits)
    (hn : Text.readNumeral? l.chars = some n) (offset : Nat) : (l.toToken offset).ReadsBack := by
  have hle : n ≤ Text.maxNumeral := (Text.readNumeral?_eq_some_iff.1 hn).2.2
  have htoken : l.toToken offset =
      ⟨.number, ⟨offset, offset + l.size⟩, some l.text, .int n⟩ := by
    rw [toToken, hs]
    simp only [hn]
  have htext : (Lexeme.mk .digits (Nat.toDigits 10 n)).text = n.repr :=
    Nat.repr_eq_ofList_toDigits.symm
  apply Token.readsBack_of_solid (l := ⟨.digits, Nat.toDigits 10 n⟩)
  · refine ⟨Shape.read?_digits Nat.toDigits_ne_nil ?_, Shape.noConfusion⟩
    intro d hd
    exact Text.isNumeric_of_isDigit (Nat.isDigit_of_mem_toDigits (by decide) (by decide) hd)
  · rw [htoken, htext]
    rfl
  · intro place
    rw [htoken, toToken]
    simp only [Text.readNumeral?_toDigits hle]
    rfl

/-- What the token of a lexeme shows stands for the token. -/
theorem Solid.readsBack {l : Lexeme} (h : l.Solid) (offset : Nat) :
    (l.toToken offset).ReadsBack := by
  -- Only a number shows another text than its own: leading zeros are lost.
  by_cases hnumber : l.shape = .digits ∧ ∃ n, Text.readNumeral? l.chars = some n
  · obtain ⟨hs, n, hn⟩ := hnumber
    exact readsBack_of_digits hs hn offset
  · apply Token.readsBack_of_solid h
    · apply display?_toToken h
      intro hs
      rw [Option.eq_none_iff_forall_ne_some]
      intro n hn
      exact hnumber ⟨hs, n, hn⟩
    · intro place
      rw [erase_toToken l place, erase_toToken l offset]

/-- What a token shows does not depend on its place, nor on the digits of a number. -/
theorem display?_erase_toToken (l : Lexeme) (offset : Nat) :
    (l.toToken offset).erase.display? = (l.toToken offset).display? := by
  unfold toToken
  split
  · rfl
  · split <;> rfl
  · rfl
  · split <;> rfl
  · rename_i kind _
    cases kind <;> rfl
  · rfl

end Lexeme

/-! ## The tokens of what is written out -/

/-- The tokens ahead in a source are those of lexemes that are no spaces. -/
theorem Stream.exists_solid_of_mem {source : String} {s : Stream} (hs : ofString source = .ok s) :
    ∀ t ∈ s.ahead, t.kind ≠ .invalid ∧
      ∃ (l : Lexeme) (offset : Nat), l.Solid ∧ l.toToken offset = t := by
  obtain ⟨ls, hunfused, _, hsignificant, hvalid⟩ := exists_unfused_of_ofString hs
  intro t ht
  rw [← hsignificant, List.mem_filter] at ht
  obtain ⟨hmem, hkind⟩ := ht
  refine ⟨hvalid t hmem, ?_⟩
  obtain ⟨l, hl, offset, rfl⟩ := Lexeme.exists_of_mem_tokens t hmem
  refine ⟨l, offset, ⟨hunfused.whole l hl, ?_⟩, rfl⟩
  intro hblanks
  rw [Lexeme.toToken, hblanks] at hkind
  cases hkind

/-- What tokens show, joined by spaces, has tokens that differ from them only in their place and in
the digits of numbers. -/
theorem Stream.ofString_intercalate {ts : List Token} (hback : ∀ t ∈ ts, t.ReadsBack)
    (hvalid : ∀ t ∈ ts, t.kind ≠ .invalid) {text : String}
    (htext : text = " ".intercalate (ts.map fun t => t.display?.getD "")) :
    ∃ us : List Token, ofString text = .ok ⟨us, text.utf8ByteSize⟩ ∧
      us.map Token.erase = ts.map Token.erase := by
  have hsolid : ∀ l ∈ ts.map Token.shown, l.Solid := by
    rw [List.forall_mem_map]
    intro t ht
    exact (hback t ht).solid
  -- The text is that of the lexemes shown, with spaces between them.
  have hchars : String.ofList (Lexeme.allChars (Lexeme.spaced (ts.map Token.shown))) = text := by
    rw [Lexeme.ofList_allChars_spaced, htext, List.map_map]
    congr 1
    apply List.map_congr_left
    intro t _
    exact Lexeme.text_ofText _
  have hkinds : ∀ t ∈ Lexeme.tokens 0 (Lexeme.spaced (ts.map Token.shown)), t.kind ≠ .invalid := by
    intro u hu
    obtain ⟨l, hl, offset, rfl⟩ := Lexeme.exists_of_mem_tokens u hu
    rcases Lexeme.eq_space_or_mem_of_mem_spaced l hl with rfl | hl
    · exact Kind.noConfusion
    · obtain ⟨t, ht, rfl⟩ := List.mem_map.1 hl
      rw [(hback t ht).kind_eq offset]
      exact hvalid t ht
  have hs := ofString_of_unfused (Lexeme.unfused_spaced hsolid) hkinds
  rw [hchars] at hs
  refine ⟨_, hs, ?_⟩
  rw [Lexeme.erase_tokens_spaced 0 hsolid, List.map_map]
  apply List.map_congr_left
  intro t ht
  exact (hback t ht).erase_eq 0

/-! ## Trees -/

/-- What is written out of a tree is what is left of it without places and digits, where the tokens
show that much. -/
theorem Tree.unparse_eq_of_erase_eq {a b : Tree} (h : a.erase = b.erase)
    (ha : ∀ t ∈ a.leaves, t.erase.display? = t.display?)
    (hb : ∀ t ∈ b.leaves, t.erase.display? = t.display?) : a.unparse = b.unparse := by
  have hshow : ∀ ts : List Token, (∀ t ∈ ts, t.erase.display? = t.display?) →
      (ts.map fun t => t.display?.getD "") =
        (ts.map Token.erase).map fun t => t.display?.getD "" := by
    intro ts hts
    rw [List.map_map]
    apply List.map_congr_left
    intro t ht
    exact congrArg (fun o => o.getD "") (hts t ht).symm
  have hleaves : a.leaves.map Token.erase = b.leaves.map Token.erase := by
    rw [← leaves_mapTokens, ← leaves_mapTokens]
    exact congrArg leaves h
  rw [unparse, unparse, hshow a.leaves ha, hshow b.leaves hb, hleaves]

/-- The leaves of a tree that has been read are tokens of lexemes. -/
theorem Tree.solid_leaves_of_read {mode : Mode} {source : String} {tree : Tree}
    (h : read mode source = .ok tree) :
    tree.Canonical ∧ tree.height ≤ maxLevels ∧ ∀ t ∈ tree.leaves, t.kind ≠ .invalid ∧
      ∃ (l : Lexeme) (offset : Nat), l.Solid ∧ l.toToken offset = t := by
  obtain ⟨s, found, rest, hs, hr, rfl, _⟩ := reads_of_read_eq_ok h
  refine ⟨hr.canonical, hr.height_le, ?_⟩
  intro t ht
  apply Stream.exists_solid_of_mem hs t
  rw [hr.ahead_eq]
  exact List.mem_append_left _ ht

/-- Every token of a tree that has been read shows something, and what the tokens show, with single
spaces between, is read to the same tree again but for the places of the tokens and the digits in
which numbers were written; and from that tree the same is written out. -/
theorem read_strict_unparse (mode : Mode) (source : String) (tree : Tree)
    (h : Tree.read mode source = .ok tree) :
    (∀ t ∈ tree.leaves, t.display? ≠ none) ∧
    ∃ again : Tree, Tree.read .strict tree.unparse = .ok again ∧ again.erase = tree.erase ∧
      again.unparse = tree.unparse := by
  obtain ⟨hc, hheight, hleaves⟩ := Tree.solid_leaves_of_read h
  have hback : ∀ t ∈ tree.leaves, t.ReadsBack := by
    intro t ht
    obtain ⟨_, l, offset, hl, rfl⟩ := hleaves t ht
    exact hl.readsBack offset
  constructor
  · intro t ht
    rw [(hback t ht).display?_eq]
    exact Option.some_ne_none _
  · have hvalid : ∀ t ∈ tree.leaves, t.kind ≠ .invalid := fun t ht => (hleaves t ht).1
    have htext : tree.unparse = " ".intercalate (tree.leaves.map fun t => t.display?.getD "") := by
      rw [Tree.unparse]
    obtain ⟨us, hs, hus⟩ := Stream.ofString_intercalate hback hvalid htext
    -- Kinds and values are the same, and they alone decide the grouping.
    obtain ⟨again, hagain, rfl, hsame, herase⟩ :=
      Tree.exists_over_leaves Token.keeps_erase Token.keeps_erase hc hus
    have hread := Tree.read_strict_of_leaves hs hagain (hsame ▸ hheight)
    obtain ⟨_, _, hagainLeaves⟩ := Tree.solid_leaves_of_read hread
    refine ⟨again, hread, herase, Tree.unparse_eq_of_erase_eq herase ?_ ?_⟩
    · intro t ht
      obtain ⟨_, l, offset, _, rfl⟩ := hagainLeaves t ht
      exact l.display?_erase_toToken offset
    · intro t ht
      obtain ⟨_, l, offset, _, rfl⟩ := hleaves t ht
      exact l.display?_erase_toToken offset

/-- A number with leading zeros, a name that starts with digits and one of two bytes. -/
theorem read_strict_unparse_of_assignment :
    ∃ tree again : Tree, Tree.read .lenient "é=007*12ab+true )" = .ok tree ∧
      tree.unparse = "é = 7 * 12ab + true" ∧
      Tree.read .strict "é = 7 * 12ab + true" = .ok again ∧ again.erase = tree.erase ∧
      again.unparse = "é = 7 * 12ab + true" := by
  let tree : Tree :=
    .assignment (.name ⟨.identifier, ⟨0, 2⟩, some "é", .text "é"⟩) ⟨.equals, ⟨2, 3⟩, none, .absent⟩
      (.binary
        (.binary (.literal ⟨.number, ⟨3, 6⟩, some "007", .int 7⟩ (.int 7))
          ⟨.star, ⟨6, 7⟩, none, .absent⟩
          (.name ⟨.identifier, ⟨7, 11⟩, some "12ab", .text "12ab"⟩))
        ⟨.plus, ⟨11, 12⟩, none, .absent⟩
        (.literal ⟨.trueKeyword, ⟨12, 16⟩, some "true", .bool true⟩ (.bool true)))
  have hread : Tree.read .lenient "é=007*12ab+true )" = .ok tree := by rfl
  have htext : tree.unparse = "é = 7 * 12ab + true" := by decide
  obtain ⟨_, again, hagain, herase, hsame⟩ := read_strict_unparse .lenient _ tree hread
  rw [htext] at hagain hsame
  exact ⟨tree, again, hread, htext, hagain, herase, hsame⟩

end ExprTree
