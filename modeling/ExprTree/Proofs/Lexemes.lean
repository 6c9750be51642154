import ExprTree.Token.Scanner

set_option autoImplicit false

/-!
# What a shape says of a lexeme

`Shape.Describes` gives for each shape the characters of the lexemes that have it.
One more character keeps it true, so it holds of whatever the scanner takes; and it
is all that the token of a lexeme needs to be turned back into text.
-/

namespace ExprTree

open Text (isLetter isNumeric)

namespace Shape

/-- Whether lexemes of these characters have the shape. -/
def Describes : Shape → List Char → Prop
  | blanks, cs => ∀ c ∈ cs, c = ' '
  | digits, cs => ∀ c ∈ cs, isNumeric c = true
  | suffixed, cs => ∃ ds ls, cs = ds ++ ls ∧ ds ≠ [] ∧ ls ≠ [] ∧
      (∀ d ∈ ds, isNumeric d = true) ∧ ∀ l ∈ ls, isLetter l = true
  | word, cs => ∃ l rest, cs = l :: rest ∧ isLetter l = true ∧
      ∀ c ∈ rest, isLetter c = true ∨ isNumeric c = true
  | mark kind, cs => kind.spelling? = some (String.ofList cs)
  | stray c, cs => cs = [c]

theorem describes_start (c : Char) : (start c).Describes [c] := by
  unfold start
  split
  · simp [Describes]
  all_goals try rfl
  split
  · rename_i h
    simp [Describes, h]
  · split
    · rename_i h
      exact ⟨_, [], rfl, h, by simp⟩
    · rfl

/-- The ways in which a character extends a shape. -/
inductive Extends : Shape → Char → Shape → Prop where
  | blank : Extends blanks ' ' blanks
  | digit {c : Char} (h : isNumeric c = true) : Extends digits c digits
  | suffix {c : Char} (h : isLetter c = true) : Extends digits c suffixed
  | letter {c : Char} (h : isLetter c = true) : Extends suffixed c suffixed
  | word {c : Char} (h : isLetter c = true ∨ isNumeric c = true) : Extends word c word
  | bangEquals : Extends (mark .bang) '=' (mark .bangEquals)
  | equalsEquals : Extends (mark .equals) '=' (mark .equalsEquals)
  | ampersand : Extends (stray '&') '&' (mark .ampersandAmpersand)
  | pipe : Extends (stray '|') '|' (mark .pipePipe)

theorem extends_of_extend? {s t : Shape} {c : Char} (h : s.extend? c = some t) :
    Extends s c t := by
  revert h
  fun_cases extend? s c with
  | case1 hc =>
      rintro ⟨⟩
      exact hc ▸ .blank
  | case3 hc =>
      rintro ⟨⟩
      exact .digit hc
  | case4 _ hc =>
      rintro ⟨⟩
      exact .suffix hc
  | case6 hc =>
      rintro ⟨⟩
      exact .letter hc
  | case8 hc =>
      rintro ⟨⟩
      rw [Bool.or_eq_true] at hc
      exact .word hc
  | case10 hc =>
      rintro ⟨⟩
      exact hc ▸ .bangEquals
  | case12 hc =>
      rintro ⟨⟩
      exact hc ▸ .equalsEquals
  | case15 hc =>
      rintro ⟨⟩
      exact hc ▸ .ampersand
  | case17 hc =>
      rintro ⟨⟩
      exact hc ▸ .pipe
  | _ => exact nofun

/-- A mark of one character is followed by another to spell a longer mark. -/
theorem describes_mark {kind longer : Kind} {cs : List Char} {a b : Char}
    (h : (mark kind).Describes cs) (hk : kind.spelling? = some (String.ofList [a]))
    (hl : longer.spelling? = some (String.ofList [a, b])) :
    (mark longer).Describes (cs ++ [b]) := by
  have hcs : cs = [a] := String.ofList_injective (Option.some.inj (h.symm.trans hk))
  rw [hcs]
  exact hl

/-- What a shape says stays true when a character extends it. -/
theorem describes_extend {s t : Shape} {c : Char} {cs : List Char} (h : s.Describes cs)
    (hne : cs ≠ []) (he : Extends s c t) : t.Describes (cs ++ [c]) := by
  cases he with
  | blank =>
      simp only [Describes, List.mem_append, List.mem_singleton] at h ⊢
      rintro d (hd | rfl)
      · exact h d hd
      · rfl
  | digit hc =>
      simp only [Describes, List.mem_append, List.mem_singleton] at h ⊢
      rintro d (hd | rfl)
      · exact h d hd
      · exact hc
  | suffix hc => exact ⟨cs, [c], rfl, hne, by simp, h, by simpa using hc⟩
  | letter hc =>
      obtain ⟨ds, ls, rfl, hds, hls, hnum, hlet⟩ := h
      refine ⟨ds, ls ++ [c], by simp, hds, by simp, hnum, ?_⟩
      simpa [or_imp, forall_and, hc] using hlet
  | word hc =>
      obtain ⟨l, rest, rfl, hl, hrest⟩ := h
      refine ⟨l, rest ++ [c], rfl, hl, ?_⟩
      simpa [or_imp, forall_and, hc] using hrest
  | bangEquals => exact describes_mark h rfl rfl
  | equalsEquals => exact describes_mark h rfl rfl
  | ampersand =>
      cases h
      rfl
  | pipe =>
      cases h
      rfl

theorem describes_longest (s : Shape) (seen cs : List Char) (hne : seen ≠ [])
    (h : s.Describes seen.reverse) : (s.longest seen cs).1.Describes (s.longest seen cs).2.1 := by
  fun_induction longest s seen cs with
  | case1 s seen => exact h
  | case2 s seen c cs t he ih =>
      refine ih (List.cons_ne_nil c seen) ?_
      rw [List.reverse_cons]
      exact describes_extend h (by simpa using hne) (extends_of_extend? he)
  | case3 s seen c cs he => exact h

/-- A lexeme holds the character that it starts with. -/
theorem longest_ne_nil (s : Shape) (seen cs : List Char) (hne : seen ≠ []) :
    (s.longest seen cs).2.1 ≠ [] := by
  fun_induction longest s seen cs with
  | case1 s seen => simpa using hne
  | case2 s seen c cs t he ih => exact ih (List.cons_ne_nil c seen)
  | case3 s seen c cs he => simpa using hne

end Shape

namespace Token

/-- The text that the token stands for, as far as the token itself says it. -/
def piece? (t : Token) : Option String :=
  match t.text with
  | some text => some text
  | none =>
    if t.kind = .whitespace then some (String.ofList (List.replicate t.span.size ' '))
    else t.kind.spelling?

end Token

namespace Lexeme

theorem describes_take (c : Char) (cs : List Char) :
    (take c cs).1.shape.Describes (take c cs).1.chars :=
  Shape.describes_longest (Shape.start c) [c] cs (List.cons_ne_nil c [])
    (Shape.describes_start c)

theorem chars_take_ne_nil (c : Char) (cs : List Char) : (take c cs).1.chars ≠ [] :=
  Shape.longest_ne_nil (Shape.start c) [c] cs (List.cons_ne_nil c [])

/-- Spaces are as many as their bytes. -/
theorem eq_replicate_of_blanks {cs : List Char} (h : Shape.blanks.Describes cs) :
    cs = List.replicate (Text.byteSize cs) ' ' := by
  induction cs with
  | nil => rfl
  | cons c cs ih =>
      obtain ⟨hc, hcs⟩ := List.forall_mem_cons.1 h
      have hsize : Text.byteSize (c :: cs) = Text.byteSize cs + 1 := by
        rw [Text.byteSize_cons, hc, Nat.add_comm]
        rfl
      rw [hsize, List.replicate_succ, ← ih hcs, hc]

/-- The token of a lexeme says its text. -/
theorem piece?_toToken {l : Lexeme} (h : l.shape.Describes l.chars) (offset : Nat) :
    (l.toToken offset).piece? = some l.text := by
  unfold toToken
  split
  · rename_i hs
    rw [hs] at h
    have hsize : (⟨offset, offset + l.size⟩ : Span).size = Text.byteSize l.chars :=
      Nat.add_sub_cancel_left _ _
    simp only [Token.piece?, if_true, hsize, ← eq_replicate_of_blanks h, text]
  · split <;> rfl
  · rfl
  · split <;> rfl
  · rename_i kind hs
    rw [hs] at h
    have hblank : kind ≠ .whitespace := by
      rintro rfl
      cases h
    simp only [Token.piece?, if_neg hblank]
    exact h
  · rfl

/-- No lexeme is the end-of-file token. -/
theorem kind_toToken_ne {l : Lexeme} (h : l.shape.Describes l.chars) (offset : Nat) :
    (l.toToken offset).kind ≠ .endOfFile := by
  unfold toToken
  split
  · simp
  · split <;> simp
  · simp
  · split <;> simp
  · rename_i kind hs
    rw [hs] at h
    rintro rfl
    cases h
  · simp

end Lexeme

end ExprTree
