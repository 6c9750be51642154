import ExprTree.Proofs.Lossless

set_option autoImplicit false

/-!
# Cutting a text into lexemes

`Lexeme.Unfused` says of a list of lexemes that each of them is read to its shape and
ends before the character that follows it.  A text is cut into one such list and no
other: the scanner finds it (`Scanner.exists_unfused`), and it finds the same list
again whenever it is given the characters (`Scanner.upToEnd_of_unfused`).  A stretch
of such a list is one as well, so a text that is cut out between two tokens has the
tokens that it had in its place.
-/

namespace ExprTree

namespace Shape

/-- The shape after the characters, if all of them belong to the lexeme. -/
def extendAll? (s : Shape) (cs : List Char) : Option Shape := cs.foldlM extend? s

/-- The shape of a lexeme of these characters, if they are one. -/
def read? : List Char → Option Shape
  | [] => none
  | c :: cs => (start c).extendAll? cs

theorem extendAll?_cons (s : Shape) (c : Char) (cs : List Char) :
    s.extendAll? (c :: cs) = (s.extend? c).bind fun t => t.extendAll? cs := rfl

theorem extendAll?_append (s : Shape) (cs ds : List Char) :
    s.extendAll? (cs ++ ds) = (s.extendAll? cs).bind fun t => t.extendAll? ds := by
  simp only [extendAll?, List.foldlM_append]
  rfl

/-- What a shape says stays true when more characters extend it. -/
theorem describes_extendAll? {s t : Shape} {seen cs : List Char} (h : s.Describes seen)
    (hne : seen ≠ []) (hall : s.extendAll? cs = some t) : t.Describes (seen ++ cs) := by
  induction cs generalizing s seen with
  | nil =>
      cases hall
      rwa [List.append_nil]
  | cons c cs ih =>
      rw [extendAll?_cons, Option.bind_eq_some_iff] at hall
      obtain ⟨u, hu, hall⟩ := hall
      have hmore := ih (describes_extend h hne (extends_of_extend? hu)) (by simp) hall
      rwa [List.append_assoc] at hmore

theorem describes_of_read? {s : Shape} {cs : List Char} (h : read? cs = some s) :
    s.Describes cs := by
  cases cs with
  | nil => cases h
  | cons c cs => exact describes_extendAll? (describes_start c) (List.cons_ne_nil c []) h

/-- Whether the shape cannot be extended by the text. -/
def EndsBefore (s : Shape) (cs : List Char) : Prop := ∀ c ∈ cs.head?, s.extend? c = none

theorem endsBefore_nil (s : Shape) : s.EndsBefore [] := by
  intro c hc
  cases hc

theorem endsBefore_cons {s : Shape} {c : Char} {cs : List Char} :
    s.EndsBefore (c :: cs) ↔ s.extend? c = none := by
  simp [EndsBefore]

/-- What ends before a text ends before any part of it from its start. -/
theorem EndsBefore.of_append {s : Shape} {cs ds : List Char} (h : s.EndsBefore (cs ++ ds)) :
    s.EndsBefore cs := by
  intro c hc
  apply h
  rw [List.head?_append, hc]
  rfl

/-- The longest extension is an extension, and ends before what is left. -/
theorem exists_longest (s : Shape) (seen cs : List Char) :
    ∃ taken, cs = taken ++ (s.longest seen cs).2.2 ∧
      (s.longest seen cs).2.1 = seen.reverse ++ taken ∧
      s.extendAll? taken = some (s.longest seen cs).1 ∧
      (s.longest seen cs).1.EndsBefore (s.longest seen cs).2.2 := by
  fun_induction longest s seen cs with
  | case1 s seen => exact ⟨[], rfl, (List.append_nil _).symm, rfl, endsBefore_nil s⟩
  | case2 s seen c cs t he ih =>
      obtain ⟨taken, hcs, hchars, hall, hends⟩ := ih
      refine ⟨c :: taken, congrArg (List.cons c) hcs, ?_, ?_, hends⟩
      · rw [hchars]
        simp
      · rw [extendAll?_cons, he]
        exact hall
  | case3 s seen c cs he =>
      exact ⟨[], rfl, (List.append_nil _).symm, rfl, endsBefore_cons.2 he⟩

/-- An extension that ends before what follows it is the longest one. -/
theorem longest_of_extendAll? {s t : Shape} {taken rest : List Char} (seen : List Char)
    (h : s.extendAll? taken = some t) (hends : t.EndsBefore rest) :
    s.longest seen (taken ++ rest) = (t, seen.reverse ++ taken, rest) := by
  induction taken generalizing s seen with
  | nil =>
      cases h
      rw [List.nil_append, List.append_nil]
      -- The text ends, or it goes on with a character that the shape does not take.
      cases rest with
      | nil => rfl
      | cons c cs =>
          have hnone := endsBefore_cons.1 hends
          simp [longest, hnone]
  | cons c cs ih =>
      rw [extendAll?_cons, Option.bind_eq_some_iff] at h
      obtain ⟨u, hu, hall⟩ := h
      rw [List.cons_append, longest, hu]
      simp only
      rw [ih (c :: seen) hall]
      simp

end Shape

namespace Lexeme

/-- Whether the lexeme is read to its shape. -/
def Whole (l : Lexeme) : Prop := Shape.read? l.chars = some l.shape

/-- The characters of lexemes, one lexeme after another. -/
def allChars (ls : List Lexeme) : List Char := ls.flatMap chars

/-- The number of bytes of lexemes. -/
def allSize (ls : List Lexeme) : Nat := Text.byteSize (allChars ls)

/-- The tokens of lexemes, the first of them at an offset. -/
def tokens (offset : Nat) : List Lexeme → List Token
  | [] => []
  | l :: ls => l.toToken offset :: tokens (offset + l.size) ls

/-- Whether each of the lexemes is read to its shape and ends before the next. -/
def Unfused : List Lexeme → Prop
  | [] => True
  | l :: ls => l.Whole ∧ l.shape.EndsBefore (allChars ls) ∧ Unfused ls

/-- A whole lexeme has characters. -/
theorem Whole.chars_ne_nil {l : Lexeme} (h : l.Whole) : l.chars ≠ [] := by
  intro hnil
  rw [Whole, hnil] at h
  cases h

@[simp] theorem allChars_nil : allChars [] = [] := rfl

@[simp] theorem allChars_cons (l : Lexeme) (ls : List Lexeme) :
    allChars (l :: ls) = l.chars ++ allChars ls := rfl

@[simp] theorem allChars_append (ls ms : List Lexeme) :
    allChars (ls ++ ms) = allChars ls ++ allChars ms := by
  simp [allChars]

@[simp] theorem allSize_cons (l : Lexeme) (ls : List Lexeme) :
    allSize (l :: ls) = l.size + allSize ls := by
  simp [allSize, size]

/-! ## Tokens of lexemes -/

theorem tokens_append (offset : Nat) (ls ms : List Lexeme) :
    tokens offset (ls ++ ms) = tokens offset ls ++ tokens (offset + allSize ls) ms := by
  induction ls generalizing offset with
  | nil => rfl
  | cons l ls ih =>
      rw [List.cons_append, tokens, ih, tokens, allSize_cons, List.cons_append, Nat.add_assoc]

/-- Tokens further on are the same tokens, shifted. -/
theorem tokens_add (offset n : Nat) (ls : List Lexeme) :
    tokens (offset + n) ls = (tokens offset ls).map (Token.shift n) := by
  induction ls generalizing offset with
  | nil => rfl
  | cons l ls ih =>
      rw [tokens, tokens, List.map_cons, toToken_add, ← ih, Nat.add_right_comm]

/-- Where the tokens come apart, the lexemes do. -/
theorem exists_append_of_tokens {offset : Nat} {ls : List Lexeme} {ts us : List Token}
    (h : tokens offset ls = ts ++ us) :
    ∃ ms ns, ls = ms ++ ns ∧ tokens offset ms = ts ∧ tokens (offset + allSize ms) ns = us := by
  induction ts generalizing offset ls with
  | nil => exact ⟨[], ls, rfl, rfl, h⟩
  | cons t ts ih =>
      cases ls with
      | nil => cases h
      | cons l ls =>
          rw [tokens, List.cons_append, List.cons.injEq] at h
          obtain ⟨hhead, htail⟩ := h
          obtain ⟨ms, ns, rfl, hms, hns⟩ := ih htail
          refine ⟨l :: ms, ns, rfl, ?_, ?_⟩
          · rw [tokens, hhead, hms]
          · rw [allSize_cons, ← Nat.add_assoc]
            exact hns

/-- Every token of lexemes is that of one of them. -/
theorem exists_of_mem_tokens {offset : Nat} {ls : List Lexeme} :
    ∀ t ∈ tokens offset ls, ∃ l ∈ ls, ∃ place, l.toToken place = t := by
  induction ls generalizing offset with
  | nil => simp [tokens]
  | cons l ls ih =>
      intro t ht
      rcases List.mem_cons.1 ht with rfl | ht
      · exact ⟨l, List.mem_cons_self, offset, rfl⟩
      · obtain ⟨m, hm, place, rfl⟩ := ih t ht
        exact ⟨m, List.mem_cons_of_mem l hm, place, rfl⟩

/-- The first token starts at the offset. -/
theorem start_of_tokens {offset : Nat} {ls : List Lexeme} :
    ∀ t ∈ (tokens offset ls).head?, t.span.start = offset := by
  intro t ht
  cases ls with
  | nil => cases ht
  | cons l ls =>
      cases ht
      rw [span_toToken]

/-- The last token stops where the lexemes do. -/
theorem stop_of_tokens {offset : Nat} {ls : List Lexeme} :
    ∀ t ∈ (tokens offset ls).getLast?, t.span.stop = offset + allSize ls := by
  intro t ht
  induction ls generalizing offset with
  | nil => cases ht
  | cons l ls ih =>
      rw [allSize_cons, ← Nat.add_assoc]
      cases ls with
      | nil =>
          rw [tokens, tokens, List.getLast?_singleton, Option.mem_some_iff] at ht
          rw [← ht, span_toToken]
          rfl
      | cons m ls =>
          apply ih
          rwa [tokens, tokens, List.getLast?_cons_cons] at ht

/-! ## Stretches of lexemes that are not fused -/

theorem Unfused.whole {ls : List Lexeme} (h : Unfused ls) : ∀ l ∈ ls, l.Whole := by
  induction ls with
  | nil => simp
  | cons l ls ih => exact List.forall_mem_cons.2 ⟨h.1, ih h.2.2⟩

theorem Unfused.of_append_left {ls ms : List Lexeme} (h : Unfused (ls ++ ms)) : Unfused ls := by
  induction ls with
  | nil => exact trivial
  | cons l ls ih =>
      rw [List.cons_append] at h
      obtain ⟨hwhole, hends, hrest⟩ := h
      rw [allChars_append] at hends
      exact ⟨hwhole, hends.of_append, ih hrest⟩

theorem Unfused.of_append_right {ls ms : List Lexeme} (h : Unfused (ls ++ ms)) : Unfused ms := by
  induction ls with
  | nil => exact h
  | cons l ls ih => exact ih h.2.2

/-- The scanner takes a whole lexeme that ends before what follows it. -/
theorem take_of_whole {l : Lexeme} {c : Char} {cs rest : List Char} (h : l.Whole)
    (hends : l.shape.EndsBefore rest) (hchars : l.chars ++ rest = c :: cs) :
    take c cs = (l, rest) := by
  obtain ⟨shape, chars⟩ := l
  cases chars with
  | nil => cases h
  | cons d ds =>
      rw [List.cons_append, List.cons.injEq] at hchars
      obtain ⟨rfl, rfl⟩ := hchars
      have hlongest := Shape.longest_of_extendAll? [d] h hends
      simp only [take, hlongest]
      rfl

/-- What the scanner takes is a whole lexeme, which ends before what is left. -/
theorem whole_take (c : Char) (cs : List Char) :
    (take c cs).1.Whole ∧ (take c cs).1.shape.EndsBefore (take c cs).2 := by
  obtain ⟨taken, _, hchars, hall, hends⟩ := Shape.exists_longest (Shape.start c) [c] cs
  refine ⟨?_, hends⟩
  have hread : (take c cs).1.chars = c :: taken := hchars
  rw [Whole, hread]
  exact hall

end Lexeme

namespace Scanner

open Lexeme

/-- A text is cut into lexemes that are not fused. -/
theorem exists_unfused (s : Scanner) :
    ∃ ls, Unfused ls ∧ allChars ls = s.rest ∧ s.upToEnd = tokens s.offset ls := by
  induction s using upToEnd_induction with
  | nil s h => exact ⟨[], trivial, h.symm, upToEnd_of_nil h⟩
  | cons s h ih =>
      obtain ⟨ls, hls, hchars, htokens⟩ := ih
      obtain ⟨offset, rest⟩ := s
      cases rest with
      | nil => exact absurd rfl h
      | cons c cs =>
          obtain ⟨hwhole, hends⟩ := whole_take c cs
          have hrest : allChars ls = (take c cs).2 := hchars
          refine ⟨(take c cs).1 :: ls, ⟨hwhole, ?_, hls⟩, ?_, ?_⟩
          · rw [hrest]
            exact hends
          · rw [allChars_cons, hrest]
            exact take_append c cs
          · rw [upToEnd_cons h, htokens]
            rfl

/-- A whole lexeme that ends before the rest of the text is the first token. -/
theorem upToEnd_of_whole {l : Lexeme} {rest : List Char} (offset : Nat) (h : l.Whole)
    (hends : l.shape.EndsBefore rest) :
    (Scanner.mk offset (l.chars ++ rest)).upToEnd =
      l.toToken offset :: (Scanner.mk (offset + l.size) rest).upToEnd := by
  cases htext : l.chars ++ rest with
  | nil =>
      rw [List.append_eq_nil_iff] at htext
      rw [Whole, htext.1] at h
      cases h
  | cons c cs =>
      have htake := take_of_whole h hends htext
      rw [upToEnd_cons (List.cons_ne_nil c cs)]
      simp only [next, htake]

/-- Lexemes that are not fused are what their characters are cut into. -/
theorem upToEnd_of_unfused {ls : List Lexeme} (offset : Nat) (h : Unfused ls) :
    (Scanner.mk offset (allChars ls)).upToEnd = tokens offset ls := by
  induction ls generalizing offset with
  | nil => exact upToEnd_of_nil rfl
  | cons l ls ih =>
      obtain ⟨hwhole, hends, hls⟩ := h
      rw [allChars_cons, upToEnd_of_whole offset hwhole hends, ih _ hls, tokens]

end Scanner

/-- Every token of a source is that of a whole lexeme, but for the last. -/
theorem Token.eq_endOfFile_or_of_mem_scan {source : String} {t : Token} (ht : t ∈ scan source) :
    t = .endOfFile source.utf8ByteSize ∨
      ∃ (l : Lexeme) (place : Nat), l.Whole ∧ l.toToken place = t := by
  obtain ⟨ls, hunfused, _, htokens⟩ := (Scanner.ofList source.toList).exists_unfused
  rw [scan_eq, htokens, List.mem_append, List.mem_singleton] at ht
  rcases ht with ht | rfl
  · obtain ⟨l, hl, place, rfl⟩ := Lexeme.exists_of_mem_tokens t ht
    exact .inr ⟨l, place, hunfused.whole l hl, rfl⟩
  · exact .inl rfl

end ExprTree
