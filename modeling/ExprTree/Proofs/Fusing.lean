import ExprTree.Proofs.Spacing
import Mathlib.Data.List.Induction

set_option autoImplicit false

/-!
# Where two texts fuse

Put one text behind another, and the only token of the two that can change is the
last of the first text: whether it does is decided by that token and the first
character behind it.  `Token.Fuses` lists the cases.  In all others the tokens of the
whole are those of the two texts, the second moved behind the first; in these, no
token ends where the texts meet (`boundary_append_iff`).
-/

namespace ExprTree

open Text (isLetter isNumeric)

namespace Token

/-- The characters of the text that the token carries. -/
def chars (t : Token) : List Char := (t.text.getD "").toList

/-- Whether the token carries numeric characters and nothing else. -/
def IsDigitRun (t : Token) : Prop := t.chars ≠ [] ∧ ∀ d ∈ t.chars, isNumeric d = true

/-- Whether the text of the token starts with a character of the class. -/
def StartsWith (p : Char → Bool) (t : Token) : Prop := ∃ c ∈ t.chars.head?, p c = true

/-- The tokens that a character behind them does not leave as they are. -/
inductive Fuses : Token → Char → Prop where
  | space {t : Token} (h : t.kind = .whitespace) : Fuses t ' '
  | equals {t : Token} (h : t.kind = .bang ∨ t.kind = .equals) : Fuses t '='
  | ampersand {t : Token} (h : t.kind = .invalid) (htext : t.text = some "&") : Fuses t '&'
  | pipe {t : Token} (h : t.kind = .invalid) (htext : t.text = some "|") : Fuses t '|'
  | digits {t : Token} {c : Char} (h : t.kind = .number ∨ (t.kind = .invalid ∧ t.IsDigitRun))
      (hc : isNumeric c = true ∨ isLetter c = true) : Fuses t c
  | word {t : Token} {c : Char}
      (h : t.kind = .trueKeyword ∨ t.kind = .falseKeyword ∨
        (t.kind = .identifier ∧ t.StartsWith isLetter))
      (hc : isLetter c = true ∨ isNumeric c = true) : Fuses t c
  | suffixed {t : Token} {c : Char} (h : t.kind = .identifier) (hstart : t.StartsWith isNumeric)
      (hc : isLetter c = true) : Fuses t c

end Token

namespace Shape

theorem extend?_of_extends {s t : Shape} {c : Char} (h : Extends s c t) : s.extend? c = some t := by
  cases h with
  | blank => rfl
  | digit hc => exact extend?_digits_of_isNumeric hc
  | suffix hc => exact extend?_digits_of_isLetter hc
  | letter hc => exact extend?_suffixed hc
  | word hc => exact extend?_word hc
  | bangEquals => rfl
  | equalsEquals => rfl
  | ampersand => rfl
  | pipe => rfl

/-- What ends before a text that is not empty does so whatever follows the text. -/
theorem EndsBefore.append {s : Shape} {cs : List Char} (h : s.EndsBefore cs) (hne : cs ≠ [])
    (ds : List Char) : s.EndsBefore (cs ++ ds) := by
  cases cs with
  | nil => exact absurd rfl hne
  | cons c cs => exact endsBefore_cons.2 (endsBefore_cons.1 h)

/-- The kinds of the tokens of lexemes of a shape. -/
inductive Bears : Shape → Kind → Prop where
  | whitespace : Bears blanks .whitespace
  | number : Bears digits .number
  | undecodable : Bears digits .invalid
  | suffixed : Bears suffixed .identifier
  | trueKeyword : Bears word .trueKeyword
  | falseKeyword : Bears word .falseKeyword
  | identifier : Bears word .identifier
  | mark {kind : Kind} (h : kind.spelling?.isSome) : Bears (mark kind) kind
  | stray {c : Char} : Bears (stray c) .invalid

section

variable {s : Shape} {kind : Kind}

theorem eq_blanks_of_bears (h : s.Bears .whitespace) : s = blanks := by
  cases h with
  | whitespace => rfl
  | mark hspelling => cases hspelling

theorem eq_digits_of_bears (h : s.Bears .number) : s = digits := by
  cases h with
  | number => rfl
  | mark hspelling => cases hspelling

theorem eq_word_of_bears (h : s.Bears kind) (hkind : kind = .trueKeyword ∨ kind = .falseKeyword) :
    s = word := by
  cases h with
  | trueKeyword => rfl
  | falseKeyword => rfl
  | mark hspelling => rcases hkind with rfl | rfl <;> cases hspelling
  | _ => rcases hkind with hkind | hkind <;> cases hkind

theorem eq_mark_of_bears (h : s.Bears kind) (hspelling : kind.spelling?.isSome) : s = mark kind := by
  cases h with
  | mark _ => rfl
  | _ => cases hspelling

theorem cases_of_bears_identifier (h : s.Bears .identifier) : s = suffixed ∨ s = word := by
  cases h with
  | suffixed => exact .inl rfl
  | identifier => exact .inr rfl
  | mark hspelling => cases hspelling

theorem cases_of_bears_invalid (h : s.Bears .invalid) : s = digits ∨ ∃ c, s = stray c := by
  cases h with
  | undecodable => exact .inl rfl
  | stray => exact .inr ⟨_, rfl⟩
  | mark hspelling => cases hspelling

end

end Shape

/-! ## What its token says of a lexeme -/

/-- No text starts with a letter and with a numeric character. -/
theorem Token.StartsWith.not_isNumeric {t : Token} (h : t.StartsWith isLetter) :
    ¬ t.StartsWith isNumeric := by
  rintro ⟨d, hd, hnumeric⟩
  obtain ⟨c, hc, hletter⟩ := h
  cases Option.some.inj (hc.symm.trans hd)
  rw [Text.isNumeric_eq_false_of_isLetter hletter] at hnumeric
  cases hnumeric

namespace Lexeme

variable {l : Lexeme}

theorem bears_kind (h : l.Whole) (offset : Nat) : l.shape.Bears (l.toToken offset).kind := by
  have hsays := Shape.describes_of_read? h
  unfold toToken
  split
  · rename_i hs
    rw [hs]
    exact .whitespace
  · rename_i hs
    rw [hs]
    split
    · exact .number
    · exact .undecodable
  · rename_i hs
    rw [hs]
    exact .suffixed
  · rename_i hs
    rw [hs]
    split
    · exact .trueKeyword
    · exact .falseKeyword
    · exact .identifier
  · rename_i kind hs
    rw [hs] at hsays ⊢
    exact .mark (Option.isSome_of_eq_some hsays)
  · rename_i c hs
    rw [hs]
    exact .stray

/-- The token of a lexeme carries its characters, unless it is spaces or a mark. -/
theorem text_toToken (hblanks : l.shape ≠ .blanks) (hmark : ∀ kind, l.shape ≠ .mark kind)
    (offset : Nat) : (l.toToken offset).text = some l.text := by
  unfold toToken
  split
  · rename_i hs
    exact absurd hs hblanks
  · split <;> rfl
  · rfl
  · split <;> rfl
  · rename_i kind hs
    exact absurd hs (hmark kind)
  · rfl

theorem chars_toToken (hblanks : l.shape ≠ .blanks) (hmark : ∀ kind, l.shape ≠ .mark kind)
    (offset : Nat) : (l.toToken offset).chars = l.chars := by
  rw [Token.chars, text_toToken hblanks hmark, Option.getD_some]
  exact String.toList_ofList

section

variable (h : l.Whole) (offset : Nat)

include h

/-- A stray character is the whole text, and is of no class. -/
theorem text_of_stray {d : Char} (hs : l.shape = .stray d) :
    (l.toToken offset).text = some (String.ofList [d]) ∧ isNumeric d = false := by
  have htext := text_toToken (l := l) (by simp [hs]) (by simp [hs]) offset
  rw [Whole, hs] at h
  have hchars : l.chars = [d] := Shape.describes_of_read? h
  rw [hchars] at h
  rw [htext, text, hchars]
  exact ⟨rfl, (Shape.classes_of_start_eq_stray (Option.some.inj h)).2.1⟩

theorem isDigitRun_of_digits (hs : l.shape = .digits) : (l.toToken offset).IsDigitRun := by
  have hsays := Shape.describes_of_read? h
  rw [hs] at hsays
  rw [Token.IsDigitRun, chars_toToken (by simp [hs]) (by simp [hs])]
  exact ⟨h.chars_ne_nil, hsays⟩

theorem startsWith_of_suffixed (hs : l.shape = .suffixed) :
    (l.toToken offset).StartsWith isNumeric := by
  have hsays := Shape.describes_of_read? h
  rw [hs] at hsays
  obtain ⟨ds, ls, hchars, hds, _, hnumeric, _⟩ := hsays
  obtain ⟨d, ds, rfl⟩ := List.exists_cons_of_ne_nil hds
  rw [Token.StartsWith, chars_toToken (by simp [hs]) (by simp [hs]), hchars]
  exact ⟨d, rfl, hnumeric d List.mem_cons_self⟩

theorem startsWith_of_word (hs : l.shape = .word) : (l.toToken offset).StartsWith isLetter := by
  have hsays := Shape.describes_of_read? h
  rw [hs] at hsays
  obtain ⟨c, cs, hchars, hletter, _⟩ := hsays
  rw [Token.StartsWith, chars_toToken (by simp [hs]) (by simp [hs]), hchars]
  exact ⟨c, rfl, hletter⟩

/-! ## A token fuses with what extends its lexeme -/

/-- An invalid token of a character that is not numeric is that of a stray character. -/
theorem shape_of_invalid {d : Char} (hd : isNumeric d = false)
    (hkind : (l.toToken offset).kind = .invalid)
    (htext : (l.toToken offset).text = some (String.ofList [d])) : l.shape = .stray d := by
  have hbears := bears_kind h offset
  rw [hkind] at hbears
  rcases Shape.cases_of_bears_invalid hbears with hs | ⟨c, hs⟩
  · obtain ⟨_, hnumeric⟩ := isDigitRun_of_digits h offset hs
    rw [Token.chars, htext, Option.getD_some, String.toList_ofList] at hnumeric
    rw [hnumeric d List.mem_cons_self] at hd
    cases hd
  · rw [(text_of_stray h offset hs).1, Option.some.injEq] at htext
    cases String.ofList_injective htext
    exact hs

/-- Numbers and what says that it is a digit run are digit runs. -/
theorem shape_of_run (hkind : (l.toToken offset).kind = .number ∨
    ((l.toToken offset).kind = .invalid ∧ (l.toToken offset).IsDigitRun)) : l.shape = .digits := by
  have hbears := bears_kind h offset
  rcases hkind with hkind | ⟨hkind, _, hrun⟩
  · rw [hkind] at hbears
    exact Shape.eq_digits_of_bears hbears
  · rw [hkind] at hbears
    rcases Shape.cases_of_bears_invalid hbears with hs | ⟨c, hs⟩
    · exact hs
    · obtain ⟨htext, hnumeric⟩ := text_of_stray h offset hs
      rw [Token.chars, htext, Option.getD_some, String.toList_ofList] at hrun
      rw [hrun c List.mem_cons_self] at hnumeric
      cases hnumeric

theorem shape_of_word (hkind : (l.toToken offset).kind = .trueKeyword ∨
    (l.toToken offset).kind = .falseKeyword ∨
    ((l.toToken offset).kind = .identifier ∧ (l.toToken offset).StartsWith isLetter)) :
    l.shape = .word := by
  have hbears := bears_kind h offset
  rcases hkind with hkind | hkind | ⟨hkind, hstart⟩
  · exact Shape.eq_word_of_bears hbears (.inl hkind)
  · exact Shape.eq_word_of_bears hbears (.inr hkind)
  · rw [hkind] at hbears
    rcases Shape.cases_of_bears_identifier hbears with hs | hs
    · exact absurd (startsWith_of_suffixed h offset hs) hstart.not_isNumeric
    · exact hs

theorem shape_of_suffixed (hkind : (l.toToken offset).kind = .identifier)
    (hstart : (l.toToken offset).StartsWith isNumeric) : l.shape = .suffixed := by
  have hbears := bears_kind h offset
  rw [hkind] at hbears
  rcases Shape.cases_of_bears_identifier hbears with hs | hs
  · exact hs
  · exact absurd hstart (startsWith_of_word h offset hs).not_isNumeric

/-- A character fuses with the token only if it extends the lexeme. -/
theorem exists_extends_of_fuses {c : Char} (hf : (l.toToken offset).Fuses c) :
    ∃ t, Shape.Extends l.shape c t := by
  have hbears := bears_kind h offset
  cases hf with
  | space hkind =>
      rw [hkind] at hbears
      rw [Shape.eq_blanks_of_bears hbears]
      exact ⟨_, .blank⟩
  | equals hkind =>
      rcases hkind with hkind | hkind <;> rw [hkind] at hbears
      · rw [Shape.eq_mark_of_bears hbears rfl]
        exact ⟨_, .bangEquals⟩
      · rw [Shape.eq_mark_of_bears hbears rfl]
        exact ⟨_, .equalsEquals⟩
  | ampersand hkind htext =>
      rw [shape_of_invalid h offset (by decide) hkind htext]
      exact ⟨_, .ampersand⟩
  | pipe hkind htext =>
      rw [shape_of_invalid h offset (by decide) hkind htext]
      exact ⟨_, .pipe⟩
  | digits hkind hc =>
      rw [shape_of_run h offset hkind]
      rcases hc with hc | hc
      · exact ⟨_, .digit hc⟩
      · exact ⟨_, .suffix hc⟩
  | word hkind hc =>
      rw [shape_of_word h offset hkind]
      exact ⟨_, .word hc⟩
  | suffixed hkind hstart hc =>
      rw [shape_of_suffixed h offset hkind hstart]
      exact ⟨_, .letter hc⟩

theorem run_of_digits (hs : l.shape = .digits) : (l.toToken offset).kind = .number ∨
    ((l.toToken offset).kind = .invalid ∧ (l.toToken offset).IsDigitRun) := by
  have hbears := bears_kind h offset
  have hrun := isDigitRun_of_digits h offset hs
  rw [hs] at hbears
  generalize (l.toToken offset).kind = kind at hbears
  cases hbears with
  | number => exact .inl rfl
  | undecodable => exact .inr ⟨rfl, hrun⟩

/-- A character that extends the lexeme fuses with its token. -/
theorem fuses_of_extends {c : Char} {t : Shape} (he : Shape.Extends l.shape c t) :
    (l.toToken offset).Fuses c := by
  have hbears := bears_kind h offset
  generalize hs : l.shape = s at he hbears
  generalize hkind : (l.toToken offset).kind = kind at hbears
  cases he with
  | blank =>
      cases hbears
      exact .space hkind
  | digit hc => exact .digits (run_of_digits h offset hs) (.inl hc)
  | suffix hc => exact .digits (run_of_digits h offset hs) (.inr hc)
  | letter hc =>
      cases hbears
      exact .suffixed hkind (startsWith_of_suffixed h offset hs) hc
  | word hc =>
      refine .word ?_ hc
      cases hbears with
      | trueKeyword => exact .inl hkind
      | falseKeyword => exact .inr (.inl hkind)
      | identifier => exact .inr (.inr ⟨hkind, startsWith_of_word h offset hs⟩)
  | bangEquals =>
      cases hbears
      exact .equals (.inl hkind)
  | equalsEquals =>
      cases hbears
      exact .equals (.inr hkind)
  | ampersand =>
      cases hbears
      exact .ampersand hkind (text_of_stray h offset hs).1
  | pipe =>
      cases hbears
      exact .pipe hkind (text_of_stray h offset hs).1

/-- A token fuses with exactly the characters that extend its lexeme. -/
theorem fuses_iff {c : Char} : (l.toToken offset).Fuses c ↔ l.shape.extend? c ≠ none := by
  rw [Option.ne_none_iff_exists']
  constructor
  · intro hf
    obtain ⟨t, ht⟩ := exists_extends_of_fuses h offset hf
    exact ⟨t, Shape.extend?_of_extends ht⟩
  · rintro ⟨t, ht⟩
    exact fuses_of_extends h offset (Shape.extends_of_extend? ht)

end

/-! ## Lexemes behind lexemes -/

/-- Lexemes that are not fused stay so when others follow before which the last of them ends. -/
theorem Unfused.append {ls ms : List Lexeme} (h : Unfused (ls ++ [l]))
    (hends : l.shape.EndsBefore (allChars ms)) (hms : Unfused ms) :
    Unfused (ls ++ [l] ++ ms) := by
  induction ls with
  | nil => exact ⟨h.1, hends, hms⟩
  | cons k ls ih =>
      obtain ⟨hwhole, hk, hrest⟩ := h
      have hl : l.Whole := hrest.whole l (List.mem_append_right _ List.mem_cons_self)
      have hne : allChars (ls ++ [l]) ≠ [] := by
        simp [hl.chars_ne_nil]
      refine ⟨hwhole, ?_, ih hrest⟩
      have happend := hk.append hne (allChars ms)
      rwa [← allChars_append] at happend

/-- The last of the tokens of lexemes is that of the last lexeme. -/
theorem exists_of_tokens_concat {offset : Nat} {ls : List Lexeme} {ts : List Token} {t : Token}
    (h : tokens offset ls = ts ++ [t]) : ∃ ms l place, ls = ms ++ [l] ∧ l.toToken place = t := by
  obtain ⟨ms, ns, rfl, _, hns⟩ := exists_append_of_tokens h
  cases ns with
  | nil => cases hns
  | cons l ns =>
      rw [tokens, List.cons.injEq] at hns
      obtain ⟨hl, hnil⟩ := hns
      cases ns with
      | nil => exact ⟨ms, l, _, rfl, hl⟩
      | cons m ns => cases hnil

end Lexeme

/-- Where a text comes apart is decided by the bytes before it. -/
theorem Text.append_inj_of_byteSize {cs ds cs' ds' : List Char} (h : cs ++ ds = cs' ++ ds')
    (hsize : byteSize cs = byteSize cs') : cs = cs' ∧ ds = ds' := by
  have hnil : ∀ as bs : List Char, byteSize bs = byteSize (bs ++ as) → as = [] := by
    intro as bs hbs
    rw [← byteSize_eq_zero_iff]
    rw [byteSize_append] at hbs
    omega
  rw [List.append_eq_append_iff] at h
  rcases h with ⟨as, rfl, rfl⟩ | ⟨as, rfl, rfl⟩
  · rw [hnil as cs hsize, List.append_nil, List.nil_append]
    exact ⟨rfl, rfl⟩
  · rw [hnil as cs' hsize.symm, List.append_nil, List.nil_append]
    exact ⟨rfl, rfl⟩

/-! ## Texts behind texts -/

section

open Lexeme

variable {before after : String}

/-- A text that is not empty is cut into lexemes, one of which is the last. -/
theorem Scanner.exists_last (h : before ≠ "") :
    ∃ ls l, Unfused (ls ++ [l]) ∧ allChars (ls ++ [l]) = before.toList ∧
      (ofList before.toList).upToEnd = tokens 0 (ls ++ [l]) := by
  obtain ⟨ls, hunfused, hchars, htokens⟩ := (ofList before.toList).exists_unfused
  rcases List.eq_nil_or_concat' ls with rfl | ⟨ms, l, rfl⟩
  · exact absurd (String.toList_eq_nil_iff.1 hchars.symm) h
  · exact ⟨ms, l, hunfused, hchars, htokens⟩

/-- Where the last lexeme of a text ends before what is put behind it, the tokens are those of both
texts. -/
theorem Token.scan_append {ls : List Lexeme} {l : Lexeme} (hls : Unfused (ls ++ [l]))
    (hchars : allChars (ls ++ [l]) = before.toList) (hends : l.shape.EndsBefore after.toList) :
    scan (before ++ after) =
      tokens 0 (ls ++ [l]) ++ (scan after).map (shift before.utf8ByteSize) := by
  obtain ⟨ms, hms, hafter, htokens⟩ := (Scanner.ofList after.toList).exists_unfused
  have hrest : allChars ms = after.toList := hafter
  have hsize : allSize (ls ++ [l]) = before.utf8ByteSize := by
    rw [allSize, hchars, Text.byteSize_toList]
  have hall : (before ++ after).toList = allChars (ls ++ [l] ++ ms) := by
    rw [String.toList_append, allChars_append, hchars, hrest]
  have hwhole : (Scanner.ofList (before ++ after).toList).upToEnd =
      tokens 0 (ls ++ [l]) ++ tokens before.utf8ByteSize ms := by
    have hunfused : Unfused (ls ++ [l] ++ ms) := hls.append (hrest ▸ hends) hms
    rw [hall, ← hsize, ← Nat.zero_add (allSize (ls ++ [l])), ← tokens_append]
    exact Scanner.upToEnd_of_unfused 0 hunfused
  have hback : (scan after).map (shift before.utf8ByteSize) =
      tokens before.utf8ByteSize ms ++ [.endOfFile (before ++ after).utf8ByteSize] := by
    have hmove := tokens_add 0 before.utf8ByteSize ms
    rw [Nat.zero_add] at hmove
    rw [scan_eq, htokens, List.map_append, hmove, String.utf8ByteSize_append, Nat.add_comm]
    rfl
  rw [scan_eq, hwhole, hback, List.append_assoc]

/-- Where a token starts or stops between two texts, the last lexeme of the first ends before the
second. -/
theorem Token.IsBoundary.exists_endsBefore {ts : List Token} {t : Token}
    (h : IsBoundary (before ++ after) before.utf8ByteSize)
    (htokens : (Scanner.ofList before.toList).upToEnd = ts ++ [t]) :
    ∃ (l : Lexeme) (place : Nat),
      l.Whole ∧ l.toToken place = t ∧ l.shape.EndsBefore after.toList := by
  obtain ⟨front, back, hunfused, hchars, hsize⟩ := h.exists_lexemes
  rw [String.toList_append] at hchars
  obtain ⟨hfront, hback⟩ := Text.append_inj_of_byteSize hchars
    ((Text.byteSize_toList before).trans hsize.symm)
  have hcut := Scanner.upToEnd_of_unfused 0 hunfused.of_append_left
  rw [← hfront] at hcut
  obtain ⟨ms, l, place, rfl, hl⟩ := exists_of_tokens_concat (hcut.symm.trans htokens)
  rw [List.append_assoc, List.singleton_append] at hunfused
  obtain ⟨hwhole, hends, _⟩ := hunfused.of_append_right
  exact ⟨l, place, hwhole, hl, hback ▸ hends⟩

end

/-- Of two texts that are not empty, the first ends in a token and the second starts with a
character, and these decide what becomes of the tokens when the one text is put before the other.
A token of the whole starts or stops where the texts meet if and only if the token and the
character do not fuse; and then the tokens of the whole are those of the first text without its
end-of-file token and those of the second moved behind them. -/
theorem boundary_append_iff (before after : String) (hbefore : before ≠ "") (hafter : after ≠ "") :
    ∃ (ts : List Token) (last : Token) (c : Char) (cs : List Char),
      Token.scan before = ts ++ [last, .endOfFile before.utf8ByteSize] ∧ after.toList = c :: cs ∧
      (Token.IsBoundary (before ++ after) before.utf8ByteSize ↔ ¬ last.Fuses c) ∧
      (¬ last.Fuses c → Token.scan (before ++ after) =
        ts ++ [last] ++ (Token.scan after).map (Token.shift before.utf8ByteSize)) := by
  obtain ⟨ls, l, hls, hchars, htokens⟩ := Scanner.exists_last hbefore
  obtain ⟨c, cs, hcs⟩ := List.exists_cons_of_ne_nil fun h => hafter (String.toList_eq_nil_iff.1 h)
  have hl : l.Whole := hls.whole l (List.mem_append_right _ List.mem_cons_self)
  have hlast : Lexeme.tokens 0 (ls ++ [l]) =
      Lexeme.tokens 0 ls ++ [l.toToken (Lexeme.allSize ls)] := by
    rw [Lexeme.tokens_append, Nat.zero_add]
    rfl
  have hscan : ¬ (l.toToken (Lexeme.allSize ls)).Fuses c → Token.scan (before ++ after) =
      Lexeme.tokens 0 ls ++ [l.toToken (Lexeme.allSize ls)] ++
        (Token.scan after).map (Token.shift before.utf8ByteSize) := by
    intro hfuses
    rw [Lexeme.fuses_iff hl, ne_eq, Classical.not_not] at hfuses
    rw [← hlast]
    exact Token.scan_append hls hchars (hcs ▸ Shape.endsBefore_cons.2 hfuses)
  refine ⟨Lexeme.tokens 0 ls, l.toToken (Lexeme.allSize ls), c, cs, ?_, hcs, ⟨?_, ?_⟩, hscan⟩
  · rw [scan_eq, htokens, hlast, List.append_assoc]
    rfl
  · intro hboundary hfuses
    obtain ⟨k, place, hk, htoken, hends⟩ := hboundary.exists_endsBefore (htokens.trans hlast)
    rw [← htoken, Lexeme.fuses_iff hk] at hfuses
    rw [hcs, Shape.endsBefore_cons] at hends
    exact hfuses hends
  · intro hfuses
    refine ⟨l.toToken (Lexeme.allSize ls), ?_, .inr ?_⟩
    · rw [hscan hfuses]
      simp
    · rw [Lexeme.span_toToken, ← Text.byteSize_toList, ← hchars, Lexeme.allChars_append,
        Text.byteSize_append, Lexeme.allChars_cons, Lexeme.allChars_nil, List.append_nil]
      rfl

/-- Two ampersands fuse; a digit does not fuse with a name that starts with digits. -/
theorem boundary_append_iff_of_ampersands :
    ¬ Token.IsBoundary ("x&" ++ "&y") 2 ∧ Token.IsBoundary ("12é" ++ "3") 4 ∧
      Token.scan ("12é" ++ "3") =
        [⟨.identifier, ⟨0, 4⟩, some "12é", .text "12é"⟩, ⟨.number, ⟨4, 5⟩, some "3", .int 3⟩,
          .endOfFile 5] := by
  obtain ⟨ts, last, c, cs, hscan, hcs, hiff, _⟩ :=
    boundary_append_iff "x&" "&y" (by decide) (by decide)
  obtain ⟨us, name, d, ds, hname, hds, hjoin, hmove⟩ :=
    boundary_append_iff "12é" "3" (by decide) (by decide)
  have hfirst : Token.scan "x&" = [⟨.identifier, ⟨0, 1⟩, some "x", .text "x"⟩] ++
      [⟨.invalid, ⟨1, 2⟩, some "&", .absent⟩, .endOfFile 2] := by decide
  have hsecond : Token.scan "12é" = [] ++
      [⟨.identifier, ⟨0, 4⟩, some "12é", .text "12é"⟩, .endOfFile 4] := by decide
  obtain ⟨rfl, hlast⟩ := List.append_inj' (hscan.symm.trans hfirst) rfl
  obtain ⟨rfl, hus⟩ := List.append_inj' (hname.symm.trans hsecond) rfl
  cases hlast
  cases hus
  cases hcs
  cases hds
  have hapart : ¬ Token.Fuses ⟨.identifier, ⟨0, 4⟩, some "12é", .text "12é"⟩ '3' := by
    intro hfuses
    cases hfuses with
    | digits hkind _ => rcases hkind with hkind | ⟨hkind, _⟩ <;> cases hkind
    | word hkind _ =>
        rcases hkind with hkind | hkind | ⟨_, a, ha, hletter⟩
        · cases hkind
        · cases hkind
        · cases ha
          exact absurd hletter (by decide)
    | suffixed _ _ hletter => exact absurd hletter (by decide)
  refine ⟨?_, hjoin.2 hapart, hmove hapart⟩
  intro hboundary
  exact hiff.1 hboundary (.ampersand rfl rfl)

end ExprTree
