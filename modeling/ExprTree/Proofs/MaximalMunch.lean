import ExprTree.Proofs.CharacterClasses
import ExprTree.Proofs.Cutting

set_option autoImplicit false

/-!
# Maximal munch

The lexical language, said without the scanner: which words it has, what a word
denotes, and that a text is cut from its start on into the longest words that it
begins with, or a single character where it begins with none.  The tokens of a
source are what these words stand for, and nothing else cut in this way is
(`scan_eq_iff_munched`).
-/

namespace ExprTree

open Text (isLetter isNumeric)

/-! ## The language -/

/-- The spellings of operators and parentheses. -/
def spellings : List String := ["+", "-", "*", "/", "(", ")", "!", "!=", "=", "==", "&&", "||"]

/-- The words of the lexical language. -/
inductive Lexical : List Char → Prop where
  /-- One or more spaces. -/
  | blanks {cs : List Char} (hne : cs ≠ []) (h : ∀ c ∈ cs, c = ' ') : Lexical cs
  /-- The spelling of an operator or a parenthesis. -/
  | mark {cs : List Char} (h : String.ofList cs ∈ spellings) : Lexical cs
  /-- One or more numeric characters, then any number of letters. -/
  | digits {ds ls : List Char} (hne : ds ≠ []) (hds : ∀ d ∈ ds, isNumeric d = true)
      (hls : ∀ l ∈ ls, isLetter l = true) : Lexical (ds ++ ls)
  /-- A letter, then any number of letters and numeric characters. -/
  | word {l : Char} {cs : List Char} (hl : isLetter l = true)
      (hcs : ∀ c ∈ cs, isLetter c = true ∨ isNumeric c = true) : Lexical (l :: cs)

/-- Whether maximal munch takes the word from the start of the text: the longest prefix in the
language, or the first character if no prefix is in it. -/
def Munches (word text : List Char) : Prop :=
  word <+: text ∧
    ((Lexical word ∧ ∀ other, Lexical other → other <+: text → other.length ≤ word.length) ∨
      (word.length = 1 ∧ ∀ other, Lexical other → ¬ other <+: text))

/-- Whether maximal munch cuts the text into the words. -/
def Munched : List (List Char) → List Char → Prop
  | [], text => text = []
  | word :: words, text => Munches word text ∧ ∃ rest, text = word ++ rest ∧ Munched words rest

/-! ## What a word stands for -/

/-- The kind and the value of a word. -/
def classify (word : List Char) : Kind × Value :=
  let text := String.ofList word
  if word.all (· == ' ') then (.whitespace, .text " ")
  else if word.all isNumeric then
    match Text.readNumeral? word with
    | some n => (.number, .int n)
    | none => (.invalid, .absent)
  else if word.head?.any isNumeric && (word.dropWhile isNumeric).all isLetter then
    (.identifier, .text text)
  else if word.head?.any isLetter && word.all fun c => isLetter c || isNumeric c then
    if text = "true" then (.trueKeyword, .bool true)
    else if text = "false" then (.falseKeyword, .bool false)
    else (.identifier, .text text)
  else
    match Kind.all.find? fun k => k.spelling? == some text with
    | some k => (k, .absent)
    | none => (.invalid, .absent)

/-- Whether tokens of the kind carry their text: literals, names and what stands for nothing. -/
def Kind.bearsText : Kind → Bool
  | number | identifier | trueKeyword | falseKeyword | invalid => true
  | _ => false

/-- The token of a word at an offset. -/
def Token.ofWord (offset : Nat) (word : List Char) : Token where
  kind := (classify word).1
  span := ⟨offset, offset + Text.byteSize word⟩
  text := if (classify word).1.bearsText then some (String.ofList word) else none
  value := (classify word).2

/-- The tokens of words, the first of them at an offset. -/
def Token.ofWords (offset : Nat) : List (List Char) → List Token
  | [] => []
  | word :: words => ofWord offset word :: ofWords (offset + Text.byteSize word) words

/-! ## Words are what is read -/

/-- The spellings are those of the kinds that have one. -/
theorem mem_spellings_iff {s : String} : s ∈ spellings ↔ ∃ k : Kind, k.spelling? = some s := by
  constructor
  · intro h
    have hall : ∀ s ∈ spellings, ∃ k ∈ Kind.all, k.spelling? = some s := by decide
    obtain ⟨k, _, hk⟩ := hall s h
    exact ⟨k, hk⟩
  · rintro ⟨k, hk⟩
    have hall : ∀ k ∈ Kind.all, ∀ s ∈ k.spelling?, s ∈ spellings := by decide
    exact hall k (Kind.mem_all k) s hk

namespace Shape

theorem extendAll?_of_forall {s : Shape} {cs : List Char}
    (h : ∀ c ∈ cs, s.extend? c = some s) : s.extendAll? cs = some s := by
  induction cs with
  | nil => rfl
  | cons c cs ih =>
      obtain ⟨hc, hcs⟩ := List.forall_mem_cons.1 h
      rw [extendAll?_cons, hc]
      exact ih hcs

theorem extend?_blanks : blanks.extend? ' ' = some blanks := rfl

theorem extend?_digits_of_isNumeric {c : Char} (h : isNumeric c = true) :
    digits.extend? c = some digits := by
  rw [extend?, if_pos h]

theorem extend?_digits_of_isLetter {c : Char} (h : isLetter c = true) :
    digits.extend? c = some suffixed := by
  rw [extend?, Text.isNumeric_eq_false_of_isLetter h, if_neg Bool.false_ne_true, if_pos h]

theorem extend?_suffixed {c : Char} (h : isLetter c = true) :
    suffixed.extend? c = some suffixed := by
  rw [extend?, if_pos h]

theorem extend?_word {c : Char} (h : isLetter c = true ∨ isNumeric c = true) :
    word.extend? c = some word := by
  rw [extend?, if_pos (Bool.or_eq_true _ _ ▸ h)]

theorem read?_spelling {k : Kind} {s : String} (h : k.spelling? = some s) :
    read? s.toList = some (mark k) := by
  have hall : ∀ k ∈ Kind.all, ∀ s ∈ k.spelling?, read? s.toList = some (mark k) := by decide
  exact hall k (Kind.mem_all k) s h

theorem read?_blanks {cs : List Char} (hne : cs ≠ []) (h : ∀ c ∈ cs, c = ' ') :
    read? cs = some blanks := by
  cases cs with
  | nil => exact absurd rfl hne
  | cons c cs =>
      obtain ⟨rfl, hcs⟩ := List.forall_mem_cons.1 h
      apply extendAll?_of_forall
      intro c hc
      rw [hcs c hc]
      exact extend?_blanks

theorem read?_digits {ds : List Char} (hne : ds ≠ []) (h : ∀ d ∈ ds, isNumeric d = true) :
    read? ds = some digits := by
  cases ds with
  | nil => exact absurd rfl hne
  | cons d ds =>
      obtain ⟨hd, hds⟩ := List.forall_mem_cons.1 h
      rw [read?, start_of_isNumeric hd]
      apply extendAll?_of_forall
      intro c hc
      exact extend?_digits_of_isNumeric (hds c hc)

theorem read?_append {cs ds : List Char} {s : Shape} (h : read? cs = some s) :
    read? (cs ++ ds) = s.extendAll? ds := by
  cases cs with
  | nil => cases h
  | cons c cs =>
      rw [read?] at h
      rw [List.cons_append, read?, extendAll?_append, h]
      rfl

theorem read?_suffixed {ds ls : List Char} (hne : ds ≠ []) (hds : ∀ d ∈ ds, isNumeric d = true)
    (hls : ∀ l ∈ ls, isLetter l = true) (hsuffix : ls ≠ []) : read? (ds ++ ls) = some suffixed := by
  rw [read?_append (read?_digits hne hds)]
  cases ls with
  | nil => exact absurd rfl hsuffix
  | cons l ls =>
      obtain ⟨hl, hmore⟩ := List.forall_mem_cons.1 hls
      rw [extendAll?_cons, extend?_digits_of_isLetter hl]
      apply extendAll?_of_forall
      intro c hc
      exact extend?_suffixed (hmore c hc)

theorem read?_word {l : Char} {cs : List Char} (hl : isLetter l = true)
    (hcs : ∀ c ∈ cs, isLetter c = true ∨ isNumeric c = true) : read? (l :: cs) = some word := by
  rw [read?, start_of_isLetter hl]
  apply extendAll?_of_forall
  intro c hc
  exact extend?_word (hcs c hc)

/-- A word of the language is read, and not as a stray character. -/
theorem exists_read?_of_lexical {cs : List Char} (h : Lexical cs) :
    ∃ s, read? cs = some s ∧ ∀ c, s ≠ stray c := by
  cases h with
  | blanks hne h => exact ⟨blanks, read?_blanks hne h, fun _ => Shape.noConfusion⟩
  | mark h =>
      obtain ⟨k, hk⟩ := mem_spellings_iff.1 h
      have hread := read?_spelling hk
      rw [String.toList_ofList] at hread
      exact ⟨mark k, hread, fun _ => Shape.noConfusion⟩
  | @digits ds ls hne hds hls =>
      by_cases hsuffix : ls = []
      · rw [hsuffix, List.append_nil]
        exact ⟨digits, read?_digits hne hds, fun _ => Shape.noConfusion⟩
      · exact ⟨suffixed, read?_suffixed hne hds hls hsuffix, fun _ => Shape.noConfusion⟩
  | word hl hcs => exact ⟨word, read?_word hl hcs, fun _ => Shape.noConfusion⟩

/-- What is read, and not as a stray character, is a word of the language. -/
theorem lexical_of_read? {cs : List Char} {s : Shape} (h : read? cs = some s)
    (hs : ∀ c, s ≠ stray c) : Lexical cs := by
  have hne : cs ≠ [] := by
    rintro rfl
    cases h
  have hsays := describes_of_read? h
  cases s with
  | blanks => exact .blanks hne hsays
  | digits =>
      have hword : Lexical (cs ++ []) := .digits hne hsays (by simp)
      rwa [List.append_nil] at hword
  | suffixed =>
      obtain ⟨ds, ls, rfl, hds, _, hnum, hlet⟩ := hsays
      exact .digits hds hnum hlet
  | word =>
      obtain ⟨l, rest, rfl, hl, hrest⟩ := hsays
      exact .word hl hrest
  | mark k => exact .mark (mem_spellings_iff.2 ⟨k, hsays⟩)
  | stray c => exact absurd rfl (hs c)

/-- Nothing longer than what ends before the rest of a text is read from its start. -/
theorem length_le_of_read? {cs rest other : List Char} {s : Shape} (h : read? cs = some s)
    (hends : s.EndsBefore rest) (hpre : other <+: cs ++ rest) (hother : read? other ≠ none) :
    other.length ≤ cs.length := by
  rw [← Nat.not_lt]
  intro hlong
  obtain ⟨more, rfl⟩ :=
    List.prefix_of_prefix_length_le (List.prefix_append cs rest) hpre (Nat.le_of_lt hlong)
  -- A longer prefix goes on with a character that the shape does not take.
  have hmore := (List.prefix_append_right_inj cs).1 hpre
  cases more with
  | nil => simp at hlong
  | cons c more =>
      obtain ⟨tail, rfl⟩ := hmore
      rw [List.cons_append, endsBefore_cons] at hends
      rw [read?_append h, extendAll?_cons, hends] at hother
      exact hother rfl

/-- A character that is read as a stray one begins no word of the language, unless a longer one
goes on with what follows it. -/
theorem not_lexical_of_stray {c : Char} {rest other : List Char} (h : read? [c] = some (stray c))
    (hends : (stray c).EndsBefore rest) (hpre : other <+: c :: rest) : ¬ Lexical other := by
  intro hlex
  obtain ⟨s, hread, hs⟩ := exists_read?_of_lexical hlex
  have hsome : read? other ≠ none := by
    rw [hread]
    exact Option.some_ne_none s
  have hle := length_le_of_read? h hends hpre hsome
  obtain ⟨d, rfl⟩ : ∃ d, other = [d] := by
    rw [← List.length_eq_one_iff]
    have hpos : 0 < other.length := by
      rw [List.length_pos_iff]
      rintro rfl
      cases hread
    simp only [List.length_singleton] at hle
    omega
  obtain ⟨tail, htail⟩ := hpre
  cases htail
  rw [h] at hread
  exact hs c (Option.some.inj hread).symm

end Shape

/-! ## Maximal munch takes what the scanner takes -/

/-- Maximal munch takes one word at most. -/
theorem Munches.unique {word other text : List Char} (hword : Munches word text)
    (hother : Munches other text) : word = other := by
  obtain ⟨hpre, hcase⟩ := hword
  obtain ⟨hpre', hcase'⟩ := hother
  have hlength : word.length = other.length := by
    rcases hcase with ⟨hlex, hlongest⟩ | ⟨hone, hnone⟩
    · rcases hcase' with ⟨hlex', hlongest'⟩ | ⟨_, hnone'⟩
      · exact Nat.le_antisymm (hlongest' word hlex hpre) (hlongest other hlex' hpre')
      · exact absurd hpre (hnone' word hlex)
    · rcases hcase' with ⟨hlex', _⟩ | ⟨hone', _⟩
      · exact absurd hpre' (hnone other hlex')
      · rw [hone, hone']
  have hmore := List.prefix_of_prefix_length_le hpre hpre' (Nat.le_of_eq hlength)
  exact hmore.eq_of_length hlength

/-- Maximal munch takes at least one character. -/
theorem Munches.ne_nil {word text : List Char} (h : Munches word text) : word ≠ [] := by
  rintro rfl
  obtain ⟨_, ⟨hlex, _⟩ | ⟨hone, _⟩⟩ := h
  · obtain ⟨s, hread, _⟩ := Shape.exists_read?_of_lexical hlex
    cases hread
  · cases hone

/-- Maximal munch cuts a text in one way at most. -/
theorem Munched.unique {words others : List (List Char)} {text : List Char}
    (hwords : Munched words text) (hothers : Munched others text) : words = others := by
  induction words generalizing others text with
  | nil =>
      cases others with
      | nil => rfl
      | cons other others =>
          obtain ⟨hmunches, _⟩ := hothers
          rw [Munched] at hwords
          rw [hwords] at hmunches
          exact absurd (List.prefix_nil.1 hmunches.1) hmunches.ne_nil
  | cons word words ih =>
      obtain ⟨hmunches, rest, rfl, hrest⟩ := hwords
      cases others with
      | nil =>
          rw [Munched, List.append_eq_nil_iff] at hothers
          exact absurd hothers.1 hmunches.ne_nil
      | cons other others =>
          obtain ⟨hmunches', rest', htext, hrest'⟩ := hothers
          have hword := hmunches.unique hmunches'
          rw [hword, List.append_cancel_left_eq] at htext
          rw [← htext] at hrest'
          rw [hword, ih hrest hrest']

/-- A whole lexeme that ends before the rest is what maximal munch takes. -/
theorem Lexeme.munches {l : Lexeme} {rest : List Char} (h : l.Whole)
    (hends : l.shape.EndsBefore rest) : Munches l.chars (l.chars ++ rest) := by
  refine ⟨List.prefix_append _ _, ?_⟩
  -- A stray character is the one lexeme that is no word.
  by_cases hstray : ∃ c, l.shape = .stray c
  · obtain ⟨c, hc⟩ := hstray
    rw [Lexeme.Whole, hc] at h
    have hchars : l.chars = [c] := Shape.describes_of_read? h
    rw [hchars] at h ⊢
    rw [hc] at hends
    refine .inr ⟨rfl, ?_⟩
    intro other hlex hpre
    exact Shape.not_lexical_of_stray h hends hpre hlex
  · have hlexical : ∀ c, l.shape ≠ .stray c := fun c hc => hstray ⟨c, hc⟩
    refine .inl ⟨Shape.lexical_of_read? h hlexical, ?_⟩
    intro other hlex hpre
    obtain ⟨s, hread, _⟩ := Shape.exists_read?_of_lexical hlex
    apply Shape.length_le_of_read? h hends hpre
    rw [hread]
    exact Option.some_ne_none s

/-- Lexemes that are not fused are what maximal munch cuts their characters into. -/
theorem Lexeme.munched {ls : List Lexeme} (h : Unfused ls) :
    Munched (ls.map chars) (allChars ls) := by
  induction ls with
  | nil => rfl
  | cons l ls ih =>
      obtain ⟨hwhole, hends, hls⟩ := h
      exact ⟨munches hwhole hends, allChars ls, rfl, ih hls⟩

/-! ## The token of a word is that of its lexeme -/

/-- A word that starts with a character which is no space is not blank. -/
theorem all_blank_eq_false {c : Char} (cs : List Char) (h : c ≠ ' ') :
    (c :: cs).all (· == ' ') = false := by
  simp [h]

theorem ne_blank_of_isNumeric {c : Char} (h : isNumeric c = true) : c ≠ ' ' := by
  rintro rfl
  cases h

theorem ne_blank_of_isLetter {c : Char} (h : isLetter c = true) : c ≠ ' ' := by
  rintro rfl
  cases h

theorem classify_blanks {cs : List Char} (h : ∀ c ∈ cs, c = ' ') :
    classify cs = (.whitespace, .text " ") := by
  have hall : cs.all (· == ' ') = true := by
    rw [List.all_eq_true]
    intro c hc
    rw [h c hc]
    rfl
  rw [classify, if_pos hall]

theorem classify_digits {cs : List Char} (hne : cs ≠ []) (h : ∀ c ∈ cs, isNumeric c = true) :
    classify cs = match Text.readNumeral? cs with
      | some n => (.number, .int n)
      | none => (.invalid, .absent) := by
  cases cs with
  | nil => exact absurd rfl hne
  | cons c cs =>
      have hblank := all_blank_eq_false cs (ne_blank_of_isNumeric (h c List.mem_cons_self))
      rw [classify, if_neg (Bool.eq_false_iff.1 hblank), if_pos (List.all_eq_true.2 h)]

theorem classify_suffixed {ds ls : List Char} (hds : ds ≠ []) (hls : ls ≠ [])
    (hnum : ∀ d ∈ ds, isNumeric d = true) (hlet : ∀ l ∈ ls, isLetter l = true) :
    classify (ds ++ ls) = (.identifier, .text (String.ofList (ds ++ ls))) := by
  cases ds with
  | nil => exact absurd rfl hds
  | cons d ds =>
      cases ls with
      | nil => exact absurd rfl hls
      | cons l ls =>
          have hd := hnum d List.mem_cons_self
          have hl := Text.isNumeric_eq_false_of_isLetter (hlet l List.mem_cons_self)
          have hblank : (d :: ds ++ l :: ls).all (· == ' ') = false :=
            all_blank_eq_false _ (ne_blank_of_isNumeric hd)
          have hdigits : ¬ (d :: ds ++ l :: ls).all isNumeric = true := by
            rw [List.all_append, List.all_cons (a := l), hl]
            simp
          have hdrop : (d :: ds ++ l :: ls).dropWhile isNumeric = l :: ls := by
            rw [List.dropWhile_append_of_pos hnum, List.dropWhile_cons_of_neg]
            rw [hl]
            exact Bool.false_ne_true
          rw [classify, if_neg (Bool.eq_false_iff.1 hblank), if_neg hdigits, hdrop, if_pos]
          rw [Bool.and_eq_true]
          exact ⟨hd, List.all_eq_true.2 hlet⟩

theorem classify_word {l : Char} {cs : List Char} (hl : isLetter l = true)
    (hcs : ∀ c ∈ cs, isLetter c = true ∨ isNumeric c = true) :
    classify (l :: cs) =
      if String.ofList (l :: cs) = "true" then (.trueKeyword, .bool true)
      else if String.ofList (l :: cs) = "false" then (.falseKeyword, .bool false)
      else (.identifier, .text (String.ofList (l :: cs))) := by
  have hnum := Text.isNumeric_eq_false_of_isLetter hl
  have hblank := all_blank_eq_false cs (ne_blank_of_isLetter hl)
  have hdigits : ¬ (l :: cs).all isNumeric = true := by
    rw [List.all_cons, hnum]
    exact Bool.false_ne_true
  have hsuffixed : ¬ ((l :: cs).head?.any isNumeric &&
      ((l :: cs).dropWhile isNumeric).all isLetter) = true := by
    rw [List.head?_cons, Option.any_some, hnum]
    exact Bool.false_ne_true
  have hword : ((l :: cs).head?.any isLetter &&
      (l :: cs).all fun c => isLetter c || isNumeric c) = true := by
    rw [Bool.and_eq_true, List.all_eq_true]
    refine ⟨hl, ?_⟩
    intro c hc
    rw [Bool.or_eq_true]
    rcases List.mem_cons.1 hc with rfl | hc
    · exact .inl hl
    · exact hcs c hc
  rw [classify, if_neg (Bool.eq_false_iff.1 hblank), if_neg hdigits, if_neg hsuffixed, if_pos hword]

theorem classify_spelling {k : Kind} {cs : List Char}
    (h : k.spelling? = some (String.ofList cs)) : classify cs = (k, .absent) := by
  have hall : ∀ k ∈ Kind.all, ∀ s ∈ k.spelling?, classify s.toList = (k, .absent) := by decide
  have hk := hall k (Kind.mem_all k) _ h
  rwa [String.toList_ofList] at hk

theorem classify_stray {c : Char} (h : Shape.read? [c] = some (.stray c)) :
    classify [c] = (.invalid, .absent) := by
  obtain ⟨hblank, hnum, hlet⟩ := Shape.classes_of_start_eq_stray (Option.some.inj h)
  have hfind : (Kind.all.find? fun k => k.spelling? == some (String.ofList [c])) = none := by
    rw [List.find?_eq_none]
    intro k _ hk
    rw [beq_iff_eq] at hk
    have hread := Shape.read?_spelling hk
    rw [String.toList_ofList, h] at hread
    cases hread
  have hdigits : ¬ [c].all isNumeric = true := by simp [hnum]
  have hsuffixed : ¬ ([c].head?.any isNumeric &&
      ([c].dropWhile isNumeric).all isLetter) = true := by simp [hnum]
  have hword : ¬ ([c].head?.any isLetter && [c].all fun c => isLetter c || isNumeric c) = true := by
    simp [hlet]
  rw [classify, if_neg (Bool.eq_false_iff.1 (all_blank_eq_false [] hblank)), if_neg hdigits,
    if_neg hsuffixed, if_neg hword, hfind]

/-- The token of a whole lexeme is that of the word that it is. -/
theorem Lexeme.toToken_eq_ofWord {l : Lexeme} (h : l.Whole) (offset : Nat) :
    l.toToken offset = Token.ofWord offset l.chars := by
  have hne := h.chars_ne_nil
  have hsays := Shape.describes_of_read? h
  -- By shapes: what a shape says of the characters settles the tests of `classify`.
  unfold toToken
  split
  · rename_i hs
    rw [hs] at hsays
    rw [Token.ofWord, classify_blanks hsays]
    rfl
  · rename_i hs
    rw [hs] at hsays
    rw [Token.ofWord, classify_digits hne hsays]
    cases Text.readNumeral? l.chars with
    | some n => rfl
    | none => rfl
  · rename_i hs
    rw [hs] at hsays
    obtain ⟨ds, ls, hchars, hds, hls, hnum, hlet⟩ := hsays
    rw [Token.ofWord, hchars, classify_suffixed hds hls hnum hlet, ← hchars]
    rfl
  · rename_i hs
    rw [hs] at hsays
    obtain ⟨a, rest, hchars, ha, hrest⟩ := hsays
    have htext : String.ofList l.chars = l.text := rfl
    rw [Token.ofWord, hchars, classify_word ha hrest, ← hchars, htext]
    unfold Kind.keyword?
    by_cases htrue : l.text = "true"
    · rw [if_pos htrue, if_pos htrue]
      rfl
    · by_cases hfalse : l.text = "false"
      · rw [if_neg htrue, if_neg htrue, if_pos hfalse, if_pos hfalse]
        rfl
      · rw [if_neg htrue, if_neg htrue, if_neg hfalse, if_neg hfalse]
        rfl
  · rename_i k hs
    rw [hs] at hsays
    have htext : k.bearsText = false := by
      cases k with
      | number | identifier | trueKeyword | falseKeyword | invalid => cases hsays
      | _ => rfl
    rw [Token.ofWord, classify_spelling hsays, htext]
    rfl
  · rename_i c hs
    rw [hs] at hsays
    rw [Whole, hs, hsays] at h
    rw [Token.ofWord, hsays, classify_stray h, ← hsays]
    rfl

/-- The tokens of whole lexemes are those of the words that they are. -/
theorem Lexeme.tokens_eq_ofWords {ls : List Lexeme} (h : ∀ l ∈ ls, l.Whole) (offset : Nat) :
    tokens offset ls = Token.ofWords offset (ls.map chars) := by
  induction ls generalizing offset with
  | nil => rfl
  | cons l ls ih =>
      obtain ⟨hwhole, hls⟩ := List.forall_mem_cons.1 h
      rw [tokens, toToken_eq_ofWord hwhole, ih hls]
      rfl

/-! ## The tokens of a source -/

/-- Tokens are those of a source if and only if they are what the words stand for into which maximal
munch cuts it, each at its offset, and the end-of-file token behind them. -/
theorem scan_eq_iff_munched (source : String) (ts : List Token) :
    ts = Token.scan source ↔
      ∃ words, Munched words source.toList ∧
        ts = Token.ofWords 0 words ++ [.endOfFile source.utf8ByteSize] := by
  obtain ⟨ls, hunfused, hchars, htokens⟩ := (Scanner.ofList source.toList).exists_unfused
  have hmunched : Munched (ls.map Lexeme.chars) source.toList := by
    have hcut := Lexeme.munched hunfused
    rwa [hchars] at hcut
  have hscan : Token.scan source =
      Token.ofWords 0 (ls.map Lexeme.chars) ++ [.endOfFile source.utf8ByteSize] := by
    rw [scan_eq, htokens]
    congr 1
    exact Lexeme.tokens_eq_ofWords hunfused.whole 0
  constructor
  · rintro rfl
    exact ⟨_, hmunched, hscan⟩
  · rintro ⟨words, hwords, rfl⟩
    rw [hscan, hwords.unique hmunched]

/-- The longest spelling is taken, and letters behind digits go with them. -/
example : Token.scan "!==12ab" =
    Token.ofWords 0 ["!=".toList, "=".toList, "12ab".toList] ++ [.endOfFile 7] := by
  decide

end ExprTree
