import ExprTree.Token.Lexeme

set_option autoImplicit false

/-!
# The character classes lie apart

No character is both a letter and numeric, and neither class holds the space or a
character of an operator, although the two tables are of different versions of the
standard.  So the first character of a lexeme says which kind of run it starts, and a
letter after digits cannot be taken for a digit.

A class of characters is also one of texts, those with no other character in them
(`Text.EachChar`).  All that is printed but source text is made of graphic characters:
the names of kinds, the spellings of marks, numbers and spans.  So what these have no
character of follows from the classes alone.
-/

namespace ExprTree

namespace Text

/-- Whether ascending ranges have no code point in common.  Ranges wholly below the one at hand
are passed over for good, so each range is looked at once. -/
def apart : List (Nat × Nat) → List (Nat × Nat) → Bool
  | [], _ => true
  | (lo, hi) :: rest, others =>
    let above := others.dropWhile fun r => Nat.blt r.2 lo
    (match above with
      | [] => true
      | r :: _ => Nat.blt hi r.1) && apart rest above

theorem ascendingFrom_dropWhile {least : Nat} (p : Nat × Nat → Bool)
    {ranges : List (Nat × Nat)} (h : ascendingFrom least ranges = true) :
    ∃ more, ascendingFrom more (ranges.dropWhile p) = true := by
  induction ranges generalizing least with
  | nil => exact ⟨least, h⟩
  | cons r rest ih =>
      rw [List.dropWhile_cons]
      split
      · unfold ascendingFrom at h
        rw [Bool.and_eq_true] at h
        exact ih h.2
      · exact ⟨least, h⟩

/-- The ranges below a bound hold no code point from the bound on. -/
theorem inRanges_dropWhile {least lo n : Nat} {ranges : List (Nat × Nat)}
    (h : ascendingFrom least ranges = true) (hn : lo ≤ n) :
    inRanges (ranges.dropWhile fun r => Nat.blt r.2 lo) n = inRanges ranges n := by
  induction ranges generalizing least with
  | nil => rfl
  | cons r rest ih =>
      obtain ⟨a, b⟩ := r
      simp only [ascendingFrom, Bool.and_eq_true, Nat.ble_eq] at h
      obtain ⟨⟨_, hab⟩, hrest⟩ := h
      rw [List.dropWhile_cons]
      split
      · rename_i hb
        rw [Nat.blt_eq] at hb
        have hfirst : Nat.ble a n = true := Nat.ble_eq_true_of_le (by omega)
        have hlast : Nat.ble n b = false := by
          rw [Bool.eq_false_iff, ne_eq, Nat.ble_eq]
          omega
        rw [ih hrest, inRanges, hfirst, hlast]
        rfl
      · rfl

/-- Ranges that lie apart have no code point in common. -/
theorem inRanges_eq_false_of_apart {n least more : Nat} {ranges others : List (Nat × Nat)}
    (h : apart ranges others = true) (hranges : ascendingFrom least ranges = true)
    (hothers : ascendingFrom more others = true) (hn : inRanges ranges n = true) :
    inRanges others n = false := by
  induction ranges generalizing least more others with
  | nil => cases hn
  | cons r rest ih =>
      obtain ⟨lo, hi⟩ := r
      simp only [ascendingFrom, inRanges, apart, Bool.and_eq_true, Bool.or_eq_true,
        Nat.ble_eq] at hranges hn h
      obtain ⟨hlo, hhi | hin⟩ := hn
      · rw [← inRanges_dropWhile hothers hlo]
        cases habove : others.dropWhile fun r => Nat.blt r.2 lo with
        | nil => rfl
        | cons q qs =>
            rw [habove] at h
            have hlt : hi < q.1 := Nat.blt_eq ▸ h.1
            have hfirst : Nat.ble q.1 n = false := by
              rw [Bool.eq_false_iff, ne_eq, Nat.ble_eq]
              omega
            rw [inRanges, hfirst]
            rfl
      · rw [← inRanges_dropWhile hothers hlo]
        obtain ⟨_, habove⟩ := ascendingFrom_dropWhile (fun r => Nat.blt r.2 lo) hothers
        exact ih h.2 hranges.2 habove hin

theorem apart_letters_numerics : apart letters.ranges numerics.ranges = true := by
  decide +kernel

theorem isNumeric_eq_false_of_isLetter {c : Char} (h : isLetter c = true) :
    isNumeric c = false :=
  inRanges_eq_false_of_apart apart_letters_numerics letters.ascending numerics.ascending h

/-- The ASCII digits are numeric. -/
theorem isNumeric_of_isDigit {c : Char} (h : c.isDigit = true) : isNumeric c = true := by
  rw [Char.isDigit_iff_toNat] at h
  rw [isNumeric, CharSet.contains_iff]
  exact ⟨(0x30, 0x39), List.mem_cons_self, h⟩

theorem apart_letters_whiteSpaces : apart letters.ranges whiteSpaces.ranges = true := by
  decide +kernel

theorem apart_numerics_whiteSpaces : apart numerics.ranges whiteSpaces.ranges = true := by
  decide +kernel

/-- No letter and no numeric character is white space. -/
theorem isWhiteSpace_eq_false_of_class {c : Char} (h : isLetter c = true ∨ isNumeric c = true) :
    isWhiteSpace c = false := by
  rcases h with h | h
  · exact inRanges_eq_false_of_apart apart_letters_whiteSpaces letters.ascending
      whiteSpaces.ascending h
  · exact inRanges_eq_false_of_apart apart_numerics_whiteSpaces numerics.ascending
      whiteSpaces.ascending h

/-- The characters of ASCII that are seen: neither the space nor a control character. -/
def graphics : CharSet where
  ranges := [(0x21, 0x7E)]

theorem isWhiteSpace_eq_false_of_graphic {c : Char} (h : graphics.contains c = true) :
    isWhiteSpace c = false := by
  have hapart : apart graphics.ranges whiteSpaces.ranges = true := by decide +kernel
  exact inRanges_eq_false_of_apart hapart graphics.ascending whiteSpaces.ascending h

theorem graphic_of_isDigit {c : Char} (h : c.isDigit = true) : graphics.contains c = true := by
  rw [Char.isDigit_iff_toNat] at h
  rw [CharSet.contains_iff]
  exact ⟨(0x21, 0x7E), List.mem_cons_self, Nat.le_trans (by decide) h.1,
    Nat.le_trans h.2 (by decide)⟩

/-! ## Texts of a class -/

/-- Whether all characters of a text are of a class. -/
def EachChar (p : Char → Prop) (s : String) : Prop := ∀ c ∈ s.toList, p c

instance (p : Char → Prop) [DecidablePred p] (s : String) : Decidable (EachChar p s) :=
  List.decidableBAll p s.toList

namespace EachChar

variable {p q : Char → Prop} {s t : String}

theorem append (hs : EachChar p s) (ht : EachChar p t) : EachChar p (s ++ t) := by
  rw [EachChar, String.toList_append, List.forall_mem_append]
  exact ⟨hs, ht⟩

theorem ofList {cs : List Char} (h : ∀ c ∈ cs, p c) : EachChar p (String.ofList cs) := by
  rwa [EachChar, String.toList_ofList]

theorem replicate {c : Char} (h : p c) (n : Nat) :
    EachChar p (String.ofList (List.replicate n c)) := by
  apply ofList
  intro d hd
  rwa [List.eq_of_mem_replicate hd]

theorem mono (h : EachChar p s) (hpq : ∀ c, p c → q c) : EachChar q s :=
  fun c hc => hpq c (h c hc)

theorem not_mem {c : Char} (h : EachChar p s) (hc : ¬ p c) : c ∉ s.toList :=
  fun hmem => hc (h c hmem)

end EachChar

/-- Whether a text is made of graphic characters. -/
def Graphic (s : String) : Prop := EachChar (fun c => graphics.contains c = true) s

instance (s : String) : Decidable (Graphic s) := inferInstanceAs (Decidable (EachChar _ s))

/-- Whether a text has no white space in it. -/
def Unspaced (s : String) : Prop := EachChar (fun c => isWhiteSpace c = false) s

theorem Graphic.unspaced {s : String} (h : Graphic s) : Unspaced s :=
  h.mono fun _ => isWhiteSpace_eq_false_of_graphic

theorem Unspaced.not_space {s : String} (h : Unspaced s) : ' ' ∉ s.toList :=
  h.not_mem (by decide)

theorem isDigit_of_mem_repr {n : Nat} : ∀ c ∈ n.repr.toList, c.isDigit = true := by
  intro c hc
  rw [Nat.toList_repr] at hc
  exact Nat.isDigit_of_mem_toDigits (by decide) (by decide) hc

theorem graphic_repr (n : Nat) : Graphic n.repr :=
  fun c hc => graphic_of_isDigit (isDigit_of_mem_repr c hc)

theorem graphic_name (kind : Kind) : Graphic kind.name := by
  cases kind <;> decide

theorem graphic_spelling {kind : Kind} {s : String} (h : kind.spelling? = some s) :
    Graphic s := by
  cases kind <;> cases h <;> decide

theorem graphic_span (s : Span) : Graphic s.text := by
  have hdots : Graphic ".." := by decide
  exact ((graphic_repr s.start).append hdots).append (graphic_repr s.stop)

end Text

namespace Shape

open Text (isLetter isNumeric isNumeric_eq_false_of_isLetter)

/-! ## The first character of a lexeme -/

theorem start_of_isNumeric {c : Char} (h : isNumeric c = true) : start c = digits := by
  fun_cases start c with
  | case10 => rfl
  | case11 _ _ _ _ _ _ _ _ _ _ hn => exact absurd h hn
  | case12 _ _ _ _ _ _ _ _ _ _ hn => exact absurd h hn
  | _ => cases h

theorem start_of_isLetter {c : Char} (h : isLetter c = true) : start c = word := by
  have hnumeric := isNumeric_eq_false_of_isLetter h
  fun_cases start c with
  | case10 _ _ _ _ _ _ _ _ _ _ hn =>
      rw [hnumeric] at hn
      cases hn
  | case11 => rfl
  | case12 _ _ _ _ _ _ _ _ _ _ _ hl => exact absurd h hl
  | _ => cases h

/-- A stray character is of no class. -/
theorem classes_of_start_eq_stray {c d : Char} (h : start c = stray d) :
    c ≠ ' ' ∧ isNumeric c = false ∧ isLetter c = false := by
  revert h
  fun_cases start c with
  | case12 _ hblank _ _ _ _ _ _ _ _ hn hl =>
      intro _
      exact ⟨hblank, Bool.eq_false_iff.2 hn, Bool.eq_false_iff.2 hl⟩
  | _ =>
      intro h
      cases h

end Shape

end ExprTree
