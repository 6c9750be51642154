import ExprTree.Proofs.Fusing
import Mathlib.Data.List.Induction
import Mathlib.Data.Nat.Digits.Defs

set_option autoImplicit false

/-!
# What a run of digits stands for

A run of numeric characters up to a character that is neither numeric nor a letter is
one token.  It is a number if its characters are ASCII digits, as many as one likes,
of a number in base ten that a signed word of 64 bits holds, and then it has that
value; else it is invalid and has none (`digit_runs_decode`).  `Text.decimal` says what
the number is by the places of the digits, without reading them one after another.
-/

namespace ExprTree

open Text (isLetter isNumeric)

namespace Text

/-- The number that digits stand for in base ten, the last of them in the place of the units. -/
def decimal (cs : List Char) : Nat :=
  Nat.ofDigits 10 (cs.reverse.map fun c => c.toNat - '0'.toNat)

/-- Whether the characters are ASCII digits of a number that a signed word of 64 bits holds. -/
def IsNumeral (cs : List Char) : Prop :=
  (∀ c ∈ cs, c.isDigit = true) ∧ decimal cs ≤ 2 ^ 63 - 1

/-- Reading digits one after another comes to the number that their places say. -/
theorem ofDigitChars_eq_decimal (cs : List Char) : Nat.ofDigitChars 10 cs 0 = decimal cs := by
  induction cs using List.reverseRecOn with
  | nil => rfl
  | append_singleton cs c ih =>
      rw [Nat.ofDigitChars_append, ih, Nat.ofDigitChars_cons, Nat.ofDigitChars_nil, decimal,
        decimal, List.reverse_concat, List.map_cons, Nat.ofDigits_cons, Nat.add_comm]

theorem maxNumeral_eq : maxNumeral = 2 ^ 63 - 1 := by
  norm_num [maxNumeral]

theorem readNumeral?_eq_some_iff_isNumeral {cs : List Char} {n : Nat} :
    readNumeral? cs = some n ↔ IsNumeral cs ∧ n = decimal cs := by
  rw [readNumeral?_eq_some_iff, ofDigitChars_eq_decimal, maxNumeral_eq, IsNumeral]
  constructor
  · rintro ⟨hdigits, rfl, hle⟩
    exact ⟨⟨hdigits, hle⟩, rfl⟩
  · rintro ⟨⟨hdigits, hle⟩, rfl⟩
    exact ⟨hdigits, rfl, hle⟩

theorem readNumeral?_of_isNumeral {cs : List Char} (h : IsNumeral cs) :
    readNumeral? cs = some (decimal cs) :=
  readNumeral?_eq_some_iff_isNumeral.2 ⟨h, rfl⟩

theorem readNumeral?_of_not_isNumeral {cs : List Char} (h : ¬ IsNumeral cs) :
    readNumeral? cs = none := by
  cases hread : readNumeral? cs with
  | none => rfl
  | some n => exact absurd (readNumeral?_eq_some_iff_isNumeral.1 hread).1 h

/-- The digits of a number are those of a numeral for it. -/
theorem decimal_toList_repr (n : Nat) : decimal n.repr.toList = n := by
  rw [← ofDigitChars_eq_decimal, Nat.toList_repr, Nat.ofDigitChars_toDigits (by decide) (by decide)]

theorem repr_ne_empty (n : Nat) : n.repr ≠ "" := by
  intro hempty
  have hchars := congrArg String.toList hempty
  rw [Nat.toList_repr] at hchars
  exact Nat.toDigits_ne_nil hchars

end Text

namespace Lexeme

/-- The lexeme of a run of digits. -/
def ofDigits (digits : String) : Lexeme := ⟨.digits, digits.toList⟩

theorem whole_ofDigits {digits : String} (hne : digits ≠ "")
    (h : ∀ d ∈ digits.toList, isNumeric d = true) : (ofDigits digits).Whole :=
  Shape.read?_digits (fun hnil => hne (String.toList_eq_nil_iff.1 hnil)) h

/-- The token of a run of digits that is a numeral. -/
theorem toToken_of_isNumeral {digits : String} (h : Text.IsNumeral digits.toList) (offset : Nat) :
    (ofDigits digits).toToken offset =
      ⟨.number, ⟨offset, offset + digits.utf8ByteSize⟩, some digits,
        .int (Text.decimal digits.toList)⟩ := by
  simp only [toToken, ofDigits, Text.readNumeral?_of_isNumeral h, text, size, String.ofList_toList,
    Text.byteSize_toList]

/-- The token of a run of digits that is none. -/
theorem toToken_of_not_isNumeral {digits : String} (h : ¬ Text.IsNumeral digits.toList)
    (offset : Nat) :
    (ofDigits digits).toToken offset =
      ⟨.invalid, ⟨offset, offset + digits.utf8ByteSize⟩, some digits, .absent⟩ := by
  simp only [toToken, ofDigits, Text.readNumeral?_of_not_isNumeral h, text, size,
    String.ofList_toList, Text.byteSize_toList]

/-- Only runs of digits denote an integer. -/
theorem exists_eq_ofDigits {l : Lexeme} {offset : Nat} {n : Int}
    (h : (l.toToken offset).value = .int n) : ∃ digits, l = ofDigits digits := by
  obtain ⟨shape, chars⟩ := l
  refine ⟨String.ofList chars, ?_⟩
  rw [ofDigits, String.toList_ofList]
  unfold toToken at h
  split at h
  · cases h
  · rename_i hs
    cases hs
    rfl
  · cases h
  · split at h <;> cases h
  · cases h
  · cases h

end Lexeme

/-! ## Runs of digits in a source -/

/-- A run of digits at the start of a source that nothing extends is its first token. -/
theorem Token.scan_digits {digits : String} (rest : String) (hne : digits ≠ "")
    (hdigits : ∀ d ∈ digits.toList, isNumeric d = true)
    (hrest : ∀ c ∈ rest.toList.head?, isNumeric c = false ∧ isLetter c = false) :
    scan (digits ++ rest) = (Lexeme.ofDigits digits).toToken 0 ::
      (scan rest).map (shift digits.utf8ByteSize) := by
  have hwhole := Lexeme.whole_ofDigits hne hdigits
  have hunfused : Lexeme.Unfused ([] ++ [Lexeme.ofDigits digits]) :=
    ⟨hwhole, Shape.endsBefore_nil _, trivial⟩
  have hends : (Lexeme.ofDigits digits).shape.EndsBefore rest.toList := by
    intro c hc
    obtain ⟨hnumeric, hletter⟩ := hrest c hc
    simp [Lexeme.ofDigits, Shape.extend?, hnumeric, hletter]
  exact scan_append hunfused (List.append_nil _) hends

/-- The digits of a number are scanned to that number, if a word holds it. -/
theorem Token.scan_repr {n : Nat} (h : n ≤ 2 ^ 63 - 1) :
    scan n.repr = [⟨.number, ⟨0, n.repr.utf8ByteSize⟩, some n.repr, .int n⟩,
      .endOfFile n.repr.utf8ByteSize] := by
  have hnumeral : Text.IsNumeral n.repr.toList := by
    refine ⟨Text.isDigit_of_mem_repr, ?_⟩
    rw [Text.decimal_toList_repr]
    exact h
  have hnumeric : ∀ d ∈ n.repr.toList, isNumeric d = true := fun d hd =>
    Text.isNumeric_of_isDigit (Text.isDigit_of_mem_repr d hd)
  have hscan := scan_digits "" (Text.repr_ne_empty n) hnumeric (by simp)
  rw [String.append_empty, Lexeme.toToken_of_isNumeral hnumeral, Text.decimal_toList_repr,
    Nat.zero_add] at hscan
  have hend : scan "" = [.endOfFile 0] := by decide
  rw [hscan, hend, List.map_singleton, shift, endOfFile, Span.point, Span.shift, Nat.zero_add]
  rfl

/-- Every integer that a token of a source denotes is the one that its text is a numeral for. -/
theorem Token.isNumeral_of_mem_scan {source : String} {t : Token} {n : Int} (ht : t ∈ scan source)
    (hn : t.value = .int n) : t.kind = .number ∧
      ∃ digits, t.text = some digits ∧ Text.IsNumeral digits.toList ∧
        n = Text.decimal digits.toList := by
  rcases eq_endOfFile_or_of_mem_scan ht with rfl | ⟨l, place, _, rfl⟩
  · cases hn
  · obtain ⟨digits, rfl⟩ := Lexeme.exists_eq_ofDigits hn
    by_cases h : Text.IsNumeral digits.toList
    · rw [Lexeme.toToken_of_isNumeral h] at hn ⊢
      cases hn
      exact ⟨rfl, digits, rfl, h, rfl⟩
    · rw [Lexeme.toToken_of_not_isNumeral h] at hn
      cases hn

/-- Numeric characters up to the end, or up to a character that is neither numeric nor a letter, are
one token, which is a number of a value if and only if they are a numeral for it, and is otherwise
invalid and has no value.  So the decimal digits of every number that a word holds are scanned to
that number, and every integer that a token of a source denotes is neither negative nor too large
for a word, but the number that its text stands for. -/
theorem digit_runs_decode :
    (∀ digits rest : String, digits ≠ "" → (∀ d ∈ digits.toList, isNumeric d = true) →
      (∀ c ∈ rest.toList.head?, isNumeric c = false ∧ isLetter c = false) →
      ∃ t, Token.scan (digits ++ rest) =
          t :: (Token.scan rest).map (Token.shift digits.utf8ByteSize) ∧
        t.span = ⟨0, digits.utf8ByteSize⟩ ∧ t.text = some digits ∧
        (∀ n : Int, t.kind = .number ∧ t.value = .int n ↔
          Text.IsNumeral digits.toList ∧ n = Text.decimal digits.toList) ∧
        (¬ Text.IsNumeral digits.toList → t.kind = .invalid ∧ t.value = .absent)) ∧
    (∀ n : Nat, n ≤ 2 ^ 63 - 1 → Token.scan n.repr =
      [⟨.number, ⟨0, n.repr.utf8ByteSize⟩, some n.repr, .int n⟩,
        .endOfFile n.repr.utf8ByteSize]) ∧
    (∀ source : String, ∀ t ∈ Token.scan source, ∀ n : Int, t.value = .int n →
      0 ≤ n ∧ n ≤ 2 ^ 63 - 1 ∧ t.kind = .number ∧
        ∃ digits : String, t.text = some digits ∧ Text.IsNumeral digits.toList ∧
          n = Text.decimal digits.toList) := by
  refine ⟨?_, fun n => Token.scan_repr, ?_⟩
  · intro digits rest hne hdigits hrest
    refine ⟨_, Token.scan_digits rest hne hdigits hrest, ?_⟩
    by_cases h : Text.IsNumeral digits.toList
    · rw [Lexeme.toToken_of_isNumeral h, Nat.zero_add]
      refine ⟨rfl, rfl, ?_, fun hnot => absurd h hnot⟩
      intro n
      simp [h, eq_comm]
    · rw [Lexeme.toToken_of_not_isNumeral h, Nat.zero_add]
      refine ⟨rfl, rfl, ?_, fun _ => ⟨rfl, rfl⟩⟩
      intro n
      simp [h]
  · intro source t ht n hn
    obtain ⟨hkind, digits, htext, hnumeral, rfl⟩ := Token.isNumeral_of_mem_scan ht hn
    have hle := hnumeral.2
    exact ⟨by omega, by omega, hkind, digits, htext, hnumeral, rfl⟩

/-- Zeros in front of the greatest number that a word holds change nothing, and a digit of another
script behind others makes the run invalid. -/
theorem digit_runs_decode_of_zeros :
    (∃ t, Token.scan ("009223372036854775807" ++ "+x") =
        t :: (Token.scan "+x").map (Token.shift 21) ∧ t.value = .int (2 ^ 63 - 1)) ∧
      ∃ t, Token.scan ("1²" ++ " ") = t :: (Token.scan " ").map (Token.shift 3) ∧
        t.kind = .invalid := by
  constructor
  · obtain ⟨t, hscan, _, _, hnumber, _⟩ := digit_runs_decode.1 "009223372036854775807" "+x"
      (by decide) (List.all_eq_true.1 (by decide)) (by rintro c ⟨⟩; decide)
    have hdecimal : Text.decimal "009223372036854775807".toList = 2 ^ 63 - 1 := by
      rw [← Text.ofDigitChars_eq_decimal]
      decide
    have hnumeral : Text.IsNumeral "009223372036854775807".toList :=
      ⟨List.all_eq_true.1 (by decide), Nat.le_of_eq hdecimal⟩
    refine ⟨t, hscan, ((hnumber _).2 ⟨hnumeral, ?_⟩).2⟩
    rw [hdecimal]
    norm_num
  · obtain ⟨t, hscan, _, _, _, hinvalid⟩ := digit_runs_decode.1 "1²" " "
      (by decide) (List.all_eq_true.1 (by decide)) (by rintro c ⟨⟩; decide)
    refine ⟨t, hscan, (hinvalid ?_).1⟩
    rintro ⟨hdigits, _⟩
    exact absurd (hdigits '²' (by decide)) (by decide)

end ExprTree
