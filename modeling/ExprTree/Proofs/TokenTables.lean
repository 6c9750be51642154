import ExprTree.Proofs.Attribution
import ExprTree.Proofs.CharacterClasses
import ExprTree.Proofs.DigitRuns

set_option autoImplicit false

/-!
# A table of tokens is read back

A line of a table has the kind of a token, its span and what a reader sees of it, with
spaces between them, and white space at its end is dropped.  Neither a kind nor a span
has any white space in it, and of all lexemes only spaces and single characters that
stand for nothing have some: a line that shows such a token ends behind the span, and
every other line is as it was put together.  So a line keeps no white space but spaces,
whatever the source is, and gives back its fields (`table_read_back`).
-/

namespace ExprTree

open Text (isNumeric isWhiteSpace)

/-! ## White space -/

namespace Text

/-- Whether a text has no white space in it but spaces. -/
def SpacedOnly (s : String) : Prop := EachChar (fun c => isWhiteSpace c = true → c = ' ') s

theorem Unspaced.head?_ne {s : String} (h : Unspaced s) (hne : s ≠ "") (t : String) :
    (s ++ t).toList.head? ≠ some ' ' := by
  intro hhead
  cases hchars : s.toList with
  | nil => exact hne (String.toList_eq_nil_iff.1 hchars)
  | cons c cs =>
      rw [String.toList_append, hchars, List.cons_append, List.head?_cons, Option.some.injEq] at hhead
      apply h.not_space
      rw [hchars, ← hhead]
      exact List.mem_cons_self

theorem Unspaced.spacedOnly {s : String} (h : Unspaced s) : SpacedOnly s := by
  refine h.mono ?_
  intro c hc hwhite
  rw [hc] at hwhite
  cases hwhite

theorem spacedOnly_spaces (n : Nat) : SpacedOnly (String.ofList (List.replicate n ' ')) :=
  EachChar.replicate (fun _ => rfl) n

theorem spacedOnly_padRight {cell : String} (h : Unspaced cell) (width : Nat) :
    SpacedOnly (padRight width cell) :=
  h.spacedOnly.append (spacedOnly_spaces _)

/-- A text without white space but spaces has no line break of any sort. -/
theorem SpacedOnly.unbroken {s : String} (h : SpacedOnly s) :
    '\n' ∉ s.toList ∧ '\r' ∉ s.toList :=
  ⟨h.not_mem (by decide), h.not_mem (by decide)⟩

/-- Nothing is dropped from a text that ends in characters that are no white space. -/
theorem trimEnd_append {s : String} (h : Unspaced s) (hne : s ≠ "") (cs : List Char) :
    trimEnd (cs ++ s.toList) = cs ++ s.toList := by
  rcases List.eq_nil_or_concat s.toList with hnil | ⟨init, c, hlast⟩
  · exact absurd (String.toList_eq_nil_iff.1 hnil) hne
  · have hc : isWhiteSpace c = false := h c (by simp [hlast])
    rw [hlast, List.concat_eq_append, ← List.append_assoc, trimEnd_append_singleton hc]

/-! ## Fields -/

/-- The first field of a text, up to the first space, and what follows the spaces behind it. -/
def cutField (s : String) : String × String :=
  (String.ofList (s.toList.takeWhile fun c => c ≠ ' '),
    String.ofList ((s.toList.dropWhile fun c => c ≠ ' ').dropWhile fun c => c = ' '))

/-- The characters of a field. -/
theorem forall_ne_space {cell : String} (h : ' ' ∉ cell.toList) :
    ∀ c ∈ cell.toList, decide (c ≠ ' ') = true := by
  intro c hc
  rw [decide_eq_true_iff]
  rintro rfl
  exact h hc

/-- A field is cut off with the spaces that fill its column. -/
theorem cutField_padRight {cell rest : String} (hcell : ' ' ∉ cell.toList)
    (hrest : rest.toList.head? ≠ some ' ') (width : Nat) :
    cutField (padRight width cell ++ " " ++ rest) = (cell, rest) := by
  have htext : (padRight width cell ++ " " ++ rest).toList =
      cell.toList ++ (List.replicate (width - cell.length + 1) ' ' ++ rest.toList) := by
    rw [List.replicate_succ', padRight]
    simp
  -- The field ends at the first of the spaces, and the last of them is followed by the rest.
  have hgap : ∀ c ∈ (List.replicate (width - cell.length + 1) ' ' ++ rest.toList).head?,
      decide (c ≠ ' ') = false := by
    rw [List.replicate_succ]
    rintro _ ⟨⟩
    rfl
  have hspaces : ∀ c ∈ List.replicate (width - cell.length + 1) ' ', decide (c = ' ') = true :=
    fun c hc => decide_eq_true (List.eq_of_mem_replicate hc)
  have hstop : ∀ c ∈ rest.toList.head?, decide (c = ' ') = false := by
    intro c hc
    rw [decide_eq_false_iff_not]
    rintro rfl
    exact hrest hc
  obtain ⟨hfield, hmore⟩ := stretch_append (forall_ne_space hcell) hgap
  rw [cutField, htext, hfield, hmore, (stretch_append hspaces hstop).2, String.ofList_toList,
    String.ofList_toList]

/-- A text without spaces is a single field. -/
theorem cutField_eq_self {cell : String} (h : ' ' ∉ cell.toList) : cutField cell = (cell, "") := by
  have hnone : ∀ c ∈ ([] : List Char).head?, decide (c ≠ ' ') = false := by
    rintro _ ⟨⟩
  obtain ⟨hfield, hmore⟩ := stretch_append (forall_ne_space h) hnone
  rw [List.append_nil] at hfield hmore
  rw [cutField, hfield, hmore, String.ofList_toList]
  rfl

end Text

/-! ## Rows -/

namespace Token

/-- The tokens of which a table shows nothing but the kind and the span. -/
inductive Unseen : Token → Prop where
  | endOfFile {t : Token} (h : t.kind = .endOfFile) : Unseen t
  | whitespace {t : Token} (h : t.kind = .whitespace) : Unseen t
  | stray {t : Token} {c : Char} (h : t.kind = .invalid)
      (htext : t.text = some (String.ofList [c])) (hc : isWhiteSpace c = true) : Unseen t

/-- The line of a token, without the line break. -/
def row (t : Token) : String := String.ofList (Text.trimEnd t.cells.toList)

/-- The kind in its column, and the span. -/
def heading (t : Token) : String := Text.padRight kindWidth t.kind.name ++ " " ++ t.span.text

/-- The spaces between the span and what a reader sees. -/
def gap (t : Token) : String :=
  String.ofList (List.replicate (spanWidth - t.span.text.length) ' ') ++ " "

/-- Whether a line says of a token what a table has to say of it. -/
structure TabledAs (t : Token) (line : String) : Prop where
  /-- The first field is the kind. -/
  kind_eq : (Text.cutField line).1 = t.kind.name
  /-- The second field is the span. -/
  span_eq : (Text.cutField (Text.cutField line).2).1 = t.span.text
  /-- Behind the spaces that follow stands all that a reader sees of the token, and nothing has been
  dropped from the line. -/
  seen : ¬ t.Unseen → t.display? = some (Text.cutField (Text.cutField line).2).2 ∧ line = t.cells
  /-- If a reader sees white space at most, the line ends behind the span. -/
  unseen : t.Unseen → line = t.heading
  /-- The line has no white space in it but spaces, whatever the source has. -/
  spacedOnly : Text.SpacedOnly line

variable {t : Token}

theorem cells_eq (t : Token) : t.cells = t.heading ++ (t.gap ++ t.display?.getD "") := by
  rw [cells, heading, gap, Text.padRight, Text.padRight]
  simp only [String.append_assoc]

theorem span_text_ne_empty (s : Span) : s.text ≠ "" := by
  intro hempty
  have hchars := congrArg String.toList hempty
  simp [Span.text] at hchars

theorem spacedOnly_heading (t : Token) : Text.SpacedOnly t.heading :=
  ((Text.spacedOnly_padRight (Text.graphic_name _).unspaced _).append
    (Text.spacedOnly_spaces 1)).append (Text.graphic_span _).unspaced.spacedOnly

theorem spacedOnly_gap (t : Token) : Text.SpacedOnly t.gap :=
  (Text.spacedOnly_spaces _).append (Text.spacedOnly_spaces 1)

/-- White space that a reader sees is dropped, and the spaces before it. -/
theorem row_of_white (h : ∀ c ∈ (t.display?.getD "").toList, isWhiteSpace c = true) :
    t.row = t.heading := by
  have hdropped : ∀ c ∈ (t.gap ++ t.display?.getD "").toList, isWhiteSpace c = true := by
    rw [String.toList_append, List.forall_mem_append]
    refine ⟨?_, h⟩
    intro c hc
    rw [gap, String.toList_append, String.toList_ofList, List.mem_append] at hc
    have hspace : c = ' ' := hc.elim List.eq_of_mem_replicate List.mem_singleton.1
    rw [hspace]
    decide
  have hkept := Text.trimEnd_append (Text.graphic_span t.span).unspaced (span_text_ne_empty t.span)
    (Text.padRight kindWidth t.kind.name ++ " ").toList
  rw [← String.toList_append, ← heading] at hkept
  rw [row, cells_eq, String.toList_append, Text.trimEnd_append_of_forall hdropped, hkept,
    String.ofList_toList]

/-- Nothing is dropped where a reader sees no white space. -/
theorem row_of_unspaced {shown : String} (hshown : t.display? = some shown) (hne : shown ≠ "")
    (h : Text.Unspaced shown) : t.row = t.cells := by
  rw [row, cells, hshown, Option.getD_some, String.toList_append, Text.trimEnd_append h hne,
    ← String.toList_append, String.ofList_toList]

/-- A row starts with the kind and the span, whatever stands behind them. -/
theorem cutField_heading (t : Token) (more : String) :
    Text.cutField (t.heading ++ more) = (t.kind.name, t.span.text ++ more) := by
  have hstart := (Text.graphic_span t.span).unspaced.head?_ne (span_text_ne_empty _) more
  rw [heading, String.append_assoc]
  exact Text.cutField_padRight (Text.graphic_name _).unspaced.not_space hstart kindWidth

/-- A span is cut off with the spaces behind it. -/
theorem cutField_gap (t : Token) {shown : String} (h : Text.Unspaced shown) (hne : shown ≠ "") :
    Text.cutField (t.span.text ++ (t.gap ++ shown)) = (t.span.text, shown) := by
  have htext : t.span.text ++ (t.gap ++ shown) =
      Text.padRight spanWidth t.span.text ++ " " ++ shown := by
    rw [gap, Text.padRight]
    simp only [String.append_assoc]
  have hstart := h.head?_ne hne ""
  rw [String.append_empty] at hstart
  rw [htext]
  exact Text.cutField_padRight (Text.graphic_span t.span).unspaced.not_space hstart spanWidth

theorem tabledAs_of_white (hunseen : t.Unseen)
    (h : ∀ c ∈ (t.display?.getD "").toList, isWhiteSpace c = true) : t.TabledAs t.row := by
  have hkind := t.cutField_heading ""
  rw [String.append_empty, String.append_empty] at hkind
  rw [row_of_white h]
  constructor
  case kind_eq => rw [hkind]
  case span_eq => rw [hkind, Text.cutField_eq_self (Text.graphic_span t.span).unspaced.not_space]
  case seen => exact fun hseen => absurd hunseen hseen
  case unseen => exact fun _ => rfl
  case spacedOnly => exact spacedOnly_heading t

theorem tabledAs_of_unspaced {shown : String} (hseen : ¬ t.Unseen)
    (hshown : t.display? = some shown) (hne : shown ≠ "") (h : Text.Unspaced shown) :
    t.TabledAs t.row := by
  have hcells : t.cells = t.heading ++ (t.gap ++ shown) := by
    rw [cells_eq, hshown, Option.getD_some]
  have hspan := t.cutField_gap h hne
  rw [row_of_unspaced hshown hne h]
  constructor
  case kind_eq => rw [hcells, cutField_heading]
  case span_eq => rw [hcells, cutField_heading, hspan]
  case seen =>
    intro _
    rw [hcells, cutField_heading, hspan]
    exact ⟨hshown, rfl⟩
  case unseen => exact fun hunseen => absurd hunseen hseen
  case spacedOnly =>
    rw [hcells]
    exact (spacedOnly_heading t).append ((spacedOnly_gap t).append h.spacedOnly)

theorem table_eq_join (ts : List Token) :
    table ts = String.join ((ts.map row).map fun l => l ++ "\n") := by
  rw [table, List.map_map]
  rfl

end Token

/-! ## Rows of lexemes -/

namespace Lexeme

variable {l : Lexeme}

theorem text_ne_empty (h : l.Whole) : l.text ≠ "" := by
  intro hempty
  apply h.chars_ne_nil
  rw [← String.toList_ofList (l := l.chars), ← text, hempty]
  rfl

/-- What a reader sees of a lexeme without white space. -/
theorem exists_display?_eq (h : l.Solid) (hstray : ∀ c, l.shape = .stray c → isWhiteSpace c = false)
    (offset : Nat) :
    ∃ shown, (l.toToken offset).display? = some shown ∧ shown ≠ "" ∧ Text.Unspaced shown := by
  -- A number shows its digits without leading zeros, and everything else its text.
  by_cases hnumber : l.shape = .digits ∧ ∃ n, Text.readNumeral? l.chars = some n
  · obtain ⟨hs, n, hn⟩ := hnumber
    have hshown : (l.toToken offset).display? = some n.repr := by
      rw [toToken, hs]
      simp only [hn]
      rfl
    exact ⟨n.repr, hshown, Text.repr_ne_empty n, (Text.graphic_repr n).unspaced⟩
  · have hdigits : l.shape = .digits → Text.readNumeral? l.chars = none := by
      intro hs
      rw [Option.eq_none_iff_forall_ne_some]
      exact fun n hn => hnumber ⟨hs, n, hn⟩
    exact ⟨l.text, display?_toToken h hdigits offset, text_ne_empty h.1, unspaced_text h hstray⟩

theorem unseen_of_stray (h : l.Solid) {c : Char} (hs : l.shape = .stray c)
    (hc : isWhiteSpace c = true) (offset : Nat) :
    (l.toToken offset).Unseen ∧ (l.toToken offset).display? = some (String.ofList [c]) := by
  have hbears := bears_kind h.1 offset
  obtain ⟨htext, _⟩ := text_of_stray h.1 offset hs
  have hshown := display?_toToken h (by simp [hs]) offset
  have hsame := text_toToken (l := l) (by simp [hs]) (by simp [hs]) offset
  rw [htext, Option.some.injEq] at hsame
  rw [hs] at hbears
  refine ⟨.stray ?_ htext hc, hsame ▸ hshown⟩
  generalize (l.toToken offset).kind = kind at hbears
  cases hbears
  rfl

theorem not_unseen (h : l.Solid) (hstray : ∀ c, l.shape = .stray c → isWhiteSpace c = false)
    (offset : Nat) : ¬ (l.toToken offset).Unseen := by
  intro hunseen
  cases hunseen with
  | endOfFile hkind => exact kind_toToken_ne (Shape.describes_of_read? h.1) offset hkind
  | whitespace hkind =>
      have hsignificant := h.isSignificant offset
      rw [Token.isSignificant, hkind] at hsignificant
      cases hsignificant
  | @stray c hkind htext hc =>
      have hnumeric : isNumeric c = false := by
        rw [Bool.eq_false_iff]
        intro hnumeric
        rw [Text.isWhiteSpace_eq_false_of_class (.inr hnumeric)] at hc
        cases hc
      have hs := shape_of_invalid h.1 offset hnumeric hkind htext
      rw [hstray c hs] at hc
      cases hc

theorem tabledAs_toToken (h : l.Whole) (offset : Nat) :
    (l.toToken offset).TabledAs (l.toToken offset).row := by
  by_cases hblanks : l.shape = .blanks
  · have htoken : l.toToken offset = ⟨.whitespace, ⟨offset, offset + l.size⟩, none, .text " "⟩ := by
      rw [toToken, hblanks]
    have hspace : ∀ c ∈ " ".toList, isWhiteSpace c = true := List.all_eq_true.1 (by decide)
    rw [htoken]
    exact Token.tabledAs_of_white (.whitespace rfl) hspace
  · by_cases hwhite : ∃ c, l.shape = .stray c ∧ isWhiteSpace c = true
    · obtain ⟨c, hs, hc⟩ := hwhite
      obtain ⟨hunseen, hshown⟩ := unseen_of_stray ⟨h, hblanks⟩ hs hc offset
      apply Token.tabledAs_of_white hunseen
      rw [hshown, Option.getD_some, String.toList_ofList, List.forall_mem_singleton]
      exact hc
    · have hstray : ∀ c, l.shape = .stray c → isWhiteSpace c = false := by
        intro c hs
        rw [Bool.eq_false_iff]
        exact fun hc => hwhite ⟨c, hs, hc⟩
      obtain ⟨shown, hshown, hne, hunspaced⟩ := exists_display?_eq ⟨h, hblanks⟩ hstray offset
      exact Token.tabledAs_of_unspaced (not_unseen ⟨h, hblanks⟩ hstray offset) hshown hne hunspaced

end Lexeme

/-! ## Tables -/

theorem Token.tabledAs_row {source : String} {t : Token} (ht : t ∈ scan source) :
    t.TabledAs t.row := by
  rcases eq_endOfFile_or_of_mem_scan ht with rfl | ⟨l, place, hl, rfl⟩
  · exact tabledAs_of_white (.endOfFile rfl) (List.forall_mem_nil _)
  · exact Lexeme.tabledAs_toToken hl place

/-- The table of the tokens of a source is made of lines, as many as there are tokens and in their
order, whatever characters the source has.  From each line the kind and the span are read back, and
what a reader sees of the token, in full; only of the end-of-file token, of spaces and of white
space that stands for nothing the line does not show more than that. -/
theorem table_read_back (source : String) :
    Text.MadeOf (Text.lines (Token.table (Token.scan source))) (Token.table (Token.scan source)) ∧
      List.Forall₂ Token.TabledAs (Token.scan source)
        (Text.lines (Token.table (Token.scan source))) := by
  have hrows : ∀ l ∈ (Token.scan source).map Token.row, '\n' ∉ l.toList ∧ '\r' ∉ l.toList := by
    rw [List.forall_mem_map]
    exact fun t ht => (Token.tabledAs_row ht).spacedOnly.unbroken
  have hlines : Text.lines (Token.table (Token.scan source)) = (Token.scan source).map Token.row := by
    rw [Token.table_eq_join, Text.lines_join hrows]
  rw [hlines]
  constructor
  · refine ⟨Token.table_eq_join _, ?_⟩
    rintro l hl _ hmem rfl
    exact (hrows l hl).1 hmem
  · rw [List.forall₂_map_right_iff, List.forall₂_same]
    exact fun t ht => Token.tabledAs_row ht

/-- A line break, a carriage return and a line separator in the source do not break lines of the
table. -/
example : Token.table (Token.scan "a\n12\r\u2028") =
    "Identifier           0..1     a\nInvalid              1..2\nNumber               2..4     12\n" ++
      "Invalid              4..5\nInvalid              5..8\nEndOfFile            8..8\n" := by
  decide +kernel

end ExprTree
