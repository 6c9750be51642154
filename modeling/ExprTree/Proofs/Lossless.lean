import ExprTree.Proofs.Lexemes

set_option autoImplicit false

/-!
# Scanning loses nothing

The spans of the tokens of a source lie side by side and make up the source, each
of them between two characters; and every token but the last says by itself what
the bytes in its span are.  So the source is found again from its tokens
(`scan_lossless`).
-/

namespace ExprTree

namespace Span

/-- Whether the spans lie side by side from one offset to another. -/
def Tile (start : Nat) : List Span → Nat → Prop
  | [], stop => start = stop
  | s :: spans, stop => s.start = start ∧ s.start ≤ s.stop ∧ Tile s.stop spans stop

/-- Whether the span starts and stops between characters of the source. -/
def OnCharacters (s : Span) (source : String) : Prop :=
  (String.Pos.Raw.mk s.start).IsValid source ∧ (String.Pos.Raw.mk s.stop).IsValid source

/-- The bytes of the source in the span. -/
def bytes (s : Span) (source : String) : ByteArray := source.toByteArray.extract s.start s.stop

theorem tile_append {start mid stop : Nat} {spans more : List Span} (h : Tile start spans mid)
    (hmore : Tile mid more stop) : Tile start (spans ++ more) stop := by
  induction spans generalizing start with
  | nil =>
      cases h
      exact hmore
  | cons s spans ih =>
      obtain ⟨hstart, hle, hrest⟩ := h
      exact ⟨hstart, hle, ih hrest⟩

end Span

namespace Text

theorem byteSize_pos {cs : List Char} (h : cs ≠ []) : 0 < byteSize cs := by
  rw [Nat.pos_iff_ne_zero]
  exact fun hz => h (byteSize_eq_zero_iff.1 hz)

theorem byteSize_eq_ofList (cs : List Char) : byteSize cs = (String.ofList cs).utf8ByteSize := by
  rw [← byteSize_toList, String.toList_ofList]

/-- A stretch of characters lies between characters, at the offset of the bytes before it. -/
theorem onCharacters_of_append {source : String} {before piece after : List Char}
    (h : source.toList = before ++ piece ++ after) :
    (⟨byteSize before, byteSize before + byteSize piece⟩ : Span).OnCharacters source := by
  constructor
  · rw [String.Pos.Raw.isValid_iff_exists_append]
    refine ⟨String.ofList before, String.ofList (piece ++ after), ?_, ?_⟩
    · rw [← String.ofList_append, ← List.append_assoc, ← h, String.ofList_toList]
    · exact congrArg String.Pos.Raw.mk (byteSize_eq_ofList before)
  · rw [String.Pos.Raw.isValid_iff_exists_append]
    refine ⟨String.ofList (before ++ piece), String.ofList after, ?_, ?_⟩
    · rw [← String.ofList_append, ← h, String.ofList_toList]
    · rw [← byteSize_append]
      exact congrArg String.Pos.Raw.mk (byteSize_eq_ofList (before ++ piece))

/-- The bytes of a stretch of characters. -/
theorem bytes_of_append {source : String} {before piece after : List Char}
    (h : source.toList = before ++ piece ++ after) :
    (⟨byteSize before, byteSize before + byteSize piece⟩ : Span).bytes source =
      (String.ofList piece).toByteArray := by
  have hsource : source.toByteArray = (String.ofList before).toByteArray ++
      ((String.ofList piece).toByteArray ++ (String.ofList after).toByteArray) := by
    rw [← String.toByteArray_append, ← String.toByteArray_append, ← String.ofList_append,
      ← String.ofList_append, ← List.append_assoc, ← h, String.ofList_toList]
  have hbefore : byteSize before = (String.ofList before).toByteArray.size := by
    rw [String.size_toByteArray, byteSize_eq_ofList]
  have hpiece : byteSize piece = (String.ofList piece).toByteArray.size := by
    rw [String.size_toByteArray, byteSize_eq_ofList]
  have hshift := ByteArray.extract_append_size_add' (i := 0) (j := byteSize piece)
    (a := (String.ofList before).toByteArray)
    (b := (String.ofList piece).toByteArray ++ (String.ofList after).toByteArray) hbefore
  rw [Span.bytes, hsource]
  exact hshift.trans (ByteArray.extract_append_eq_left hpiece)

end Text

namespace Scanner

/-- What holds at the end, and before a token if it holds after it, holds everywhere. -/
theorem upToEnd_induction {P : Scanner → Prop} (nil : ∀ s : Scanner, s.rest = [] → P s)
    (cons : ∀ s : Scanner, s.rest ≠ [] → P s.next.2 → P s) (s : Scanner) : P s := by
  obtain ⟨n, hn⟩ : ∃ n, s.rest.length < n := ⟨_, Nat.lt_succ_self _⟩
  induction n generalizing s with
  | zero => exact absurd hn (Nat.not_lt_zero _)
  | succ n ih =>
      by_cases h : s.rest = []
      · exact nil s h
      · have hlt := length_next_lt h
        exact cons s h (ih s.next.2 (by omega))

/-- The next token is that of a lexeme, which is what is taken from the text. -/
theorem exists_lexeme {s : Scanner} (h : s.rest ≠ []) :
    ∃ l : Lexeme, l.shape.Describes l.chars ∧ l.chars ≠ [] ∧ s.next.1 = l.toToken s.offset ∧
      s.next.2.offset = s.offset + Text.byteSize l.chars ∧ s.rest = l.chars ++ s.next.2.rest := by
  obtain ⟨offset, rest⟩ := s
  cases rest with
  | nil => exact absurd rfl h
  | cons c cs =>
      exact ⟨_, Lexeme.describes_take c cs, Lexeme.chars_take_ne_nil c cs, rfl, rfl,
        (Lexeme.take_append c cs).symm⟩

/-- The end is as far away after a token as before it. -/
theorem atEnd_next {s : Scanner} (h : s.rest ≠ []) : s.next.2.atEnd = s.atEnd := by
  obtain ⟨l, _, _, _, hoffset, hrest⟩ := exists_lexeme h
  have hsize : Text.byteSize s.rest = Text.byteSize l.chars + Text.byteSize s.next.2.rest := by
    rw [← Text.byteSize_append, ← hrest]
  simp only [atEnd, hoffset, hsize, Nat.add_assoc]

theorem tile_upToEnd (s : Scanner) :
    Span.Tile s.offset (s.upToEnd.map Token.span) s.atEnd.offset := by
  induction s using upToEnd_induction with
  | nil s h => simp [atEnd, h, Span.Tile]
  | cons s h ih =>
      obtain ⟨l, _, _, htoken, hoffset, _⟩ := exists_lexeme h
      rw [upToEnd_cons h, List.map_cons, htoken, Lexeme.span_toToken]
      refine ⟨rfl, Nat.le_add_right _ _, ?_⟩
      rw [← atEnd_next h]
      exact hoffset ▸ ih

/-- Every token stands for a stretch of the text, which it says, at the offset of that stretch. -/
theorem exists_piece_of_mem (s : Scanner) : ∀ t ∈ s.upToEnd, t.kind ≠ .endOfFile ∧
    ∃ before piece after, s.rest = before ++ piece ++ after ∧ piece ≠ [] ∧
      t.span = ⟨s.offset + Text.byteSize before,
        s.offset + Text.byteSize before + Text.byteSize piece⟩ ∧
      t.piece? = some (String.ofList piece) := by
  induction s using upToEnd_induction with
  | nil s h => simp [upToEnd_of_nil h]
  | cons s h ih =>
      obtain ⟨l, hl, hne, htoken, hoffset, hrest⟩ := exists_lexeme h
      intro t ht
      rw [upToEnd_cons h, List.mem_cons] at ht
      rcases ht with rfl | ht
      · rw [htoken]
        refine ⟨Lexeme.kind_toToken_ne hl _, [], l.chars, s.next.2.rest, hrest, hne, ?_,
          Lexeme.piece?_toToken hl _⟩
        rw [Lexeme.span_toToken]
        rfl
      · obtain ⟨hkind, before, piece, after, hsplit, hpiece, hspan, hsays⟩ := ih t ht
        refine ⟨hkind, l.chars ++ before, piece, after, ?_, hpiece, ?_, hsays⟩
        · rw [hrest, hsplit]
          simp
        · rw [hspan, hoffset, Text.byteSize_append, Nat.add_assoc s.offset]

/-- What the tokens say, put together, is the text. -/
theorem join_upToEnd (s : Scanner) :
    String.join (s.upToEnd.filterMap Token.piece?) = String.ofList s.rest := by
  induction s using upToEnd_induction with
  | nil s h => simp [h]
  | cons s h ih =>
      obtain ⟨l, hl, _, htoken, _, hrest⟩ := exists_lexeme h
      have hpiece := Lexeme.piece?_toToken hl s.offset
      rw [← htoken] at hpiece
      rw [upToEnd_cons h, List.filterMap_cons_some hpiece, String.join_cons, ih, hrest,
        String.ofList_append]
      rfl

/-- The end of a source is as many bytes away as it has. -/
theorem offset_atEnd_ofList (source : String) :
    (ofList source.toList).atEnd.offset = source.utf8ByteSize := by
  simp [atEnd, ofList, Text.byteSize_toList]

end Scanner

/-- The tokens of a source, and the end-of-file token at its end. -/
theorem scan_eq (source : String) :
    Token.scan source =
      (Scanner.ofList source.toList).upToEnd ++ [.endOfFile source.utf8ByteSize] := by
  rw [Token.scan, Scanner.toEnd, Scanner.offset_atEnd_ofList]

/-- The tokens of a source end in one end-of-file token at its end and lie side by side from its
start on, between characters.  Each of the others has bytes, and says which they are: all together
they say the source. -/
theorem scan_lossless (source : String) :
    ∃ tokens : List Token,
      Token.scan source = tokens ++ [.endOfFile source.utf8ByteSize] ∧
      Span.Tile 0 ((Token.scan source).map Token.span) source.utf8ByteSize ∧
      (∀ t ∈ Token.scan source, t.span.OnCharacters source) ∧
      (∀ t ∈ tokens, t.kind ≠ .endOfFile ∧ t.span.start < t.span.stop ∧
        ∃ piece, t.piece? = some piece ∧ piece.toByteArray = t.span.bytes source) ∧
      String.join (tokens.filterMap Token.piece?) = source := by
  have hmem := Scanner.exists_piece_of_mem (Scanner.ofList source.toList)
  have htile := Scanner.tile_upToEnd (Scanner.ofList source.toList)
  have hjoin := Scanner.join_upToEnd (Scanner.ofList source.toList)
  simp only [Scanner.ofList, Nat.zero_add] at hmem
  refine ⟨_, scan_eq source, ?_, ?_, ?_, ?_⟩
  · rw [scan_eq, List.map_append]
    rw [Scanner.offset_atEnd_ofList] at htile
    exact Span.tile_append htile ⟨rfl, Nat.le_refl _, rfl⟩
  · intro t ht
    rw [scan_eq, List.mem_append, List.mem_singleton] at ht
    rcases ht with ht | rfl
    · obtain ⟨_, before, piece, after, hsplit, _, hspan, _⟩ := hmem t ht
      rw [hspan]
      exact Text.onCharacters_of_append hsplit
    · have hvalid : (String.Pos.Raw.mk source.utf8ByteSize).IsValid source :=
        String.Pos.Raw.isValid_rawEndPos
      exact ⟨hvalid, hvalid⟩
  · intro t ht
    obtain ⟨hkind, before, piece, after, hsplit, hne, hspan, hsays⟩ := hmem t ht
    have hpos := Text.byteSize_pos hne
    refine ⟨hkind, ?_, _, hsays, ?_⟩
    · simp only [hspan]
      omega
    · rw [hspan, Text.bytes_of_append hsplit]
  · rw [hjoin]
    exact String.ofList_toList

/-- A letter of two bytes before a digit run that stands for nothing. -/
theorem scan_lossless_of_two_bytes :
    (∀ t ∈ Token.scan "é ²", t.span.OnCharacters "é ²") ∧
      (⟨.identifier, ⟨0, 2⟩, some "é", .text "é"⟩ : Token) ∈ Token.scan "é ²" ∧
      (⟨0, 2⟩ : Span).OnCharacters "é ²" := by
  have hmem : (⟨.identifier, ⟨0, 2⟩, some "é", .text "é"⟩ : Token) ∈ Token.scan "é ²" := by
    decide
  obtain ⟨_, _, _, hcharacters, _, _⟩ := scan_lossless "é ²"
  exact ⟨hcharacters, hmem, hcharacters _ hmem⟩

end ExprTree
